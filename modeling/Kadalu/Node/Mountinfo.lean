import Mathlib
import Kadalu.Data.Fields
import Kadalu.Node.PathSyntax
import Kadalu.Volume.Ident

/-!
# The mount table

The kernel writes one line for each mount, with spaces between the fields and the separators inside a field as octal escapes.
The node plugin cuts the text into lines and fields again and undoes the escapes.

* `readMountinfo_render`: what is read off a table whose texts have no other separators.
* `readMountinfo_exact_iff`: the tables that are read back exactly.
-/

namespace Kadalu.Node.Mountinfo

open Operator TargetLock Fields

/-- What holds of the characters of a text is decided from the text, not from all characters. -/
instance (priority := 2000) decidableText (text : List Char) (p : Char → Prop) [DecidablePred p] : Decidable (∀ c ∈ text, p c) :=
  List.decidableBAll p text

/-! ## The reader -/

/-- A character at which `str.split()` cuts. -/
def isSpace (c : Char) : Bool :=
  (9 ≤ c.toNat && c.toNat ≤ 13) || (28 ≤ c.toNat && c.toNat ≤ 32) || (0x2000 ≤ c.toNat && c.toNat ≤ 0x200A) ||
    [0x85, 0xA0, 0x1680, 0x2028, 0x2029, 0x202F, 0x205F, 0x3000].contains c.toNat

/-- A character that ends a line of a text file; of the two in a row the second ends an empty line. -/
def isNewline (c : Char) : Bool := c = '\n' || c = '\r'

/-- The lines of a text file. -/
def lines (text : List Char) : List (List Char) := text.splitOnP isNewline

/-- `line.split()` -/
def fields (line : List Char) : List (List Char) := words isSpace line

/-- `[0-7]` -/
def isOctal (c : Char) : Bool := '0' ≤ c && c ≤ '7'

def octalValue (c : Char) : Nat := c.toNat - '0'.toNat

/-- `_unescape_mount_field` -/
def unescapeMountField : List Char → List Char
  | '\\' :: a :: b :: c :: rest =>
    if isOctal a && isOctal b && isOctal c then
      Char.ofNat (octalValue a * 64 + octalValue b * 8 + octalValue c) :: unescapeMountField rest
    else '\\' :: unescapeMountField (a :: b :: c :: rest)
  | c :: rest => c :: unescapeMountField rest
  | [] => []

/-- One component of `os.path.normpath` of a path that is not absolute. -/
def relativeComponent (components : List (List Char)) (component : List Char) : List (List Char) :=
  if component = [] ∨ component = ['.'] then components
  else if component ≠ ['.', '.'] ∨ components = [] ∨ components.getLast? = some ['.', '.'] then components ++ [component]
  else components.dropLast

/-- `os.path.normpath` -/
def osNormpath (path : List Char) : List Char :=
  if isabs path then normpath path
  else
    match (splitChars '/' path).foldl relativeComponent [] with
    | [] => ['.']
    | components => ['/'].intercalate components

/-- An entry as `_read_mountinfo` returns it; a set is the list of its members. -/
structure MountinfoEntry where
  device : List Char
  root : List Char
  target : List Char
  options : List (List Char)
  fstype : List Char
  source : List Char
  superOptions : List (List Char)
  deriving DecidableEq, Repr

/-- The place of the field that ends the optional ones, in a line with all the fields that every entry has. -/
def mountSeparator (fields : List (List Char)) : Option Nat :=
  (fields.findIdx? (· = ['-'])).filter fun separator => !(separator < 6 || fields.length < separator + 4)

/-- A line of the table, unless it is skipped. -/
def parseLine (line : List Char) : Option MountinfoEntry :=
  let field := fun i => (fields line)[i]?.getD []
  (mountSeparator (fields line)).map fun separator =>
    { device := field 2
      root := osNormpath (unescapeMountField (field 3))
      target := osNormpath (unescapeMountField (field 4))
      options := splitChars ',' (field 5)
      fstype := field (separator + 1)
      source := unescapeMountField (field (separator + 2))
      superOptions := splitChars ',' (field (separator + 3)) }

/-- `_read_mountinfo` of a file with this text -/
def readMountinfo (text : List Char) : List MountinfoEntry := (lines text).filterMap parseLine

/-- `_target_mount_entry` -/
def targetMountEntry (cwd mountpoint : List Char) (text : List Char) : Option MountinfoEntry :=
  let expectedTarget := normpath (abspath cwd mountpoint)
  ((readMountinfo text).filter fun entry => entry.target = expectedTarget).getLast?

/-! ## The kernel -/

/-- A word of letters and digits: a number, or the name of an option. -/
structure Word where
  text : List Char
  nonempty : text ≠ []
  alphanum : ∀ c ∈ text, c.isAlphanum = true

/-- The name of a peer group, such as `shared` or `propagate_from`: any word that is not escaped and no separator. -/
structure Tag where
  text : List Char
  nonempty : text ≠ []
  noSpace : ∀ c ∈ text, isSpace c = false
  noEscape : '\\' ∉ text
  noSeparator : text ≠ ['-']

/-- A mount, as the kernel shows it. -/
structure Mount where
  mountId : Word
  parentId : Word
  major : Word
  minor : Word
  root : List Char
  target : List Char
  readOnly : Bool
  flags : List Word
  /-- the peer groups: a name, and mostly a number -/
  propagation : List (Tag × Option Word)
  fstype : List Char
  source : List Char
  superReadOnly : Bool
  superFlags : List Char

/-- The escape of a character. -/
def escapeChar (c : Char) : List Char :=
  if c = ' ' then ['\\', '0', '4', '0']
  else if c = '\t' then ['\\', '0', '1', '1']
  else if c = '\n' then ['\\', '0', '1', '2']
  else if c = '\\' then ['\\', '1', '3', '4']
  else [c]

def escape (text : List Char) : List Char := text.flatMap escapeChar

def access (readOnly : Bool) : List Char := if readOnly then ['r', 'o'] else ['r', 'w']

def tagText (tag : Tag × Option Word) : List Char :=
  match tag.2 with
  | none => tag.1.text
  | some number => tag.1.text ++ ':' :: number.text

namespace Mount

variable (m : Mount)

def device : List Char := m.major.text ++ ':' :: m.minor.text

/-- The options of the mount. -/
def options : List (List Char) := access m.readOnly :: m.flags.map Word.text

/-- The fields up to the optional ones. -/
def front : List (List Char) :=
  [m.mountId.text, m.parentId.text, m.device, escape m.root, escape m.target, [','].intercalate m.options] ++
    m.propagation.map tagText

/-- The options of the file system. -/
def superText : List Char := access m.superReadOnly ++ escape m.superFlags

/-- The fields of the line, all but the last. -/
def parts : List (List Char) := m.front ++ [['-'], escape m.fstype, escape m.source]

def line : List Char := [' '].intercalate (m.parts ++ [m.superText])

end Mount

/-- The text of the table. -/
def render (table : List Mount) : List Char := table.flatMap fun m => m.line ++ ['\n']

/-! ## What is to be read back -/

/-- The texts of a mount that are compared. -/
structure View where
  root : List Char
  target : List Char
  options : List (List Char)
  fstype : List Char
  source : List Char
  deriving DecidableEq

def MountinfoEntry.view (e : MountinfoEntry) : View := ⟨e.root, e.target, e.options, e.fstype, e.source⟩

def Mount.view (m : Mount) : View := ⟨m.root, m.target, m.options, m.fstype, m.source⟩

/-- A normalized absolute path. -/
def IsNormalized (path : List Char) : Prop := ∃ cs, (∀ c ∈ cs, Plain c) ∧ path = slashes false cs

/-- A separator that the kernel does not escape. -/
def isBare (c : Char) : Bool := isSpace c && !(c = ' ' || c = '\t' || c = '\n')

/-- A text that the kernel writes without a separator. -/
def Legible (text : List Char) : Prop := ∀ c ∈ text, isBare c = false

/-- A mount whose line is read as it is meant. -/
structure Readable (m : Mount) : Prop where
  root : Legible m.root
  target : Legible m.target
  source : Legible m.source
  sourceNonempty : m.source ≠ []
  fstype : ∀ c ∈ m.fstype, isSpace c = false ∧ c ≠ '\\'
  fstypeNonempty : m.fstype ≠ []
  /-- the options of the file system go on in a line that is skipped, if they do -/
  superText : ∀ line ∈ (lines m.superText).tail, mountSeparator (fields line) = none

/-! ## Escapes -/

theorem unescape_cons {c : Char} (h : c ≠ '\\') (rest : List Char) :
    unescapeMountField (c :: rest) = c :: unescapeMountField rest := by
  conv_lhs => unfold unescapeMountField
  split <;> simp_all

/-- The reader undoes what the kernel escapes. -/
theorem unescape_escape (text : List Char) : unescapeMountField (escape text) = text := by
  induction text with
  | nil => rfl
  | cons c text ih =>
    unfold escape at ih ⊢
    rw [List.flatMap_cons]
    by_cases hspace : c = ' '
    · subst hspace
      simp [escapeChar, unescapeMountField, isOctal, octalValue, ih]
    by_cases htab : c = '\t'
    · subst htab
      simp [escapeChar, unescapeMountField, isOctal, octalValue, ih]
    by_cases hnewline : c = '\n'
    · subst hnewline
      simp [escapeChar, unescapeMountField, isOctal, octalValue, ih]
    by_cases hslash : c = '\\'
    · subst hslash
      simp [escapeChar, unescapeMountField, isOctal, octalValue, ih]
    · have hchar : escapeChar c = [c] := by simp [escapeChar, hspace, htab, hnewline, hslash]
      rw [hchar, List.singleton_append, unescape_cons hslash, ih]

theorem escapeChar_cases (c : Char) : escapeChar c = [c] ∧ c ≠ ' ' ∧ c ≠ '\t' ∧ c ≠ '\n' ∧ c ≠ '\\' ∨
    (∀ y ∈ escapeChar c, isSpace y = false) ∧ 1 < (escapeChar c).length ∧ isBare c = false := by
  by_cases hspace : c = ' '
  · subst hspace
    exact .inr (by decide)
  by_cases htab : c = '\t'
  · subst htab
    exact .inr (by decide)
  by_cases hnewline : c = '\n'
  · subst hnewline
    exact .inr (by decide)
  by_cases hslash : c = '\\'
  · subst hslash
    exact .inr (by decide)
  · exact .inl ⟨by simp [escapeChar, hspace, htab, hnewline, hslash], hspace, htab, hnewline, hslash⟩

theorem escapeChar_bare {c : Char} (h : isBare c = true) : escapeChar c = [c] ∧ isSpace c = true := by
  rcases escapeChar_cases c with ⟨hc, -⟩ | ⟨-, -, hbare⟩
  · exact ⟨hc, (Bool.and_eq_true_iff.mp h).1⟩
  · rw [h] at hbare
    cases hbare

theorem escapeChar_legible {c : Char} (h : isBare c = false) : ∀ y ∈ escapeChar c, isSpace y = false := by
  rcases escapeChar_cases c with ⟨hc, hspace, htab, hnewline, -⟩ | ⟨hy, -⟩
  · intro y hy
    rw [hc] at hy
    obtain rfl := List.mem_singleton.mp hy
    simpa [isBare, hspace, htab, hnewline] using h
  · exact hy

theorem escapeChar_ne_nil (c : Char) : escapeChar c ≠ [] := by
  rcases escapeChar_cases c with ⟨hc, -⟩ | ⟨-, hlength, -⟩
  · rw [hc]
    exact List.cons_ne_nil _ _
  · intro hnil
    rw [hnil] at hlength
    cases hlength

/-- A legible text is written without separators. -/
theorem escape_noSpace {text : List Char} (h : Legible text) : ∀ y ∈ escape text, isSpace y = false := by
  intro y hy
  obtain ⟨c, hc, hy⟩ := List.mem_flatMap.mp hy
  exact escapeChar_legible (h c hc) y hy

theorem escape_ne_nil {text : List Char} (h : text ≠ []) : escape text ≠ [] := by
  obtain ⟨c, rest, rfl⟩ := List.exists_cons_of_ne_nil h
  simp [escape, escapeChar_ne_nil]

/-- The words of a text that the kernel has written are the escapes of its pieces between separators that are not escaped. -/
theorem fields_escape (text : List Char) : fields (escape text) = (words isBare text).map escape :=
  words_flatMap (fun _ => escapeChar_bare) (fun _ => escapeChar_legible) escapeChar_ne_nil text

/-- A text that is written as it is has nothing to escape. -/
theorem escape_eq_self_iff {text : List Char} :
    escape text = text ↔ ∀ c ∈ text, c ≠ ' ' ∧ c ≠ '\t' ∧ c ≠ '\n' ∧ c ≠ '\\' := by
  have hle : ∀ text, text.length ≤ (escape text).length := fun text => by
    induction text with
    | nil => exact Nat.le_refl 0
    | cons c text ih =>
      have hpos := List.length_pos_iff.mpr (escapeChar_ne_nil c)
      unfold escape at ih ⊢
      rw [List.flatMap_cons, List.length_append, List.length_cons]
      omega
  induction text with
  | nil => simp [escape]
  | cons c text ih =>
    have hcons : escape (c :: text) = escapeChar c ++ escape text := List.flatMap_cons
    rw [hcons, List.forall_mem_cons]
    rcases escapeChar_cases c with ⟨hc, hchar⟩ | ⟨-, hlength, hbare⟩
    · rw [hc, List.singleton_append, List.cons.injEq]
      exact ⟨fun h => ⟨hchar, ih.mp h.2⟩, fun h => ⟨rfl, ih.mpr h.2⟩⟩
    · constructor
      · intro h
        have hl := congrArg List.length h
        have := hle text
        rw [List.length_append, List.length_cons] at hl
        omega
      · rintro ⟨⟨hspace, htab, hnewline, hslash⟩, -⟩
        simp [escapeChar, hspace, htab, hnewline, hslash] at hlength

/-! ## Every field of a table -/

/-- A field that the kernel has written without a separator in it. -/
def Written (field : List Char) : Prop := ∃ text, text ≠ [] ∧ Legible text ∧ field = escape text

theorem written_of_mem {text field : List Char} (h : field ∈ fields (escape text)) : Written field := by
  rw [fields_escape] at h
  obtain ⟨piece, hpiece, rfl⟩ := List.mem_map.mp h
  obtain ⟨hne, hbare⟩ := mem_words hpiece
  exact ⟨piece, hne, hbare, rfl⟩

/-- A text of letters, digits and the punctuation of numbers and options. -/
def Simple (text : List Char) : Prop := ∀ c ∈ text, c.isAlphanum = true ∨ c = ':' ∨ c = ',' ∨ c = '-'

theorem escape_simple {text : List Char} (h : Simple text) : escape text = text := by
  refine escape_eq_self_iff.mpr fun c hc => ⟨?_, ?_, ?_, ?_⟩ <;>
    rintro rfl <;> exact absurd (h _ hc) (by decide)

theorem Simple.append {a b : List Char} (ha : Simple a) (hb : Simple b) : Simple (a ++ b) := fun c hc =>
  (List.mem_append.mp hc).elim (ha c) (hb c)

theorem Word.simple (w : Word) : Simple w.text := fun c hc => .inl (w.alphanum c hc)

theorem access_simple (readOnly : Bool) : Simple (access readOnly) := by
  cases readOnly <;> (unfold Simple; decide)

theorem tagText_escape (tag : Tag × Option Word) : escape (tagText tag) = tagText tag := by
  obtain ⟨name, number⟩ := tag
  have hname : ∀ c ∈ name.text, c ≠ ' ' ∧ c ≠ '\t' ∧ c ≠ '\n' ∧ c ≠ '\\' := by
    intro c hc
    have hspace := name.noSpace c hc
    refine ⟨?_, ?_, ?_, fun h => name.noEscape (h ▸ hc)⟩ <;> rintro rfl <;> exact absurd hspace (by decide)
  cases number with
  | none => exact escape_eq_self_iff.mpr hname
  | some number =>
    have hnumber : Simple (':' :: number.text) := .append (a := [':']) (fun c hc => by simp_all) number.simple
    have happend : escape (name.text ++ ':' :: number.text) = escape name.text ++ escape (':' :: number.text) :=
      List.flatMap_append
    exact happend.trans (by rw [escape_eq_self_iff.mpr hname, escape_simple hnumber]; rfl)

theorem options_simple (m : Mount) : Simple ([','].intercalate m.options) := by
  intro c hc
  rcases mem_intercalate hc with hc | ⟨option, hoption, hc⟩
  · exact .inr (.inr (.inl (List.mem_singleton.mp hc)))
  · rcases List.mem_cons.mp hoption with rfl | hoption
    · exact access_simple _ c hc
    · obtain ⟨word, -, rfl⟩ := List.mem_map.mp hoption
      exact word.simple c hc

theorem device_simple (m : Mount) : Simple m.device :=
  m.major.simple.append (.append (fun c hc => by simp_all) m.minor.simple : Simple ([':'] ++ m.minor.text))

/-- Every part of a line is the escape of a text. -/
theorem exists_escape (m : Mount) : ∀ part ∈ m.parts ++ [m.superText], ∃ text, part = escape text := by
  intro part hpart
  have hsimple : ∀ {text : List Char}, Simple text → ∃ t, text = escape t := fun h => ⟨_, (escape_simple h).symm⟩
  simp only [Mount.parts, Mount.front, List.mem_append, List.mem_cons, List.not_mem_nil, or_false, List.mem_map] at hpart
  rcases hpart with (((rfl | rfl | rfl | rfl | rfl | rfl) | ⟨tag, -, rfl⟩) | rfl | rfl | rfl) | rfl
  · exact hsimple m.mountId.simple
  · exact hsimple m.parentId.simple
  · exact hsimple (device_simple m)
  · exact ⟨_, rfl⟩
  · exact ⟨_, rfl⟩
  · exact hsimple (options_simple m)
  · exact ⟨_, (tagText_escape tag).symm⟩
  · exact hsimple fun c hc => .inr (.inr (.inr (List.mem_singleton.mp hc)))
  · exact ⟨_, rfl⟩
  · exact ⟨_, rfl⟩
  · refine ⟨access m.superReadOnly ++ m.superFlags, ?_⟩
    have happend : escape (access m.superReadOnly ++ m.superFlags) = escape (access m.superReadOnly) ++ escape m.superFlags :=
      List.flatMap_append
    rw [happend, escape_simple (access_simple _)]
    rfl

theorem fields_render (table : List Mount) : fields (render table) = table.flatMap fun m => fields m.line := by
  induction table with
  | nil => rfl
  | cons m table ih =>
    have hcons : render (m :: table) = m.line ++ '\n' :: render table := by
      rw [render, List.flatMap_cons, List.append_assoc]
      rfl
    rw [hcons, fields, words_append (by decide), List.flatMap_cons]
    exact congrArg _ ih

/-- Every field of a table was written by the kernel. -/
theorem written_of_mem_render {table : List Mount} {field : List Char} (h : field ∈ fields (render table)) : Written field := by
  rw [fields_render] at h
  obtain ⟨m, -, h⟩ := List.mem_flatMap.mp h
  rw [fields, Mount.line, words_intercalate (by decide)] at h
  obtain ⟨part, hpart, h⟩ := List.mem_flatMap.mp h
  obtain ⟨text, rfl⟩ := exists_escape m part hpart
  exact written_of_mem h

/-- The fields of a line are fields of the table. -/
theorem mem_fields_of_line {text line field : List Char} (hline : line ∈ lines text) (h : field ∈ fields line) :
    field ∈ fields text := by
  have hwords : (lines text).flatMap (words isSpace) = words isSpace text := by
    refine flatMap_words (fun c hc => ?_) text
    simp only [isNewline, Bool.or_eq_true, decide_eq_true_eq] at hc
    rcases hc with rfl | rfl <;> decide
  rw [fields, ← hwords]
  exact List.mem_flatMap.mpr ⟨line, hline, h⟩

/-! ## Every entry that is read -/

theorem legible_of_splitChars {sep : Char} {text : List Char} (h : Legible text) : ∀ part ∈ splitChars sep text, Legible part := by
  induction text with
  | nil =>
    intro part hpart
    obtain rfl := List.mem_singleton.mp hpart
    exact nofun
  | cons c text ih =>
    have ih := ih fun d hd => h d (List.mem_cons_of_mem _ hd)
    intro part hpart
    unfold splitChars at hpart
    by_cases hc : c = sep
    · rw [if_pos hc] at hpart
      rcases List.mem_cons.mp hpart with rfl | hpart
      · exact nofun
      · exact ih part hpart
    · rw [if_neg hc] at hpart
      cases hfields : splitChars sep text with
      | nil =>
        rw [hfields] at hpart
        obtain rfl := List.mem_singleton.mp hpart
        exact fun d hd => h d (List.mem_singleton.mp hd ▸ List.mem_cons_self)
      | cons field fields =>
        rw [hfields] at hpart ih
        rcases List.mem_cons.mp hpart with rfl | hpart
        · intro d hd
          rcases List.mem_cons.mp hd with rfl | hd
          · exact h d List.mem_cons_self
          · exact ih field List.mem_cons_self d hd
        · exact ih part (List.mem_cons_of_mem _ hpart)

theorem legible_foldl {step : List (List Char) → List Char → List (List Char)}
    (hstep : ∀ parts part, ∀ c ∈ step parts part, c ∈ parts ∨ c = part) {cs acc : List (List Char)}
    (hacc : ∀ c ∈ acc, Legible c) (hcs : ∀ c ∈ cs, Legible c) : ∀ c ∈ cs.foldl step acc, Legible c := by
  induction cs generalizing acc with
  | nil => exact hacc
  | cons c cs ih =>
    refine ih (fun d hd => ?_) fun d hd => hcs d (List.mem_cons_of_mem _ hd)
    rcases hstep acc c d hd with hd | rfl
    · exact hacc d hd
    · exact hcs d List.mem_cons_self

theorem mem_normComponent (parts : List (List Char)) (part : List Char) :
    ∀ c ∈ normComponent parts part, c ∈ parts ∨ c = part := by
  intro c hc
  unfold normComponent at hc
  split at hc
  · exact .inl hc
  split at hc
  · exact .inl ((List.dropLast_prefix parts).subset hc)
  · rcases List.mem_append.mp hc with hc | hc
    · exact .inl hc
    · exact .inr (List.mem_singleton.mp hc)

theorem mem_relativeComponent (parts : List (List Char)) (part : List Char) :
    ∀ c ∈ relativeComponent parts part, c ∈ parts ∨ c = part := by
  intro c hc
  unfold relativeComponent at hc
  split at hc
  · exact .inl hc
  split at hc
  · rcases List.mem_append.mp hc with hc | hc
    · exact .inl hc
    · exact .inr (List.mem_singleton.mp hc)
  · exact .inl ((List.dropLast_prefix parts).subset hc)

theorem legible_intercalate {parts : List (List Char)} (h : ∀ part ∈ parts, Legible part) : Legible (['/'].intercalate parts) := by
  intro c hc
  rcases mem_intercalate hc with hc | ⟨part, hpart, hc⟩
  · exact List.mem_singleton.mp hc ▸ (by decide)
  · exact h part hpart c hc

/-- Normalization makes no separators. -/
theorem legible_osNormpath {text : List Char} (h : Legible text) : Legible (osNormpath text) := by
  have hparts : ∀ part ∈ splitChars '/' text, Legible part := legible_of_splitChars h
  unfold osNormpath
  split
  · intro c hc
    rcases List.mem_append.mp hc with hc | hc
    · unfold rootSlashes at hc
      split at hc <;> (simp only [List.mem_cons, List.not_mem_nil, or_false, or_self] at hc; rw [hc]; decide)
    · exact legible_intercalate (legible_foldl mem_normComponent (fun _ h => absurd h List.not_mem_nil) hparts) c hc
  · split
    · intro c hc
      exact List.mem_singleton.mp hc ▸ (by decide)
    · exact legible_intercalate (legible_foldl mem_relativeComponent (fun _ h => absurd h List.not_mem_nil) hparts)

/-- What is known of a mount whose texts were read. -/
structure Aligned (v : View) : Prop where
  root : Legible v.root
  target : Legible v.target
  source : Legible v.source
  sourceNonempty : v.source ≠ []
  fstype : ∀ c ∈ v.fstype, isSpace c = false
  fstypeNonempty : v.fstype ≠ []

theorem aligned_of_mem {table : List Mount} {e : MountinfoEntry} (h : e ∈ readMountinfo (render table)) :
    Aligned e.view := by
  obtain ⟨line, hline, h⟩ := List.mem_filterMap.mp h
  obtain ⟨separator, hseparator, rfl⟩ := Option.map_eq_some_iff.mp h
  have hguard := (Option.filter_eq_some_iff.mp hseparator).2
  simp only [Bool.not_eq_true', Bool.or_eq_false_iff, decide_eq_false_iff_not, not_lt] at hguard
  have hfield : ∀ i < (fields line).length, (fields line)[i]?.getD [] ∈ fields (render table) := fun i hi => by
    rw [List.getElem?_eq_getElem hi]
    exact mem_fields_of_line hline (List.getElem_mem hi)
  have hwritten : ∀ i < (fields line).length, Written ((fields line)[i]?.getD []) := fun i hi =>
    written_of_mem_render (hfield i hi)
  have hlegible : ∀ i < (fields line).length, Legible (unescapeMountField ((fields line)[i]?.getD [])) ∧
      unescapeMountField ((fields line)[i]?.getD []) ≠ [] := fun i hi => by
    obtain ⟨text, hne, htext, heq⟩ := hwritten i hi
    rw [heq, unescape_escape]
    exact ⟨htext, hne⟩
  have hfstype := mem_words (hfield (separator + 1) (by omega))
  exact
    { root := legible_osNormpath (hlegible 3 (by omega)).1
      target := legible_osNormpath (hlegible 4 (by omega)).1
      source := (hlegible (separator + 2) (by omega)).1
      sourceNonempty := (hlegible (separator + 2) (by omega)).2
      fstype := hfstype.2
      fstypeNonempty := hfstype.1 }

/-! ## The line of a mount -/

theorem isSpace_of_alphanum {c : Char} (hc : c.isAlphanum = true) : isSpace c = false := by
  have hrange : 48 ≤ c.toNat ∧ c.toNat ≤ 122 := by
    simp only [Char.isAlphanum, Char.isAlpha, Char.isUpper, Char.isLower, Char.isDigit, Bool.or_eq_true, Bool.and_eq_true,
      decide_eq_true_eq, ge_iff_le, UInt32.le_iff_toNat_le] at hc
    have htoNat : c.toNat = c.val.toNat := rfl
    rcases hc with (⟨h, h'⟩ | ⟨h, h'⟩) | ⟨h, h'⟩ <;> simp at h h' <;> omega
  simp [isSpace]
  omega

theorem simple_noSpace {text : List Char} (hs : Simple text) : ∀ c ∈ text, isSpace c = false := by
  intro c hc
  rcases hs c hc with halnum | rfl | rfl | rfl
  · exact isSpace_of_alphanum halnum
  · decide
  · decide
  · decide

theorem tagText_noSpace (tag : Tag × Option Word) : ∀ c ∈ tagText tag, isSpace c = false := by
  obtain ⟨name, number⟩ := tag
  cases number with
  | none => exact name.noSpace
  | some number =>
    intro c hc
    rcases List.mem_append.mp hc with hc | hc
    · exact name.noSpace c hc
    · rcases List.mem_cons.mp hc with rfl | hc
      · decide
      · exact simple_noSpace number.simple c hc

theorem legible_of_noSpace {text : List Char} (hs : ∀ c ∈ text, isSpace c = false) : Legible text := fun c hc => by
  simp [isBare, hs c hc]

theorem IsNormalized.ne_nil {path : List Char} (h : IsNormalized path) : path ≠ [] := by
  obtain ⟨cs, -, rfl⟩ := h
  exact List.cons_ne_nil _ _

theorem osNormpath_of_isNormalized {path : List Char} (h : IsNormalized path) : osNormpath path = path := by
  obtain ⟨cs, hcs, rfl⟩ := h
  have habs : isabs (slashes false cs) = true := by
    rw [slashes_false, isabs, isabs_cons]
    rfl
  rw [osNormpath, if_pos habs, normpath_slashes hcs]

section Line

variable {m : Mount} (h : Aligned m.view) (hroot : IsNormalized m.root) (htarget : IsNormalized m.target)

include h hroot htarget

/-- The parts of a line are its words. -/
theorem parts_noSpace : ∀ part ∈ m.parts, part ≠ [] ∧ ∀ c ∈ part, isSpace c = false := by
  have hword : ∀ w : Word, w.text ≠ [] ∧ ∀ c ∈ w.text, isSpace c = false := fun w => ⟨w.nonempty, simple_noSpace w.simple⟩
  intro part hpart
  simp only [Mount.parts, Mount.front, List.mem_append, List.mem_cons, List.not_mem_nil, or_false, List.mem_map] at hpart
  rcases hpart with ((rfl | rfl | rfl | rfl | rfl | rfl) | ⟨⟨name, number⟩, -, rfl⟩) | rfl | rfl | rfl
  · exact hword _
  · exact hword _
  · exact ⟨by simp [Mount.device], simple_noSpace (device_simple m)⟩
  · exact ⟨escape_ne_nil hroot.ne_nil, escape_noSpace h.root⟩
  · exact ⟨escape_ne_nil htarget.ne_nil, escape_noSpace h.target⟩
  · refine ⟨?_, simple_noSpace (options_simple m)⟩
    cases hflags : m.flags <;> cases hread : m.readOnly <;> simp [Mount.options, access, hflags, hread]
  · refine ⟨?_, tagText_noSpace _⟩
    cases number <;> simp [tagText, name.nonempty]
  · exact ⟨List.cons_ne_nil _ _, by decide⟩
  · exact ⟨escape_ne_nil h.fstypeNonempty, escape_noSpace (legible_of_noSpace h.fstype)⟩
  · exact ⟨escape_ne_nil h.sourceNonempty, escape_noSpace h.source⟩

theorem fields_parts (last : List Char) : fields ([' '].intercalate m.parts ++ ' ' :: last) = m.parts ++ fields last := by
  rw [fields, words_append (by decide), words_intercalate (by decide)]
  have hself : m.parts.flatMap (words isSpace) = m.parts.flatMap fun part => [part] := by
    refine List.flatMap_congr fun part hpart => ?_
    obtain ⟨hne, hspace⟩ := parts_noSpace h hroot htarget part hpart
    exact words_self hspace hne
  rw [hself, List.flatMap_singleton', fields]

/-- A mount is one line, unless the options of its file system go on in others. -/
theorem lines_line : ∃ last rest, lines m.superText = last :: rest ∧ (∃ word words, fields last = word :: words) ∧
    lines m.line = ([' '].intercalate m.parts ++ ' ' :: last) :: rest := by
  have hnewline : ∀ {text : List Char}, (∀ c ∈ text, isSpace c = false) → ∀ c ∈ text, isNewline c = false := fun hs c hc => by
    have hspace := hs c hc
    simp only [isNewline, Bool.or_eq_false_iff, decide_eq_false_iff_not]
    constructor <;> rintro rfl <;> exact absurd hspace (by decide)
  have haccess := simple_noSpace (access_simple m.superReadOnly)
  cases hlines : (escape m.superFlags).splitOnP isNewline with
  | nil => exact absurd hlines (List.splitOnP_ne_nil _ _)
  | cons piece rest =>
    have hsuper : lines m.superText = (access m.superReadOnly ++ piece) :: rest := by
      rw [lines, Mount.superText, splitOnP_append _ (hnewline haccess), hlines]
      rfl
    refine ⟨_, rest, hsuper, ?_, ?_⟩
    · obtain ⟨word, ws, hwords⟩ := words_letters haccess (by cases m.superReadOnly <;> simp [access]) piece
      exact ⟨_, ws, hwords⟩
    · have hline : m.line = ([' '].intercalate m.parts ++ [' ']) ++ m.superText := by
        rw [Mount.line, intercalate_append (List.cons_ne_nil _ _), List.intercalate_singleton, if_neg (by simp [Mount.parts])]
      have hfront : ∀ c ∈ [' '].intercalate m.parts ++ [' '], isNewline c = false := by
        intro c hc
        rcases List.mem_append.mp hc with hc | hc
        · rcases mem_intercalate hc with hc | ⟨part, hpart, hc⟩
          · exact List.mem_singleton.mp hc ▸ (by decide)
          · exact hnewline (parts_noSpace h hroot htarget part hpart).2 c hc
        · exact List.mem_singleton.mp hc ▸ (by decide)
      rw [hline, lines, splitOnP_append _ hfront, ← lines, hsuper]
      simp

omit h in
theorem front_ne_dash : ∀ part ∈ m.front, part ≠ ['-'] := by
  have hword : ∀ w : Word, ∀ rest : List Char, w.text ++ rest ≠ ['-'] := fun w rest heq => by
    obtain ⟨c, text, htext⟩ := List.exists_cons_of_ne_nil w.nonempty
    have hc := w.alphanum c (by rw [htext]; exact List.mem_cons_self)
    rw [htext, List.cons_append, List.cons.injEq] at heq
    rw [heq.1] at hc
    exact absurd hc (by decide)
  have hslash : ∀ {path : List Char}, IsNormalized path → escape path ≠ ['-'] := by
    rintro path ⟨cs, -, rfl⟩
    simp [slashes_false, escape, escapeChar]
  intro part hpart
  simp only [Mount.front, List.mem_append, List.mem_cons, List.not_mem_nil, or_false, List.mem_map] at hpart
  rcases hpart with (rfl | rfl | rfl | rfl | rfl | rfl) | ⟨⟨name, number⟩, -, rfl⟩
  · simpa using hword m.mountId []
  · simpa using hword m.parentId []
  · exact hword m.major _
  · exact hslash hroot
  · exact hslash htarget
  · cases hflags : m.flags <;> cases hread : m.readOnly <;> simp [Mount.options, access, hflags, hread]
  · cases number with
    | none => exact name.noSeparator
    | some number =>
      intro heq
      have hlength := congrArg List.length heq
      have := List.length_pos_of_ne_nil name.nonempty
      simp only [tagText, List.length_append, List.length_cons, List.length_nil] at hlength
      omega

omit h in
theorem mountSeparator_parts (word : List Char) (ws : List (List Char)) :
    mountSeparator (m.parts ++ word :: ws) = some m.front.length := by
  have hfront : m.front.findIdx? (· = ['-']) = none := by
    rw [List.findIdx?_eq_none_iff]
    exact fun part hpart => decide_eq_false (front_ne_dash hroot htarget part hpart)
  have hfind : (m.parts ++ word :: ws).findIdx? (· = ['-']) = some m.front.length := by
    rw [Mount.parts, List.append_assoc, List.findIdx?_append, hfront]
    simp [List.findIdx?_cons]
  have hlength : 6 ≤ m.front.length := by simp [Mount.front]
  rw [mountSeparator, hfind, Option.filter_eq_some_iff]
  refine ⟨rfl, ?_⟩
  simp only [Mount.parts, List.length_append, List.length_cons, Bool.not_eq_true', Bool.or_eq_false_iff,
    decide_eq_false_iff_not]
  omega

/-- What is read in the line of a mount. -/
theorem parseLine_parts {last word : List Char} {ws : List (List Char)} (hlast : fields last = word :: ws) :
    ∃ e, parseLine ([' '].intercalate m.parts ++ ' ' :: last) = some e ∧ e.view = { m.view with fstype := escape m.fstype } := by
  have hfields := fields_parts h hroot htarget last
  rw [hlast] at hfields
  unfold parseLine
  rw [hfields, mountSeparator_parts hroot htarget, Option.map_some]
  refine ⟨_, rfl, ?_⟩
  have hcomma : ∀ option ∈ m.options, ',' ∉ option := by
    have hword : ∀ w : Word, ',' ∉ w.text := fun w hc => absurd (w.alphanum _ hc) (by decide)
    intro option hoption
    rcases List.mem_cons.mp hoption with rfl | hoption
    · cases m.readOnly <;> decide
    · obtain ⟨w, -, rfl⟩ := List.mem_map.mp hoption
      exact hword w
  have hoptions : splitChars ',' ([','].intercalate m.options) = m.options :=
    splitChars_intercalate (List.cons_ne_nil _ _) hcomma
  have hfield : ∀ i, (m.parts ++ word :: ws)[m.front.length + i]? = (['-'] :: escape m.fstype :: escape m.source :: word :: ws)[i]? := by
    intro i
    rw [Mount.parts, List.append_assoc, List.getElem?_append_right (Nat.le_add_right _ _), Nat.add_sub_cancel_left]
    rfl
  have hfirst : ∀ i < 6, (m.parts ++ word :: ws)[i]? = m.front[i]? := by
    intro i hi
    have hlength : 6 ≤ m.front.length := by simp [Mount.front]
    rw [Mount.parts, List.append_assoc, List.getElem?_append_left (by omega)]
  simp only [MountinfoEntry.view, hfirst 3 (by omega), hfirst 4 (by omega), hfirst 5 (by omega), hfield]
  simp [Mount.front, Mount.view, unescape_escape, osNormpath_of_isNormalized hroot, osNormpath_of_isNormalized htarget, hoptions]

end Line

/-! ## The table -/

/-- The entries that are read in the lines which the options of a file system go on in. -/
def strays (m : Mount) : List MountinfoEntry := (lines m.superText).tail.filterMap parseLine

theorem strays_eq_nil_iff {m : Mount} : strays m = [] ↔ ∀ line ∈ (lines m.superText).tail, mountSeparator (fields line) = none := by
  rw [strays, List.filterMap_eq_nil_iff]
  simp only [parseLine, Option.map_eq_none_iff]

theorem readMountinfo_render_eq (table : List Mount) :
    readMountinfo (render table) = table.flatMap fun m => (lines m.line).filterMap parseLine := by
  induction table with
  | nil => rfl
  | cons m table ih =>
    have hcons : render (m :: table) = m.line ++ '\n' :: render table := by
      rw [render, List.flatMap_cons, List.append_assoc]
      rfl
    rw [hcons, readMountinfo, lines, List.splitOnP_append_cons _ _ (by decide), List.filterMap_append, List.flatMap_cons]
    exact congrArg _ ih

/-- The entries of a mount: one for it, with the type of the file system as it is written, and the strays. -/
theorem view_line {m : Mount} (h : Aligned m.view) (hroot : IsNormalized m.root) (htarget : IsNormalized m.target) :
    ((lines m.line).filterMap parseLine).map MountinfoEntry.view =
      { m.view with fstype := escape m.fstype } :: (strays m).map MountinfoEntry.view := by
  obtain ⟨last, rest, hsuper, ⟨word, ws, hlast⟩, hline⟩ := lines_line h hroot htarget
  obtain ⟨e, he, hview⟩ := parseLine_parts h hroot htarget hlast
  rw [hline, List.filterMap_cons, he, List.map_cons, hview, strays, hsuper, List.tail_cons]

theorem flatMap_cons_eq_map_iff {α β : Type} {x y : α → β} {ys : α → List β} {l : List α} :
    (l.flatMap fun a => x a :: ys a) = l.map y ↔ ∀ a ∈ l, x a = y a ∧ ys a = [] := by
  have hle : ∀ l : List α, l.length ≤ (l.flatMap fun a => x a :: ys a).length := fun l => by
    induction l with
    | nil => exact Nat.le_refl 0
    | cons a l ih =>
      rw [List.flatMap_cons, List.length_append, List.length_cons, List.length_cons]
      omega
  induction l with
  | nil => simp
  | cons a l ih =>
    rw [List.flatMap_cons, List.map_cons, List.cons_append, List.cons.injEq, List.forall_mem_cons]
    constructor
    · rintro ⟨hx, hrest⟩
      have hlength := congrArg List.length hrest
      have := hle l
      rw [List.length_append, List.length_map] at hlength
      have hys : ys a = [] := List.length_eq_zero_iff.mp (by omega)
      rw [hys, List.nil_append] at hrest
      exact ⟨⟨hx, hys⟩, ih.mp hrest⟩
    · rintro ⟨⟨hx, hys⟩, hrest⟩
      exact ⟨hx, by rw [hys, List.nil_append, ih.mpr hrest]⟩

theorem Readable.aligned {m : Mount} (h : Readable m) : Aligned m.view where
  root := h.root
  target := h.target
  source := h.source
  sourceNonempty := h.sourceNonempty
  fstype c hc := (h.fstype c hc).1
  fstypeNonempty := h.fstypeNonempty

theorem readable_iff {m : Mount} (h : Aligned m.view) : Readable m ↔ escape m.fstype = m.fstype ∧ strays m = [] := by
  rw [escape_eq_self_iff, strays_eq_nil_iff]
  constructor
  · intro hm
    refine ⟨fun c hc => ?_, hm.superText⟩
    obtain ⟨hspace, hslash⟩ := hm.fstype c hc
    refine ⟨?_, ?_, ?_, hslash⟩ <;> rintro rfl <;> exact absurd hspace (by decide)
  · rintro ⟨hfstype, hsuper⟩
    exact ⟨h.root, h.target, h.source, h.sourceNonempty, fun c hc => ⟨h.fstype c hc, (hfstype c hc).2.2.2⟩, h.fstypeNonempty, hsuper⟩

section Table

variable {table : List Mount} (hnormal : ∀ m ∈ table, IsNormalized m.root ∧ IsNormalized m.target)

include hnormal

/-- **Reading the table.** The entries are those of the table exactly if every mount in it is readable. -/
theorem readMountinfo_render :
    (readMountinfo (render table)).map MountinfoEntry.view = table.map Mount.view ↔ ∀ m ∈ table, Readable m := by
  have hread : (∀ m ∈ table, Aligned m.view) →
      ((readMountinfo (render table)).map MountinfoEntry.view = table.map Mount.view ↔ ∀ m ∈ table, Readable m) := by
    intro haligned
    have hflat : (readMountinfo (render table)).map MountinfoEntry.view =
        table.flatMap fun m => { m.view with fstype := escape m.fstype } :: (strays m).map MountinfoEntry.view := by
      rw [readMountinfo_render_eq, List.map_flatMap]
      exact List.flatMap_congr fun m hm => view_line (haligned m hm) (hnormal m hm).1 (hnormal m hm).2
    rw [hflat, flatMap_cons_eq_map_iff]
    refine forall₂_congr fun m hm => ?_
    rw [readable_iff (haligned m hm), List.map_eq_nil_iff]
    refine and_congr_left' ?_
    simp [Mount.view]
  constructor
  · intro h
    refine (hread fun m hm => ?_).mp h
    have hmem : m.view ∈ (readMountinfo (render table)).map MountinfoEntry.view := h ▸ List.mem_map_of_mem hm
    obtain ⟨e, he, hview⟩ := List.mem_map.mp hmem
    exact hview ▸ aligned_of_mem he
  · exact fun h => (hread fun m hm => (h m hm).aligned).mpr h

omit hnormal in
/-- With its entries the topmost mount of a target is found. -/
theorem targetMountEntry_render (h : (readMountinfo (render table)).map MountinfoEntry.view = table.map Mount.view)
    (cwd mountpoint : List Char) :
    (targetMountEntry cwd mountpoint (render table)).map MountinfoEntry.view =
      ((table.filter fun m => m.target = normpath (abspath cwd mountpoint)).getLast?).map Mount.view := by
  have hentries : ((readMountinfo (render table)).filter fun e => e.target = normpath (abspath cwd mountpoint)).map
      MountinfoEntry.view = ((readMountinfo (render table)).map MountinfoEntry.view).filter fun v =>
        v.target = normpath (abspath cwd mountpoint) := by
    rw [List.filter_map]
    rfl
  have hmounts : (table.filter fun m => m.target = normpath (abspath cwd mountpoint)).map Mount.view =
      (table.map Mount.view).filter fun v => v.target = normpath (abspath cwd mountpoint) := by
    rw [List.filter_map]
    rfl
  rw [targetMountEntry, ← List.getLast?_map, ← List.getLast?_map, hentries, hmounts, h]

end Table

/-- **The mount table.** A table of normalized paths is read back exactly, and so the topmost mount of every target is found, if and
only if every mount in it is readable. -/
theorem readMountinfo_exact_iff (table : List Mount) (hnormal : ∀ m ∈ table, IsNormalized m.root ∧ IsNormalized m.target) :
    ((readMountinfo (render table)).map MountinfoEntry.view = table.map Mount.view ∧
      ∀ cwd mountpoint, (targetMountEntry cwd mountpoint (render table)).map MountinfoEntry.view =
        ((table.filter fun m => m.target = normpath (abspath cwd mountpoint)).getLast?).map Mount.view) ↔
      ∀ m ∈ table, Readable m := by
  rw [← readMountinfo_render hnormal]
  exact ⟨And.left, fun h => ⟨h, targetMountEntry_render h⟩⟩

def number (text : List Char) (h : text ≠ [] ∧ ∀ c ∈ text, c.isAlphanum = true) : Word := ⟨text, h.1, h.2⟩

/-- A volume of a pool that is published below a directory of this name. -/
def published (volumeId directory : List Char) : Mount where
  mountId := number "711".toList (by decide)
  parentId := number "48".toList (by decide)
  major := number "0".toList (by decide)
  minor := number "88".toList (by decide)
  root := slashes false ["subvol".toList, volumeId]
  target := slashes false ["csi".toList, directory, "mount".toList]
  readOnly := false
  flags := [number "relatime".toList (by decide)]
  propagation := [(⟨"shared".toList, by decide, by decide, by decide, by decide⟩, some (number "11".toList (by decide)))]
  fstype := "fuse.glusterfs".toList
  source := "kadalu:bellagio pool".toList
  superReadOnly := false
  superFlags := ",user_id=0".toList

theorem published_read :
    (readMountinfo (render [published "pvc-11".toList "danny's vault".toList])).map MountinfoEntry.view =
      [published "pvc-11".toList "danny's vault".toList].map Mount.view := by
  refine ((readMountinfo_exact_iff _ ?_).mpr ?_).1
  · rw [List.forall_mem_singleton]
    exact ⟨⟨_, by decide +kernel, rfl⟩, ⟨_, by decide +kernel, rfl⟩⟩
  · rw [List.forall_mem_singleton]
    exact
      { root := by unfold Legible; decide +kernel
        target := by unfold Legible; decide +kernel
        source := by unfold Legible; decide +kernel
        sourceNonempty := by decide +kernel
        fstype := by decide +kernel
        fstypeNonempty := by decide +kernel
        superText := by decide +kernel }

/-- An ideographic space in the ID of a volume cuts its path. -/
theorem published_wideSpace :
    isValidCsiIdentifier "pvc\u300011" = true ∧ IsNormalized (published "pvc\u300011".toList "danny".toList).root ∧
      IsNormalized (published "pvc\u300011".toList "danny".toList).target ∧
      (readMountinfo (render [published "pvc\u300011".toList "danny".toList])).map MountinfoEntry.view ≠
        [published "pvc\u300011".toList "danny".toList].map Mount.view :=
  ⟨by decide +kernel, ⟨_, by decide +kernel, rfl⟩, ⟨_, by decide +kernel, rfl⟩, by decide +kernel⟩

end Kadalu.Node.Mountinfo
