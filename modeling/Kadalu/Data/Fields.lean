import Mathlib.Data.List.Basic

/-!
# Fields of a text

A text is cut at separators, and the pieces that are not empty are its words.

* `words_intercalate`: the words of pieces that are joined by a separator.
* `words_flatMap`: the words of a text whose letters were replaced by texts without separators.
-/

namespace Fields

variable {α : Type*} {p q : α → Bool} {f : α → List α}

/-- The pieces between separators that are not empty. -/
def words (p : α → Bool) (l : List α) : List (List α) := (l.splitOnP p).filter fun piece => !piece.isEmpty

/-! ## Pieces -/

theorem splitOnP_append (b : List α) : ∀ {a : List α}, (∀ x ∈ a, p x = false) →
    (a ++ b).splitOnP p = (b.splitOnP p).modifyHead (a ++ ·)
  | [], _ => by
    cases h : b.splitOnP p with
    | nil => exact absurd h (List.splitOnP_ne_nil p b)
    | cons piece rest => rw [List.nil_append, h, List.modifyHead_cons, List.nil_append]
  | x :: a, h => by
    have hx : p x = false := h x List.mem_cons_self
    rw [List.cons_append, List.splitOnP_cons_eq_if_modifyHead, hx, splitOnP_append b fun y hy => h y (List.mem_cons_of_mem _ hy)]
    cases b.splitOnP p with
    | nil => rfl
    | cons piece rest => rfl

theorem not_of_mem_splitOnP {piece : List α} : ∀ {l : List α}, piece ∈ l.splitOnP p → ∀ x ∈ piece, p x = false
  | [], h => by
    obtain rfl := List.mem_singleton.mp h
    exact nofun
  | y :: l, h => by
    rw [List.splitOnP_cons_eq_if_modifyHead] at h
    have ih : ∀ piece ∈ l.splitOnP p, ∀ x ∈ piece, p x = false := fun _ => not_of_mem_splitOnP
    by_cases hy : p y = true
    · rw [if_pos hy] at h
      rcases List.mem_cons.mp h with rfl | h
      · exact nofun
      · exact ih piece h
    · rw [if_neg hy] at h
      cases hl : l.splitOnP p with
      | nil => exact absurd hl (List.splitOnP_ne_nil p l)
      | cons head rest =>
        rw [hl] at h ih
        rcases List.mem_cons.mp h with rfl | h
        · intro x hx
          rcases List.mem_cons.mp hx with rfl | hx
          · simpa using hy
          · exact ih head List.mem_cons_self x hx
        · exact ih piece (List.mem_cons_of_mem _ h)

/-- Letters are replaced, and only separators that stay as they are cut the text that results. -/
theorem splitOnP_flatMap (hsep : ∀ x, q x = true → f x = [x] ∧ p x = true) (hletter : ∀ x, q x = false → ∀ y ∈ f x, p y = false) :
    ∀ l : List α, (l.flatMap f).splitOnP p = (l.splitOnP q).map (·.flatMap f)
  | [] => rfl
  | x :: l => by
    have ih := splitOnP_flatMap hsep hletter l
    rw [List.flatMap_cons, List.splitOnP_cons_eq_if_modifyHead]
    by_cases hx : q x = true
    · obtain ⟨hf, hp⟩ := hsep x hx
      rw [if_pos hx, hf, List.singleton_append, List.splitOnP_cons_eq_if_modifyHead, if_pos hp, ih]
      rfl
    · rw [if_neg hx, splitOnP_append _ (hletter x (by simpa using hx)), ih]
      cases l.splitOnP q with
      | nil => rfl
      | cons piece rest => rfl

theorem intercalate_append {sep : List α} {bs : List (List α)} (hbs : bs ≠ []) : ∀ as : List (List α),
    sep.intercalate (as ++ bs) = sep.intercalate as ++ (if as = [] then [] else sep) ++ sep.intercalate bs
  | [] => by simp
  | [a] => by
    obtain ⟨b, bs, rfl⟩ := List.exists_cons_of_ne_nil hbs
    rw [List.singleton_append, List.intercalate_cons_cons, List.intercalate_singleton, if_neg (List.cons_ne_nil _ _)]
  | a :: a' :: as => by
    have ih := @intercalate_append sep _ hbs (a' :: as)
    rw [if_neg (List.cons_ne_nil _ _)] at ih ⊢
    rw [List.cons_append, List.cons_append, List.intercalate_cons_cons, ← List.cons_append, ih, List.intercalate_cons_cons]
    simp

theorem mem_intercalate {sep : List α} {x : α} : ∀ {parts : List (List α)}, x ∈ sep.intercalate parts →
    x ∈ sep ∨ ∃ part ∈ parts, x ∈ part
  | [], h => by simp at h
  | [part], h => .inr ⟨part, List.mem_singleton_self part, by simpa using h⟩
  | part :: part' :: parts, h => by
    rw [List.intercalate_cons_cons, List.mem_append, List.mem_append] at h
    rcases h with (h | h) | h
    · exact .inr ⟨part, List.mem_cons_self, h⟩
    · exact .inl h
    · rcases mem_intercalate h with h | ⟨part'', hpart, h⟩
      · exact .inl h
      · exact .inr ⟨part'', List.mem_cons_of_mem _ hpart, h⟩

/-! ## Words -/

@[simp] theorem words_nil : words p [] = [] := rfl

/-- A text without separators is its word. -/
theorem words_self {l : List α} (h : ∀ x ∈ l, p x = false) (hne : l ≠ []) : words p l = [l] := by
  have hempty : l.isEmpty = false := by simpa using hne
  rw [words, List.splitOnP_eq_singleton h, List.filter_singleton, hempty]
  rfl

theorem words_append {sep : α} (hsep : p sep = true) (a b : List α) : words p (a ++ sep :: b) = words p a ++ words p b := by
  rw [words, List.splitOnP_append_cons a b hsep, List.filter_append]
  rfl

theorem words_intercalate {sep : α} (hsep : p sep = true) : ∀ parts : List (List α),
    words p ([sep].intercalate parts) = parts.flatMap (words p)
  | [] => rfl
  | [part] => by simp
  | part :: part' :: parts => by
    rw [List.intercalate_cons_cons, List.append_assoc, List.singleton_append, words_append hsep,
      words_intercalate hsep (part' :: parts)]
    rfl

/-- Letters in front of a text begin its first word. -/
theorem words_letters {a : List α} (ha : ∀ x ∈ a, p x = false) (hne : a ≠ []) (b : List α) :
    ∃ rest ws, words p (a ++ b) = (a ++ rest) :: ws := by
  cases hb : b.splitOnP p with
  | nil => exact absurd hb (List.splitOnP_ne_nil p b)
  | cons piece pieces =>
    have hempty : (a ++ piece).isEmpty = false := by simp [hne]
    refine ⟨piece, pieces.filter fun piece => !piece.isEmpty, ?_⟩
    rw [words, splitOnP_append b ha, hb, List.modifyHead_cons, List.filter_cons, hempty]
    rfl

theorem mem_words {word l : List α} (h : word ∈ words p l) : word ≠ [] ∧ ∀ x ∈ word, p x = false := by
  obtain ⟨hpiece, hne⟩ := List.mem_filter.mp h
  exact ⟨by simpa using hne, not_of_mem_splitOnP hpiece⟩

/-- Words may first be cut at some of the separators. -/
theorem flatMap_words (hqp : ∀ x, q x = true → p x = true) (l : List α) : (l.splitOnP q).flatMap (words p) = words p l := by
  induction hn : l.length using Nat.strongRecOn generalizing l with
  | ind n ih =>
    by_cases hnone : ∀ x ∈ l, q x = false
    · rw [List.splitOnP_eq_singleton hnone, List.flatMap_singleton]
    · obtain ⟨x, hx, hq⟩ : ∃ x ∈ l, q x = true := by simpa using hnone
      obtain ⟨a, b, rfl⟩ := List.append_of_mem hx
      rw [List.length_append, List.length_cons] at hn
      rw [List.splitOnP_append_cons a b hq, List.flatMap_append, ih a.length (by omega) a rfl, ih b.length (by omega) b rfl,
        words_append (hqp x hq)]

theorem words_flatMap (hsep : ∀ x, q x = true → f x = [x] ∧ p x = true) (hletter : ∀ x, q x = false → ∀ y ∈ f x, p y = false)
    (hne : ∀ x, f x ≠ []) (l : List α) : words p (l.flatMap f) = (words q l).map (·.flatMap f) := by
  have hempty : ∀ piece : List α, (piece.flatMap f).isEmpty = piece.isEmpty := fun piece => by
    cases piece with
    | nil => rfl
    | cons x piece => simp [hne x]
  rw [words, words, splitOnP_flatMap hsep hletter, List.filter_map]
  congr 2
  funext piece
  rw [Function.comp_apply, hempty]

end Fields
