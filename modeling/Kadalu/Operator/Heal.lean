import Kadalu.Operator.Api

/-!
# The heal gate

A rolling upgrade waits for a clean heal summary of the whole pool. `storageHealSummaryIsClean` reads a summary line by
line, `waitForStorageHeal` asks the servers in turn until one of them reports a clean pool.
-/

namespace Kadalu.Operator

open Calls

/-! ## Summaries -/

def COUNTERS : List String :=
  ["Total Number of entries", "Number of entries in heal pending", "Number of entries in split-brain",
    "Number of entries possibly healing"]

/-- The white space of a pattern, `[ \t]`. -/
def isBlank (c : Char) : Bool := c = ' ' || c = '\t'

/-- `\s` -/
def isSpace (c : Char) : Bool :=
  isBlank c || c = '\n' || c = '\r' || c = Char.ofNat 0x0B || c = Char.ofNat 0x0C ||
    (0x1C ≤ c.toNat && c.toNat ≤ 0x1F) || c.toNat = 0x85 || c.toNat = 0xA0 || c.toNat = 0x1680 ||
    (0x2000 ≤ c.toNat && c.toNat ≤ 0x200A) || c.toNat = 0x2028 || c.toNat = 0x2029 || c.toNat = 0x202F ||
    c.toNat = 0x205F || c.toNat = 0x3000

/-- The text of a line after its label, without the blanks around it. -/
def fieldOf (label : String) (line : List Char) : Option (List Char) :=
  if (label.toList ++ [':']).isPrefixOf line then
    some (((line.drop (label.length + 1)).dropWhile isBlank).reverse.dropWhile isBlank).reverse
  else none

/-- `^Status:[ \t]*(\S[^\n]*?)[ \t]*$` on one line -/
def statusOf (line : List Char) : Option (List Char) :=
  (fieldOf "Status" line).filter fun value => value.head?.any (!isSpace ·)

/-- `^<label>:[ \t]*([0-9]+)[ \t]*$` on one line -/
def counterOf (label : String) (line : List Char) : Option Nat :=
  ((fieldOf label line).filter fun value => !value.isEmpty && value.all Char.isDigit).map fun digits =>
    digits.foldl (fun n c => 10 * n + (c.toNat - '0'.toNat)) 0

/-- The values of one counter, if every brick has one. -/
def countersOf (lines : List (List Char)) (expectedBricks : Nat) (label : String) : Option (List Nat) :=
  let values := lines.filterMap (counterOf label)
  if values.length = expectedBricks then some values else none

/-- `_parse_summary` -/
def parseSummary (summary : String) (expectedBricks : Nat) : Option (List (List Char) × List Nat) :=
  let lines := summary.toList.splitOn '\n'
  let statuses := lines.filterMap statusOf
  if expectedBricks < 1 ∨ statuses.length ≠ expectedBricks then none
  else (COUNTERS.mapM (countersOf lines expectedBricks)).map fun counters => (statuses, counters.flatten)

/-- `storage_heal_summary_is_complete` -/
def storageHealSummaryIsComplete (summary : String) (expectedBricks : Nat) : Bool :=
  (parseSummary summary expectedBricks).isSome

/-- `storage_heal_summary_is_clean` -/
def storageHealSummaryIsClean (summary : String) (expectedBricks : Nat) : Bool :=
  match parseSummary summary expectedBricks with
  | none => false
  | some (statuses, counters) => statuses.all (· = "Connected".toList) && counters.all (· = 0)

/-! ## Waiting -/

/-- How one round over the servers ends: with a clean summary, with a complete one of a server, or with neither. -/
inductive HealRound where
  | clean
  | complete (server : String)
  | exhausted
  deriving DecidableEq, Repr

/-- The inner loop of `wait_for_storage_heal`. -/
def healRound (deadline : Int) (expectedBricks : Nat) : List String → OpProg HealRound
  | [] => pure .exhausted
  | server :: servers => do
    let now ← Request.now
    if deadline - now ≤ 0 then pure .exhausted
    else
      let summary ← tryCatch (do pure (some (← Request.heal server))) fun
        | .healQuery => pure none
        | e => throw e
      match summary with
      | none => healRound deadline expectedBricks servers
      | some summary =>
        if storageHealSummaryIsClean summary expectedBricks then pure .clean
        else if storageHealSummaryIsComplete summary expectedBricks then pure (.complete server)
        else healRound deadline expectedBricks servers

/-- The rounds of `wait_for_storage_heal`; a server that covers the whole pool is asked first. -/
def healRounds (deadline : Int) (expectedBricks : Nat) : Nat → List String → OpProg Unit
  | 0, _ => .cut
  | fuel + 1, servers => do
    let round ← healRound deadline expectedBricks servers
    if round = .clean then pure ()
    else
      let servers := match round with
        | .complete server => server :: servers.erase server
        | _ => servers
      let now ← Request.now
      if deadline - now ≤ 0 then throw .timeout
      else
        Request.pause
        healRounds deadline expectedBricks fuel servers

/-- `timeout_seconds` and `poll_interval` of `wait_for_storage_heal` -/
def HEAL_TIMEOUT_SECONDS : Int := 900

/-- `wait_for_storage_heal` -/
def waitForStorageHeal (fuel : Nat) (serverNames : List String) : OpProg Unit :=
  if serverNames.isEmpty then throw (.value "heal polling needs servers and positive time bounds")
  else do
    let now ← Request.now
    healRounds (now + HEAL_TIMEOUT_SECONDS) serverNames.length fuel serverNames

end Kadalu.Operator
