import Kadalu.Pool.Identity
import Kadalu.Pool.Intent

/-!
# The capacity scan

`capacityMetadataRecords` walks the `info` directory of a pool and returns its durable reservations, the obsolete
accounting aliases of archives, and the tombstones whose payload is gone. The walk fails closed: any file it cannot
classify makes the whole scan raise.

The source collects the three kinds of files in one `os.walk`, into separate dictionaries that do not depend on each
other; here each kind is collected by a loop of its own. A metadata file adds at most one alias, and an ID is added at
most once, so `aliases` maps an ID to its only alias.
-/

namespace Kadalu

variable [VolnameHash]

/-- What the scan returns. -/
structure CapacityRecords where
  reservations : Rows := ∅
  aliases : AList fun _ : String => String := ∅
  tombstones : List String := []

/-- `_payload_exists` -/
def payloadExists (payloads : Table Payload) (path : Path) : Bool := (payloads.lookup path).isSome

/-- The intents of one kind by volume ID, each validated. -/
def collectIntents {ι : Type} (validate : Path → ι → Except Err Unit) (volumeId : ι → String) (duplicate : Err) :
    List (Sigma fun _ : Path => ι) → (AList fun _ : String => ι) → Except Err (AList fun _ : String => ι)
  | [], intents => pure intents
  | ⟨p, intent⟩ :: files, intents => do
    validate p intent
    if (intents.lookup (volumeId intent)).isSome then throw duplicate
    else collectIntents validate volumeId duplicate files (intents.insert (volumeId intent) intent)

/-- `_creation_intent_records`, also `creation_intents` of the scan -/
def creationIntentRecords (s : Pool) : Except Err (AList fun _ : String => CreationIntent) :=
  collectIntents validateCreationIntent CreationIntent.volumeId
    (.value "Duplicate creation intent for volume ID") s.creations.entries ∅

/-- `expansion_intents` of the scan -/
def expansionIntentRecords (s : Pool) : Except Err (AList fun _ : String => ExpansionIntent) :=
  collectIntents validateExpansionIntent ExpansionIntent.volumeId
    (.value "Duplicate expansion intent for volume ID") s.expansions.entries ∅

/-- The metadata of an unfinished delete or reclaim. -/
abbrev Metadata.IsTombstone (m : Metadata) : Prop := m.state = some .deleting ∨ m.state = some .reclaiming

/-- The check of the scan for a tombstone whose payload is gone. -/
def payloadIsGone (payloads : Table Payload) (p : Path) (metadata : Metadata) (volumeId : String) : Except Err Bool :=
  if metadata.IsTombstone then do
    let payloadPath ← deleteTombstonePayloadPath p metadata volumeId
    pure (!payloadExists payloads payloadPath)
  else pure false

/-- The metadata files of the scan, with the IDs seen so far. -/
def collectMetadata (payloads : Table Payload) : List (Sigma fun _ : Path => Metadata) → List String → CapacityRecords →
    Except Err CapacityRecords
  | [], _, records => pure records
  | ⟨p, metadata⟩ :: files, seenIds, records =>
    if metadata.size ≤ 0 then throw (.value "PV metadata contains an invalid size")
    else do
      let (volumeId, legacyAlias) ← capacityRecordIdentity p metadata
      if volumeId ∈ seenIds then throw (.value "Duplicate PV metadata for volume ID")
      else
        if ← payloadIsGone payloads p metadata volumeId then
          collectMetadata payloads files (volumeId :: seenIds)
            { records with tombstones := volumeId :: (legacyAlias.toList ++ records.tombstones) }
        else
          collectMetadata payloads files (volumeId :: seenIds)
            { records with
              reservations := records.reservations.insert volumeId metadata.size
              aliases := match legacyAlias with
                | some a => records.aliases.insert volumeId a
                | none => records.aliases }

/-- Intents of one kind over the reservations so far: each must fit them, and then reserves its own size. -/
def overlayIntents {ι : Type} (fits : ι → Int → Bool) (reservedSize : ι → Int) (mismatch : Err)
    (tombstones : List String) : List (Sigma fun _ : String => ι) → Rows → Except Err Rows
  | [], reservations => pure reservations
  | ⟨volumeId, intent⟩ :: rest, reservations =>
    if volumeId ∈ tombstones then overlayIntents fits reservedSize mismatch tombstones rest reservations
    else if (reservations.lookup volumeId).any (!fits intent ·) then throw mismatch
    else
      overlayIntents fits reservedSize mismatch tombstones rest (reservations.insert volumeId (reservedSize intent))

def overlayCreations : List String → List (Sigma fun _ : String => CreationIntent) → Rows → Except Err Rows :=
  overlayIntents (fun intent committedSize => committedSize = intent.size) CreationIntent.size
    (.value "Creation intent does not match committed metadata for volume ID")

def overlayExpansions : List String → List (Sigma fun _ : String => ExpansionIntent) → Rows → Except Err Rows :=
  overlayIntents (fun intent committedSize => committedSize = intent.fromSize ∨ committedSize = intent.toSize)
    ExpansionIntent.toSize (.value "Expansion intent does not match committed metadata for volume ID")

/-- `_capacity_metadata_records` -/
def capacityMetadataRecords (s : Pool) : Except Err CapacityRecords := do
  let creationIntents ← creationIntentRecords s
  let expansionIntents ← expansionIntentRecords s
  let records ← collectMetadata s.payloads s.metadata.entries [] {}
  let reservations ← overlayCreations records.tombstones creationIntents.entries records.reservations
  let reservations ← overlayExpansions records.tombstones expansionIntents.entries reservations
  pure { records with reservations }

end Kadalu
