import Kadalu.Pool.State

/-!
# Create and expansion intents

An intent is a small file beside the metadata it announces: it reserves the bytes of a create or of an expansion before
any payload changes. Every reader validates it first. `p` is the path of the intent below `info`, without its suffix.
-/

namespace Kadalu

variable [VolnameHash]

def CREATION_INTENT_VERSION : Int := 1
def EXPANSION_INTENT_VERSION : Int := 1

/-- A lower-case hexadecimal digit. -/
def isHexDigit (c : Char) : Bool := ('0' ≤ c && c ≤ '9') || ('a' ≤ c && c ≤ 'f')

/-- `_canonical_uuid`: five groups of lower-case hexadecimal digits. -/
def canonicalUuid (value : String) : Bool :=
  let groups := value.toList.splitOn '-'
  groups.map List.length = [8, 4, 4, 4, 12] && groups.flatten.all isHexDigit

/-! ## Creation intents -/

/-- `_volume_creation_intent` -/
def volumeCreationIntent (volname : String) (pvtype : PvType) (volpath : Path) (size : Int)
    (incarnation : Option String) : CreationIntent :=
  { path := volpath, pvtype, size, version := CREATION_INTENT_VERSION, volumeId := volname, incarnation }

/-- `_creation_intent_matches` -/
def creationIntentMatches (intent : CreationIntent) (volumeId : String) (pvtype : PvType) (volpath : Path)
    (size : Int) : Bool :=
  intent = volumeCreationIntent volumeId pvtype volpath size intent.incarnation

/-- `validate_committed_creation`. Records of version 1 carry no incarnation and match every generation. -/
def validateCommittedCreation (size : Int) (incarnation : Option String) (intent : CreationIntent) : Except Err Unit :=
  if size ≠ intent.size then throw (.value "Creation intent does not match committed metadata")
  else
    match incarnation, intent.incarnation with
    | some metadataIncarnation, some intentIncarnation =>
      if metadataIncarnation ≠ intentIncarnation then
        throw (.value "Creation intent belongs to a different volume generation")
      else pure ()
    | _, _ => pure ()

/-- `_validate_creation_intent` -/
def validateCreationIntent (p : Path) (intent : CreationIntent) : Except Err Unit :=
  if intent.version ≠ CREATION_INTENT_VERSION ∨ ¬isValidCsiIdentifier intent.volumeId ∨ intent.size ≤ 0 then
    throw (.value "Creation intent contains invalid identity or size")
  else if ¬intent.incarnation.all canonicalUuid then
    throw (.value "Creation intent contains an invalid incarnation")
  else do
    let canonical ← canonicalPath intent.pvtype intent.volumeId
    if intent.path ≠ canonical then throw (.value "Creation intent volume path is not canonical")
    else if p ≠ canonical then throw (.value "Creation intent is outside its canonical path")
    else pure ()

/-- `read_volume_creation_intent` -/
def readVolumeCreationIntent (s : Pool) (volumeId : String) (pvtype : PvType) (volpath : Path) :
    Except Err (Option CreationIntent) :=
  match s.creations.lookup volpath with
  | none => pure none
  | some intent => do
    validateCreationIntent volpath intent
    if !creationIntentMatches intent volumeId pvtype volpath intent.size then
      throw (.value "Creation intent does not match the volume")
    else pure (some intent)

/-- `prepare_volume_creation`: an existing intent is checked, a new one linked in one atomic step. -/
def prepareVolumeCreation (s : Pool) (volumeId : String) (pvtype : PvType) (volpath : Path) (size : Int)
    (uuid : String) : Except Err (CreationIntent × Pool) := do
  let canonical ← canonicalPath pvtype volumeId
  if volpath ≠ canonical ∨ size ≤ 0 then throw (.value "Creation intent contains invalid path or size")
  else
    match s.creations.lookup volpath with
    | some existing => do
      validateCreationIntent volpath existing
      if !creationIntentMatches existing volumeId pvtype volpath size then
        throw (.value "Pending create does not match the requested identity, type, path, or size")
      else pure (existing, s)
    | none =>
      let expected := volumeCreationIntent volumeId pvtype volpath size (some uuid)
      pure (expected, { s with creations := s.creations.insert volpath expected })

/-- `finish_volume_creation` -/
def finishVolumeCreation (s : Pool) (volumeId : String) (pvtype : PvType) (volpath : Path) (intent : CreationIntent) :
    Except Err Pool := do
  let current ← readVolumeCreationIntent s volumeId pvtype volpath
  if current ≠ some intent then throw (.value "Pending create changed before finalization")
  else pure { s with creations := s.creations.erase volpath }

/-! ## Expansion intents -/

/-- `_expansion_intent` -/
def expansionIntent (volumeId : String) (pvtype : PvType) (volpath : Path) (fromSize toSize : Int) : ExpansionIntent :=
  { fromSize, path := volpath, pvtype, toSize, version := EXPANSION_INTENT_VERSION, volumeId }

/-- `_validate_expansion_intent` -/
def validateExpansionIntent (p : Path) (intent : ExpansionIntent) : Except Err Unit :=
  if intent.version ≠ EXPANSION_INTENT_VERSION ∨ ¬isValidCsiIdentifier intent.volumeId then
    throw (.value "Expansion intent contains invalid identity or sizes")
  else do
    let paths ← canonicalVolumePaths intent.volumeId intent.pvtype
    if intent.path ∉ paths ∨ ¬(0 < intent.fromSize ∧ 0 < intent.toSize ∧ intent.fromSize < intent.toSize) then
      throw (.value "Expansion intent contains invalid identity or sizes")
    else if p ≠ intent.path then throw (.value "Expansion intent is outside its canonical path")
    else pure ()

/-- `read_volume_expansion_intent` -/
def readVolumeExpansionIntent (s : Pool) (volumeId : String) (pvtype : PvType) (volpath : Path) :
    Except Err (Option ExpansionIntent) :=
  match s.expansions.lookup volpath with
  | none => pure none
  | some intent => do
    validateExpansionIntent volpath intent
    if intent.volumeId ≠ volumeId ∨ intent.pvtype ≠ pvtype ∨ intent.path ≠ volpath then
      throw (.value "Expansion intent does not match the volume")
    else pure (some intent)

/-- `prepare_volume_expansion` -/
def prepareVolumeExpansion (s : Pool) (volumeId : String) (pvtype : PvType) (volpath : Path) (fromSize toSize : Int) :
    Except Err (ExpansionIntent × Pool) := do
  if volpath ∉ (← canonicalVolumePaths volumeId pvtype) then throw (.value "Expansion volume path is not canonical")
  else
    match s.metadata.lookup volpath with
    | none => throw (.value "Expansion metadata is missing")
    | some metadata =>
      if (metadata.size ≠ fromSize ∧ metadata.size ≠ toSize) ∨ metadata.pathPrefix ≠ some volpath.dirname ∨
          metadata.volumeId.getD volumeId ≠ volumeId ∨ metadata.state ≠ none then
        throw (.value "Expansion metadata does not match the request")
      else
        let expected := expansionIntent volumeId pvtype volpath fromSize toSize
        match s.expansions.lookup volpath with
        | some existing =>
          if existing ≠ expected then
            throw (.value "Pending expansion does not match the requested identity or sizes")
          else pure (expected, s)
        | none => pure (expected, { s with expansions := s.expansions.insert volpath expected })

/-- `finish_volume_expansion` -/
def finishVolumeExpansion (s : Pool) (volumeId : String) (pvtype : PvType) (volpath : Path) (intent : ExpansionIntent) :
    Except Err Pool := do
  let current ← readVolumeExpansionIntent s volumeId pvtype volpath
  if current ≠ some intent then throw (.value "Pending expansion changed before finalization")
  else pure { s with expansions := s.expansions.erase volpath }

end Kadalu
