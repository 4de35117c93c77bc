import Kadalu.Pool.Steps

/-!
# Ownership of a dedicated pool

A single-PV pool carries its owner in an extended attribute of its mount root. The attribute is created once, and every
change of it happens under the lock of the mount root (`PoolLock.singlePv`); a thread that holds the lock may take it
again.
-/

namespace Kadalu

open Durable

def SINGLE_PV_CLAIM_VERSION : Int := 1

/-- `read_single_pv_claim` -/
def readSinglePvClaim (s : Pool) : Except Err (Option Claim) :=
  match s.claim with
  | none => pure none
  | some claim =>
    if claim.version = SINGLE_PV_CLAIM_VERSION && isValidCsiIdentifier claim.volumeId && decide (0 < claim.size) then
      pure (some claim)
    else throw (.value "Invalid single-PV ownership marker")

/-- `os.setxattr` with `XATTR_CREATE`; false when the attribute exists. -/
def createClaim (claim : Claim) : PoolProg Bool :=
  fileStep fun s => if s.claim.isSome then pure (false, s) else pure (true, { s with claim := some claim })

/-- `os.setxattr` with `XATTR_REPLACE` -/
def replaceClaim (claim : Claim) : PoolProg Unit :=
  update fun s => if s.claim.isNone then throw .os else pure { s with claim := some claim }

/-- `single_pv_operation_lock` -/
def singlePvOperationLock {α : Type} (body : PoolProg α) : PoolProg α := Prog.withLock .singlePv Err.isOs body

/-- `_pool_has_unclaimed_data`: anything but the empty bookkeeping directories. -/
def poolHasUnclaimedData (s : Pool) : Bool :=
  !(s.data.isEmpty && s.metadata.entries.isEmpty && s.creations.entries.isEmpty && s.expansions.entries.isEmpty &&
    s.payloads.entries.isEmpty && s.rows.entries.isEmpty && s.summary.isNone)

/-! ## Claiming -/

/-- An existing claim serves its own active volume only. -/
def checkExistingClaim (existing : Claim) (volumeId : String) : Except Err Claim :=
  if existing.state ≠ .active then throw (.retired volumeId)
  else if existing.volumeId ≠ volumeId then throw (.claimed existing.volumeId)
  else pure existing

/-- `_claim_single_pv_volume` -/
def claimSinglePvVolumeLocked (volumeId : String) (size : Int) (allowExistingData : Bool) : PoolProg Claim := do
  let claim : Claim := { volumeId, size, state := .active, version := SINGLE_PV_CLAIM_VERSION }
  match ← readPool readSinglePvClaim with
  | some existing => Prog.ofExcept (checkExistingClaim existing volumeId)
  | none =>
    let unclaimedData ←
      (if allowExistingData then pure false else readPool fun s => pure (poolHasUnclaimedData s) : PoolProg Bool)
    if unclaimedData then
      throw (.singlePvNotEmpty "A non-empty pool cannot be assigned to a new single-PV volume")
    else if ← createClaim claim then pure claim
    else
      match ← readPool readSinglePvClaim with
      | some existing => Prog.ofExcept (checkExistingClaim existing volumeId)
      | none => throw .os

/-- `claim_single_pv_volume` -/
def claimSinglePvVolume (volumeId : String) (size : Int) : PoolProg Claim :=
  singlePvOperationLock (claimSinglePvVolumeLocked volumeId size false)

/-- `single_pv_claim_matches` -/
def singlePvClaimMatches (volumeId : String) : PoolProg Bool := do
  let claim ← readPool readSinglePvClaim
  pure (claim.any fun claim => claim.state = .active && claim.volumeId = volumeId)

/-- `_ensure_single_pv_claim` -/
def ensureSinglePvClaimLocked (volumeId : String) (legacyVolumeId : Option String) : PoolProg Bool := do
  match ← readPool readSinglePvClaim with
  | some claim => pure (claim.state = .active && claim.volumeId = volumeId)
  | none =>
    if legacyVolumeId ≠ some volumeId then pure false
    else
      let capacity ← readPool fun s => pure s.capacity
      tryCatch (do
        let claim ← claimSinglePvVolumeLocked volumeId capacity true
        pure (claim.state = .active && claim.volumeId = volumeId)) fun
        | .claimed _ | .retired _ => pure false
        | e => throw e

/-- `ensure_single_pv_claim` -/
def ensureSinglePvClaim (volumeId : String) (legacyVolumeId : Option String) : PoolProg Bool :=
  singlePvOperationLock (ensureSinglePvClaimLocked volumeId legacyVolumeId)

/-! ## Deleting -/

/-- `begin_single_pv_delete` -/
def beginSinglePvDelete (volumeId : String) : PoolProg Unit := do
  match ← readPool readSinglePvClaim with
  | none => throw (.value "Single-PV ownership marker is missing")
  | some claim =>
    if claim.volumeId ≠ volumeId then throw (.claimed claim.volumeId)
    else
      match claim.state with
      | .active => replaceClaim { claim with state := .deleting }
      | .deleting | .retired => pure ()

/-- The entries of a pool that purging has left so far. -/
def partialPurges (s : Pool) : List Pool := s.data.tails.map fun rest => { s with data := rest }

/-- `purge_single_pv_pool`: remove every entry, then require that none is left. -/
def purgeSinglePvPool : PoolProg Unit := do
  Prog.step (fun s => (.ok (), { s with metadata := ∅, creations := ∅, expansions := ∅, payloads := ∅, rows := ∅,
                                         summary := none, data := [] }))
    partialPurges Err.isOs
  let leftover ← readPool fun s => pure (poolHasUnclaimedData s)
  if leftover then throw .os else pure ()

/-- `retire_single_pv_claim` -/
def retireSinglePvClaim (volumeId : String) : PoolProg Unit := do
  match ← readPool readSinglePvClaim with
  | none => pure ()
  | some claim =>
    if claim.volumeId ≠ volumeId then throw (.claimed claim.volumeId)
    else if claim.state = .active then throw (.value "Single-PV ownership was not marked deleting")
    else replaceClaim { claim with state := .retired }

/-- `_delete_single_pv_volume_locked` -/
def deleteSinglePvVolumeLocked (volumeId : String) (legacyVolumeId : Option String) : PoolProg Unit := do
  match ← readPool readSinglePvClaim with
  | none =>
    if ← ensureSinglePvClaim volumeId legacyVolumeId then pure ()
    else throw (.value "Single-PV pool ownership could not be verified")
  | some claim => if claim.volumeId ≠ volumeId then throw (.claimed claim.volumeId) else pure ()
  beginSinglePvDelete volumeId
  purgeSinglePvPool
  retireSinglePvClaim volumeId

/-- `_delete_single_pv_volume` -/
def deleteSinglePvVolume (volumeId : String) (legacyVolumeId : Option String) : PoolProg Unit :=
  singlePvOperationLock (deleteSinglePvVolumeLocked volumeId legacyVolumeId)

end Kadalu
