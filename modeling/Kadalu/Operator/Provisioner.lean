import Kadalu.Operator.Cluster

/-!
# The CSI provisioner

While records are changed in ways that new volumes must not race with, the operator keeps the CSI provisioner at zero
replicas: the provisioner is fenced. `quiesceCsiProvisioner` returns only when no pod of it is left.
-/

namespace Kadalu.Operator

open Calls Calls.Prog

def CSI_PROVISIONER : String := "kadalu-csi-provisioner"

def CSI_QUIESCE_TIMEOUT_SECONDS : Int := 120

/-- The default of `CSI_PROVISIONER_ROLLOUT_TIMEOUT_SECONDS` -/
def CSI_PROVISIONER_ROLLOUT_TIMEOUT_SECONDS : Int := 300

/-- A pod of the provisioner. -/
def isProvisionerPod (pod : String) : Bool := (CSI_PROVISIONER ++ "-").toList.isPrefixOf pod.toList

def OpErr.notFound : OpErr → Bool
  | api status => status = some 404
  | _ => false

/-- The loop of `quiesce_csi_provisioner` -/
def quiesceRounds (deadline : Int) : Nat → PoolHandler Unit
  | 0 => .cut
  | fuel + 1 => do
    let pods ← request Call.listPods
    if pods.filter isProvisionerPod = [] then pure ()
    else
      let now ← Call.now
      if deadline ≤ now then throw .timeout
      else
        request Call.sleep
        quiesceRounds deadline fuel

/-- `quiesce_csi_provisioner` -/
def quiesceCsiProvisioner (fuel : Nat) : PoolHandler Unit := do
  tryCatch (request (Call.setReplicas 0)) fun e => if e.notFound then pure () else throw e
  let now ← Call.now
  quiesceRounds (now + CSI_QUIESCE_TIMEOUT_SECONDS) fuel

/-- `resume_csi_provisioner` -/
def resumeCsiProvisioner : PoolHandler Unit := request (Call.setReplicas 1)

/-- The loop of `wait_for_csi_provisioner_rollout` -/
def provisionerRounds (deadline : Int) : Nat → PoolHandler Unit
  | 0 => .cut
  | fuel + 1 => do
    let statefulSet ← request Call.readProvisioner
    if serverStatefulsetRolloutComplete statefulSet then pure ()
    else
      let now ← Call.now
      if deadline ≤ now then throw .timeout
      else
        request Call.sleep
        provisionerRounds deadline fuel

/-- `wait_for_csi_provisioner_rollout` -/
def waitForCsiProvisionerRollout (fuel : Nat) : PoolHandler Unit := do
  let now ← Call.now
  provisionerRounds (now + CSI_PROVISIONER_ROLLOUT_TIMEOUT_SECONDS) fuel

/-- The operator becomes unready and fences the provisioner. -/
def fence (fuel : Nat) : PoolHandler Unit := do
  request Call.clearReady
  quiesceCsiProvisioner fuel

/-- The end of a fence that the handler set itself: the provisioner comes back, and with it the readiness if the handler
succeeded; what goes wrong here fences it again. -/
def unfence (fuel : Nat) (succeeded : Bool) : PoolHandler Unit :=
  tryCatch
    (do
      resumeCsiProvisioner
      waitForCsiProvisionerRollout fuel
      if succeeded then request Call.markReady)
    fun e => do
      fence fuel
      throw e

end Kadalu.Operator
