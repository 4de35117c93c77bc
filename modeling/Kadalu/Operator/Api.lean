import Kadalu.Calls.Prog

/-!
# What the operator asks of its cluster

The operator talks to the Kubernetes API, to `kubectl`, to the heal command of the servers and to the clock. A request can
answer anything and can raise anything; the handlers are written against these answers.
-/

namespace Kadalu.Operator

/-- The exceptions of the operator, as far as its handlers tell them apart. -/
inductive OpErr where
  /-- `ApiException` with its `status` -/
  | api (status : Option Nat)
  /-- `ProtocolError` or `NewConnectionError` -/
  | connection
  /-- `TimeoutError` -/
  | timeout
  /-- `RuntimeError` -/
  | runtime (msg : String)
  /-- `ValueError` -/
  | value (msg : String)
  /-- `KeyError` -/
  | key (name : String)
  /-- `HealQueryError` -/
  | healQuery
  /-- any other exception -/
  | other
  deriving DecidableEq, Repr

/-- `metadata` of a StatefulSet -/
structure SetMetadata where
  generation : Option Int
  deriving DecidableEq, Repr

/-- `spec` of a StatefulSet -/
structure SetSpec where
  replicas : Option Int
  deriving DecidableEq, Repr

/-- `status` of a StatefulSet -/
structure SetStatus where
  observedGeneration : Option Int
  currentRevision : Option String
  updateRevision : Option String
  replicas : Option Int
  currentReplicas : Option Int
  updatedReplicas : Option Int
  readyReplicas : Option Int
  availableReplicas : Option Int
  deriving DecidableEq, Repr

/-- What the rollout checks read of a StatefulSet. -/
structure StatefulSet where
  metadata : Option SetMetadata
  spec : Option SetSpec
  status : Option SetStatus
  deriving DecidableEq, Repr

/-- Why a StatefulSet is read: for its existence, for whether it serves, or while its rollout is awaited. -/
inductive Purpose where
  | existing
  | serving
  | rollout
  deriving DecidableEq, Repr

/-- The requests of a rolling server upgrade. -/
inductive Request where
  | readStatefulSet (purpose : Purpose) (name : String)
  | applyService (volname : String)
  | applyServer (name : String)
  | monotonic
  | sleep
  | queryHeal (server : String)
  deriving DecidableEq, Repr

/-- The answers of the requests. -/
def Request.Answer : Request → Type
  | readStatefulSet _ _ => Option StatefulSet
  | monotonic => Int
  | queryHeal _ => String
  | applyService _ | applyServer _ | sleep => Unit

abbrev OpProg (α : Type) : Type := Calls.Prog Request Request.Answer OpErr α

namespace Request

def read (purpose : Purpose) (name : String) : OpProg (Option StatefulSet) :=
  Calls.Prog.request (readStatefulSet purpose name)

/-- `time.monotonic()` -/
def now : OpProg Int := Calls.Prog.request monotonic

/-- `time.sleep()` -/
def pause : OpProg Unit := Calls.Prog.request sleep

def heal (server : String) : OpProg String := Calls.Prog.request (queryHeal server)

/-- `kubectl apply` of a server's manifest -/
def applyServerManifest (name : String) : OpProg Unit := Calls.Prog.request (applyServer name)

/-- `kubectl apply` of the service of a pool -/
def applyServiceManifest (volname : String) : OpProg Unit := Calls.Prog.request (applyService volname)

end Request

/-- The requests of a run with their answers, the newest first. -/
abbrev OpHistory : Type := Calls.History Request Request.Answer OpErr

end Kadalu.Operator
