import ExtManager.Contract.Basic
import ExtManager.Crash.Basic

inductive GateState
  | predecessorOpen
  | candidateStaged
  | candidateClosed
  | opening
  | candidateOpen
  | draining
  | rolledBack
  | failedSafe
  | safetyUnknown
  deriving DecidableEq, Repr

def GateState.value : GateState → String
  | predecessorOpen => "PREDECESSOR_OPEN"
  | candidateStaged => "CANDIDATE_STAGED"
  | candidateClosed => "CANDIDATE_CLOSED"
  | opening         => "OPENING"
  | candidateOpen   => "CANDIDATE_OPEN"
  | draining        => "DRAINING"
  | rolledBack      => "ROLLED_BACK"
  | failedSafe      => "FAILED_SAFE"
  | safetyUnknown   => "SAFETY_UNKNOWN"

-- `_ALLOWED`.
def GateState.allowed : GateState → List GateState
  | predecessorOpen => [candidateStaged, failedSafe, safetyUnknown]
  | candidateStaged => [candidateClosed, rolledBack, failedSafe, safetyUnknown]
  | candidateClosed => [opening, rolledBack, failedSafe, safetyUnknown]
  | opening         => [candidateOpen, failedSafe, safetyUnknown]
  | candidateOpen   => [draining, rolledBack, failedSafe, safetyUnknown]
  | draining        => [candidateOpen, rolledBack, failedSafe, safetyUnknown]
  | rolledBack | failedSafe | safetyUnknown => []

-- The check of `_transition`: a transition to the current state is always accepted.
def GateState.accepts (current target : GateState) : Bool :=
  target = current || target ∈ current.allowed

-- The states in which `observe` turns a new request away before it looks at the route.
def GateState.blocked : GateState → Bool
  | opening | rolledBack | failedSafe | safetyUnknown => true
  | _                                                 => false

-- The states in which `observe` expects the predecessor's route.
def GateState.beforeOpen : GateState → Bool
  | predecessorOpen | candidateStaged | candidateClosed => true
  | _                                                   => false

inductive RollbackClass
  | restoredStrong
  | behavioral
  | failedSafe
  | safetyUnknown
  deriving DecidableEq, Repr

def RollbackClass.value : RollbackClass → String
  | restoredStrong => "RESTORED_STRONG"
  | behavioral     => "BEHAVIORAL"
  | failedSafe     => "FAILED_SAFE"
  | safetyUnknown  => "SAFETY_UNKNOWN"

-- The gate state in which a rollback with this outcome ends.
def RollbackClass.target : RollbackClass → GateState
  | restoredStrong | behavioral => .rolledBack
  | failedSafe                  => .failedSafe
  | safetyUnknown               => .safetyUnknown

structure AdmissionRequest where
  requestId  : String
  admittedAt : Int
  deriving DecidableEq

structure AdmissionResult where
  finishedAt : Int
  result     : Option String := none
  abort      : Option String := none
  deriving DecidableEq

-- A `snapshot` of `None` is `null`.
structure RouteState where
  generation : Option Int
  fence      : String
  snapshot   : Json
  deriving DecidableEq

namespace RouteState

def asdict (r : RouteState) : Json :=
  .obj [("fence", .str r.fence), ("generation", .ofOption .int r.generation),
    ("snapshot", r.snapshot)]

def closed : RouteState where
  generation := none
  fence      := "closed"
  snapshot   := .null

-- `actual.generation is None and actual.fence == "closed"`.
def isClosed (r : RouteState) : Bool :=
  r.generation = none && r.fence = "closed"

end RouteState

structure LeaseGrant where
  holder       : String
  fencingToken : Int
  expiresAt    : Int
  deriving DecidableEq

def LeaseGrant.asdict (l : LeaseGrant) : Json :=
  .obj [("expires_at", .int l.expiresAt), ("fencing_token", .int l.fencingToken),
    ("holder", .str l.holder)]

structure OpenProof where
  planId          : String
  generation      : Int
  evidenceCount   : Int
  evidenceDigest  : String
  coverageDigest  : String
  lease           : LeaseGrant
  candidateDigest : String
  deriving DecidableEq

-- The fields of `asdict(proof)`.
def OpenProof.fields (p : OpenProof) : List (String × Json) :=
  [("candidate_digest", .str p.candidateDigest), ("coverage_digest", .str p.coverageDigest),
    ("evidence_count", .int p.evidenceCount), ("evidence_digest", .str p.evidenceDigest),
    ("generation", .int p.generation), ("lease", p.lease.asdict), ("plan_id", .str p.planId)]

structure BehavioralOracleResult where
  equivalent         : Bool
  observationsDigest : String
  oracle             : String
  deriving DecidableEq

def BehavioralOracleResult.asdict (b : BehavioralOracleResult) : Json :=
  .obj [("equivalent", .bool b.equivalent), ("observations_digest", .str b.observationsDigest),
    ("oracle", .str b.oracle)]

-- The oracle's part of what makes a rollback `BEHAVIORAL`.
def BehavioralOracleResult.accepts (oracle : Option BehavioralOracleResult) : Bool :=
  oracle.any fun o =>
    o.equivalent && o.observationsDigest.startsWith "sha256:" && o.oracle ≠ ""

structure FailCloseResult where
  classification : RollbackClass
  actualRoute    : Option RouteState
  error          : Option String
  deriving DecidableEq

-- What the gate uses of a traffic adapter. A call may raise, and it may change the adapter either
-- way. `authority` is the grant that the adapter's lease authority currently holds.
class TrafficAdapter (τ : Type) where
  route             : τ → RouteState
  authority         : τ → LeaseGrant
  behavioralRestore : τ → Bool
  close             : Int → τ → Except Exc Unit × τ
  «open»            : Int → String → Json → LeaseGrant → Int → τ → Except Exc Unit × τ
  closeAll          : τ → Except Exc Unit × τ
  restore           : Int → String → Json → τ → Except Exc RouteState × τ
  leaseValid        : LeaseGrant → Int → τ → Bool
  queryRoute        : τ → Except Exc RouteState × τ

structure DeterministicTrafficAdapter where
  route             : RouteState
  authority         : LeaseGrant
  faults            : List String
  behavioralRestore : Bool
  rollbackFails     : Bool
  deriving DecidableEq

namespace DeterministicTrafficAdapter

-- `_hit`, followed by `k` where the point is not a fault.
def hit {α : Type} (point : String) (a : DeterministicTrafficAdapter)
    (k : DeterministicTrafficAdapter → Except Exc α × DeterministicTrafficAdapter) :
    Except Exc α × DeterministicTrafficAdapter :=
  if point ∈ a.faults then
    (.error (.injectedCrash point), { a with faults := a.faults.filter (· ≠ point) })
  else
    k a

def close (_generation : Int) (a : DeterministicTrafficAdapter) :
    Except Exc Unit × DeterministicTrafficAdapter :=
  a.hit "close" fun a => (.ok (), a)

def «open» (generation : Int) (fence : String) (snapshot : Json) (grant : LeaseGrant) (now : Int)
    (a : DeterministicTrafficAdapter) : Except Exc Unit × DeterministicTrafficAdapter :=
  a.hit "open.before" fun a =>
    if a.authority ≠ grant ∨ grant.expiresAt < now then
      (.error (.gate "lease changed or expired before traffic open"), a)
    else
      { a with route := ⟨some generation, fence, snapshot⟩ }.hit "open.after" fun a => (.ok (), a)

def closeAll (a : DeterministicTrafficAdapter) : Except Exc Unit × DeterministicTrafficAdapter :=
  a.hit "close_all" fun a => (.ok (), { a with route := .closed })

def restore (generation : Int) (fence : String) (snapshot : Json)
    (a : DeterministicTrafficAdapter) : Except Exc RouteState × DeterministicTrafficAdapter :=
  if a.rollbackFails then
    (.error (.gate "rollback failed"), a)
  else
    let restored :=
      if a.behavioralRestore then .obj [("behaviorally_equivalent", .bool true)] else snapshot
    (.ok ⟨some generation, fence, restored⟩,
      { a with route := ⟨some generation, fence, restored⟩ })

def leaseValid (grant : LeaseGrant) (now : Int) (a : DeterministicTrafficAdapter) : Bool :=
  a.authority = grant && grant.expiresAt ≥ now

def queryRoute (a : DeterministicTrafficAdapter) :
    Except Exc RouteState × DeterministicTrafficAdapter :=
  a.hit "route.query" fun a => (.ok a.route, a)

instance : TrafficAdapter DeterministicTrafficAdapter where
  route             := DeterministicTrafficAdapter.route
  authority         := DeterministicTrafficAdapter.authority
  behavioralRestore := DeterministicTrafficAdapter.behavioralRestore
  close             := DeterministicTrafficAdapter.close
  «open»            := DeterministicTrafficAdapter.open
  closeAll          := DeterministicTrafficAdapter.closeAll
  restore           := DeterministicTrafficAdapter.restore
  leaseValid        := DeterministicTrafficAdapter.leaseValid
  queryRoute        := DeterministicTrafficAdapter.queryRoute

end DeterministicTrafficAdapter

inductive GateKind
  | intent
  | receipt
  deriving DecidableEq, Repr

inductive GateOperation
  | stage
  | close
  | «open»
  | openReconcile
  | openReconcileCloseAll
  | drain
  | rollback
  | failClose
  deriving DecidableEq, Repr

-- The part of an operation id before the colon.
inductive GateScope
  | stage
  | close
  | «open»
  | openReconcileClose
  | drain
  | rollback
  | failClose
  deriving DecidableEq, Repr

-- `operation.split('.')[0]`.
def GateOperation.scope : GateOperation → GateScope
  | .stage                                          => .stage
  | .close                                          => .close
  | .open | .openReconcile | .openReconcileCloseAll => .open
  | .drain                                          => .drain
  | .rollback                                       => .rollback
  | .failClose                                      => .failClose

structure OperationId where
  scope      : GateScope
  generation : Int
  deriving DecidableEq

-- The one row of `gate_state`. JSON columns hold the decoded value.
structure GateRow where
  state                     : GateState
  predecessorGeneration     : Int
  candidateGeneration       : Int
  predecessor               : Json
  candidate                 : Json
  routeGeneration           : Option Int
  routeFence                : String
  lease                     : LeaseGrant
  transitionSeq             : Nat
  revision                  : Nat
  schemaVersion             : Nat
  proofDigest               : Option String
  candidateDigest           : String
  observedCandidateDigest   : Option String
  predecessorDigest         : String
  observedPredecessorDigest : Option String
  deriving DecidableEq

-- A row of `gate_transition`.
structure GateTransition where
  seq         : Nat
  generation  : Int
  kind        : GateKind
  operation   : GateOperation
  operationId : OperationId
  fromState   : Option GateState
  toState     : Option GateState
  fence       : Option String
  detail      : Json
  deriving DecidableEq

structure Admission where
  requestId        : String
  routeEpoch       : String
  chosenGeneration : Int
  admittedAt       : Int
  finishedAt       : Option Int
  result           : Option String
  abort            : Option String
  transitionSeq    : Nat
  deriving DecidableEq

inductive AdmissionEventKind
  | admission
  | finish
  deriving DecidableEq, Repr

structure AdmissionEvent where
  requestId        : String
  kind             : AdmissionEventKind
  chosenGeneration : Int
  routeEpoch       : String
  time             : Int
  transitionSeq    : Nat
  detail           : Json
  deriving DecidableEq

-- The gate's database. The tables that only grow are kept with their newest row first.
structure GateDb where
  row             : Option GateRow
  transitions     : List GateTransition
  admissions      : List Admission
  admissionEvents : List AdmissionEvent
  deriving DecidableEq

-- A gate in its surroundings: the durable tables, the adapter, the fault points of the gate object
-- and the readings of its clock. `reads` are the routes that the current operation has read from
-- the adapter, the last one first.
structure Gate (τ : Type) where
  db        : GateDb
  traffic   : τ
  authority : Option LeaseGrant
  faults    : List String
  clock     : Nat → Int
  ticks     : Nat
  reads     : List RouteState

namespace Gate

variable {τ : Type}

@[simps]
def setDb (g : Gate τ) (db : GateDb) : Gate τ :=
  { g with db := db }

@[simps]
def setTraffic (g : Gate τ) (t : τ) : Gate τ :=
  { g with traffic := t }

@[simps]
def setFaults (g : Gate τ) (faults : List String) : Gate τ :=
  { g with faults := faults }

@[simps]
def tick (g : Gate τ) : Gate τ :=
  { g with ticks := g.ticks + 1 }

@[simps]
def addRead (g : Gate τ) (r : RouteState) : Gate τ :=
  { g with reads := r :: g.reads }

end Gate
