import ExtManager.Gate.Steps

-- `TRANSITIONS`. No activation is ever `Resolved`, which is not a key of the table.
def State.transitions : State → List State
  | intent      => [planned]
  | resolved    => []
  | planned     => [preparing]
  | preparing   => [prepared, reconcile]
  | prepared    => [launching, rollback]
  | launching   => [observing, reconcile]
  | observing   => [commitReady, degraded, reconcile, rollback]
  | commitReady => [effective, reconcile, failedSafe]
  | effective   => [degraded, rollback]
  | degraded    => [reconcile, rollback]
  | reconcile   => [observing, rollback, failedSafe]
  | rollback    => [rolledBack, failedSafe, safetyUnknown]
  | rolledBack | failedSafe | safetyUnknown => []

-- The states in which evidence is taken and the inventory is refreshed.
def State.observable : State → Bool
  | observing | reconcile => true
  | _                     => false

inductive JournalKind
  | transition
  | wal
  | receipt
  | evidence
  | inventory
  | recovery
  deriving DecidableEq, Repr

structure JournalRow where
  planId    : String
  kind      : JournalKind
  operation : String
  detail    : Json
  deriving DecidableEq

structure Activation where
  plan     : Plan
  state    : State
  launchId : Option String
  deriving DecidableEq

structure EvidenceRow where
  nonce          : String
  planId         : String
  launchId       : String
  processKey     : String
  role           : String
  ordinal        : Int
  epoch          : Int
  obligationId   : String
  event          : String
  issuedAt       : Int
  expiresAt      : Int
  artifactId     : String
  authority      : String
  managerEpoch   : Int
  valid          : Bool
  issuer         : String
  kid            : String
  observedAt     : Int
  evidenceDigest : String
  artifactDigest : String

structure RollbackOutcome where
  planId  : String
  success : Bool
  detail  : Json

-- What has happened to the evidence. No table holds this.
inductive Event
  | booted
  | refreshed (planId : String)
  | accepted (planId : String) (managerEpoch : Int) (item : Attestation)

-- The tables of `SQLiteActivationStore`. A table with a primary key is a function of the key, the
-- journal and the outcomes are kept with their newest row first, and JSON columns hold the decoded
-- value. `history` is what has happened to the evidence, the last event first.
structure Store where
  generation   : Int
  managerEpoch : Int
  activation   : String → Option Activation
  journal      : List JournalRow
  inventory    : String → List ProcessIdentity
  evidence     : List EvidenceRow
  outcomes     : List RollbackOutcome
  history      : List Event

namespace Store

-- `INSERT OR IGNORE INTO meta VALUES (1, 0, 0)` over empty tables.
def new : Store where
  generation   := 0
  managerEpoch := 0
  activation   := fun _ => none
  journal      := []
  inventory    := fun _ => []
  evidence     := []
  outcomes     := []
  history      := []

def boot (s : Store) : Store :=
  { s with
    managerEpoch := s.managerEpoch + 1
    evidence     := s.evidence.map fun e => { e with valid := false }
    history      := .booted :: s.history }

-- `_row`.
def row (s : Store) (planId : String) : Except Exc Activation :=
  match s.activation planId with
  | some a => .ok a
  | none   => .error (.contract .unknownResource planId)

def setActivation (s : Store) (planId : String) (a : Option Activation) : Store :=
  { s with activation := fun id => if id = planId then a else s.activation id }

-- `_journal`.
def log (s : Store) (planId : String) (kind : JournalKind) (operation : String) (detail : Json) :
    Store :=
  { s with journal := ⟨planId, kind, operation, detail⟩ :: s.journal }

-- `_transition`.
def transition (s : Store) (planId : String) (target : State) : Except Exc Store :=
  match s.row planId with
  | .error e => .error e
  | .ok a    =>
    if target ∈ a.state.transitions then
      .ok ((s.setActivation planId (some { a with state := target })).log planId .transition
        target.value (.obj [("from", .str a.state.value)]))
    else
      .error (.contract .invalidTransition (a.state.value ++ " -> " ++ target.value))

def insertOutcome (s : Store) (planId : String) (success : Bool) (detail : Json) : Store :=
  { s with outcomes := ⟨planId, success, detail⟩ :: s.outcomes }

-- The two inserts of `plan`.
def insert [Sha256] (s : Store) (plan : Plan) : Except Exc Store :=
  match s.activation plan.planId with
  | some _ => .error (.integrity "UNIQUE constraint failed: activation.plan_id")
  | none   => .ok ((s.setActivation plan.planId (some ⟨plan, .planned, none⟩)).log plan.planId
      .transition "plan" (.obj [("state", .str "Planned")]))

-- The two deletes of `plan`.
def delete (s : Store) (planId : String) : Store :=
  { s.setActivation planId none with journal := s.journal.filter (·.planId ≠ planId) }

def processKey (p : ProcessIdentity) : String × Int :=
  (p.role, p.ordinal)

-- `DELETE FROM inventory` and the inserts that follow it.
def setInventory (s : Store) (planId : String) (processes : List ProcessIdentity) :
    Except Exc Store :=
  if (processes.map processKey).Nodup then
    .ok { s with inventory := fun id => if id = planId then processes else s.inventory id }
  else
    .error (.integrity
      "UNIQUE constraint failed: inventory.plan_id, inventory.role, inventory.ordinal")

def process? (s : Store) (planId role : String) (ordinal : Int) : Option ProcessIdentity :=
  (s.inventory planId).find? fun p => p.role = role ∧ p.ordinal = ordinal

-- `UPDATE evidence SET valid=0 WHERE plan_id=?`.
def invalidate (s : Store) (planId : String) : Store :=
  { s with
    evidence := s.evidence.map fun e => if e.planId = planId then { e with valid := false } else e
    history  := .refreshed planId :: s.history }

def evidenceRow (planId : String) (managerEpoch : Int) (item : Attestation) : EvidenceRow where
  nonce          := item.nonce
  planId         := planId
  launchId       := item.launchId
  processKey     := item.process.key
  role           := item.process.role
  ordinal        := item.process.ordinal
  epoch          := item.process.epoch
  obligationId   := item.obligationId
  event          := item.event
  issuedAt       := item.issuedAt
  expiresAt      := item.expiresAt
  artifactId     := item.artifactId
  authority      := item.authority
  managerEpoch   := managerEpoch
  valid          := true
  issuer         := item.issuer
  kid            := item.kid
  observedAt     := item.observedAt
  evidenceDigest := item.evidenceDigest
  artifactDigest := item.artifactDigest

-- The two inserts of `observe`.
def insertEvidence (s : Store) (planId : String) (managerEpoch : Int) (item : Attestation) :
    Except Exc Store :=
  if s.evidence.any (·.nonce = item.nonce) then
    .error (.contract .replayedNonce item.nonce)
  else
    .ok ({ s with
      evidence := evidenceRow planId managerEpoch item :: s.evidence
      history  := .accepted planId managerEpoch item :: s.history }.log planId .evidence item.event
        item.asdict)

-- `UPDATE meta SET generation=generation+1 WHERE generation=?`, whose row count is checked after it
-- together with the plan's own predecessor.
def bump (s : Store) (plan : Plan) (expected : Int) : Except Exc Store :=
  if s.generation = expected ∧ plan.predecessor.generation = expected then
    .ok { s with generation := s.generation + 1 }
  else
    .error (.contract .casMismatch (toString expected))

-- The rows that `_evidence_complete` and `_open_proof` select.
def validEvidence (s : Store) (planId : String) (managerEpoch : Int) : List EvidenceRow :=
  s.evidence.filter fun e => e.planId = planId ∧ e.valid ∧ e.managerEpoch = managerEpoch

-- `_evidence_complete`.
def evidenceComplete [Sha256] (s : Store) (managerEpoch : Int) (plan : Plan) (now : Int) : Bool :=
  plan.obligations ≠ [] && (plan.obligations.all fun o => o.requiredOrdinals ≠ []) &&
    plan.obligations.all fun o => o.requiredOrdinals.all fun ordinal =>
      match s.process? plan.planId o.role ordinal with
      | none   => false
      | some p => (s.validEvidence plan.planId managerEpoch).any fun e =>
        e.expiresAt ≥ now ∧ e.role = o.role ∧ e.ordinal = ordinal ∧ e.epoch = p.epoch ∧
          e.obligationId = o.obligationId ∧ e.event = o.event

-- The newest journal row of an operation, of whatever kind.
def latestDetail (s : Store) (planId operation : String) : Option Json :=
  (s.journal.find? fun r => r.planId = planId ∧ r.operation = operation).map (·.detail)

end Store

-- What the coordinator uses of a traffic gate that is no `ReferenceExposureGate`.
class TrafficGate (π : Type) where
  holdPredecessor : PredecessorSnapshot → π → Except Exc Unit × π
  activate        : Plan → π → Except Exc Unit × π
  restore         : PredecessorSnapshot → π → Except Exc Unit × π

structure FakeTrafficGate where
  activePlanId      : Option String
  predecessorPlanId : Option String
  deriving DecidableEq

namespace FakeTrafficGate

variable [Sha256]

def holdPredecessor (predecessor : PredecessorSnapshot) (_ : FakeTrafficGate) :
    Except Exc Unit × FakeTrafficGate :=
  (.ok (), ⟨predecessor.planId, predecessor.planId⟩)

def activate (plan : Plan) (t : FakeTrafficGate) : Except Exc Unit × FakeTrafficGate :=
  (.ok (), { t with activePlanId := some plan.planId })

def restore (predecessor : PredecessorSnapshot) (t : FakeTrafficGate) :
    Except Exc Unit × FakeTrafficGate :=
  (.ok (), { t with activePlanId := predecessor.planId })

instance : TrafficGate FakeTrafficGate where
  holdPredecessor := holdPredecessor
  activate        := activate
  restore         := restore

end FakeTrafficGate

inductive Traffic (τ π : Type)
  | exposure (gate : Gate τ)
  | plain (gate : π)

-- A coordinator's surroundings: the durable tables, the gate that it was given and the points of
-- its fault injector.
structure World (τ π : Type) where
  store   : Store
  traffic : Traffic τ π
  faults  : List String

namespace World

variable {τ π : Type}

@[simps]
def setStore (w : World τ π) (s : Store) : World τ π :=
  { w with store := s }

@[simps]
def setTraffic (w : World τ π) (t : Traffic τ π) : World τ π :=
  { w with traffic := t }

@[simps]
def setFaults (w : World τ π) (faults : List String) : World τ π :=
  { w with faults := faults }

end World

-- What one call of a coordinator finds: its manager epoch, whether its verifier is a
-- `SignedAttestationVerifier`, the time, and what its host, its verifier and its external service
-- answer. They may answer anything, and none of them touches the tables or the traffic.
structure Call where
  managerEpoch : Int
  signed       : Bool
  now          : Int
  prepare      : Plan → Except Exc (List (String × Json))
  launch       : Plan → String → Except Exc (List ProcessIdentity)
  hostRollback : PredecessorSnapshot → Except Exc (List (String × Json))
  verify       : Attestation → Int → Plan → Except Exc Unit
  leaseValid   : Plan → Bool

def FakeEvidenceVerifier.verify (item : Attestation) (now : Int) (_plan : Plan) : Except Exc Unit :=
  if item.authority ≠ "host-runtime" then
    .error (.contract .authorityViolation item.authority)
  else if item.issuedAt > now ∨ item.expiresAt < now then
    .error (.contract .staleEvidence item.nonce)
  else
    .ok ()
