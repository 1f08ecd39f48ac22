import ExtManager.Gate.Rules

open Crash Prog Relation

namespace Gate

-- The public operations of the gate.
inductive Op
  | stage (candidate predecessor : Json)
  | close (generation : Int)
  | «open» (generation : Int) (proof : OpenProof)
  | drain (generation : Int)
  | observe (request : AdmissionRequest) (result : Option AdmissionResult)
  | rollback (generation : Int) (oracle : Option BehavioralOracleResult)
  | failClose (generation : Int) (reason : String)
  | reconcile

variable [Sha256] {τ : Type} [TrafficAdapter τ]

def Op.run : Op → M τ Unit
  | .stage candidate predecessor => void (Gate.stage candidate predecessor)
  | .close generation            => Gate.close generation
  | .open generation proof       => void (Gate.open generation proof)
  | .drain generation            => void (Gate.drain generation)
  | .observe request result      => void (Gate.observe request result)
  | .rollback generation oracle  => void (Gate.rollback generation oracle)
  | .failClose generation reason => void (Gate.failClose generation reason)
  | .reconcile                   => void Gate.reconcile

-- An operation starts without having read a route.
def start (g : Gate τ) : Gate τ :=
  { g with reads := [] }

def Op.ends (op : Op) (g : Gate τ) : List (Gate τ) :=
  (op.run g.start).ends

-- A call in `g` returned `a` and left the gate as `g'`.
def Returned {α : Type} (m : M τ α) (a : α) (g g' : Gate τ) : Prop :=
  (m g.start).value = .ok a ∧ (m g.start).state = g'

def state? (g : Gate τ) : Option GateState :=
  g.db.row.map (·.state)

-- `r` is the last route that was read from the adapter, and nothing was called since.
def Observed (g : Gate τ) (r : RouteState) : Prop :=
  g.reads.head? = some r ∧
    (TrafficAdapter.route g.traffic = r ∨ ∃ t, TrafficAdapter.queryRoute t = (.ok r, g.traffic))

-- The newest row is an intent of this operation.
def Announced (g : Gate τ) (operation : GateOperation) : Prop :=
  ∃ t ts, g.db.transitions = t :: ts ∧ t.operation = operation ∧ t.kind = .intent

-- The operation that started in `g₀` has not come to a decision in `g`.
def Undecided (g₀ g : Gate τ) : Prop :=
  g.state? = g₀.state? ∨ g.state? = some .opening

-- `reconcile` gets to the recovery of an open whose lease still holds.
structure Recovering (g : Gate τ) (row : GateRow) (intent : GateTransition)
    (proof : OpenProof × String) : Prop where
  row_eq     : g.db.getRow = .ok row
  opening    : row.state = .opening
  noFail     : g.db.pending .failClose = none
  noRecovery : g.db.pendingRecoveryClose = none
  noRollback : g.db.pending .rollback = none
  intent_eq  : g.db.latest .open .intent = some intent
  proof_eq   : OpenProof.ofDetail intent.detail = .ok proof
  digest     : proof.1.digest = proof.2
  lease      : proof.1.lease = row.lease
  valid      : TrafficAdapter.leaseValid proof.1.lease (g.clock g.ticks) g.traffic

-- The recovery of an open started in `g` does not find the candidate's route, closes all routes
-- without an error and then queries the route `r`, which leaves the adapter as `t`.
def UncheckedClose (g : Gate τ) (r : RouteState) (t : τ) : Prop :=
  ∃ row intent proof r₀ t₀ t₁, Recovering g row intent proof ∧
    TrafficAdapter.queryRoute g.traffic = (.ok r₀, t₀) ∧
    candidateMismatch row.candidateGeneration intent.fence proof.1.candidateDigest r₀ ∧
    TrafficAdapter.closeAll t₀ = (.ok (), t₁) ∧ TrafficAdapter.queryRoute t₁ = (.ok r, t)

-- Where `close` can die before the close that it makes of a route that is not the predecessor's.
def closePoints : List String :=
  ["close.before_effect", "close.after_effect", "close.after_query", "fail_close.before_effect"]

-- Why an operation calls `close_all`.
inductive CloseCause (op : Op) (g₀ g : Gate τ) (row : GateRow) : Prop
  | failClose {reason} (op_eq : op = .failClose row.candidateGeneration reason)
      (announced : g.Announced .failClose) (alive : "fail_close.before_effect" ∉ g₀.faults)
      (uncalled : g.traffic = g₀.traffic)
  | close {r t} (op_eq : op = .close row.candidateGeneration) (kept : g.db.row = g₀.db.row)
      (announced : g.Announced .failClose)
      (query : TrafficAdapter.queryRoute t = (.ok r, g.traffic)) (mismatch : predecessorMismatch row r)
      (alive : ∀ point ∈ closePoints, point ∉ g₀.faults)
      (closed : TrafficAdapter.close row.candidateGeneration g₀.traffic = (.ok (), t))
  | observe (before : row.state.beforeOpen) (announced : g.Announced .failClose)
      (mismatch : continuityMismatch row (TrafficAdapter.route g.traffic))
  | opening (state : row.state = .opening)
  | rollback {oracle v} (op_eq : op = .rollback row.candidateGeneration oracle)
      (announced : g.Announced .rollback) (restored : restoreCall row g₀.traffic = (v, g.traffic))
      (lost : ∀ r, v = .ok r → ¬isPredecessor row r) (alive : "rollback.after_intent" ∉ g₀.faults)
  | recovery (pending : g.db.pendingRecoveryClose.isSome)

-- What lets an operation end the activation in a state.
inductive Verdict (op : Op) (g₀ g : Gate τ) (row : GateRow) : GateOperation → GateState → Prop
  | restored {r} : g.Observed r → isPredecessor row r → Verdict op g₀ g row .rollback .rolledBack
  | rolledBack {n oracle r} : op = .rollback n oracle → restoreCall row g₀.traffic = (.ok r, g.traffic) →
      (isPredecessor row r ∨
        (BehavioralOracleResult.accepts oracle ∧ TrafficAdapter.behavioralRestore g.traffic)) →
      Verdict op g₀ g row .rollback .rolledBack
  | failedSafe {operation r} : g.Observed r → r.isClosed → Verdict op g₀ g row operation .failedSafe
  | unchecked {r} : op = .reconcile → UncheckedClose g₀ r g.traffic → g.reads.head? = some r →
      Verdict op g₀ g row .open .failedSafe
  | safetyUnknown {operation} : Verdict op g₀ g row operation .safetyUnknown

-- The rows that are appended without a transition.
inductive Note (row : GateRow) : GateKind → GateOperation → Option OperationId → Prop
  | closeIntent : Note row .intent .close (some ⟨.close, row.candidateGeneration⟩)
  | closeReceipt : Note row .receipt .close (some ⟨.close, row.candidateGeneration⟩)
  | rollbackIntent : Note row .intent .rollback none
  | failCloseIntent : Note row .intent .failClose none
  | openReceipt {id} : row.state = .opening → Note row .receipt .open id
  | recoveryIntent : row.state = .opening →
      Note row .intent .openReconcileCloseAll (some ⟨.openReconcileClose, row.candidateGeneration⟩)
  | recoveryReceipt : row.state = .opening →
      Note row .receipt .openReconcileCloseAll (some ⟨.openReconcileClose, row.candidateGeneration⟩)

-- The update changes no column but those that record the route.
def OnlyRoute (update : Nat → GateRow → GateRow) : Prop :=
  ∀ seq row, ∃ generation fence,
    update seq row = { row with routeGeneration := generation, routeFence := fence }

-- The transitions of the gate, each with what the operation knows when it makes it.
inductive Move (op : Op) (g₀ g : Gate τ) (row : GateRow) :
    GateState → GateOperation → GateKind → Json → Option String → Option OperationId →
    (Nat → GateRow → GateRow) → Prop
  | closed {r detail id} : g.Observed r → ¬predecessorMismatch row r →
      Move op g₀ g row .candidateClosed .close .receipt detail none id fun _ row =>
        { row with observedPredecessorDigest := some (digestOf r.snapshot) }
  | opening {proof : OpenProof} {fence} : op = .open row.candidateGeneration proof →
      row.state ≠ .opening → proof.candidateDigest = row.candidateDigest → proof.lease = row.lease →
      Move op g₀ g row .opening .open .intent proof.intentDetail (some fence) none fun _ row =>
        { row with proofDigest := some proof.digest }
  | opened {intent proof r operation detail id} : row.state = .opening →
      g.db.pendingRecoveryClose = none → g.db.latest .open .intent = some intent →
      OpenProof.ofDetail intent.detail = .ok proof → g.Observed r →
      ¬candidateMismatch row.candidateGeneration intent.fence proof.1.candidateDigest r →
      operation = .open ∨ operation = .openReconcile →
      Move op g₀ g row .candidateOpen operation .receipt detail (some r.fence) id
        (recordOpen row.candidateGeneration r)
  | draining {detail} : op = .drain row.candidateGeneration →
      Move op g₀ g row .draining .drain .intent detail none none fun _ row => row
  | drained {detail} : row.state = .draining → g.db.unfinished row.predecessorGeneration = 0 →
      Move op g₀ g row .candidateOpen .drain .receipt detail none none fun _ row => row
  | terminal {target operation detail id update} : Verdict op g₀ g row operation target →
      operation = .rollback ∨ operation = .failClose ∨ operation = .open → OnlyRoute update →
      Move op g₀ g row target operation .receipt detail none id update

-- The transactions of the gate.
inductive Commit (op : Op) (g₀ g : Gate τ) : GateDb → Prop
  | stage {candidate predecessor n r grant detail} : op = .stage candidate predecessor →
      g.db.row = none → generationOf predecessor = .ok n → g.Observed r →
      r.generation = some n → r.fence = predecessorFence n → r.snapshot = predecessor →
      Commit op g₀ g ({ g.db with row := some (stagedRow candidate predecessor n r grant) }.moved
        (stagedRow candidate predecessor n r grant) (n + 1) .candidateStaged .stage .receipt detail
        none none fun _ row => row)
  | append {row kind operation fromState fence detail id} : g.db.getRow = .ok row →
      Note row kind operation id → g.db.Correlated operation id →
      Commit op g₀ g (g.db.append row.candidateGeneration kind operation (some fromState) none
        fence detail id)
  | move {row target operation kind detail fence id update} : g.db.getRow = .ok row →
      row.state.accepts target → Move op g₀ g row target operation kind detail fence id update →
      g.db.Correlated operation id →
      Commit op g₀ g (g.db.moved row row.candidateGeneration target operation kind detail fence id
        update)
  | recovery {row intent target detail detail' id} : g.db.getRow = .ok row →
      g.db.pendingRecoveryClose = some intent → row.state.accepts target →
      Verdict op g₀ g row .open target → g.db.Correlated .open id →
      Commit op g₀ g ((g.db.append row.candidateGeneration .receipt .openReconcileCloseAll
        (some .opening) none (some "closed") detail (some intent.operationId)).moved row
        row.candidateGeneration target .open .receipt detail' none id fun _ row => row)
  | admission {request result row r n} : op = .observe request result →
      g.db.row = g₀.db.row → g.db.getRow = .ok row →
      ¬row.state.blocked → g.Observed r ∧ TrafficAdapter.route g₀.traffic = r →
      r.generation = some n → ¬continuityMismatch row r → ¬unknownRoute row r →
      g.db.admission? request.requestId = none →
      Commit op g₀ g (insertAdmission (newAdmission request row r.fence n) g.db)
  | finish {existing result} : g.db.admission? existing.requestId = some existing →
      existing.finishedAt = none → Commit op g₀ g (insertFinish existing result g.db)

-- What an operation that started in `g₀` can do at a time.
inductive Step (op : Op) (g₀ : Gate τ) : Gate τ → Gate τ → Prop
  | fault {g faults} : Step op g₀ g (g.setFaults faults)
  | tick {g} : Step op g₀ g g.tick
  | read {g} : Undecided g₀ g →
      Step op g₀ g (g.addRead (TrafficAdapter.route g.traffic))
  | query {g v t} : Undecided g₀ g → TrafficAdapter.queryRoute g.traffic = (v, t) →
      Step op g₀ g (g.queried v t)
  | close {g n} : Step op g₀ g (g.setTraffic (TrafficAdapter.close n g.traffic).2)
  | «open» {g row intent fence grant now} : g.db.getRow = .ok row → row.state = .opening →
      g.db.latest .open .intent = some intent → intent.fence = some fence →
      Step op g₀ g (g.setTraffic
        (TrafficAdapter.open row.candidateGeneration fence row.candidate grant now g.traffic).2)
  | closeAll {g row} : g.db.getRow = .ok row → Undecided g₀ g → CloseCause op g₀ g row →
      Step op g₀ g (g.setTraffic (TrafficAdapter.closeAll g.traffic).2)
  | restore {g row oracle} : g.db.getRow = .ok row → g.state? = g₀.state? →
      op = .rollback row.candidateGeneration oracle → g.Announced .rollback →
      g.traffic = g₀.traffic → "rollback.after_intent" ∉ g₀.faults →
      Step op g₀ g (g.setTraffic (restoreCall row g.traffic).2)
  | commit {g db} : Commit op g₀ g db → Step op g₀ g (g.setDb db)

-- The states that an operation passes through from `g₀` on.
abbrev Steps (op : Op) (g₀ : Gate τ) : Gate τ → Prop :=
  ReflTransGen (Step op g₀) g₀

end Gate
