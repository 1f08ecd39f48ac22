import ExtManager.Coordinator.Operations

open Crash Prog Relation

-- The states in which a plan's operations may still move the traffic.
def State.live : State → Bool
  | effective | rolledBack | failedSafe | safetyUnknown => false
  | _                                                   => true

namespace Store

variable {s s' : Store} {planId : String} {target : State}

-- The tables with a new activation of a plan and new rows about it.
def shift (s : Store) (planId : String) (a : Activation) (rows : List JournalRow)
    (outcomes : List RollbackOutcome) : Store :=
  { s.setActivation planId (some a) with
    journal  := rows ++ s.journal
    outcomes := outcomes ++ s.outcomes }

@[simp]
theorem activation_shift {a : Activation} {rows : List JournalRow}
    {outcomes : List RollbackOutcome} : (s.shift planId a rows outcomes).activation planId = some a := by
  simp [shift, setActivation]

theorem row_ok_iff {a : Activation} : s.row planId = .ok a ↔ s.activation planId = some a := by
  unfold row
  cases s.activation planId <;> simp

theorem transition_ok_iff : s.transition planId target = .ok s' ↔
    ∃ a, s.activation planId = some a ∧ target ∈ a.state.transitions ∧
      s' = s.shift planId { a with state := target }
        [⟨planId, .transition, target.value, .obj [("from", .str a.state.value)]⟩] [] := by
  unfold transition
  cases hr : s.row planId
  case error e =>
    have hn : s.activation planId = none := by
      cases ha : s.activation planId
      case none   => rfl
      case some a => simp [row, ha] at hr
    simp [hn]
  case ok a =>
    have ha := row_ok_iff.mp hr
    by_cases ht : target ∈ a.state.transitions
    case pos =>
      simp only [ht, if_true, Except.ok.injEq, ha, Option.some.injEq, exists_eq_left', true_and]
      exact eq_comm
    case neg => simp [ht, ha]

theorem activation_of_transition (h : s.transition planId target = .ok s') :
    ∃ a, s'.activation planId = some a ∧ a.state = target := by
  have ⟨a, _, _, he⟩ := transition_ok_iff.mp h
  exact ⟨{ a with state := target }, by simp [he, shift, setActivation], rfl⟩

end Store

-- The states that a plan gets to only in a transaction that announces or acknowledges an effect.
def State.logged : State → Bool
  | preparing | prepared | launching | commitReady | effective | rollback => true
  | _                                                                     => false

-- The states that a rollback ends in.
def State.concluded : State → Bool
  | rolledBack | failedSafe | safetyUnknown => true
  | _                                       => false

theorem State.logged_of_concluded {s : State} (h : s.concluded) : s.logged = false := by
  revert h
  cases s <;> simp [concluded, logged]

namespace JournalRow

-- The row of a commit's write-ahead transaction.
def isCommit (r : JournalRow) : Bool :=
  r.kind = .wal ∧ r.operation = "commit"

-- The row of a transition.
def moved (planId : String) (s target : State) : JournalRow :=
  ⟨planId, .transition, target.value, .obj [("from", .str s.value)]⟩

-- The rows that a transition out of `s` leaves together with what the same transaction writes
-- beside it, the newest row first.
inductive Moved (planId : String) (s : State) : State → List JournalRow → Prop
  | bare {target} : target.logged = false → Moved planId s target [moved planId s target]
  | prepare : Moved planId s .preparing
      [⟨planId, .wal, "prepare", .obj []⟩, moved planId s .preparing]
  | prepared {receipt} : Moved planId s .prepared
      [moved planId s .prepared, ⟨planId, .receipt, "prepare", .obj receipt⟩]
  | effective {generation} : Moved planId s .effective
      [moved planId s .effective,
        ⟨planId, .receipt, "commit", .obj [("generation", .int generation)]⟩]
  | reopened : Moved planId s .effective
      [moved planId s .effective,
        ⟨planId, .receipt, "commit.reconcile", .obj [("queried", .bool true)]⟩]
  | rollback {reason} : Moved planId s .rollback
      [⟨planId, .wal, "rollback", .obj [("reason", .str reason)]⟩, moved planId s .rollback]
  | restored {outcome} : Moved planId s .rolledBack
      [moved planId s .rolledBack, ⟨planId, .receipt, "rollback", outcome⟩]
  | recovered {target detail} : target.logged = false → Moved planId s target
      [moved planId s target, ⟨planId, .receipt, "rollback.recover", detail⟩]
  | recovery {operation detail} : Moved planId s .reconcile
      [⟨planId, .recovery, operation, detail⟩, moved planId s .reconcile]

theorem Moved.plain {planId : String} {s target : State} {rows : List JournalRow} {r : JournalRow}
    (h : Moved planId s target rows) (hm : r ∈ rows) : r.planId = planId ∧ r.isCommit = false := by
  cases h
  all_goals
    simp only [List.mem_cons, List.not_mem_nil, or_false] at hm
    rcases hm with rfl | rfl <;> simp [isCommit, moved]

end JournalRow

namespace Coordinator

-- The public operations of the coordinator.
inductive Op
  | plan (plan : Plan)
  | prepare (planId : String)
  | launch (planId launchId : String)
  | observe (planId : String) (item : Attestation) (now : Option Int)
  | refreshInventory (planId : String) (inventory : List ProcessIdentity)
  | commit (planId : String) (expected : Int)
  | recover (planId : String)
  | resumeObserving (planId : String)
  | rollback (planId reason : String)
  | externalLeaseLost (planId : String)

variable [Sha256] {τ π : Type} [TrafficAdapter τ] [TrafficGate π]

def Op.planId : Op → String
  | .plan p                    => p.planId
  | .prepare planId            => planId
  | .launch planId _           => planId
  | .observe planId _ _        => planId
  | .refreshInventory planId _ => planId
  | .commit planId _           => planId
  | .recover planId            => planId
  | .resumeObserving planId    => planId
  | .rollback planId _         => planId
  | .externalLeaseLost planId  => planId

def Op.run (c : Call) : Op → M τ π Unit
  | .plan p                            => void (Coordinator.plan p)
  | .prepare planId                    => Coordinator.prepare c planId
  | .launch planId launchId            => Coordinator.launch c planId launchId
  | .observe planId item now           => Coordinator.observe c planId item now
  | .refreshInventory planId inventory => Coordinator.refreshInventory planId inventory
  | .commit planId expected            => void (Coordinator.commit c planId expected)
  | .recover planId                    => void (Coordinator.recover planId)
  | .resumeObserving planId            => Coordinator.resumeObserving planId
  | .rollback planId reason            => void (Coordinator.rollback c planId reason)
  | .externalLeaseLost planId          => void (Coordinator.externalLeaseLost c planId)

def Op.ends (op : Op) (c : Call) (w : World τ π) : List (World τ π) :=
  (op.run c w).ends

-- The calls of the exposure gate that an operation makes in `w`.
inductive GateCall (op : Op) (w : World τ π) : Gate.Op → Prop
  | stage {plan} : op = .plan plan →
      w.store.activation plan.planId = some ⟨plan, .planned, none⟩ →
      GateCall op w (.stage (.str plan.planId) plan.predecessor.asdict)
  | close {a n} : w.store.activation op.planId = some a → a.state.live → GateCall op w (.close n)
  | «open» {a n proof} : w.store.activation op.planId = some a → a.state.live →
      a.plan.predecessor.generation < w.store.generation → GateCall op w (.open n proof)
  | rollback {a n} : w.store.activation op.planId = some a → a.state.live →
      GateCall op w (.rollback n none)
  | failClose {a n reason} : w.store.activation op.planId = some a → a.state.live →
      GateCall op w (.failClose n reason)
  | reconcile {a} : w.store.activation op.planId = some a → a.state.live →
      GateCall op w .reconcile

-- What `recover` finds in an interrupted rollback of which the host has failed.
structure HostFailed (w : World τ π) (planId : String) : Prop where
  state  : ∃ a, w.store.activation planId = some a ∧ a.state = .rollback
  failed : ∃ detail, w.store.latestDetail planId "rollback.host" = some detail ∧ hostFailed detail

-- Why an operation that started in `w₀` makes a plan `Effective`, `RolledBack` or `FailedSafe`.
inductive Cause (op : Op) (w₀ w : World τ π) : State → Prop
  | other {target} : target.live ∧ target ≠ .commitReady ∨ target = .safetyUnknown →
      Cause op w₀ w target
  | plain {t target} : w.traffic = .plain t → target.live = false → Cause op w₀ w target
  | opened {a n proof fence g₀ g} : w₀.store.activation op.planId = some a →
      a.plan.predecessor.generation = w₀.store.generation →
      n = a.plan.predecessor.generation + 1 → w₀.traffic = .exposure g₀ →
      w.traffic = .exposure g → Gate.Returned (Gate.open n proof) fence g₀ g →
      Cause op w₀ w .effective
  | reopened {g₀ g} : w₀.traffic = .exposure g₀ → w.traffic = .exposure g →
      Gate.Returned Gate.reconcile .candidateOpen g₀ g → Cause op w₀ w .effective
  | rolledBack {n outcome target g₀ g} : w₀.traffic = .exposure g₀ → w.traffic = .exposure g →
      Gate.Returned (Gate.rollback n none) outcome g₀ g → target = rollbackTarget false outcome →
      Cause op w₀ w target
  | failClosed {n reason res g g'} : w.traffic = .exposure g' →
      Gate.Returned (Gate.failClose n reason) res g g' → res.classification = .failedSafe →
      Cause op w₀ w .failedSafe
  | reconciled {state target g₀ g} : w₀.traffic = .exposure g₀ → w.traffic = .exposure g →
      Gate.Returned Gate.reconcile state g₀ g →
      state = .failedSafe ∧ target = .failedSafe ∨ state = .rolledBack ∧ target = .rolledBack →
      Cause op w₀ w target
  | hostFailed {planId state g₀ g} : op = .recover planId → HostFailed w₀ planId →
      w₀.traffic = .exposure g₀ → w.traffic = .exposure g →
      Gate.Returned Gate.reconcile state g₀ g → state ≠ .safetyUnknown →
      Cause op w₀ w .failedSafe

-- `recover` finds an interrupted rollback and has no exposure gate.
def Op.RecoversPlain (op : Op) (w : World τ π) : Prop :=
  ∃ planId a t, op = .recover planId ∧ w.store.activation planId = some a ∧
    a.state = .rollback ∧ w.traffic = .plain t

-- The outcomes that an operation that started in `w₀` writes with a plan's transition.
inductive Concludes (op : Op) (w₀ : World τ π) (target : State) : List RollbackOutcome → Prop
  | going : target.concluded = false → Concludes op w₀ target []
  | recorded {detail} : target.concluded →
      Concludes op w₀ target [⟨op.planId, target = .rolledBack, detail⟩]
  | unrecorded : op.RecoversPlain w₀ → target.concluded → Concludes op w₀ target []

-- The transactions of the coordinator, each with what the operation knows when it makes it.
inductive Commit (c : Call) (op : Op) (w₀ w : World τ π) : Store → Prop
  | insert {plan s} : op = .plan plan → plan.obligations ≠ [] →
      (∀ o ∈ plan.obligations, o.requiredOrdinals ≠ []) → w.store.insert plan = .ok s →
      Commit c op w₀ w s
  | delete {plan e g₀ g} : op = .plan plan → w₀.store.insert plan = .ok w.store →
      w₀.traffic = .exposure g₀ → w.traffic = .exposure g →
      (Gate.stage (.str plan.planId) plan.predecessor.asdict g₀.start).value = .error e →
      (Gate.stage (.str plan.planId) plan.predecessor.asdict g₀.start).state = g →
      Commit c op w₀ w (w.store.delete plan.planId)
  | note {a operation detail} : w.store.activation op.planId = some a →
      operation = "rollback.host" ∨ operation = "rollback.traffic" →
      Commit c op w₀ w (w.store.log op.planId .receipt operation detail)
  | shift {a target rows outcomes} : w.store.activation op.planId = some a →
      target ∈ a.state.transitions → JournalRow.Moved op.planId a.state target rows →
      Cause op w₀ w target → Concludes op w₀ target outcomes →
      Commit c op w₀ w (w.store.shift op.planId { a with state := target } rows outcomes)
  | launch {a launchId} : w.store.activation op.planId = some a → a.state = .prepared →
      Commit c op w₀ w (w.store.shift op.planId
        { a with state := .launching, launchId := some launchId }
        [⟨op.planId, .wal, "launch", .obj [("launch_id", .str launchId)]⟩,
          .moved op.planId .prepared .launching] [])
  | launched {a launchId inventory s} : op = .launch op.planId launchId →
      w.store.activation op.planId = some a → a.state = .launching → w.store.setInventory op.planId inventory = .ok s →
      Commit c op w₀ w (s.shift op.planId { a with state := .observing }
        [.moved op.planId .launching .observing,
          ⟨op.planId, .receipt, "launch", .obj [("count", .int inventory.length)]⟩] [])
  | evidence {a item now s} : op = .observe op.planId item now →
      w.store.activation op.planId = some a → a.state.observable →
      c.verify item (now.getD c.now) a.plan = .ok () → ¬stale w.store a op.planId item →
      w.store.insertEvidence op.planId c.managerEpoch item = .ok s → Commit c op w₀ w s
  | refresh {a inventory s} : op = .refreshInventory op.planId inventory →
      w.store.activation op.planId = some a → a.state.observable →
      w.store.setInventory op.planId inventory = .ok s →
      Commit c op w₀ w ((s.invalidate op.planId).log op.planId .inventory "refresh"
        (.obj [("processes", .arr (inventory.map (·.asdict)))]))
  | wal {planId expected a s} : op = .commit planId expected → w = w₀ →
      w.store.activation planId = some a → .commitReady ∈ a.state.transitions →
      w.store.evidenceComplete c.managerEpoch a.plan c.now → w.store.generation = expected →
      a.plan.predecessor.generation = expected →
      s = { w.store.shift planId { a with state := .commitReady }
        [⟨planId, .wal, "commit", .obj [("from", .int expected)]⟩,
          .moved planId a.state .commitReady] [] with
        generation := w.store.generation + 1 } → Commit c op w₀ w s

-- What an operation that started in `w₀` can do at a time.
inductive Step (c : Call) (op : Op) (w₀ : World τ π) : World τ π → World τ π → Prop
  | fault {w faults} : Step c op w₀ w (w.setFaults faults)
  | gate {w g o g'} : w.traffic = .exposure g → GateCall op w o → g' ∈ o.ends g →
      Step c op w₀ w (w.setTraffic (.exposure g'))
  | plain {w t t'} : w.traffic = .plain t → Step c op w₀ w (w.setTraffic (.plain t'))
  | commit {w s} : Commit c op w₀ w s → Step c op w₀ w (w.setStore s)

abbrev Steps (c : Call) (op : Op) (w₀ : World τ π) : World τ π → Prop :=
  ReflTransGen (Step c op w₀) w₀

end Coordinator
