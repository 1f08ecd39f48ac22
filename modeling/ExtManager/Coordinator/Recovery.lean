import ExtManager.Coordinator.OnePlan
import ExtManager.Coordinator.Rules

open Crash Prog Relation

-- The states in which `recover` has nothing to do.
def State.settled : State → Bool
  | preparing | launching | observing | commitReady | rollback => false
  | _                                                          => true

namespace Coordinator

section

variable {τ π : Type} {planId : String} {plan : Plan} {a : Activation} {g : Gate τ}
variable {w w' : World τ π} {s : State}

-- The plan is in a state in which `recover` has nothing to do, and that is the state returned.
def Settles (planId : String) (s : State) (w : World τ π) : Prop :=
  ∃ a, w.store.activation planId = some a ∧ a.state = s ∧ s.settled

-- A transaction that makes a transition and then logs it.
theorem activation_of_transition_log {st st' : Store} {target : State} {kind : JournalKind}
    {operation : String} {detail : Json}
    (h : (do
      let s ← st.transition planId target
      pure (s.log planId kind operation detail)) = .ok st') :
    ∃ a, st'.activation planId = some a ∧ a.state = target := by
  have ⟨s, hs, he⟩ := ok_of_bind h
  injection he with he
  have ⟨a, ha, hst⟩ := Store.activation_of_transition hs
  exact ⟨a, by rw [← he]; exact ha, hst⟩

theorem settles_of_reconcile {body : Store → Except Exc Store}
    (hb : ∀ st st', body st = .ok st' → ∃ a, st'.activation planId = some a ∧ a.state = .reconcile)
    (h : Returns (do transaction body; let a ← row planId; pure a.state) s w w') :
    Settles planId s w' := by
  simp only [returns_bind, returns_transaction, returns_row, returns_pure] at h
  obtain ⟨_, _, ⟨st, hst, hw⟩, a, _, ⟨ha, hw'⟩, hs, hw''⟩ := h
  subst hw hw' hw''
  obtain ⟨a', ha', hs'⟩ := hb _ st hst
  have he : a' = a := Option.some.inj (ha'.symm.trans ha)
  refine ⟨a, ha, hs, ?_⟩
  rw [← hs, ← he, hs']
  rfl

theorem settles_of_transition {target : State} {body : Store → Except Exc Store}
    (hb : ∀ st st', body st = .ok st' → ∃ a, st'.activation planId = some a ∧ a.state = target)
    (ht : target.settled) (h : Returns (do transaction body; pure target) s w w') :
    Settles planId s w' := by
  simp only [returns_bind, returns_transaction, returns_pure] at h
  obtain ⟨_, _, ⟨st, hst, hw⟩, hs, hw'⟩ := h
  subst hw hw' hs
  obtain ⟨a, ha, hs⟩ := hb _ st hst
  exact ⟨a, ha, hs, ht⟩

variable [TrafficAdapter τ]

theorem recoverTarget_mem {host : Option Json} {state : GateState} {r : GateState × State}
    (h : Returns (recoverTarget plan host state) r w w') :
    r.2 ∈ State.transitions .rollback ∧ w'.store = w.store := by
  have hgate {n : Int} {reason : String} {res : FailCloseResult} {w w₁ : World τ π}
      (h : Returns (onGate (Gate.failClose n reason)) res w w₁) : w₁.store = w.store := by
    rcases ht : w.traffic with g | t
    · obtain ⟨_, _, hw⟩ := (returns_onGate ht).mp h
      rw [← hw]
      rfl
    · simp [Returns, onGate, ht, raise, silent] at h
  unfold recoverTarget at h
  cases host
  case none =>
    simp only [returns_bind, returns_pure] at h
    obtain ⟨_, _, hr, he, hw⟩ := h
    rw [← he, ← hw]
    exact ⟨by split <;> simp [State.transitions], hgate hr⟩
  case some detail =>
    dsimp only at h
    split at h
    · obtain ⟨he, hw⟩ := returns_pure.mp h
      exact ⟨by simp [← he, State.transitions], by rw [hw]⟩
    split at h
    · obtain ⟨he, hw⟩ := returns_pure.mp h
      exact ⟨by simp [← he, State.transitions], by rw [hw]⟩
    split at h
    · obtain ⟨he, hw⟩ := returns_pure.mp h
      exact ⟨by simp [← he, State.transitions], by rw [hw]⟩
    · simp only [returns_bind, returns_pure] at h
      obtain ⟨_, _, hr, he, hw⟩ := h
      rw [← he, ← hw]
      exact ⟨by split <;> simp [State.transitions], hgate hr⟩

variable [Sha256]

theorem recoverRollback_settles (h : Returns (recoverRollback planId plan) s w w') :
    Settles planId s w' := by
  unfold recoverRollback at h
  have ⟨_, _, _, h⟩ := returns_bind.mp h
  have ⟨_, _, _, h⟩ := returns_bind.mp h
  have ⟨r, _, hr, h⟩ := returns_bind.mp h
  have hs : r.2.settled := by
    have hm := (recoverTarget_mem hr).left
    simp only [State.transitions, List.mem_cons, List.not_mem_nil, or_false] at hm
    rcases hm with hm | hm | hm <;> simp [hm, State.settled]
  exact settles_of_transition (fun _ _ => Store.activation_of_transition) hs h

theorem recoverCommit_settles (h : Returns (recoverCommit planId plan) s w w') :
    Settles planId s w' := by
  unfold recoverCommit at h
  have ⟨state, _, _, h⟩ := returns_bind.mp h
  split at h
  case isTrue  =>
    exact settles_of_transition (fun _ _ => Store.activation_of_transition) rfl h
  case isFalse =>
    have ⟨_, _, _, h⟩ := returns_bind.mp h
    exact settles_of_reconcile (fun _ _ => activation_of_transition_log) h

omit [Sha256] in
theorem recoverPreOpen_settles {state : State}
    (h : Returns (recoverPreOpen planId plan state) s w w') : Settles planId s w' := by
  unfold recoverPreOpen at h
  have ⟨_, _, _, h⟩ := returns_bind.mp h
  exact settles_of_reconcile (fun _ _ => activation_of_transition_log) h

variable [TrafficGate π]

-- What `recover` does with an exposure gate.
theorem returns_recover_exposure (ha : w.store.activation planId = some a)
    (hg : w.traffic = .exposure g) : Returns (recover planId) s w w' ↔
      match a.state with
      | .rollback    => Returns (recoverRollback planId a.plan) s w w'
      | .commitReady => Returns (recoverCommit planId a.plan) s w w'
      | .preparing | .launching | .observing =>
        Returns (recoverPreOpen planId a.plan a.state) s w w'
      | _            => a.state = s ∧ w = w' := by
  unfold recover
  rw [returns_row_seq ha, returns_isExposure_seq hg]
  cases hs : a.state
  all_goals simp only [hs, returns_row_seq ha, returns_pure]

-- What `recover` does with any other gate.
theorem returns_recover_plain {t : π} (ha : w.store.activation planId = some a)
    (ht : w.traffic = .plain t) : Returns (recover planId) s w w' ↔
      match a.state with
      | .rollback => Returns (do
          transaction fun s => s.transition planId .failedSafe
          pure .failedSafe) s w w'
      | .preparing | .launching | .commitReady => Returns (do
          onPlain (TrafficGate.restore a.plan.predecessor)
          transaction fun s => do
            let s ← s.transition planId .reconcile
            pure (s.log planId .recovery "reobserve" (.obj []))
          let a ← row planId
          pure a.state) s w w'
      | .observing => Returns (do
          onPlain (TrafficGate.restore a.plan.predecessor)
          transaction fun s => s.transition planId .reconcile
          let a ← row planId
          pure a.state) s w w'
      | _         => a.state = s ∧ w = w' := by
  unfold recover
  rw [returns_row_seq ha, returns_isPlain_seq ht]
  cases hs : a.state
  all_goals simp only [hs, returns_row_seq ha, returns_pure]

-- Wherever `recover` returns, it leaves nothing to recover.
theorem recover_settles (h : Returns (recover planId) s w w') : Settles planId s w' := by
  have ⟨a, ha⟩ : ∃ a, w.store.activation planId = some a := by
    have ⟨a, _, hr, _⟩ := returns_bind.mp h
    exact ⟨a, (returns_row.mp hr).left⟩
  rcases ht : w.traffic with g | t
  case exposure =>
    rw [returns_recover_exposure ha ht] at h
    split at h
    case h_1 => exact recoverRollback_settles h
    case h_2 => exact recoverCommit_settles h
    case h_3 | h_4 | h_5 => exact recoverPreOpen_settles h
    case h_6 =>
      have ⟨hs, hw⟩ := h
      refine ⟨a, hw ▸ ha, hs, ?_⟩
      rw [← hs]
      cases hst : a.state <;> simp_all [State.settled]
  case plain =>
    rw [returns_recover_plain ha ht] at h
    split at h
    case h_1 => exact settles_of_transition (fun _ _ => Store.activation_of_transition) rfl h
    case h_2 | h_3 | h_4 =>
      have ⟨_, _, _, h⟩ := returns_bind.mp h
      exact settles_of_reconcile (fun _ _ => activation_of_transition_log) h
    case h_5 =>
      have ⟨_, _, _, h⟩ := returns_bind.mp h
      exact settles_of_reconcile (fun _ _ => Store.activation_of_transition) h
    case h_6 =>
      have ⟨hs, hw⟩ := h
      refine ⟨a, hw ▸ ha, hs, ?_⟩
      rw [← hs]
      cases hst : a.state <;> simp_all [State.settled]

-- There, another `recover` changes nothing.
theorem Settles.recover (h : Settles planId s w) : Returns (recover planId) s w w := by
  have ⟨a, ha, hs, hst⟩ := h
  subst hs
  rcases ht : w.traffic with g | t
  · rw [returns_recover_exposure ha ht]
    cases hs : a.state <;> simp_all [State.settled]
  · rw [returns_recover_plain ha ht]
    cases hs : a.state <;> simp_all [State.settled]

end

open Gate

variable [Sha256] {π : Type} [TrafficGate π] {p : Plan} {n : Int} {planId : String}
variable {g g' : Gate DeterministicTrafficAdapter} {w w' : World DeterministicTrafficAdapter π}
variable {a : Activation} {row : GateRow}

-- What happens to the traffic between two operations: the gate admits requests, its process is
-- started again, and an adapter may do anything.
inductive Served : Traffic DeterministicTrafficAdapter π → Traffic DeterministicTrafficAdapter π → Prop
  | observe {g g' request result} : g' ∈ (Gate.Op.observe request result).ends g →
      Served (.exposure g) (.exposure g')
  | restart {g : Gate DeterministicTrafficAdapter} {faults clock ticks authority} :
      Served (.exposure g) (.exposure
        { g with faults := faults, clock := clock, ticks := ticks, authority := authority })
  | adapter {g t} : Served (.exposure g) (.exposure (g.setTraffic t))
  | plain {t t'} : Served (.plain t) (.plain t')

-- What is known of the gate in a run of one plan.
structure GateFor (p : Plan) (g : Gate DeterministicTrafficAdapter) : Prop extends
    GateDb.Sound g.db where
  predecessor : g.db.For p.predecessor.asdict

omit [Sha256] in
theorem GateFor.congr [Sha256] (h : GateFor p g) (he : g'.db = g.db) : GateFor p g' :=
  ⟨he ▸ h.toSound, he ▸ h.predecessor⟩

theorem GateFor.ends {o : Gate.Op} (h : GateFor p g) (ho : o.For p.predecessor.asdict)
    (he : g' ∈ o.ends g) : GateFor p g' :=
  ⟨Gate.Op.ends_sound h.toSound he, Gate.Op.ends_for h.toInv h.predecessor ho he⟩

theorem GateFor.candidateGeneration (h : GateFor p g) (hr : g.db.row = some row) :
    row.candidateGeneration = p.predecessor.generation + 1 := by
  have hg : p.predecessor.generation = row.predecessorGeneration :=
    Except.ok.inj (h.predecessor row hr).right
  rw [(h.row row hr).generation, hg]

theorem run_gateFor (h : Reachable (Created n) (Next (Only p) Served) w)
    (hg : w.traffic = .exposure g) : GateFor p g := by
  refine run_gate_invariant h (fun g hi => ?init)
    (fun c op w₀ w o g g' hmay hc hi he => hi.ends (hc.for hmay) he) (fun t g' he => ?env) g hg
  case init =>
    refine ⟨hi.sound, ?_⟩
    rw [Gate.Initial] at hi
    simp [GateDb.For, hi]
  case env =>
    cases he
    case observe g request result he =>
      exact ⟨g, rfl, fun h => GateFor.ends (o := .observe request result) h trivial he⟩
    case restart g _ _ _ _ => exact ⟨g, rfl, fun h => h.congr rfl⟩
    case adapter g t       => exact ⟨g, rfl, fun h => h.congr rfl⟩

-- The calls of the gate return.
structure Healthy (p : Plan) (w : World DeterministicTrafficAdapter π) : Prop where
  exposure : ∀ g, w.traffic = .exposure g → g.FaultFree
  plain    : ∀ t, w.traffic = .plain t → (TrafficGate.restore p.predecessor t).1 = .ok ()

-- `recover` returns and leaves nothing to recover, and another `recover` returns the same state.
def Recovers (planId : String) (w : World DeterministicTrafficAdapter π) : Prop :=
  ∃ s w₁ w₂ a, Returns (recover planId) s w w₁ ∧ w₁.store.activation planId = some a ∧
    a.state ∉ [.preparing, .launching, .commitReady, .rollback] ∧
    Returns (recover planId) s w₁ w₂

-- The gate accepts what `recover` asks of it: the rollback of a plan that has not been committed,
-- the outcome of what was interrupted otherwise, and after it the fail-close of a rollback of which
-- the host's receipt is missing.
def Recoverable (planId : String) (a : Activation) (w : World DeterministicTrafficAdapter π) : Prop :=
  ∀ g, w.traffic = .exposure g → match a.state with
    | .preparing | .launching | .observing => ∃ row, g.db.row = some row ∧
      row.state.accepts (restoredClass row (restoreCall row g.traffic).1).target
    | .commitReady => ∃ row, g.db.row = some row ∧ g.Reconcilable row
    | .rollback => ∃ row, g.db.row = some row ∧ g.Reconcilable row ∧
      (w.store.latestDetail planId "rollback.host" = none → g.Closable row)
    | _ => True

theorem recovers_iff_returns :
    Recovers planId w ↔ ∃ s w', Returns (recover planId) s w w' := by
  refine ⟨fun ⟨s, w₁, _, _, h, _⟩ => ⟨s, w₁, h⟩, fun ⟨s, w₁, h⟩ => ?_⟩
  have hset := recover_settles h
  have ⟨a, ha, hs, hst⟩ := hset
  refine ⟨s, w₁, w₁, a, h, ha, ?_, hset.recover⟩
  rw [hs]
  revert hst
  cases s <;> simp [State.settled]

omit [Sha256] [TrafficGate π] in
theorem reread_returns {body : Store → Except Exc Store} {st : Store}
    (hb : body w.store = .ok st) (ha : st.activation planId = some a) :
    ∃ s w', Returns (do transaction body; let a ← Coordinator.row planId; pure a.state) s w w' := by
  refine ⟨a.state, w.setStore st, ?_⟩
  simp only [returns_bind, returns_transaction, returns_row, returns_pure]
  exact ⟨(), _, ⟨st, hb, rfl⟩, a, _, ⟨ha, rfl⟩, rfl, rfl⟩

omit [Sha256] [TrafficGate π] in
-- The transaction that ends a `recover` in `Reconcile`.
theorem reconcile_returns {kind : JournalKind} {operation : String} {detail : Json}
    (ha : w.store.activation planId = some a) (ht : .reconcile ∈ a.state.transitions) :
    ∃ s w', Returns (do
      transaction fun s => do
        let s ← s.transition planId .reconcile
        pure (s.log planId kind operation detail)
      let a ← Coordinator.row planId
      pure a.state) s w w' := by
  have hs := Store.transition_ok_iff.mpr ⟨a, ha, ht, rfl⟩
  refine reread_returns (by rw [hs]; rfl) (a := { a with state := .reconcile }) ?_
  simp [Store.log]

omit [Sha256] [TrafficGate π] in
theorem transition_returns {target : State} {body : Store → Except Exc Store}
    (hb : ∃ st, body w.store = .ok st) :
    ∃ s w', Returns (do transaction body; pure target) s w w' := by
  have ⟨st, hst⟩ := hb
  simp only [returns_bind, returns_transaction, returns_pure]
  exact ⟨_, _, (), _, ⟨st, hst, rfl⟩, rfl, rfl⟩

omit [TrafficGate π] in
-- The gate, not the tables, decides whether the rollback of `recover` returns.
theorem recoverPreOpen_iff {state : State} (h : GateFor p g) (hg : w.traffic = .exposure g)
    (hf : g.FaultFree) (ha : w.store.activation planId = some a)
    (ht : .reconcile ∈ a.state.transitions) :
    (∃ s w', Returns (recoverPreOpen planId p state) s w w') ↔ ∃ row, g.db.row = some row ∧
      row.state.accepts (restoredClass row (restoreCall row g.traffic).1).target := by
  unfold recoverPreOpen
  constructor
  case mp =>
    intro ⟨s, w', hr⟩
    have ⟨_, _, hr, _⟩ := returns_bind.mp hr
    have ⟨g', hr, _⟩ := (returns_onGate hg).mp hr
    have ⟨row, hrow⟩ : ∃ row, g.db.row = some row := row_of_returned hr
    exact ⟨row, hrow,
      (rollback_returns_iff h.toInv hrow (h.candidateGeneration hrow) hf).mp ⟨_, _, hr⟩⟩
  case mpr =>
    intro ⟨row, hrow, hacc⟩
    have ⟨c, g', hr⟩ :=
      (rollback_returns_iff h.toInv hrow (h.candidateGeneration hrow) hf).mpr hacc
    have ⟨s, w', hr'⟩ := @reconcile_returns π planId (w.setTraffic (.exposure g')) a .recovery
      "pre-open-rollback" (.obj [("state", .str state.value)]) ha ht
    exact ⟨s, w', returns_bind.mpr ⟨c, _, (returns_onGate hg).mpr ⟨g', hr, rfl⟩, hr'⟩⟩

-- What a call of `reconcile` that returns leaves of the gate.
theorem GateFor.reconciled {state : GateState} (h : GateFor p g) (hr : g.db.row = some row)
    (hf : g.FaultFree) (hret : Returned reconcile state g g') :
    state = g.decision row ∧ GateFor p g' ∧ g'.FaultFree ∧
      ∃ row', g'.db.row = some row' ∧ row'.state = state := by
  have ⟨_, he, hend, _⟩ := reconcile_spec hret h.toSound hr hf
  exact ⟨he, GateFor.ends (o := .reconcile) h trivial (mem_of_reconcile hret), hend.faultFree,
    Option.map_eq_some_iff.mp hend.state⟩

omit [TrafficGate π] in
theorem recoverCommit_iff (h : GateFor p g) (hg : w.traffic = .exposure g) (hf : g.FaultFree)
    (ha : w.store.activation planId = some a) (hs : a.state = .commitReady) :
    (∃ s w', Returns (recoverCommit planId p) s w w') ↔
      ∃ row, g.db.row = some row ∧ g.Reconcilable row := by
  unfold recoverCommit
  constructor
  case mp =>
    intro ⟨s, w', hr⟩
    obtain ⟨_, _, hr, _⟩ := returns_bind.mp hr
    obtain ⟨g', hr, _⟩ := (returns_onGate hg).mp hr
    obtain ⟨row, hrow⟩ : ∃ row, g.db.row = some row := row_of_returned hr
    exact ⟨row, hrow, reconcilable_iff.mpr (reconcile_spec hr h.toSound hrow hf).left⟩
  case mpr =>
    intro ⟨row, hrow, hacc⟩
    obtain ⟨g₁, hr₁⟩ := reconciles_of_accepts h.toSound hrow hf (reconcilable_iff.mp hacc)
    obtain ⟨_, h₁, hf₁, row₁, hrow₁, hst⟩ := h.reconciled hrow hf hr₁
    have hgate := (returns_onGate hg).mpr ⟨g₁, hr₁, rfl⟩
    by_cases ho : g.decision row = .candidateOpen
    case pos =>
      obtain ⟨s, w', hr'⟩ := @transition_returns π (w.setTraffic (.exposure g₁)) .effective
        (fun s => (s.log planId .receipt "commit.reconcile"
          (.obj [("queried", .bool true)])).transition planId .effective)
        ⟨_, Store.transition_ok_iff.mpr ⟨a, ha, by simp [hs, State.transitions], rfl⟩⟩
      exact ⟨s, w', returns_bind.mpr ⟨_, _, hgate, by rw [if_pos ho]; exact hr'⟩⟩
    case neg =>
      obtain ⟨g₂, hwhen⟩ : ∃ g₂, Returns (when (g.decision row = .candidateClosed) <| void
          (onGate (Gate.rollback (p.predecessor.generation + 1) none))) ()
          (w.setTraffic (.exposure g₁)) (w.setTraffic (.exposure g₂)) := by
        by_cases hc : g.decision row = .candidateClosed
        case pos =>
          -- a closed candidate can be rolled back whatever becomes of the route
          have hacc (c : RollbackClass) : row₁.state.accepts c.target := by
            rw [hst, hc]
            cases c <;> decide
          obtain ⟨c, g₂, hr₂⟩ := (rollback_returns_iff h₁.toInv hrow₁
            (h₁.candidateGeneration hrow₁) hf₁).mpr (hacc _)
          refine ⟨g₂, ?_⟩
          rw [when, if_pos hc]
          exact returns_void.mpr ⟨c, (returns_onGate rfl).mpr ⟨g₂, hr₂, rfl⟩⟩
        case neg => exact ⟨g₁, by simp [when, hc]⟩
      obtain ⟨s, w', hr'⟩ := @reconcile_returns π planId (w.setTraffic (.exposure g₂)) a .recovery
        "gate-not-open" (.obj [("gate_state", .str (g.decision row).value)]) ha
        (by simp [hs, State.transitions])
      exact ⟨s, w', returns_bind.mpr ⟨_, _, hgate, by
        rw [if_neg ho]
        exact returns_bind.mpr ⟨(), _, hwhen, hr'⟩⟩⟩

omit [TrafficGate π] in
theorem recoverTarget_iff {host : Option Json} {state : GateState} (h : GateFor p g)
    (hg : w.traffic = .exposure g) (hf : g.FaultFree) (hr : g.db.row = some row)
    (hs : row.state = state) : (∃ r w', Returns (recoverTarget p host state) r w w') ↔
      (host = none → state.accepts .failedSafe) := by
  have hclose (reason : String) :
      (∃ res g', Returned (failClose (p.predecessor.generation + 1) reason) res g g') ↔
        state.accepts .failedSafe :=
    hs ▸ failClose_returns_iff h.toInv hr (h.candidateGeneration hr) hf
  unfold recoverTarget
  cases host
  case none =>
    simp only [returns_bind, returns_onGate hg, returns_pure, forall_const]
    rw [← hclose "host rollback outcome missing during recovery"]
    constructor
    · rintro ⟨_, _, res, _, ⟨g', hr, _⟩, _⟩
      exact ⟨res, g', hr⟩
    · rintro ⟨res, g', hr⟩
      exact ⟨_, _, res, _, ⟨g', hr, rfl⟩, rfl, rfl⟩
  case some detail =>
    refine iff_of_true ?_ (by simp)
    dsimp only
    split
    case isTrue => exact ⟨_, _, returns_pure.mpr ⟨rfl, rfl⟩⟩
    case isFalse hu =>
    split
    case isTrue => exact ⟨_, _, returns_pure.mpr ⟨rfl, rfl⟩⟩
    case isFalse =>
    split
    case isTrue => exact ⟨_, _, returns_pure.mpr ⟨rfl, rfl⟩⟩
    case isFalse hb =>
      obtain ⟨res, g', hr⟩ := (hclose ("unexpected gate recovery state " ++ state.value)).mpr
        (accepts_failedSafe_iff.mpr ⟨hb, hu⟩)
      simp only [returns_bind, returns_onGate hg, returns_pure]
      exact ⟨_, _, res, _, ⟨g', hr, rfl⟩, rfl, rfl⟩

omit [TrafficGate π] in
theorem recoverRollback_iff (h : GateFor p g) (hg : w.traffic = .exposure g) (hf : g.FaultFree)
    (ha : w.store.activation planId = some a) (hs : a.state = .rollback) :
    (∃ s w', Returns (recoverRollback planId p) s w w') ↔
      ∃ row, g.db.row = some row ∧ g.Reconcilable row ∧
        (w.store.latestDetail planId "rollback.host" = none → g.Closable row) := by
  unfold recoverRollback
  constructor
  case mp =>
    intro ⟨s, w', hr⟩
    have ⟨_, _, hread, hr⟩ := returns_bind.mp hr
    have ⟨hhost, hw⟩ := returns_read.mp hread
    subst hw hhost
    have ⟨_, _, hret, hr⟩ := returns_bind.mp hr
    have ⟨g₁, hr₁, hw⟩ := (returns_onGate hg).mp hret
    subst hw
    have ⟨row, hrow⟩ : ∃ row, g.db.row = some row := row_of_returned hr₁
    have ⟨he, h₁, hf₁, row₁, hrow₁, hst⟩ := h.reconciled hrow hf hr₁
    have ⟨r, w₂, hr₂, _⟩ := returns_bind.mp hr
    refine ⟨row, hrow, reconcilable_iff.mpr (reconcile_spec hr₁ h.toSound hrow hf).left, ?_⟩
    rw [closable_iff, ← he]
    exact (recoverTarget_iff h₁ rfl hf₁ hrow₁ hst).mp ⟨r, w₂, hr₂⟩
  case mpr =>
    intro ⟨row, hrow, hacc, hclose⟩
    have ⟨g₁, hr₁⟩ := reconciles_of_accepts h.toSound hrow hf (reconcilable_iff.mp hacc)
    have ⟨_, h₁, hf₁, row₁, hrow₁, hst⟩ := h.reconciled hrow hf hr₁
    have ⟨r, w₂, hr₂⟩ := (@recoverTarget_iff _ π p g₁ (w.setTraffic (.exposure g₁)) row₁
      (w.store.latestDetail planId "rollback.host") _ h₁ rfl hf₁ hrow₁ hst).mpr
      fun hn => closable_iff.mp (hclose hn)
    have ⟨hm, hstore⟩ := recoverTarget_mem hr₂
    have hstore : w₂.store = w.store := hstore
    have ⟨s, w', hr₃⟩ := @transition_returns π w₂ r.2
      (fun s => ((s.insertOutcome planId (r.2 = .rolledBack) (.obj [("gate_state", .str r.1.value),
        ("host", (w.store.latestDetail planId "rollback.host").getD
          (.obj [("error", .str "missing host receipt"), ("outcome", .null)])),
        ("recovered", .bool true)])).log planId .receipt "rollback.recover"
          (.obj [("gate_state", .str r.1.value),
        ("host", (w.store.latestDetail planId "rollback.host").getD
          (.obj [("error", .str "missing host receipt"), ("outcome", .null)])),
        ("recovered", .bool true)])).transition planId r.2)
      ⟨_, Store.transition_ok_iff.mpr ⟨a, hstore ▸ ha, hs ▸ hm, rfl⟩⟩
    exact ⟨s, w', returns_bind.mpr ⟨_, w, returns_read.mpr ⟨rfl, rfl⟩, returns_bind.mpr
      ⟨_, _, (returns_onGate hg).mpr ⟨g₁, hr₁, rfl⟩, returns_bind.mpr ⟨r, w₂, hr₂, hr₃⟩⟩⟩⟩

-- Without an exposure gate `recover` has nothing to ask but to restore the predecessor.
theorem recover_plain_returns {t : π} (ht : w.traffic = .plain t)
    (hr : (TrafficGate.restore a.plan.predecessor t).1 = .ok ())
    (ha : w.store.activation planId = some a) : ∃ s w', Returns (recover planId) s w w' := by
  have hp := (@returns_onPlain _ _ w _ () _ t ht).mpr ⟨hr, rfl⟩
  simp only [returns_recover_plain ha ht]
  cases hs : a.state
  case rollback =>
    exact transition_returns
      ⟨_, Store.transition_ok_iff.mpr ⟨a, ha, by simp [hs, State.transitions], rfl⟩⟩
  case preparing | launching | commitReady =>
    obtain ⟨s, w', h⟩ := @reconcile_returns π planId
      (w.setTraffic (.plain (TrafficGate.restore a.plan.predecessor t).2)) a .recovery "reobserve"
      (.obj []) ha (by simp [hs, State.transitions])
    exact ⟨s, w', returns_bind.mpr ⟨(), _, hp, h⟩⟩
  case observing =>
    have hs := Store.transition_ok_iff.mpr ⟨a, ha, (by simp [hs, State.transitions] :
      .reconcile ∈ a.state.transitions), rfl⟩
    obtain ⟨s, w', h⟩ := @reread_returns π planId
      (w.setTraffic (.plain (TrafficGate.restore a.plan.predecessor t).2)) _
      (fun s => s.transition planId .reconcile) _ hs Store.activation_shift
    exact ⟨s, w', returns_bind.mpr ⟨(), _, hp, h⟩⟩
  all_goals exact ⟨_, w, rfl, rfl⟩

theorem recover_exposure_iff (h : GateFor a.plan g) (hg : w.traffic = .exposure g)
    (hf : g.FaultFree) (ha : w.store.activation planId = some a) :
    (∃ s w', Returns (recover planId) s w w') ↔ Recoverable planId a w := by
  have hrec : Recoverable planId a w ↔ _ := ⟨fun h => h g hg, fun h g' hg' => by
    have he : g = g' := Traffic.exposure.inj (hg.symm.trans hg')
    exact he ▸ h⟩
  rw [hrec]
  simp only [returns_recover_exposure ha hg]
  cases hs : a.state
  case rollback    => exact recoverRollback_iff h hg hf ha hs
  case commitReady => exact recoverCommit_iff h hg hf ha hs
  case preparing | launching | observing =>
    exact recoverPreOpen_iff h hg hf ha (by simp [hs, State.transitions])
  all_goals exact iff_of_true ⟨_, w, rfl, rfl⟩ trivial

-- In every run of one plan, `recover` gets it out of every interrupted state exactly where the gate
-- accepts what it is asked.
theorem recover_total_iff (h : Reachable (Created n) (Next (Only p) Served) w)
    (hh : Healthy p w) : Recovers p.planId w ↔
      ∃ a, w.store.activation p.planId = some a ∧ Recoverable p.planId a w := by
  rw [recovers_iff_returns]
  cases ha : w.store.activation p.planId
  case none =>
    refine iff_of_false (fun ⟨s, w', hr⟩ => ?_) (by simp)
    have ⟨a, _, hr, _⟩ := returns_bind.mp hr
    simp [(returns_row.mp hr).left] at ha
  case some a =>
    have hp : a.plan = p := (run_plan h).right a ha
    simp only [Option.some.injEq, exists_eq_left']
    rcases ht : w.traffic with g | t
    case exposure =>
      exact recover_exposure_iff (hp ▸ run_gateFor h ht) ht (hh.exposure g ht) ha
    case plain =>
      refine iff_of_true (recover_plain_returns ht (hp ▸ hh.plain t ht) ha) fun g hg => ?_
      simp [ht] at hg

end Coordinator

namespace Coordinator.Sample

-- The process dies while the plan is prepared, and another coordinator is started.
def dying : W :=
  let w := prepared ["prepare.after_wal"]
  w.setStore w.store.boot

-- That coordinator recovers and then rolls the plan back, but dies before the host's receipt.
def stuck : W :=
  (Op.rollback planId "drill").diesAt 1 call <| (Op.recover planId).after call dying

theorem healthy_of_exposure {w : W}
    (h : (exposure? w).any fun g => g.faults = [] ∧ g.traffic.faults = []) : Healthy plan w := by
  have ⟨g, hg, hf⟩ := (Option.any_eq_true _ _).mp h
  have hg := exposure?_eq.mp hg
  refine ⟨fun g' hg' => ?_, fun t ht => ?_⟩
  · have he : g = g' := Traffic.exposure.inj (hg.symm.trans hg')
    have hf := of_decide_eq_true hf
    exact he ▸ ⟨hf.left, hf.right⟩
  · simp [hg] at ht

theorem reachable_dying : Reachable (Created 0) (Next (Only plan) Served) dying := by
  have hi : Created 0 (⟨Store.new, .exposure gate, ["prepare.after_wal"]⟩ : W) :=
    ⟨rfl, fun g hg => Traffic.exposure.inj hg ▸ rfl⟩
  refine .step (.step (.step (.step (.init hi) .boot) (.op call (.plan plan) ?_ Op.after_mem))
    (.op call (.prepare planId) ?_ Op.after_mem)) .boot
  · exact ⟨rfl, fun q hq => (Op.plan.inj hq).symm⟩
  · exact ⟨planId_eq.symm, fun q hq => nomatch hq⟩

theorem recovers_of_preparing :
    (dying.store.activation plan.planId).map (·.state) = some .preparing ∧
      Recovers plan.planId dying := by
  have ⟨hs, hhealthy, hrow⟩ :
      (dying.store.activation plan.planId).map (·.state) = some .preparing ∧
      ((exposure? dying).any fun g => g.faults = [] ∧ g.traffic.faults = []) ∧
      (exposure? dying).any fun g => g.db.row.any fun row => row.state.accepts
        (Gate.restoredClass row (Gate.restoreCall row g.traffic).1).target := by
    decide +kernel
  refine ⟨hs, (recover_total_iff reachable_dying (healthy_of_exposure hhealthy)).mpr ?_⟩
  have ⟨a, ha, hs⟩ := Option.map_eq_some_iff.mp hs
  refine ⟨a, ha, fun g hg => ?_⟩
  rw [exposure?_eq.mpr hg, Option.any_some] at hrow
  have ⟨row, hr, hacc⟩ := (Option.any_eq_true _ _).mp hrow
  rw [hs]
  exact ⟨row, hr, hacc⟩

theorem not_recovers_of_stuck : Reachable (Created 0) (Next (Only plan) Served) stuck ∧
    (stuck.store.activation plan.planId).map (·.state) = some .rollback ∧ Healthy plan stuck ∧
    ¬Recovers plan.planId stuck := by
  have ⟨hs, hhealthy, hv⟩ : (stuck.store.activation plan.planId).map (·.state) = some .rollback ∧
      ((exposure? stuck).any fun g => g.faults = [] ∧ g.traffic.faults = []) ∧
      (recover plan.planId stuck).value.toOption = none := by
    decide +kernel
  refine ⟨.step (.step reachable_dying (.op call (.recover planId) ?_ Op.after_mem))
    (.op call (.rollback planId "drill") ?_ Op.diesAt_mem), hs, healthy_of_exposure hhealthy, ?_⟩
  · exact ⟨planId_eq.symm, fun q hq => nomatch hq⟩
  · exact ⟨planId_eq.symm, fun q hq => nomatch hq⟩
  · intro ⟨s, _, _, _, hr, _⟩
    simp [hr.left, Except.toOption] at hv

end Coordinator.Sample
