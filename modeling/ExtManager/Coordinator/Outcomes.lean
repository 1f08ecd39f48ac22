import ExtManager.Coordinator.Journal
import ExtManager.Coordinator.Rules

open Crash Prog Relation

theorem State.not_concluded_of_transition {s target : State} (h : target ∈ s.transitions) :
    s.concluded = false := by
  revert h
  cases s <;> simp [transitions, concluded]

namespace Store

variable {s s' : Store} {planId : String} {a b : Activation} {new : List RollbackOutcome}

def outcomesOf (s : Store) (planId : String) : List RollbackOutcome :=
  s.outcomes.filter (·.planId = planId)

-- The journal has a transition of the plan to `Rollback`.
def RollsBack (s : Store) (planId : String) : Prop :=
  ∃ r ∈ s.journal, r.planId = planId ∧ r.kind = .transition ∧ r.operation = State.rollback.value

-- There is one outcome of the plan, and it tells whether the plan is `RolledBack`.
def Tells (s : Store) (planId : String) (a : Activation) : Prop :=
  ∃ o, s.outcomesOf planId = [o] ∧ (o.success ↔ a.state = .rolledBack)

-- Every rollback that has come to an end has left its outcome.
def Durable (s : Store) : Prop :=
  ∀ planId a, s.activation planId = some a → a.state.concluded → s.RollsBack planId →
    s.Tells planId a

-- The outcomes are those of the plans that have come to their end, one of each.
structure OutcomeInv (s : Store) : Prop where
  absent    : ∀ id, s.activation id = none → s.outcomesOf id = []
  going     : ∀ id a, s.activation id = some a → a.state.concluded = false → s.outcomesOf id = []
  concluded : ∀ id a, s.activation id = some a → a.state.concluded → s.Tells id a

theorem OutcomeInv.durable (h : s.OutcomeInv) : s.Durable :=
  fun id a ha hc _ => h.concluded id a ha hc

theorem outcomeInv_new {n : Int} : OutcomeInv { Store.new with generation := n } :=
  ⟨fun _ _ => rfl, fun _ _ ha => (nomatch ha), fun _ _ ha => (nomatch ha)⟩

theorem outcomesOf_append (ho : s'.outcomes = new ++ s.outcomes) (hn : ∀ o ∈ new, o.planId = planId)
    {id : String} :
    s'.outcomesOf id = if id = planId then new ++ s.outcomesOf id else s.outcomesOf id := by
  rw [outcomesOf, ho, List.filter_append]
  by_cases he : id = planId
  case pos =>
    rw [if_pos he, List.filter_eq_self.mpr fun o hm => by simp [hn o hm, he]]
    rfl
  case neg =>
    have hnone : new.filter (·.planId = id) = [] :=
      List.filter_eq_nil_iff.mpr fun o hm => by simpa [hn o hm] using Ne.symm he
    rw [if_neg he, hnone]
    rfl

-- A transaction that moves one plan leaves the outcomes of the others alone.
theorem OutcomeInv.change (h : s.OutcomeInv)
    (ha : s'.activation = fun id => if id = planId then some b else s.activation id)
    (ho : s'.outcomes = new ++ s.outcomes) (hn : ∀ o ∈ new, o.planId = planId)
    (hg : b.state.concluded = false → new ++ s.outcomesOf planId = [])
    (hc : b.state.concluded → ∃ o, new ++ s.outcomesOf planId = [o] ∧
      (o.success ↔ b.state = .rolledBack)) : s'.OutcomeInv := by
  refine ⟨fun id hid => ?_, fun id a' ha' hs => ?_, fun id a' ha' hs => ?_⟩
  all_goals
    by_cases he : id = planId
  case pos => simp [ha, he] at hid
  case neg => simpa [outcomesOf_append ho hn, he] using h.absent id (by simpa [ha, he] using hid)
  case pos =>
    simp only [ha, he, if_true, Option.some.injEq] at ha'
    simpa [outcomesOf_append ho hn, he] using hg (ha' ▸ hs)
  case neg =>
    simpa [outcomesOf_append ho hn, he] using h.going id a' (by simpa [ha, he] using ha') hs
  case pos =>
    simp only [ha, he, if_true, Option.some.injEq] at ha'
    simpa [Tells, outcomesOf_append ho hn, he, ← ha'] using hc (ha' ▸ hs)
  case neg =>
    simpa [Tells, outcomesOf_append ho hn, he] using
      h.concluded id a' (by simpa [ha, he] using ha') hs

-- So does one that writes no outcome, if it does not end the plan.
theorem OutcomeInv.keep (h : s.OutcomeInv) (ha : s.activation planId = some a)
    (hact : s'.activation = fun id => if id = planId then some b else s.activation id)
    (ho : s'.outcomes = s.outcomes)
    (hb : b = a ∨ a.state.concluded = false ∧ b.state.concluded = false) : s'.OutcomeInv := by
  have hnone : ∀ o ∈ ([] : List RollbackOutcome), o.planId = planId := by simp
  refine h.change hact (ho.trans (List.nil_append _).symm) hnone (fun hs => ?_) fun hs => ?_
  · rcases hb with rfl | ⟨hs', _⟩
    · exact h.going _ _ ha hs
    · exact h.going _ _ ha hs'
  · rcases hb with rfl | ⟨_, hs'⟩
    · exact h.concluded _ _ ha hs
    · exact absurd (hs.symm.trans hs') (by simp)

-- A plan in `Rollback` has got there.
theorem Stories.rollsBack (h : s.Stories) (ha : s.activation planId = some a)
    (hs : a.state = .rollback) : s.RollsBack planId := by
  have ⟨path, ht, _, _, hl⟩ := (h _ _ ha).path
  have hm : some State.rollback ∈ JournalRow.trail (s.rowsOf planId) := by
    rw [ht]
    exact List.mem_map_of_mem (hs ▸ List.mem_of_getLast? hl)
  have ⟨r, hr, hv⟩ := List.mem_map.mp (List.mem_reverse.mp hm)
  have ⟨hr, hk⟩ := List.mem_filter.mp hr
  have ⟨hr, hid⟩ := List.mem_filter.mp hr
  refine ⟨r, hr, of_decide_eq_true hid, of_decide_eq_true hk, ?_⟩
  unfold JournalRow.target? at hv
  split at hv
  · cases hv
  · have hv := List.find?_some (show State.all.find? _ = _ from hv)
    exact (of_decide_eq_true hv).symm

end Store

namespace Coordinator

variable [Sha256] {τ π : Type} [TrafficAdapter τ] {c : Call} {op : Op} {w₀ w : World τ π}
variable {s : Store} {n : Int}

theorem Commit.outcomeInv (hc : Commit c op w₀ w s) (hr : ¬op.RecoversPlain w₀) (h₀ : w₀.store.Inv)
    (h : w.store.OutcomeInv) : s = w₀.store ∨ s.OutcomeInv := by
  cases hc
  case insert plan _ _ _ hs =>
    have ⟨hn, he⟩ := Store.insert_ok_iff.mp hs
    subst he
    have hnone : ∀ o ∈ ([] : List RollbackOutcome), o.planId = plan.planId := by simp
    exact .inr (h.change rfl rfl hnone (fun _ => h.absent _ hn) nofun)
  case delete hs _ _ _ _ => exact .inl (Store.delete_insert h₀ hs)
  case note ha _ => exact .inr (h.keep ha (Store.activation_self ha) rfl (.inl rfl))
  case shift a target rows _ ha ht _ _ ho =>
    have hnil := h.going _ _ ha (State.not_concluded_of_transition ht)
    cases ho
    case going hg =>
      exact .inr (h.keep ha rfl rfl (.inr ⟨State.not_concluded_of_transition ht, hg⟩))
    case recorded hset =>
      refine .inr (h.change rfl rfl (List.forall_mem_singleton.mpr rfl) (fun hs => ?_) fun _ => ?_)
      · exact absurd (hset.symm.trans hs) (by simp)
      · exact ⟨_, by rw [hnil, List.append_nil], decide_eq_true_iff⟩
    case unrecorded hplain _ => exact absurd hplain hr
  case launch ha hs =>
    exact .inr (h.keep ha rfl rfl (.inr ⟨by rw [hs]; rfl, rfl⟩))
  case launched ha hs hi =>
    have ⟨_, he⟩ := Store.setInventory_ok_iff.mp hi
    subst he
    exact .inr (h.keep ha rfl rfl (.inr ⟨by rw [hs]; rfl, rfl⟩))
  case evidence ha _ _ _ hs =>
    have ⟨_, he⟩ := Store.insertEvidence_ok_iff.mp hs
    subst he
    exact .inr (h.keep ha (Store.activation_self ha) rfl (.inl rfl))
  case refresh ha _ hi =>
    have ⟨_, he⟩ := Store.setInventory_ok_iff.mp hi
    subst he
    exact .inr (h.keep ha (Store.activation_self ha) rfl (.inl rfl))
  case wal ha ht _ _ _ he =>
    subst he
    exact .inr (h.keep ha rfl rfl (.inr ⟨State.not_concluded_of_transition ht, rfl⟩))

variable [TrafficGate π]

-- No rollback is recovered without an exposure gate.
abbrev Recovered : Call → Op → World τ π → Prop :=
  fun _ op w => ¬op.RecoversPlain w

-- Wherever the coordinators die, every rollback that has come to an end has left its outcome, as
-- long as none is recovered without an exposure gate.
theorem outcomes_durable {env : Traffic τ π → Traffic τ π → Prop}
    (h : Reachable (Initial n) (Next Recovered env) w) : w.store.Durable := by
  refine (run_store_invariant (I := Store.OutcomeInv) h Store.outcomeInv_new ?_ ?_).right.durable
  · exact fun _ _ h => ⟨h.absent, h.going, h.concluded⟩
  · exact fun _ _ _ _ _ hr h₀ _ h hc => hc.outcomeInv hr h₀ h

-- One such recovery that nothing interrupts loses the outcome.
theorem outcome_lost {env : Traffic τ π → Traffic τ π → Prop}
    (h : Reachable (Initial n) (Next Recovered env) w) (hr : op.RecoversPlain w) :
    ¬(op.after c w).store.Durable := by
  obtain ⟨planId, a, t, hop, ha, hs, ht⟩ := hr
  obtain ⟨_, hi⟩ := run_store_invariant (I := Store.OutcomeInv) h Store.outcomeInv_new
    (fun _ _ h => ⟨h.absent, h.going, h.concluded⟩)
    fun _ _ _ _ _ hr h₀ _ h hc => hc.outcomeInv hr h₀ h
  let s := w.store.shift planId { a with state := .failedSafe }
    [.moved planId .rollback .failedSafe] []
  have hs' : w.store.transition planId .failedSafe = .ok s :=
    Store.transition_ok_iff.mpr ⟨a, ha, by simp [hs, State.transitions], by simp [s, hs]; rfl⟩
  have hret : Returns (op.run c) () w (w.setStore s) := by
    rw [hop]
    refine returns_bind.mpr ⟨.failedSafe, w.setStore s, ?_, returns_pure.mpr ⟨rfl, rfl⟩⟩
    unfold recover
    rw [returns_row_seq ha, returns_isPlain_seq ht, hs]
    simp [hs']
  have hw : (op.after c w).store = s := congrArg World.store hret.right
  intro hd
  obtain ⟨r, hm, hr⟩ := (reachable_stories h).rollsBack ha hs
  obtain ⟨o, ho, _⟩ := hd planId { a with state := .failedSafe } (by simp [hw, s]) rfl
    ⟨r, hw ▸ List.mem_cons_of_mem _ hm, hr⟩
  have hnil := hi.going planId a ha (by rw [hs]; rfl)
  rw [hw] at ho
  exact absurd (ho.symm.trans hnil) (by simp)

end Coordinator

namespace Coordinator.Sample

variable {env : Traffic DeterministicTrafficAdapter FakeTrafficGate →
  Traffic DeterministicTrafficAdapter FakeTrafficGate → Prop}

theorem recovered_launched : Reachable (Initial 0) (Next Recovered env) (launched []) := by
  have hne {op : Op} {w : W} (h : ∀ planId, op ≠ .recover planId) : Recovered call op w :=
    fun ⟨planId, _, _, hop, _⟩ => h planId hop
  exact .step (.step (.step reachable_new (.op _ _ (hne (by simp)) Op.after_mem))
    (.op _ _ (hne (by simp)) Op.after_mem)) (.op _ _ (hne (by simp)) Op.after_mem)

-- A plan that has been rolled back, and one of which the rollback has been interrupted after the
-- receipt of the host.
def rolledBack : W :=
  (Op.rollback planId "operator").after call (launched [])

def rollingBack : W :=
  (Op.rollback planId "operator").diesAt 3 call (launched [])

theorem rolledBack_told : ∃ a, rolledBack.store.activation planId = some a ∧
    a.state = .rolledBack ∧ rolledBack.store.RollsBack planId ∧
      rolledBack.store.Tells planId a := by
  have ⟨hs, hm⟩ : (rolledBack.store.activation planId).map (·.state) = some .rolledBack ∧
      JournalRow.moved planId .observing .rollback ∈ rolledBack.store.journal := by
    decide +kernel
  have ⟨a, ha, hs⟩ := Option.map_eq_some_iff.mp hs
  have hr : rolledBack.store.RollsBack planId :=
    ⟨.moved planId .observing .rollback, hm, rfl, rfl, rfl⟩
  have h : Reachable (Initial 0) (Next Recovered fun _ _ => False) rolledBack :=
    .step recovered_launched (.op _ _ (fun ⟨_, _, _, hop, _⟩ => nomatch hop) Op.after_mem)
  exact ⟨a, ha, hs, hr, outcomes_durable h planId a ha (by rw [hs]; rfl) hr⟩

-- The interrupted rollback is recovered, and no outcome says what has become of the plan.
theorem recovered_untold : ∃ w : W, Reachable (Initial 0) (Next Always fun _ _ => False) w ∧
    ¬w.store.Durable := by
  have ⟨hs, hn⟩ : (rollingBack.store.activation planId).map (·.state) = some .rollback ∧
      (exposure? rollingBack).isNone := by
    decide +kernel
  have ⟨a, ha, hs⟩ := Option.map_eq_some_iff.mp hs
  refine ⟨(Op.recover planId).after call rollingBack, .step (.step reachable_launched
    (.op _ _ trivial Op.diesAt_mem)) (.op _ _ trivial Op.after_mem), ?_⟩
  cases ht : rollingBack.traffic
  case exposure g =>
    simp [exposure?_eq.mpr ht] at hn
  case plain t =>
    have h : Reachable (Initial 0) (Next Recovered fun _ _ => False) rollingBack :=
      .step recovered_launched (.op _ _ (fun ⟨_, _, _, hop, _⟩ => nomatch hop) Op.diesAt_mem)
    exact outcome_lost h ⟨planId, a, t, rfl, ha, hs, ht⟩

end Coordinator.Sample
