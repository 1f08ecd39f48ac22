import ExtManager.Coordinator.Cas
import ExtManager.Coordinator.Recovery

open Crash Prog Relation

-- A gate that knows one active plan, as `FakeTrafficGate` does: each of its calls sets it.
class ActiveGate [Sha256] (π : Type) extends TrafficGate π where
  activePlanId           : π → Option String
  active_holdPredecessor : ∀ {p t}, (holdPredecessor p t).1 = .ok () →
    activePlanId (holdPredecessor p t).2 = p.planId
  active_activate        : ∀ {plan t}, (activate plan t).1 = .ok () →
    activePlanId (activate plan t).2 = some plan.planId
  active_restore         : ∀ {p t}, (restore p t).1 = .ok () →
    activePlanId (restore p t).2 = p.planId

instance [Sha256] : ActiveGate FakeTrafficGate where
  activePlanId             := (·.activePlanId)
  active_holdPredecessor _ := rfl
  active_activate _        := rfl
  active_restore _         := rfl

namespace Store

variable {s s' : Store} {planId id : String} {n : Int}

-- The plan has the highest committed generation.
def Latest (s : Store) (planId : String) : Prop :=
  ∃ a, s.activation planId = some a ∧ (∃ r ∈ s.journal, r.planId = planId ∧ r.isCommit) ∧
    ∀ r ∈ s.journal, r.isCommit → ∀ b, s.activation r.planId = some b →
      b.plan.predecessor.generation ≤ a.plan.predecessor.generation

theorem Latest.unique (h : s.CasInv n) (hl : s.Latest planId) (hl' : s.Latest id) :
    id = planId := by
  have ⟨a, ha, ⟨r, hm, hid, hk⟩, hmax⟩ := hl
  have ⟨a', ha', ⟨r', hm', hid', hk'⟩, hmax'⟩ := hl'
  subst hid hid'
  by_contra hne
  have hlt := h.distinct hm' hk' hm hk hne ha' ha
  have hle := hmax r' hm' hk' a' ha'
  have hle' := hmax' r hm hk a ha
  omega

-- The plan whose commit has taken the generation that the tables are at.
theorem Latest.of_newest {a : Activation} {r : JournalRow} (h : s.CasInv n)
    (ha : s.activation planId = some a) (hm : r ∈ s.journal) (hid : r.planId = planId)
    (hk : r.isCommit) (hg : s.generation = a.plan.predecessor.generation + 1) :
    s.Latest planId := by
  refine ⟨a, ha, ⟨r, hm, hid, hk⟩, fun r' hm' hk' b hb => ?_⟩
  have hlt := h.below r' hm' hk' b hb
  omega

end Store

namespace Coordinator

section Tables

variable [Sha256] {τ π : Type} [TrafficAdapter τ] {c : Call} {op : Op} {w₀ w : World τ π}
variable {s s' : Store} {id : String}

-- What an operation on one plan leaves of the tables.
structure Apart (op : Op) (s s' : Store) : Prop where
  others  : ∀ id, id ≠ op.planId → s'.activation id = s.activation id
  plans   : ∀ id a, s.activation id = some a →
    ∃ a', s'.activation id = some a' ∧ a'.plan = a.plan
  journal : ∀ r ∈ s.journal, r ∈ s'.journal
  commits : (∀ planId expected, op ≠ .commit planId expected) →
    ∀ r ∈ s'.journal, r.isCommit → r ∈ s.journal

theorem Apart.refl : Apart op s s :=
  ⟨fun _ _ => rfl, fun _ a ha => ⟨a, ha, rfl⟩, fun _ h => h, fun _ _ h _ => h⟩

theorem Commit.apart (hc : Commit c op w₀ w s) (h₀ : w₀.store.Inv)
    (h : Apart op w₀.store w.store) : s = w₀.store ∨ Apart op w₀.store s := by
  cases hc.effect
  case insert plan hop hs _ _ =>
    obtain ⟨hn, he⟩ := Store.insert_ok_iff.mp hs
    subst hop he
    refine .inr ⟨fun id hid => ?_, fun id a ha => ?_, fun r hr => ?_, fun hne r hr hk => ?_⟩
    · have hid : id ≠ plan.planId := hid
      simp [Store.log, Store.setActivation, hid, h.others id hid]
    · obtain ⟨a', ha', hp⟩ := h.plans id a ha
      have hid : id ≠ plan.planId := fun he => by simp [he, hn] at ha'
      exact ⟨a', by simp [Store.log, Store.setActivation, hid, ha'], hp⟩
    · exact List.mem_cons_of_mem _ (h.journal r hr)
    · rcases List.mem_cons.mp hr with he | hr
      · simp [he, JournalRow.isCommit] at hk
      · exact h.commits hne r hr hk
  case delete hs he => exact .inl (he.trans (Store.delete_insert h₀ hs))
  case change hch hk =>
    refine .inr ⟨fun id hid => ?_, fun id a ha => ?_, fun r hr => ?_, fun hne r hr hk' => ?_⟩
    · rw [hch.after, ← h.others id hid]
      exact if_neg hid
    · obtain ⟨a', ha', hp⟩ := h.plans id a ha
      obtain ⟨b, hb⟩ := Option.isSome_iff_exists.mp (hch.isSome (Option.isSome_of_eq_some ha'))
      obtain ⟨a₀, ha₀, hp'⟩ := hch.activation hb
      rw [ha'] at ha₀
      exact ⟨b, hb, hp'.trans (Option.some.inj ha₀ ▸ hp)⟩
    · rw [hch.journal]
      exact List.mem_append_right _ (h.journal r hr)
    · rw [hch.journal, List.mem_append] at hr
      rcases hr with hr | hr
      · rcases hk with hk | ⟨expected, hop⟩
        · simp [hk r hr] at hk'
        · exact absurd hop (hne _ _)
      · exact h.commits hne r hr hk'

theorem Steps.apart (h : Steps c op w₀ w) (h₀ : w₀.store.Inv) : Apart op w₀.store w.store :=
  (h.store_invariant h₀ .refl fun _ _ _ h hc => hc.apart h₀ h).right

theorem Steps.exposure {g : Gate τ} (h : Steps c op w₀ w) (hg : w₀.traffic = .exposure g) :
    ∃ g', w.traffic = .exposure g' := by
  induction h
  case refl => exact ⟨g, hg⟩
  case tail hs ih =>
    have ⟨g', hg'⟩ := ih
    cases hs
    case gate g'' _ _ _ => exact ⟨g'', rfl⟩
    case plain ht       => exact nomatch hg'.symm.trans ht
    all_goals exact ⟨g', hg'⟩

omit [Sha256] in
theorem Apart.latest [Sha256] (h : Apart op s s') (hi : s.Inv)
    (hne : ∀ planId expected, op ≠ .commit planId expected) (hl : s'.Latest id) : s.Latest id := by
  have ⟨a', ha', ⟨r, hm, hid, hk⟩, hmax⟩ := hl
  have hm := h.commits hne r hm hk
  have ⟨a, ha⟩ := Option.isSome_iff_exists.mp (hi.journal r hm)
  rw [hid] at ha
  have ⟨b, hb, hp⟩ := h.plans id a ha
  have he : b = a' := Option.some.inj (hb.symm.trans ha')
  refine ⟨a, ha, ⟨r, hm, hid, hk⟩, fun r' hm' hk' b' hb' => ?_⟩
  have ⟨b'', hb'', hp'⟩ := h.plans _ b' hb'
  rw [← hp, ← hp', he]
  exact hmax r' (h.journal r' hm') hk' b'' hb''

end Tables

-- The predecessor that an operation gives the traffic back to where it succeeds.
def Op.restores (s : Store) : Op → Option PredecessorSnapshot
  | .plan p                   => some p.predecessor
  | .recover planId           => match s.activation planId with
    | some a => match a.state with
      | .preparing | .launching | .observing | .commitReady => some a.plan.predecessor
      | _                                                   => none
    | none   => none
  | .rollback planId _        => (s.activation planId).map (·.plan.predecessor)
  | .externalLeaseLost planId => match s.activation planId with
    | some a => if a.plan.fallbackProven then none else some a.plan.predecessor
    | none   => none
  | _                         => none

section Traffic

variable [Sha256] {τ π : Type} [TrafficAdapter τ] [ActiveGate π] {c : Call} {op : Op}
variable {w w' : World τ π} {t : π} {planId : String} {u : Unit}

-- An operation leaves a plan in a state and the traffic with `p`, or where it was.
def Leaves (planId : String) (target : State) (p : Option PredecessorSnapshot) (t : π)
    (w : World τ π) : Prop :=
  ∃ t', w.traffic = .plain t' ∧
    (match p with
      | some p => ActiveGate.activePlanId t' = p.planId
      | none   => t' = t) ∧
    ∃ a, w.store.activation planId = some a ∧ a.state = target

theorem prepare_leaves (h : Returns (prepare c planId) u w w') (ht : w.traffic = .plain t) :
    Leaves planId .prepared none t w' := by
  simp only [prepare, returns_bind, returns_row, returns_transaction, returns_hit,
    returns_lift] at h
  obtain ⟨_, _, ⟨_, rfl⟩, _, _, ⟨s, _, rfl⟩, _, _, ⟨_, rfl⟩, _, _, ⟨_, rfl⟩, _, _, ⟨_, rfl⟩, _, _,
    ⟨s', hs, rfl⟩, h⟩ := h
  have he : (w.setStore s).setStore s' = w' := by simpa [isExposure, ht, when] using h
  subst he
  exact ⟨t, ht, rfl, Store.activation_of_transition hs⟩

omit [TrafficAdapter τ] in
theorem launch_leaves {launchId : String} (h : Returns (launch c planId launchId) u w w')
    (ht : w.traffic = .plain t) : Leaves planId .observing none t w' := by
  simp only [launch, returns_bind, returns_row, returns_transaction, returns_hit,
    returns_lift] at h
  obtain ⟨_, _, ⟨_, rfl⟩, _, _, ⟨s, _, rfl⟩, _, _, ⟨_, rfl⟩, inventory, _, ⟨_, rfl⟩, _, _,
    ⟨_, rfl⟩, s', hs, rfl⟩ := h
  obtain ⟨_, _, hs⟩ := ok_of_bind hs
  exact ⟨t, ht, rfl, Store.activation_of_transition hs⟩

omit [TrafficAdapter τ] in
theorem resumeObserving_leaves (h : Returns (resumeObserving planId) u w w')
    (ht : w.traffic = .plain t) : Leaves planId .observing none t w' := by
  simp only [resumeObserving, returns_transaction] at h
  obtain ⟨s, hs, rfl⟩ := h
  exact ⟨t, ht, rfl, Store.activation_of_transition hs⟩

theorem plan_leaves {plan : Plan} {id : String} (h : Returns (Coordinator.plan plan) id w w')
    (ht : w.traffic = .plain t) :
    Leaves plan.planId .planned (some plan.predecessor) t w' := by
  unfold Coordinator.plan at h
  have ⟨_, _, hr, h⟩ := returns_bind.mp h
  obtain ⟨_, rfl⟩ := returns_raiseIf.mp hr
  have ⟨_, _, hr, h⟩ := returns_bind.mp h
  obtain ⟨s, hs, rfl⟩ := returns_transaction.mp hr
  have ht' : (w.setStore s).traffic = .plain t := ht
  rw [returns_isPlain_seq ht'] at h
  have ⟨_, _, hr, h⟩ := returns_bind.mp h
  obtain ⟨hok, rfl⟩ := (returns_onPlain ht').mp hr
  obtain ⟨_, rfl⟩ := returns_pure.mp h
  have ⟨_, he⟩ := Store.insert_ok_iff.mp hs
  refine ⟨_, rfl, ActiveGate.active_holdPredecessor hok, ⟨plan, .planned, none⟩, ?_, rfl⟩
  simp [he, Store.log, Store.setActivation]

omit [TrafficAdapter τ] in
theorem rollbackPlain_leaves {plan : Plan} {outcome : Json} {error : Option String} {state : State}
    (h : Returns (rollbackPlain planId plan outcome error) state w w') (ht : w.traffic = .plain t) :
    Leaves planId .rolledBack (some plan.predecessor) t w' := by
  unfold rollbackPlain at h
  obtain ⟨e, w₁, hr, h⟩ := returns_bind.mp h
  cases e
  case some e =>
    obtain ⟨_, _, _, hr⟩ := returns_bind.mp h
    exact absurd hr returns_raise
  case none =>
    rcases returns_attempt.mp hr with hr | ⟨_, _, hr⟩
    · cases error
      case some =>
        obtain ⟨_, _, hr, _⟩ := returns_bind.mp hr
        exact absurd hr returns_raise
      case none =>
        obtain ⟨_, _, hc, hp⟩ := returns_bind.mp hr
        obtain ⟨_, rfl⟩ := returns_pure.mp hp
        obtain ⟨hok, rfl⟩ := (returns_onPlain ht).mp hc
        simp only [returns_bind, returns_transaction, returns_pure] at h
        obtain ⟨_, _, ⟨s, hs, rfl⟩, _, rfl⟩ := h
        exact ⟨_, rfl, ActiveGate.active_restore hok, Store.activation_of_transition hs⟩
    · obtain ⟨he, _⟩ := returns_pure.mp hr
      contradiction

theorem rollback_leaves {reason : String} {state : State} {a : Activation}
    (h : Returns (rollback c planId reason) state w w')
    (ha : w.store.activation planId = some a) (ht : w.traffic = .plain t) :
    Leaves planId .rolledBack (some a.plan.predecessor) t w' := by
  unfold rollback at h
  rw [returns_row_seq ha] at h
  have ⟨_, _, hr, h⟩ := returns_bind.mp h
  obtain ⟨s, _, rfl⟩ := returns_transaction.mp hr
  have ⟨_, _, hr, h⟩ := returns_bind.mp h
  obtain ⟨_, rfl⟩ := returns_read.mp hr
  have ⟨_, _, hr, h⟩ := returns_bind.mp h
  obtain ⟨s', _, rfl⟩ := returns_transaction.mp hr
  have ht' : ((w.setStore s).setStore s').traffic = .plain t := ht
  rw [returns_isPlain_seq ht'] at h
  exact rollbackPlain_leaves h ht'

theorem externalLeaseLost_leaves {state : State} {a : Activation}
    (h : Returns (externalLeaseLost c planId) state w w')
    (ha : w.store.activation planId = some a) (ht : w.traffic = .plain t) :
    if a.plan.fallbackProven then Leaves planId .reconcile none t w'
    else Leaves planId .rolledBack (some a.plan.predecessor) t w' := by
  unfold externalLeaseLost at h
  rw [returns_row_seq ha] at h
  obtain ⟨_, _, hr, hrest⟩ := returns_bind.mp h
  obtain ⟨s, hs, rfl⟩ := returns_transaction.mp hr
  split at hrest
  case isTrue hf =>
    simp only [returns_bind, returns_transaction, returns_pure] at hrest
    obtain ⟨_, _, ⟨s', hs', rfl⟩, _, rfl⟩ := hrest
    rw [if_pos hf]
    exact ⟨t, ht, rfl, Store.activation_of_transition hs'⟩
  case isFalse hf =>
    obtain ⟨a', ha', _, he⟩ := Store.transition_ok_iff.mp hs
    have he' : a' = a := Option.some.inj (ha'.symm.trans ha)
    subst he he'
    rw [if_neg hf]
    have hl := rollback_leaves hrest Store.activation_shift ht
    exact hl

omit [TrafficAdapter τ] in
-- A recovery through the predecessor.
theorem reconcile_leaves {p : PredecessorSnapshot} {body : Store → Except Exc Store} {state : State}
    (hb : ∀ s s', body s = .ok s' → ∃ a, s'.activation planId = some a ∧ a.state = .reconcile)
    (h : Returns (do
      onPlain (TrafficGate.restore p)
      transaction body
      let a ← row planId
      pure a.state) state w w') (ht : w.traffic = .plain t) :
    Leaves planId .reconcile (some p) t w' := by
  have ⟨_, _, hr, h⟩ := returns_bind.mp h
  obtain ⟨hok, rfl⟩ := (returns_onPlain ht).mp hr
  simp only [returns_bind, returns_transaction, returns_row, returns_pure] at h
  obtain ⟨_, _, ⟨s, hs, rfl⟩, _, _, ⟨_, rfl⟩, _, rfl⟩ := h
  exact ⟨_, rfl, ActiveGate.active_restore hok, hb _ _ hs⟩

theorem recover_leaves {state : State} {a : Activation} (h : Returns (recover planId) state w w')
    (ha : w.store.activation planId = some a) (ht : w.traffic = .plain t) :
    match a.state with
    | .rollback => Leaves planId .failedSafe none t w'
    | .preparing | .launching | .observing | .commitReady =>
      Leaves planId .reconcile (some a.plan.predecessor) t w'
    | _         => w = w' := by
  rw [returns_recover_plain ha ht] at h
  cases hs : a.state
  all_goals simp only [hs] at h ⊢
  case rollback =>
    simp only [returns_bind, returns_transaction, returns_pure] at h
    obtain ⟨_, _, ⟨s, hs, rfl⟩, _, rfl⟩ := h
    exact ⟨t, ht, rfl, Store.activation_of_transition hs⟩
  case preparing | launching | commitReady =>
    exact reconcile_leaves (fun _ _ => activation_of_transition_log) h ht
  case observing => exact reconcile_leaves (fun _ _ => Store.activation_of_transition) h ht
  all_goals exact h.right

-- The traffic follows the predecessor that the operation restores, and the plan is not effective
-- after it unless nothing was done.
theorem Op.leaves (h : Returns (op.run c) u w w') (ht : w.traffic = .plain t)
    (hne : ∀ planId expected, op ≠ .commit planId expected) :
    (∃ target, target ≠ .effective ∧ Leaves op.planId target (op.restores w.store) t w') ∨
      op.restores w.store = none ∧ w'.traffic = w.traffic ∧
        (∀ a, w'.store.activation op.planId = some a → a.state = .effective → w = w') := by
  cases op
  case plan plan =>
    obtain ⟨_, h⟩ := returns_void.mp h
    exact .inl ⟨_, by simp, plan_leaves h ht⟩
  case prepare => exact .inl ⟨_, by simp, prepare_leaves h ht⟩
  case launch  => exact .inl ⟨_, by simp, launch_leaves h ht⟩
  case resumeObserving => exact .inl ⟨_, by simp, resumeObserving_leaves h ht⟩
  case commit planId expected => exact absurd rfl (hne planId expected)
  case rollback planId reason =>
    obtain ⟨_, h⟩ := returns_void.mp h
    obtain ⟨a, _, hr, _⟩ := returns_bind.mp h
    have ha := (returns_row.mp hr).left
    have hp : Op.restores w.store (.rollback planId reason) = some a.plan.predecessor := by
      simp [Op.restores, ha]
    exact .inl ⟨.rolledBack, by simp, hp ▸ rollback_leaves h ha ht⟩
  case externalLeaseLost planId =>
    obtain ⟨_, h⟩ := returns_void.mp h
    obtain ⟨a, _, hr, _⟩ := returns_bind.mp h
    have ha := (returns_row.mp hr).left
    have hl := externalLeaseLost_leaves h ha ht
    have hp : Op.restores w.store (.externalLeaseLost planId) =
        if a.plan.fallbackProven then none else some a.plan.predecessor := by
      simp [Op.restores, ha]
    rw [hp]
    split at hl
    case isTrue hf  => exact .inl ⟨.reconcile, by simp, by rw [if_pos hf]; exact hl⟩
    case isFalse hf => exact .inl ⟨.rolledBack, by simp, by rw [if_neg hf]; exact hl⟩
  case recover planId =>
    obtain ⟨_, h⟩ := returns_void.mp h
    obtain ⟨a, _, hr, _⟩ := returns_bind.mp h
    have ha := (returns_row.mp hr).left
    have hl := recover_leaves h ha ht
    have hp : Op.restores w.store (.recover planId) = match a.state with
        | .preparing | .launching | .observing | .commitReady => some a.plan.predecessor
        | _                                                   => none := by
      simp [Op.restores, ha]
    rw [hp]
    cases hs : a.state
    all_goals simp only [hs] at hl ⊢
    case rollback => exact .inl ⟨.failedSafe, by simp, hl⟩
    case preparing | launching | observing | commitReady =>
      exact .inl ⟨.reconcile, by simp, hl⟩
    all_goals exact .inr ⟨trivial, hl ▸ rfl, fun _ _ _ => hl⟩
  case observe planId item now =>
    simp only [Op.run, Coordinator.observe, returns_bind, returns_row, returns_raiseIf, returns_lift,
      returns_read, returns_transaction] at h
    obtain ⟨a, _, ⟨ha, rfl⟩, _, _, ⟨ho, rfl⟩, _, _, ⟨_, rfl⟩, _, _, ⟨rfl, rfl⟩, _, _, ⟨_, rfl⟩,
      s, hs, rfl⟩ := h
    refine .inr ⟨rfl, rfl, fun a' ha' he => ?_⟩
    obtain ⟨_, hs⟩ := Store.insertEvidence_ok_iff.mp hs
    subst hs
    have : a = a' := Option.some.inj (ha.symm.trans ha')
    simp [this, he, State.observable] at ho
  case refreshInventory planId inventory =>
    simp only [Op.run, Coordinator.refreshInventory, returns_bind, returns_row, returns_raiseIf,
      returns_transaction] at h
    obtain ⟨a, _, ⟨ha, rfl⟩, _, _, ⟨ho, rfl⟩, s, hs, rfl⟩ := h
    refine .inr ⟨rfl, rfl, fun a' ha' he => ?_⟩
    obtain ⟨_, hs', hs⟩ := ok_of_bind hs
    obtain ⟨_, hs'⟩ := Store.setInventory_ok_iff.mp hs'
    injection hs with hs
    subst hs hs'
    have : a = a' := Option.some.inj (ha.symm.trans ha')
    simp [this, he, State.observable] at ho

theorem commit_leaves {expected generation : Int}
    (h : Returns (commit c planId expected) generation w w') (ht : w.traffic = .plain t) :
    ∃ a r t', w.store.activation planId = some a ∧ w'.traffic = .plain t' ∧
      ActiveGate.activePlanId t' = some a.plan.planId ∧
      w'.store.generation = a.plan.predecessor.generation + 1 ∧ r ∈ w'.store.journal ∧
      r.planId = planId ∧ r.isCommit := by
  unfold commit at h
  obtain ⟨a, _, hr, h₁⟩ := returns_bind.mp h
  obtain ⟨ha, rfl⟩ := returns_row.mp hr
  split at h₁
  case isTrue =>
    obtain ⟨_, _, _, hr⟩ := returns_bind.mp h₁
    exact absurd hr returns_raise
  case isFalse =>
    obtain ⟨_, _, hr, h₂⟩ := returns_bind.mp h₁
    obtain ⟨rfl, rfl⟩ := returns_read.mp hr
    obtain ⟨_, _, hr, h₃⟩ := returns_bind.mp h₂
    obtain ⟨_, rfl⟩ := returns_raiseIf.mp hr
    obtain ⟨_, _, hr, h₄⟩ := returns_bind.mp h₃
    obtain ⟨s, hs, rfl⟩ := returns_transaction.mp hr
    obtain ⟨_, _, hr, h₅⟩ := returns_bind.mp h₄
    obtain ⟨_, rfl⟩ := returns_hit.mp hr
    obtain ⟨_, _, hr, h₆⟩ := returns_bind.mp h₅
    have ht' : (w.setStore s).traffic = .plain t := ht
    rw [commitTraffic, returns_isPlain_seq ht'] at hr
    obtain ⟨hok, rfl⟩ := (returns_onPlain ht').mp hr
    simp only [returns_bind, returns_hit, returns_transaction, returns_read] at h₆
    obtain ⟨_, _, ⟨_, rfl⟩, _, _, ⟨s', hs', rfl⟩, _, rfl⟩ := h₆
    obtain ⟨_, _, _, hg, hp, he⟩ := commitWal_ok hs
    obtain ⟨_, _, _, he'⟩ := Store.transition_ok_iff.mp hs'
    subst he he'
    refine ⟨a, ⟨planId, .wal, "commit", .obj [("from", .int expected)]⟩, _, ha, rfl,
      ActiveGate.active_activate hok, ?_, ?_, rfl, rfl⟩
    · simp [Store.shift, Store.setActivation, Store.log, hg, hp]
    · simp [Store.shift, Store.setActivation, Store.log]

-- Operations that run to their end and succeed, one after the other.
inductive Whole (may : Op → World τ π → Prop) : World τ π → World τ π → Prop
  | op {w w' : World τ π} (c : Call) (op : Op) : may op w → Returns (op.run c) () w w' →
      Whole may w w'
  | boot {w : World τ π} : Whole may w (w.setStore w.store.boot)

-- An operation that gives the traffic back to a predecessor while the latest plan, another one, is
-- effective gives it to that plan.
def Considerate (op : Op) (w : World τ π) : Prop :=
  ∀ p id a, op.restores w.store = some p → w.store.Latest id → id ≠ op.planId →
    w.store.activation id = some a → a.state = .effective → p.planId = some id

variable {n : Int} {may : Op → World τ π → Prop} {a : Activation} {id : String}

theorem Whole.next (h : Whole may w w') : Next Always Anything w w' := by
  cases h
  case op c op _ h => exact .op c op trivial h.mem_ends
  case boot        => exact .boot

theorem Whole.reachable (h : Reachable (Initial n) (Whole may) w) :
    Reachable (Initial n) (Next Always Anything) w :=
  h.mono (fun _ h => h) fun _ _ h => h.next

-- The latest plan has the traffic where it is effective.
def Agrees (w : World τ π) : Prop :=
  ∀ t id a, w.traffic = .plain t → w.store.Latest id → w.store.activation id = some a →
    a.state = .effective → ActiveGate.activePlanId t = some id

theorem Agrees.commit {expected generation : Int}
    (h : Returns (Coordinator.commit c planId expected) generation w w')
    (ht : w.traffic = .plain t) (hi : w.store.Inv) (hcas : w'.store.CasInv n)
    (hap : Apart (.commit planId expected) w.store w'.store) : Agrees w' := by
  have ⟨a, r, t', ha, ht', hact, hg, hm, hid, hk⟩ := commit_leaves h ht
  have ⟨a', ha', hp⟩ := hap.plans planId a ha
  have hl : w'.store.Latest planId := .of_newest hcas ha' hm hid hk (hp ▸ hg)
  intro t'' id b ht'' hl' _ _
  have he : t' = t'' := Traffic.plain.inj (ht'.symm.trans ht'')
  rw [← he, hact, hl.unique hcas hl', hi.planId _ _ ha]

theorem Agrees.step (hx : Agrees w) (h : Returns (op.run c) u w w') (ht : w.traffic = .plain t)
    (hm : Considerate op w) (hi : w.store.Inv) (hap : Apart op w.store w'.store)
    (hne : ∀ planId expected, op ≠ .commit planId expected) : Agrees w' := by
  intro t' id a ht' hl ha hs
  have hl₀ := hap.latest hi hne hl
  rcases Op.leaves h ht hne with ⟨target, hne', t₁, ht₁, hact, b, hb, hbs⟩ | ⟨_, htr, hsame⟩
  · have he : t₁ = t' := Traffic.plain.inj (ht₁.symm.trans ht')
    have hid : id ≠ op.planId := by
      rintro rfl
      rw [Option.some.inj (hb.symm.trans ha)] at hbs
      exact hne' (hbs.symm.trans hs)
    have ha₀ := (hap.others id hid).symm.trans ha
    subst he
    cases hp : op.restores w.store
    case none =>
      simp only [hp] at hact
      exact hx t₁ id a (hact ▸ ht) hl₀ ha₀ hs
    case some p =>
      simp only [hp] at hact
      rw [hact]
      exact hm p id a hp hl₀ hid ha₀ hs
  · refine hx t' id a (htr ▸ ht') hl₀ ?_ hs
    by_cases hid : id = op.planId
    case pos =>
      rw [hsame a (hid ▸ ha) hs]
      exact ha
    case neg => exact (hap.others id hid).symm.trans ha

-- In every run of successful and considerate operations, over any number of plans, the traffic is
-- with the plan of the highest committed generation where that plan is effective.
theorem agreement_of_reachable (h : Reachable (Initial n) (Whole Considerate) w)
    (ht : w.traffic = .plain t) (hl : w.store.Latest id) (ha : w.store.activation id = some a)
    (hs : a.state = .effective) : ActiveGate.activePlanId t = some id := by
  suffices hx : Agrees w from hx t id a ht hl ha hs
  refine h.invariant (I := Agrees) (fun w h => ?_) fun w w' hr hx hn => ?_
  · rintro _ _ _ _ ⟨_, ha, _⟩
    rw [Initial] at h
    simp [h, Store.new] at ha
  have hinv := reachable_inv (Whole.reachable hr)
  have hcas := reachable_cas (Whole.reachable (.step hr hn))
  cases hn
  case boot => exact hx
  case op c op hm h =>
    have hap := (Op.steps_of_ends h.mem_ends).apart hinv
    rcases ht : w.traffic with g | t
    · intro t _ _ ht'
      obtain ⟨g', hg'⟩ := Steps.exposure (Op.steps_of_ends h.mem_ends) ht
      cases hg'.symm.trans ht'
    · by_cases hc : ∃ planId expected, op = .commit planId expected
      case pos =>
        obtain ⟨planId, expected, he⟩ := hc
        subst he
        obtain ⟨_, h⟩ := returns_void.mp h
        exact .commit h ht hinv hcas hap
      case neg => exact hx.step h ht hm hinv hap fun planId expected he => hc ⟨planId, expected, he⟩

end Traffic

end Coordinator

namespace Coordinator.Sample

variable {may : Op → W → Prop} {w : W}

theorem whole_after {op : Op} (hr : Reachable (Initial 0) (Whole may) w) (hm : may op w)
    (h : (op.run call w).value.isOk) : Reachable (Initial 0) (Whole may) (op.after call w) := by
  refine .step hr (.op call op hm ⟨?_, rfl⟩)
  cases hv : (op.run call w).value
  case ok      => rfl
  case error e => simp [hv, Except.toBool] at h

theorem considerate_of_uncommitted {op : Op} (h : ∀ r ∈ w.store.journal, ¬r.isCommit) :
    Considerate op w :=
  fun _ _ _ _ ⟨_, _, ⟨r, hm, _, hk⟩, _⟩ => absurd hk (h r hm)

-- The first plan gets effective in operations that give no traffic away.
theorem whole_committed (hm : ∀ op w, Considerate op w → may op w) :
    Reachable (Initial 0) (Whole may) (committed []) := by
  let planned : W := (Op.plan plan).after call (new (.plain ⟨none, none⟩) [])
  let prepared : W := (Op.prepare planId).after call planned
  have ⟨⟨hj₀, hv₀⟩, ⟨hj₁, hv₁⟩, ⟨hj₂, hv₂⟩, ⟨hj₃, hv₃⟩, hj₄, hv₄⟩ :
      ((∀ r ∈ (new (.plain ⟨none, none⟩) []).store.journal, ¬r.isCommit) ∧
        ((Op.plan plan).run call (new (.plain ⟨none, none⟩) [])).value.isOk) ∧
      ((∀ r ∈ planned.store.journal, ¬r.isCommit) ∧
        ((Op.prepare planId).run call planned).value.isOk) ∧
      ((∀ r ∈ prepared.store.journal, ¬r.isCommit) ∧
        ((Op.launch planId "launch-1").run call prepared).value.isOk) ∧
      ((∀ r ∈ (launched []).store.journal, ¬r.isCommit) ∧
        ((Op.observe planId (attestation "nonce-1") none).run call (launched [])).value.isOk) ∧
      (∀ r ∈ (observed []).store.journal, ¬r.isCommit) ∧
        ((Op.commit planId 0).run call (observed [])).value.isOk := by
    decide +kernel
  have hi : Initial 0 (⟨Store.new, .plain ⟨none, none⟩, []⟩ : W) := rfl
  have hn : Reachable (Initial 0) (Whole may) (new (.plain ⟨none, none⟩) []) :=
    .step (.init hi) .boot
  have hc (op : Op) {w : W} (hr : Reachable (Initial 0) (Whole may) w)
      (hj : ∀ r ∈ w.store.journal, ¬r.isCommit) (h : (op.run call w).value.isOk) :
      Reachable (Initial 0) (Whole may) (op.after call w) :=
    whole_after hr (hm _ _ (considerate_of_uncommitted hj)) h
  have hplanned := hc (.plan plan) hn hj₀ hv₀
  have hprepared := hc (.prepare planId) hplanned hj₁ hv₁
  have hlaunched := hc (.launch planId "launch-1") hprepared hj₂ hv₂
  have hobserved := hc (.observe planId (attestation "nonce-1") none) hlaunched hj₃ hv₃
  exact hc (.commit planId 0) hobserved hj₄ hv₄

-- The first plan is the latest one, and effective.
theorem latest_of_effective (h : Reachable (Initial 0) (Whole may) w)
    (hj : (w.store.journal.find? (·.isCommit)).map (·.planId) = some planId)
    (ha : w.store.activation planId = some ⟨plan, .effective, some "launch-1"⟩)
    (hg : w.store.generation = 1) : w.store.Latest planId := by
  have ⟨r, hr, hid⟩ := Option.map_eq_some_iff.mp hj
  exact .of_newest (reachable_cas (Whole.reachable h)) ha (List.mem_of_find?_eq_some hr) hid
    (List.find?_some hr) hg

def succeeded : W :=
  (Op.plan successor).after call (committed [])

-- Planning a successor leaves it there.
theorem agreement_of_successor : ∃ w : W, Reachable (Initial 0) (Whole Considerate) w ∧
    (w.store.activation successor.planId).isSome ∧ w.store.Latest planId ∧
    ∃ t : FakeTrafficGate, w.traffic = .plain t ∧ t.activePlanId = some planId := by
  have ⟨⟨hj, ha, hg⟩, hv, ⟨hj', ha', hg'⟩, hsome, ht⟩ :
      (((committed []).store.journal.find? (·.isCommit)).map (·.planId) = some planId ∧
        (committed []).store.activation planId = some ⟨plan, .effective, some "launch-1"⟩ ∧
        (committed []).store.generation = 1) ∧
      ((Op.plan successor).run call (committed [])).value.isOk ∧
      ((succeeded.store.journal.find? (·.isCommit)).map (·.planId) = some planId ∧
        succeeded.store.activation planId = some ⟨plan, .effective, some "launch-1"⟩ ∧
        succeeded.store.generation = 1) ∧
      (succeeded.store.activation successor.planId).isSome ∧ (plain? succeeded).isSome := by
    decide +kernel
  have hc : Reachable (Initial 0) (Whole Considerate) (committed []) :=
    whole_committed fun _ _ h => h
  have hl := latest_of_effective hc hj ha hg
  have hm : Considerate (.plan successor) (committed []) := by
    intro p id a hp hl' _ _ _
    have hp : successor.predecessor = p := Option.some.inj hp
    rw [← hp, hl.unique (reachable_cas (Whole.reachable hc)) hl']
    rfl
  have hs : Reachable (Initial 0) (Whole Considerate) succeeded := whole_after hc hm hv
  have hl := latest_of_effective hs hj' ha' hg'
  have ⟨t, ht⟩ := Option.isSome_iff_exists.mp ht
  have ht := plain?_eq.mp ht
  exact ⟨_, hs, hsome, hl, t, ht, agreement_of_reachable hs ht hl ha' rfl⟩

def rivalled : W :=
  (Op.plan rival).after call (committed [])

-- Planning a rival takes the traffic from the effective plan.
theorem not_agreement_of_rival : ∃ w : W, Reachable (Initial 0) (Whole fun _ _ => True) w ∧
    w.store.Latest planId ∧
    w.store.activation planId = some ⟨plan, .effective, some "launch-1"⟩ ∧
    w.traffic = .plain ⟨some "predecessor", some "predecessor"⟩ ∧ ¬Agrees w := by
  have ⟨hv, hj, ha, hg, ht⟩ : ((Op.plan rival).run call (committed [])).value.isOk ∧
      (rivalled.store.journal.find? (·.isCommit)).map (·.planId) = some planId ∧
      rivalled.store.activation planId = some ⟨plan, .effective, some "launch-1"⟩ ∧
      rivalled.store.generation = 1 ∧
      plain? rivalled = some ⟨some "predecessor", some "predecessor"⟩ := by
    decide +kernel
  have hs : Reachable (Initial 0) (Whole fun _ _ => True) rivalled :=
    whole_after (whole_committed fun _ _ _ => trivial) trivial hv
  have hl := latest_of_effective hs hj ha hg
  have ht := plain?_eq.mp ht
  refine ⟨_, hs, hl, ha, ht, fun h => ?_⟩
  have he : some "predecessor" = some planId := h _ _ _ ht hl ha rfl
  exact absurd he (by decide)

end Coordinator.Sample
