import ExtManager.Coordinator.Runs

open Crash Prog Relation

-- The states that a commit gets a plan to.
def State.committed : State → Bool
  | commitReady | effective => true
  | _                       => false

-- The states before the first evidence of a plan.
def State.early : State → Bool
  | intent | resolved | planned | preparing | prepared | launching => true
  | _                                                              => false

theorem State.observable_not_committed {s : State} (h : s.observable) : ¬s.committed := by
  revert h
  cases s <;> simp [observable, committed]

-- An item has been accepted, and since then no coordinator has been started and the plan's
-- inventory has not been refreshed.
def Event.Fresh (planId : String) (managerEpoch : Int) (item : Attestation) (history : List Event) :
    Prop :=
  ∃ newer older, history = newer ++ .accepted planId managerEpoch item :: older ∧
    .booted ∉ newer ∧ .refreshed planId ∉ newer

theorem Event.Fresh.cons {planId : String} {managerEpoch : Int} {item : Attestation}
    {history : List Event} {e : Event} (h : Fresh planId managerEpoch item history)
    (hb : e ≠ .booted) (hr : e ≠ .refreshed planId) :
    Fresh planId managerEpoch item (e :: history) := by
  have ⟨newer, older, he, hb', hr'⟩ := h
  refine ⟨e :: newer, older, by rw [he, List.cons_append], ?_, ?_⟩
  · simp [hb', hb.symm]
  · simp [hr', hr.symm]

namespace Store

variable {s s' : Store} {planId : String}

-- A valid evidence row is that of a fresh item of a process as it runs now.
structure Backed (s : Store) (e : EvidenceRow) (item : Attestation) : Prop where
  row     : e = evidenceRow e.planId e.managerEpoch item
  fresh   : Event.Fresh e.planId e.managerEpoch item s.history
  launch  : ∃ a, s.activation e.planId = some a ∧ a.launchId = some item.launchId
  process : ∃ p, s.process? e.planId item.process.role item.process.ordinal = some p ∧
    p.startId = item.process.startId ∧ p.epoch = item.process.epoch

structure EvidenceInv (s : Store) : Prop where
  late   : ∀ e ∈ s.evidence, ∃ a, s.activation e.planId = some a ∧ a.state.early = false
  backed : ∀ e ∈ s.evidence, e.valid → ∃ item, s.Backed e item

theorem early_transitions {a b : State} (h : b ∈ a.transitions) (ha : a.early = false) :
    b.early = false := by
  revert h ha
  cases a <;> cases b <;> simp [State.transitions, State.early]

-- What is known of the evidence of a plan stays known as long as its launch, its inventory and
-- the history stay.
theorem Backed.congr {e : EvidenceRow} {item : Attestation} (h : s.Backed e item)
    (hl : ∀ a, s.activation e.planId = some a →
      ∃ a', s'.activation e.planId = some a' ∧ a'.launchId = a.launchId)
    (hi : s'.inventory e.planId = s.inventory e.planId) (hh : s'.history = s.history) :
    s'.Backed e item := by
  have ⟨a, ha, hla⟩ := h.launch
  have ⟨a', ha', hla'⟩ := hl a ha
  exact ⟨h.row, hh ▸ h.fresh, ⟨a', ha', hla'.trans hla⟩, by simpa [process?, hi] using h.process⟩

theorem EvidenceInv.congr (h : s.EvidenceInv) (he : s'.evidence = s.evidence)
    (hh : s'.history = s.history)
    (ha : ∀ id a, s.activation id = some a → a.state.early = false →
      ∃ a', s'.activation id = some a' ∧ a'.launchId = a.launchId ∧ a'.state.early = false)
    (hi : ∀ id a, s.activation id = some a → a.state.early = false →
      s'.inventory id = s.inventory id) : s'.EvidenceInv := by
  refine ⟨fun e hm => ?_, fun e hm hv => ?_⟩
  all_goals
    rw [he] at hm
    have ⟨a, hact, hst⟩ := h.late e hm
    have ⟨a', ha', hl, hst'⟩ := ha _ a hact hst
  · exact ⟨a', ha', hst'⟩
  · have ⟨item, hb⟩ := h.backed e hm hv
    refine ⟨item, hb.congr (fun a₁ ha₁ => ⟨a', ha', ?_⟩) (hi _ a hact hst) hh⟩
    rw [hl, Option.some.inj (hact.symm.trans ha₁)]

theorem EvidenceInv.move {a : Activation} {target : State} (h : s.EvidenceInv)
    (ha : s.activation planId = some a) (ht : target ∈ a.state.transitions)
    (hact : s'.activation = fun id =>
      if id = planId then some { a with state := target } else s.activation id)
    (he : s'.evidence = s.evidence) (hh : s'.history = s.history)
    (hi : s'.inventory = s.inventory) : s'.EvidenceInv := by
  refine h.congr he hh (fun id a' ha' hst => ?_) fun _ _ _ _ => by rw [hi]
  by_cases hid : id = planId
  case pos =>
    have he : a' = a := Option.some.inj ((hid ▸ ha').symm.trans ha)
    refine ⟨{ a with state := target }, by simp [hact, hid], ?_, early_transitions ht (he ▸ hst)⟩
    rw [he]
  case neg => exact ⟨a', by simp [hact, hid, ha'], rfl, hst⟩

theorem evidenceInv_new {n : Int} : EvidenceInv { Store.new with generation := n } :=
  ⟨fun _ hm => (nomatch hm), fun _ hm => (nomatch hm)⟩

theorem EvidenceInv.boot (h : s.EvidenceInv) : s.boot.EvidenceInv := by
  refine ⟨fun e hm => ?_, fun e hm hv => ?_⟩
  all_goals
    have ⟨e', hm', he⟩ := List.mem_map.mp hm
    subst he
  · exact h.late e' hm'
  · contradiction

end Store

namespace Coordinator

variable [Sha256] {τ π : Type} [TrafficAdapter τ] [TrafficGate π] {c : Call} {op : Op}
variable {w₀ w w' : World τ π} {s : Store} {n : Int}

omit [TrafficGate π] in
theorem Commit.evidenceInv (hc : Commit c op w₀ w s) (h₀ : w₀.store.Inv)
    (h : w.store.EvidenceInv) : s = w₀.store ∨ s.EvidenceInv := by
  cases hc
  case insert plan _ _ _ hs =>
    obtain ⟨hn, he⟩ := Store.insert_ok_iff.mp hs
    refine .inr (h.congr (by rw [he]; rfl) (by rw [he]; rfl) (fun id a ha hst => ?_) fun _ _ _ _ => ?_)
    · have hne : id ≠ plan.planId := fun hid => by simp [hid, hn] at ha
      exact ⟨a, by simp [he, Store.log, Store.setActivation, hne, ha], rfl, hst⟩
    · rw [he]
      rfl
  case delete hs _ _ _ _ => exact .inl (Store.delete_insert h₀ hs)
  case note => exact .inr (h.congr rfl rfl (fun id a ha hst => ⟨a, ha, rfl, hst⟩) fun _ _ _ _ => rfl)
  case shift ha ht _ _ _ => exact .inr (h.move ha ht rfl rfl rfl rfl)
  case launch a _ ha hp =>
    -- a plan that is about to be launched has no evidence
    refine .inr (h.congr rfl rfl (fun id a' ha' hst => ?_) fun _ _ _ _ => rfl)
    have hid : id ≠ op.planId := fun hid => by
      have he : a' = a := Option.some.inj ((hid ▸ ha').symm.trans ha)
      simp [he, hp, State.early] at hst
    exact ⟨a', by simp [Store.shift, Store.setActivation, hid, ha'], rfl, hst⟩
  case launched a _ _ s _ ha hp hi =>
    obtain ⟨_, he⟩ := Store.setInventory_ok_iff.mp hi
    subst he
    have hne {id a'} (ha' : w.store.activation id = some a') (hst : a'.state.early = false) :
        id ≠ op.planId := fun hid => by
      have he : a' = a := Option.some.inj ((hid ▸ ha').symm.trans ha)
      simp [he, hp, State.early] at hst
    refine .inr (h.congr rfl rfl (fun id a' ha' hst => ?_) fun id a' ha' hst => ?_)
    · exact ⟨a', by simp [Store.shift, Store.setActivation, hne ha' hst, ha'], rfl, hst⟩
    · simp [Store.shift, Store.setActivation, hne ha' hst]
  case evidence a item _ _ ha ho _ hst hs =>
    obtain ⟨_, he⟩ := Store.insertEvidence_ok_iff.mp hs
    subst he
    simp only [stale, not_or, not_not] at hst
    obtain ⟨_, hl, _, hp⟩ := hst
    refine .inr ⟨fun e hm => ?_, fun e hm hv => ?_⟩
    all_goals rcases List.mem_cons.mp hm with he | hm
    · subst he
      refine ⟨a, ha, ?_⟩
      revert ho
      cases a.state <;> simp [State.observable, State.early]
    · exact h.late e hm
    · subst he
      obtain ⟨p, hp, hid⟩ := (Option.any_eq_true _ _).mp hp
      obtain ⟨hstart, hepoch⟩ := of_decide_eq_true hid
      exact ⟨item, rfl, ⟨[], _, rfl, by simp, by simp⟩, ⟨a, ha, hl.symm⟩, p, hp, hstart, hepoch⟩
    · obtain ⟨item', hb⟩ := h.backed e hm hv
      exact ⟨item', hb.row, hb.fresh.cons (by simp) (by simp), hb.launch, hb.process⟩
  case refresh a inventory s _ ha ho hi =>
    obtain ⟨_, he⟩ := Store.setInventory_ok_iff.mp hi
    subst he
    refine .inr ⟨fun e hm => ?_, fun e hm hv => ?_⟩
    all_goals
      obtain ⟨e', hm', he⟩ := List.mem_map.mp hm
      have hid : e.planId = e'.planId := by rw [← he]; split <;> rfl
    · exact hid ▸ h.late e' hm'
    · by_cases hp : e'.planId = op.planId
      case pos => simp [← he, hp] at hv
      case neg =>
        rw [if_neg hp] at he
        subst he
        obtain ⟨item, hb⟩ := h.backed e' hm' hv
        refine ⟨item, hb.row, hb.fresh.cons (by simp) ?_, hb.launch, ?_⟩
        · simpa using Ne.symm hp
        · simpa [Store.process?, Store.invalidate, Store.log, hp] using hb.process
  case wal ha ht _ _ _ he =>
    subst he
    exact .inr (h.move ha ht rfl rfl rfl rfl)

theorem reachable_evidenceInv {may : Call → Op → World τ π → Prop}
    {env : Traffic τ π → Traffic τ π → Prop} (h : Reachable (Initial n) (Next may env) w) :
    w.store.EvidenceInv :=
  (run_store_invariant h Store.evidenceInv_new (fun _ _ h => h.boot)
    fun _ _ _ _ _ _ h₀ _ h hc => hc.evidenceInv h₀ h).right

-- Every obligation of the plan is covered, for every required process as it runs now, by evidence
-- that one coordinator has accepted and that has not expired at a time.
def Covered (s : Store) (planId : String) (a : Activation) (managerEpoch now : Int) : Prop :=
  ∀ o ∈ a.plan.obligations, ∀ ordinal ∈ o.requiredOrdinals, ∃ p ∈ s.inventory planId,
    p.role = o.role ∧ p.ordinal = ordinal ∧ ∃ e ∈ s.evidence, ∃ item, e.valid ∧
      e = Store.evidenceRow planId managerEpoch item ∧
      Event.Fresh planId managerEpoch item s.history ∧ a.launchId = some item.launchId ∧
      item.process.role = p.role ∧ item.process.ordinal = p.ordinal ∧
      item.process.startId = p.startId ∧ item.process.epoch = p.epoch ∧
      item.obligationId = o.obligationId ∧ item.event = o.event ∧ now ≤ item.expiresAt

omit [TrafficAdapter τ] [TrafficGate π] in
-- The completeness check compares roles, ordinals, epochs, obligations and events. The rest
-- follows from what is known of valid evidence.
theorem covered_of_evidenceComplete {a : Activation} {planId : String} {managerEpoch now : Int}
    (h : s.EvidenceInv) (ha : s.activation planId = some a) (hid : a.plan.planId = planId)
    (hc : s.evidenceComplete managerEpoch a.plan now) : Covered s planId a managerEpoch now := by
  intro o ho ordinal hord
  subst hid
  simp only [Store.evidenceComplete, Bool.and_eq_true, List.all_eq_true] at hc
  have hc := hc.right o ho ordinal hord
  split at hc
  case h_1 => contradiction
  case h_2 p hp =>
    have ⟨e, hm, he⟩ := List.any_eq_true.mp hc
    have ⟨hexp, hrole, hordinal, hepoch, hobl, hevent⟩ := of_decide_eq_true he
    have ⟨hm, hsel⟩ := List.mem_filter.mp hm
    have ⟨hplan, hvalid, hmgr⟩ := of_decide_eq_true hsel
    have ⟨item, hb⟩ := h.backed e hm hvalid
    have hrow := hb.row
    rw [hplan, hmgr] at hrow
    subst hrow
    have ⟨a', ha', hl⟩ := hb.launch
    have ha' : a' = a := Option.some.inj (ha'.symm.trans ha)
    have ⟨p', hp', hstart, hep⟩ := hb.process
    have hrole : item.process.role = o.role := hrole
    have hordinal : item.process.ordinal = ordinal := hordinal
    have hpp : p' = p := by
      rw [hrole, hordinal] at hp'
      exact Option.some.inj (hp'.symm.trans hp)
    subst hpp ha'
    have hpk := List.find?_some hp
    have ⟨hpr, hpo⟩ := of_decide_eq_true hpk
    exact ⟨p', List.mem_of_find?_eq_some hp, hpr, hpo, _, hm, item, rfl, rfl, hb.fresh, hl,
      hrole.trans hpr.symm, hordinal.trans hpo.symm, hstart.symm, hep.symm, hobl, hevent, hexp⟩

omit [Sha256] [TrafficAdapter τ] [TrafficGate π] in
theorem Covered.congr {planId : String} {a a' : Activation} {managerEpoch now : Int} {s s' : Store}
    (h : Covered s planId a managerEpoch now) (hp : a'.plan = a.plan)
    (hl : a'.launchId = a.launchId) (he : s'.evidence = s.evidence) (hh : s'.history = s.history)
    (hi : s'.inventory = s.inventory) : Covered s' planId a' managerEpoch now := by
  simpa only [Covered, hp, hl, he, hh, hi] using h

omit [TrafficGate π] in
theorem Cause.ne_commitReady {target : State} (h : Cause op w₀ w target) :
    target ≠ .commitReady := by
  cases h
  case other h              => rcases h with ⟨_, h⟩ | h <;> simp [h]
  case plain h              => rintro rfl; simp [State.live] at h
  case rolledBack n o g₀ g _ _ _ he =>
    rw [he]
    cases o <;> simp [rollbackTarget]
  case reconciled h         => rcases h with ⟨_, h⟩ | ⟨_, h⟩ <;> simp [h]
  all_goals simp

omit [TrafficGate π] in
-- A transaction of a commit gets the plan to `CommitReady` only where its obligations are covered,
-- and from there on nothing that covers them changes.
theorem Commit.covered {planId : String} {expected : Int} {a' : Activation}
    (hc : Commit c (.commit planId expected) w₀ w s) (hinv : w₀.store.Inv)
    (h : w₀.store.EvidenceInv)
    (hi : ∀ a, w.store.activation planId = some a → a.state.committed →
      Covered w.store planId a c.managerEpoch c.now)
    (ha' : s.activation planId = some a') (hs : a'.state.committed) :
    Covered s planId a' c.managerEpoch c.now := by
  cases hc
  case insert | delete => contradiction
  case note            => exact (hi a' ha' hs).congr rfl rfl rfl rfl rfl
  case shift a target _ _ ha ht _ hc _ =>
    have he := Option.some.inj (Store.activation_shift.symm.trans ha')
    subst he
    have ht' : target = .effective := by
      revert hs
      cases target <;> simp [State.committed]
      exact absurd rfl hc.ne_commitReady
    have hready : a.state.committed := by
      revert ht
      rw [ht']
      cases a.state <;> simp [State.transitions, State.committed]
    exact (hi a ha hready).congr rfl rfl rfl rfl rfl
  case launch | launched =>
    have he := Option.some.inj (Store.activation_shift.symm.trans ha')
    simp [← he, State.committed] at hs
  case evidence _ ha ho _ _ he =>
    obtain ⟨_, he⟩ := Store.insertEvidence_ok_iff.mp he
    subst he
    have he := Option.some.inj (ha.symm.trans ha')
    exact absurd hs (State.observable_not_committed (he ▸ ho))
  case refresh ha ho hs' =>
    obtain ⟨_, he⟩ := Store.setInventory_ok_iff.mp hs'
    subst he
    have he := Option.some.inj (ha.symm.trans ha')
    exact absurd hs (State.observable_not_committed (he ▸ ho))
  case wal a hop hw ha _ hcomplete _ _ he =>
    have hid : planId = _ := (Op.commit.inj hop).left
    subst hid hw he
    have he : { a with state := .commitReady } = a' := by
      simpa [Store.shift, Store.setActivation] using ha'
    subst he
    exact (covered_of_evidenceComplete h ha (hinv.planId _ _ ha) hcomplete).congr rfl rfl rfl rfl rfl

-- In every run, a commit that gets a plan to `CommitReady`, wherever it then dies or ends, has
-- fresh evidence for all of it.
theorem evidence_sound {planId : String} {expected : Int} {a : Activation}
    (h : Reachable (Initial n) (Next Always Anything) w)
    (he : w' ∈ (Op.commit planId expected).ends c w)
    (hs : ∀ a, w.store.activation planId = some a → ¬a.state.committed)
    (ha : w'.store.activation planId = some a) (hs' : a.state.committed) :
    Covered w'.store planId a c.managerEpoch c.now := by
  have hinv := reachable_inv h
  have hev := reachable_evidenceInv h
  have hsteps := Op.steps_of_ends he
  clear he
  induction hsteps generalizing a
  case refl => exact absurd hs' (hs a ha)
  case tail hn ih =>
    rcases hn.store_cases with heq | hc
    · rw [heq] at ha ⊢
      exact ih ha hs'
    · exact hc.covered hinv hev (fun a ha hs => ih ha hs) ha hs'

end Coordinator

namespace Coordinator.Sample

theorem covered_of_committed : ∃ a, (committed []).store.activation planId = some a ∧
    a.state = .effective ∧ Covered (committed []).store planId a 1 100 := by
  have ⟨hw, hw'⟩ : ((observed []).store.activation planId).map (·.state) = some .observing ∧
      ((committed []).store.activation planId).map (·.state) = some .effective := by
    decide +kernel
  have ⟨a, ha, hs⟩ := Option.map_eq_some_iff.mp hw'
  refine ⟨a, ha, hs, ?_⟩
  refine evidence_sound (c := call) reachable_observed Op.after_mem (fun a₀ ha₀ => ?_) ha (hs ▸ rfl)
  have hs₀ : a₀.state = .observing := by simpa [ha₀] using hw
  simp [hs₀, State.committed]

end Coordinator.Sample
