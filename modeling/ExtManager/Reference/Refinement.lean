import ExtManager.Coordinator.Evidence
import ExtManager.Coordinator.Passing
import ExtManager.Coordinator.Reactivation
import ExtManager.Reference.Basic

open Crash Prog

-- Every obligation has evidence of all its required processes.
def Plan.Covers (p : Plan) (items : List Attestation) : Prop :=
  ∀ o ∈ p.obligations, ∀ ordinal ∈ o.requiredOrdinals, ∃ i ∈ items,
    i.obligationId = o.obligationId ∧ i.event = o.event ∧ i.process.role = o.role ∧
      i.process.ordinal = ordinal

-- Some obligation has evidence of a process that it does not require.
def Plan.Surplus (p : Plan) (items : List Attestation) : Prop :=
  ∃ o ∈ p.obligations, ∃ i ∈ items, i.obligationId = o.obligationId ∧ i.event = o.event ∧
    ¬(i.process.role = o.role ∧ i.process.ordinal ∈ o.requiredOrdinals)

-- The attestation is of a process of the inventory, as far as its epoch goes.
def Placed (inventory : List ProcessIdentity) (i : Attestation) : Prop :=
  ∃ p ∈ inventory, p.role = i.process.role ∧ p.ordinal = i.process.ordinal ∧
    p.epoch = i.process.epoch

namespace ReferenceModel

variable [Sha256] {m m' : ReferenceModel} {u : Unit} {p : Plan} {items : List (Attestation × Int)}

def attestAll : List (Attestation × Int) → M Unit
  | []                   => pure ()
  | (item, now) :: items => do
    attest item now
    attestAll items

omit [Sha256] in
theorem returns_require {states : List State} :
    Returns (require states) u m m' ↔ m.state ∈ states ∧ m = m' := by
  simp only [require, returns_bind, returns_read, returns_raiseIf, not_not]
  constructor
  · rintro ⟨_, _, ⟨hs, hm⟩, h, he⟩
    exact ⟨hs ▸ h, hm.trans he⟩
  · rintro ⟨h, he⟩
    exact ⟨_, _, ⟨rfl, rfl⟩, h, he⟩

omit [Sha256] in
theorem returns_getPlan : Returns getPlan p m m' ↔ m.plan = some p ∧ m = m' := by
  simp only [getPlan, returns_lift]
  cases m.plan <;> simp

-- What an activation comes to before its attestations.
structure Observes (m : ReferenceModel) (generation : Int) (p : Plan) (launchId : String)
    (inventory : List ProcessIdentity) (accepted : List Attestation) : Prop where
  state      : m.state = .observing
  generation : m.generation = generation
  plan       : m.plan = some p
  launchId   : m.launchId = some launchId
  inventory  : m.inventory = inventory
  accepted   : m.accepted = accepted

theorem attestAll_observes {generation : Int} {launchId : String}
    {inventory : List ProcessIdentity} {accepted : List Attestation}
    (h : Observes m generation p launchId inventory accepted)
    (hr : Returns (attestAll items) u m m') :
    Observes m' generation p launchId inventory (accepted ++ items.map (·.1)) := by
  induction items generalizing m accepted
  case nil =>
    obtain ⟨_, rfl⟩ := returns_pure.mp hr
    simpa using h
  case cons i items ih =>
    have ⟨_, m₁, hr₁, hr⟩ := returns_bind.mp hr
    simp only [attest, append, returns_bind, returns_require, returns_getPlan, returns_raiseIf,
      returns_read, returns_modify] at hr₁
    obtain ⟨_, _, ⟨_, rfl⟩, _, _, ⟨_, rfl⟩, _, _, ⟨_, rfl⟩, _, _, ⟨rfl, rfl⟩, _, _, ⟨_, rfl⟩, _, _,
      ⟨_, rfl⟩, _, _, ⟨_, rfl⟩, _, _, rfl, rfl⟩ := hr₁
    rw [List.map_cons, List.append_cons]
    refine ih ?_ hr
    exact ⟨h.state, h.generation, h.plan, h.launchId, h.inventory, by simp [h.accepted]⟩

omit [Sha256] in
theorem resolve_returned {registrations : List String} {expectedNamespace : String}
    (h : Returns (resolve registrations expectedNamespace) u m m') :
    m' = { m with state := .resolved } := by
  simp only [resolve, setState, returns_bind, returns_require, returns_raiseIf,
    returns_modify] at h
  obtain ⟨_, _, ⟨_, rfl⟩, _, _, ⟨_, rfl⟩, _, _, ⟨_, rfl⟩, rfl⟩ := h
  rfl

theorem makePlan_returned [Lower] {plugins : List PluginIdentity} {host : HostCompatibility}
    {claims : List ResourceClaim} {obligations : List EvidenceObligation}
    {predecessor : PredecessorSnapshot} {fallbackProven : Bool}
    (h : Returns (makePlan plugins host claims obligations predecessor fallbackProven) p m m') :
    ∃ records, m' = { m with state := .planned, plan := some p, records := records } := by
  simp only [makePlan, append, setState, returns_bind, returns_require, returns_lift,
    returns_modify, returns_pure] at h
  obtain ⟨_, _, ⟨_, rfl⟩, _, _, ⟨_, rfl⟩, _, _, rfl, _, _, rfl, _, _, rfl, rfl, rfl⟩ := h
  exact ⟨_, rfl⟩

theorem prepare_returned (h : Returns prepare u m m') :
    ∃ records, m' = { m with state := .prepared, records := records } := by
  simp only [prepare, append, setState, returns_bind, returns_require, returns_getPlan,
    returns_modify] at h
  obtain ⟨_, _, ⟨_, rfl⟩, _, _, ⟨_, rfl⟩, _, _, rfl, _, _, rfl, _, _, rfl, rfl⟩ := h
  exact ⟨_, rfl⟩

omit [Sha256] in
theorem launch_returned {launchId : String} {inventory : List ProcessIdentity}
    (h : Returns (launch launchId inventory) u m m') :
    ∃ records, m' = { m with
      state     := .observing
      launchId  := some launchId
      inventory := inventory
      records   := records } := by
  simp only [launch, append, setState, returns_bind, returns_require, returns_getPlan,
    returns_modify] at h
  obtain ⟨_, _, ⟨_, rfl⟩, _, _, ⟨_, rfl⟩, _, _, rfl, _, _, rfl, _, _, rfl, _, _, rfl, rfl⟩ := h
  exact ⟨_, rfl⟩

-- An activation up to where it can be committed.
def activate [Lower] (registrations : List String) (expectedNamespace : String)
    (plugins : List PluginIdentity) (host : HostCompatibility) (claims : List ResourceClaim)
    (obligations : List EvidenceObligation) (predecessor : PredecessorSnapshot)
    (fallbackProven : Bool) (launchId : String) (inventory : List ProcessIdentity)
    (items : List (Attestation × Int)) : M Plan := do
  resolve registrations expectedNamespace
  let plan ← makePlan plugins host claims obligations predecessor fallbackProven
  prepare
  launch launchId inventory
  attestAll items
  pure plan

theorem activate_observes [Lower] {registrations : List String} {expectedNamespace : String}
    {plugins : List PluginIdentity} {host : HostCompatibility} {claims : List ResourceClaim}
    {obligations : List EvidenceObligation} {predecessor : PredecessorSnapshot}
    {fallbackProven : Bool} {launchId : String} {inventory : List ProcessIdentity} {n : Int}
    (h : Returns (activate registrations expectedNamespace plugins host claims obligations
      predecessor fallbackProven launchId inventory items) p (new n) m) :
    Observes m n p launchId inventory (items.map (·.1)) := by
  unfold activate at h
  have ⟨_, m₁, h₁, h⟩ := returns_bind.mp h
  have ⟨_, m₂, h₂, h⟩ := returns_bind.mp h
  have ⟨_, m₃, h₃, h⟩ := returns_bind.mp h
  have ⟨_, m₄, h₄, h⟩ := returns_bind.mp h
  have ⟨_, m₅, h₅, h⟩ := returns_bind.mp h
  have ⟨hp, hm⟩ := returns_pure.mp h
  have he₁ := resolve_returned h₁
  have ⟨_, he₂⟩ := makePlan_returned h₂
  have ⟨_, he₃⟩ := prepare_returned h₃
  have ⟨_, he₄⟩ := launch_returned h₄
  have hobs : Observes m₄ n p launchId inventory [] := by
    subst he₁ he₂ he₃ he₄ hp
    exact ⟨rfl, rfl, rfl, rfl, rfl, rfl⟩
  exact hm ▸ attestAll_observes hobs h₅

-- Of distinct processes, the last with a role and an ordinal is the only one.
omit [Sha256] in
theorem process?_eq {i : ProcessIdentity} (hn : (m.inventory.map Store.processKey).Nodup)
    (hm : i ∈ m.inventory) : m.process? i.role i.ordinal = some i := by
  refine Store.find?_process ?_ (List.mem_reverse.mpr hm)
  rw [List.map_reverse]
  exact List.nodup_reverse.mpr hn

omit [Sha256] in
theorem process?_of_placed {i : Attestation} (hn : (m.inventory.map Store.processKey).Nodup)
    (hp : Placed m.inventory i) : ∃ q, m.process? i.process.role i.process.ordinal = some q ∧
      q.epoch = i.process.epoch := by
  have ⟨q, hm, hr, ho, he⟩ := hp
  exact ⟨q, hr ▸ ho ▸ process?_eq hn hm, he⟩

omit [Sha256] in
theorem sameSet_iff {α : Type} [DecidableEq α] {xs ys : List α} :
    sameSet xs ys ↔ (∀ x ∈ xs, x ∈ ys) ∧ ∀ y ∈ ys, y ∈ xs := by
  simp [sameSet]

-- With distinct processes, an obligation is covered where it has evidence of exactly the
-- processes that it requires.
omit [Sha256] in
theorem covered_iff {o : EvidenceObligation} (hn : (m.inventory.map Store.processKey).Nodup)
    (hp : ∀ i ∈ m.accepted, Placed m.inventory i) : m.covered o ↔
      (∀ ordinal ∈ o.requiredOrdinals, ∃ i ∈ m.accepted, i.obligationId = o.obligationId ∧
        i.event = o.event ∧ i.process.role = o.role ∧ i.process.ordinal = ordinal) ∧
      ∀ i ∈ m.accepted, i.obligationId = o.obligationId → i.event = o.event →
        i.process.role = o.role ∧ i.process.ordinal ∈ o.requiredOrdinals := by
  simp only [covered, Bool.and_eq_true, sameSet_iff, List.all_eq_true, List.mem_filterMap,
    List.mem_map, List.mem_filter, Option.map_eq_some_iff, decide_eq_true_eq, Prod.forall,
    Prod.mk.injEq]
  constructor
  case mp =>
    intro ⟨hsome, hsub, hsup⟩
    refine ⟨fun ordinal ho => ?_, fun i hi hid hev => ?_⟩
    · have ⟨q, hq⟩ := Option.isSome_iff_exists.mp (hsome ordinal ho)
      have ⟨i, ⟨hi, hid, hev⟩, hr, ho, _⟩ :=
        hsub o.role ordinal q.epoch ⟨ordinal, ho, q, hq, rfl, rfl, rfl⟩
      exact ⟨i, hi, hid, hev, hr, ho⟩
    · have ⟨ordinal, ho, _, _, hr, he, _⟩ := hsup _ _ _ ⟨i, ⟨hi, hid, hev⟩, rfl, rfl, rfl⟩
      exact ⟨hr.symm, he ▸ ho⟩
  case mpr =>
    intro ⟨hcov, honly⟩
    refine ⟨fun ordinal ho => ?_, fun role ordinal epoch h => ?_, fun role ordinal epoch h => ?_⟩
    · have ⟨i, hi, _, _, hr, he⟩ := hcov ordinal ho
      have ⟨q, hq, _⟩ := process?_of_placed hn (hp i hi)
      rw [← hr, ← he, hq]
      rfl
    · have ⟨ordinal', ho, q, hq, hr, he, hep⟩ := h
      subst hr he hep
      have ⟨i, hi, hid, hev, hr, he⟩ := hcov ordinal' ho
      have ⟨q', hq', hep⟩ := process?_of_placed hn (hp i hi)
      have hq : q' = q := Option.some.inj (hq'.symm.trans (hr ▸ he ▸ hq))
      exact ⟨i, ⟨hi, hid, hev⟩, hr, he, hq ▸ hep.symm⟩
    · have ⟨i, ⟨hi, hid, hev⟩, hr, he, hep⟩ := h
      subst hr he hep
      have ⟨hr, ho⟩ := honly i hi hid hev
      have ⟨q, hq, hep⟩ := process?_of_placed hn (hp i hi)
      exact ⟨_, ho, q, hr ▸ hq, hr.symm, rfl, hep⟩

omit [Sha256] in
theorem evidenceComplete_iff (hn : (m.inventory.map Store.processKey).Nodup)
    (hp : ∀ i ∈ m.accepted, Placed m.inventory i) :
    m.evidenceComplete p ↔ p.Covers m.accepted ∧ ¬p.Surplus m.accepted := by
  simp only [evidenceComplete, List.all_eq_true, covered_iff hn hp]
  constructor
  · intro h
    refine ⟨fun o ho => (h o ho).left, ?_⟩
    rintro ⟨o, ho, i, hi, hid, hev, hne⟩
    exact hne ((h o ho).right i hi hid hev)
  · rintro ⟨hcov, hsur⟩ o ho
    refine ⟨hcov o ho, fun i hi hid hev => ?_⟩
    by_contra hne
    exact hsur ⟨o, ho, i, hi, hid, hev, hne⟩

-- The model commits where the evidence is complete.
omit [Sha256] in
theorem commit_returns_iff {generation : Int} {launchId : String}
    {inventory : List ProcessIdentity} {accepted : List Attestation}
    (h : Observes m generation p launchId inventory accepted)
    (hg : p.predecessor.generation = generation) :
    (∃ g m', Returns (commit generation) g m m') ↔ m.evidenceComplete p := by
  simp only [commit, append, setState, returns_bind, returns_require, returns_getPlan, returns_read,
    returns_raiseIf, returns_modify]
  constructor
  case mp =>
    rintro ⟨_, _, _, _, ⟨_, rfl⟩, q, _, ⟨hq, rfl⟩, _, _, ⟨rfl, rfl⟩, _, _, ⟨_, rfl⟩, _, _, ⟨hc, _⟩, _⟩
    have he : q = p := Option.some.inj (hq.symm.trans h.plan)
    exact he ▸ not_not.mp hc
  case mpr =>
    intro hc
    exact ⟨_, _, (), m, ⟨by simp [h.state], rfl⟩, p, m, ⟨h.plan, rfl⟩, m, m, ⟨rfl, rfl⟩, (), m,
      ⟨by simp [h.generation, hg], rfl⟩, (), m, ⟨not_not.mpr hc, rfl⟩, (), _, rfl, (), _, rfl, (), _,
      rfl, (), _, rfl, (), _, rfl, rfl, rfl⟩

end ReferenceModel

namespace Coordinator

variable [Sha256] {τ π : Type} [TrafficAdapter τ] [TrafficGate π] {c : Call} {p : Plan}
variable {launchId : String} {inventory : List ProcessIdentity} {items : List (Attestation × Int)}
variable {w w' : World τ π} {t : π} {u : Unit} {a : Activation} {planId : String}

-- An activation up to where it can be committed.
def activate (c : Call) (p : Plan) (launchId : String) (items : List (Attestation × Int)) :
    M τ π Unit := do
  void (plan p)
  prepare c p.planId
  launch c p.planId launchId
  observeAll c p.planId items

-- What the operations before the first observation leave alone.
structure Begun (planId : String) (a : Activation) (w w' : World τ π) : Prop where
  activation : w'.store.activation planId = some a
  faults     : w'.faults = w.faults
  generation : w'.store.generation = w.store.generation
  evidence   : w'.store.evidence = w.store.evidence

omit [Sha256] [TrafficAdapter τ] [TrafficGate π] in
theorem Begun.trans {b : Activation} {w₁ : World τ π} (h : Begun planId a w w₁)
    (h' : Begun planId b w₁ w') : Begun planId b w w' :=
  ⟨h'.activation, h'.faults.trans h.faults, h'.generation.trans h.generation,
    h'.evidence.trans h.evidence⟩

theorem plan_begun {id : String} (h : Returns (Coordinator.plan p) id w w') :
    (p.obligations ≠ [] ∧ ∀ o ∈ p.obligations, o.requiredOrdinals ≠ []) ∧
      w.store.activation p.planId = none ∧ Begun p.planId ⟨p, .planned, none⟩ w w' := by
  have ⟨⟨hne, hall⟩, hs, hfaults, _⟩ := plan_staged h
  have ⟨hn, he⟩ := Store.insert_ok_iff.mp hs
  refine ⟨⟨hne, by simpa using hall⟩, hn, ?_, hfaults, ?_, ?_⟩
  all_goals
    rw [he]
    simp [Store.log, Store.setActivation]

omit [TrafficGate π] in
theorem prepare_begun (h : Returns (prepare c planId) u w w')
    (ha : w.store.activation planId = some a) :
    Begun planId { a with state := .prepared } w w' := by
  unfold prepare at h
  rw [returns_row_seq ha] at h
  simp only [returns_bind, returns_transaction, returns_hit, returns_lift] at h
  obtain ⟨_, _, ⟨s, hs, rfl⟩, _, _, ⟨_, rfl⟩, _, _, ⟨_, rfl⟩, _, _, ⟨_, rfl⟩, _, _,
    ⟨s', hs', rfl⟩, exposed, _, hx, h⟩ := h
  obtain ⟨_, rfl⟩ := returns_read.mp hx
  obtain ⟨hstore, hfaults⟩ : w'.store = s' ∧ w'.faults = w.faults := by
    rw [when] at h
    split at h
    case isTrue  => exact onGate_keeps h
    case isFalse =>
      obtain ⟨_, rfl⟩ := returns_pure.mp h
      exact ⟨rfl, rfl⟩
  obtain ⟨s₁, hs₁, he⟩ := ok_of_bind hs
  injection he with he
  obtain ⟨a₁, ha₁, _, he₁⟩ := Store.transition_ok_iff.mp hs₁
  obtain ⟨a₂, ha₂, _, he₂⟩ := Store.transition_ok_iff.mp hs'
  subst he he₁ he₂
  have he₁ : a₁ = a := Option.some.inj (ha₁.symm.trans ha)
  have he₂ : { a₁ with state := .preparing } = a₂ := by simpa [Store.log] using ha₂
  subst he₁ he₂
  refine ⟨?_, hfaults, ?_, ?_⟩ <;> rw [hstore]
  · exact Store.activation_shift
  · rfl
  · rfl

omit [Sha256] [TrafficAdapter τ] [TrafficGate π] in
theorem launch_begun (h : Returns (launch c planId launchId) u w w')
    (ha : w.store.activation planId = some a) (hl : c.launch a.plan launchId = .ok inventory) :
    Begun planId { a with state := .observing, launchId := some launchId } w w' ∧
      w'.traffic = w.traffic ∧ w'.store.inventory planId = inventory ∧
      (inventory.map Store.processKey).Nodup := by
  unfold launch at h
  rw [returns_row_seq ha] at h
  simp only [returns_bind, returns_transaction, returns_hit, returns_lift] at h
  obtain ⟨_, _, ⟨s, hs, rfl⟩, _, _, ⟨_, rfl⟩, inventory', _, ⟨hl', rfl⟩, _, _, ⟨_, rfl⟩, s', hs',
    rfl⟩ := h
  have hinv : inventory' = inventory := Except.ok.inj (hl'.symm.trans hl)
  obtain ⟨a₁, ha₁, _, he₁⟩ := launchWal_ok hs
  obtain ⟨s₁, hi, hs'⟩ := ok_of_bind hs'
  obtain ⟨hn, hi⟩ := Store.setInventory_ok_iff.mp hi
  obtain ⟨a₂, ha₂, _, he₂⟩ := Store.transition_ok_iff.mp hs'
  subst hinv he₁ hi he₂
  have he₁ : a₁ = a := Option.some.inj (ha₁.symm.trans ha)
  have he₂ : { a₁ with state := .launching, launchId := some launchId } = a₂ := by
    simpa [Store.log] using ha₂
  subst he₁ he₂
  refine ⟨⟨Store.activation_shift, rfl, rfl, rfl⟩, rfl, ?_, hn⟩
  simp [Store.shift, Store.setActivation, Store.log]

omit [TrafficAdapter τ] [TrafficGate π] in
-- The observations that were made.
theorem observeAll_observed (h : Returns (observeAll c planId items) u w w')
    (ha : w.store.activation planId = some a) : Observed c planId items w w' ∧
      ∀ i ∈ items, ¬stale w.store a planId i.1 := by
  induction items generalizing w
  case nil =>
    obtain ⟨_, rfl⟩ := returns_pure.mp h
    exact ⟨⟨rfl, rfl, rfl, rfl, rfl, by simp⟩, by simp⟩
  case cons i items ih =>
    obtain ⟨_, w₁, hr, h⟩ := returns_bind.mp h
    unfold observe at hr
    rw [returns_row_seq ha] at hr
    simp only [returns_bind, returns_raiseIf, returns_lift, returns_read, returns_transaction] at hr
    obtain ⟨_, _, ⟨_, rfl⟩, _, _, ⟨_, rfl⟩, _, _, ⟨rfl, rfl⟩, _, _, ⟨hst, rfl⟩, s, hs, rfl⟩ := hr
    obtain ⟨_, he⟩ := Store.insertEvidence_ok_iff.mp hs
    have h₁ : Observed c planId [i] w (w.setStore s) := by
      subst he
      exact ⟨rfl, rfl, rfl, rfl, rfl, by simp [Store.log, or_comm]⟩
    subst he
    obtain ⟨hobs, hrest⟩ := ih h ha
    refine ⟨h₁.trans hobs, fun i' hm => ?_⟩
    rcases List.mem_cons.mp hm with he | hm
    · exact he ▸ hst
    · exact hrest i' hm

-- What an activation has come to when it can be committed.
structure Observing (c : Call) (p : Plan) (launchId : String) (inventory : List ProcessIdentity)
    (items : List (Attestation × Int)) (w w' : World τ π) : Prop where
  complete   : p.obligations ≠ [] ∧ ∀ o ∈ p.obligations, o.requiredOrdinals ≠ []
  activation : w'.store.activation p.planId = some ⟨p, .observing, some launchId⟩
  traffic    : Closed p w'.traffic
  faults     : w'.faults = w.faults
  generation : w'.store.generation = w.store.generation
  keys       : (inventory.map Store.processKey).Nodup
  processes  : w'.store.inventory p.planId = inventory
  placed     : ∀ i ∈ items, Placed inventory i.1
  evidence   : ∀ e, e.planId = p.planId →
    (e ∈ w'.store.evidence ↔ ∃ i ∈ items, e = Store.evidenceRow p.planId c.managerEpoch i.1)

omit [TrafficAdapter τ] [TrafficGate π] in
theorem placed_of_not_stale {item : Attestation} (hi : w.store.inventory planId = inventory)
    (h : ¬stale w.store a planId item) : Placed inventory item := by
  simp only [stale, not_or, not_not] at h
  obtain ⟨_, _, _, h⟩ := h
  obtain ⟨q, hq, hid⟩ := (Option.any_eq_true _ _).mp h
  have hkey := List.find?_some hq
  obtain ⟨hr, ho⟩ := of_decide_eq_true hkey
  exact ⟨q, hi ▸ List.mem_of_find?_eq_some hq, hr, ho, (of_decide_eq_true hid).right⟩

theorem activate_observing (h : Returns (activate c p launchId items) u w w') (hl : c.launch p launchId = .ok inventory) (hev : w.store.EvidenceInv) :
    Observing c p launchId inventory items w w' := by
  unfold activate at h
  have ⟨_, w₁, h₁, h⟩ := returns_bind.mp h
  have ⟨_, w₂, h₂, h⟩ := returns_bind.mp h
  have ⟨_, w₃, h₃, h₄⟩ := returns_bind.mp h
  have ⟨_, h₁⟩ := returns_void.mp h₁
  have ⟨hne, hnone, hb₁⟩ := plan_begun h₁
  have hb₂ := hb₁.trans (prepare_begun h₂ hb₁.activation)
  have hclosed := prepare_closed h₂ hb₁.activation (plan_staged h₁).right.right.right
  have ⟨hb₃, ht, hi, hk⟩ := launch_begun h₃ hb₂.activation hl
  have hb₃ := hb₂.trans hb₃
  have ⟨hobs, hst⟩ := observeAll_observed h₄ hb₃.activation
  refine ⟨hne, hobs.activation ▸ hb₃.activation, hobs.traffic ▸ ht ▸ hclosed,
    hobs.faults.trans hb₃.faults, hobs.generation.trans hb₃.generation, hk, hobs.inventory ▸ hi,
    fun i hm => placed_of_not_stale hi (hst i hm), fun e he => ?_⟩
  rw [hobs.evidence, hb₃.evidence]
  refine or_iff_right fun hm => ?_
  -- no evidence was there for a plan that was not
  have ⟨_, ha, _⟩ := hev.late e hm
  rw [he, hnone] at ha
  contradiction

omit [TrafficAdapter τ] [TrafficGate π] in
theorem Observing.evidenceComplete_iff {c' : Call} (h : Observing c p launchId inventory items w w')
    (hme : c'.managerEpoch = c.managerEpoch) (hexp : ∀ i ∈ items, c'.now ≤ i.1.expiresAt) :
    w'.store.evidenceComplete c'.managerEpoch p c'.now ↔ p.Covers (items.map (·.1)) := by
  have hevery (i) (hi : i ∈ items) : ∃ q, w'.store.process? p.planId i.1.process.role
      i.1.process.ordinal = some q ∧ q.epoch = i.1.process.epoch := by
    obtain ⟨q, hq, hr, ho, he⟩ := h.placed i hi
    exact ⟨q, hr ▸ ho ▸ Store.process?_eq h.processes h.keys hq, he⟩
  simp only [Store.evidenceComplete, Bool.and_eq_true, decide_eq_true_eq, List.all_eq_true]
  constructor
  case mp =>
    rintro ⟨_, hc⟩ o ho ordinal hord
    have hc := hc o ho ordinal hord
    split at hc
    case h_1 => contradiction
    case h_2 q hq =>
      obtain ⟨e, hm, he⟩ := List.any_eq_true.mp hc
      obtain ⟨_, hrole, hordinal, _, hobl, hevent⟩ := of_decide_eq_true he
      obtain ⟨hm, hsel⟩ := List.mem_filter.mp hm
      obtain ⟨i, hi, he⟩ := (h.evidence e (of_decide_eq_true hsel).left).mp hm
      subst he
      exact ⟨i.1, List.mem_map_of_mem hi, hobl, hevent, hrole, hordinal⟩
  case mpr =>
    intro hc
    refine ⟨h.complete, fun o ho ordinal hord => ?_⟩
    obtain ⟨item, hm, hobl, hevent, hrole, hordinal⟩ := hc o ho ordinal hord
    obtain ⟨i, hi, he⟩ := List.mem_map.mp hm
    subst he
    obtain ⟨q, hq, hep⟩ := hevery i hi
    rw [hrole, hordinal] at hq
    simp only [hq, List.any_eq_true, decide_eq_true_eq]
    refine ⟨Store.evidenceRow p.planId c.managerEpoch i.1, List.mem_filter.mpr ⟨?_, ?_⟩, ?_⟩
    · exact (h.evidence _ rfl).mpr ⟨i, hi, rfl⟩
    · simp [Store.evidenceRow, hme]
    · exact ⟨hexp i hi, hrole, hordinal, hep.symm, hobl, hevent⟩

-- After the same activation, the contract model and the coordinator agree on whether the plan can be
-- committed unless all that is required is there, and either there is more and the gate lets the
-- commit through, or there is no more and the gate does not.
theorem commit_agrees_iff [Lower] {n : Int} {m : ReferenceModel} {c' : Call}
    {registrations : List String} {expectedNamespace : String} {plugins : List PluginIdentity}
    {host : HostCompatibility} {claims : List ResourceClaim} {obligations : List EvidenceObligation}
    {predecessor : PredecessorSnapshot} {fallbackProven : Bool}
    (hr : Reachable (Initial n) (Next Always Anything) w) (hf : w.faults = [])
    (hgf : Traffic.faults w'.traffic = [])
    (hg : w.store.generation = p.predecessor.generation) (hl : c.launch p launchId = .ok inventory)
    (hw : Returns (activate c p launchId items) () w w')
    (hm : Returns (ReferenceModel.activate registrations expectedNamespace plugins host claims
      obligations predecessor fallbackProven launchId inventory items) p
      (ReferenceModel.new p.predecessor.generation) m)
    (hme : c'.managerEpoch = c.managerEpoch) (hlease : c'.leaseValid p)
    (hexp : ∀ i ∈ items, c'.now ≤ i.1.expiresAt) :
    ((∃ g m', Returns (ReferenceModel.commit p.predecessor.generation) g m m') ↔
      ∃ g w'', Returns (commit c' p.planId p.predecessor.generation) g w' w'') ↔
    (p.Covers (items.map (·.1)) → (Passes c' p w' ↔ ¬p.Surplus (items.map (·.1)))) := by
  have ho := activate_observing hw hl (reachable_evidenceInv hr)
  have hom := ReferenceModel.activate_observes hm
  have hplaced : ∀ i ∈ m.accepted, Placed m.inventory i := by
    rw [hom.accepted, hom.inventory]
    intro i hi
    have ⟨i', hi', he⟩ := List.mem_map.mp hi
    exact he ▸ ho.placed i' hi'
  have hmodel := ReferenceModel.commit_returns_iff hom rfl
  rw [ReferenceModel.evidenceComplete_iff (hom.inventory ▸ ho.keys) hplaced, hom.accepted] at hmodel
  have hcoordinator := commit_returns_iff ho.activation ho.traffic (ho.faults.trans hf) hgf hlease
    (ho.generation.trans hg)
  rw [ho.evidenceComplete_iff hme hexp] at hcoordinator
  rw [hmodel, hcoordinator, and_congr_right_iff]
  exact imp_congr_right fun _ => ⟨Iff.symm, Iff.symm⟩

end Coordinator

namespace Coordinator.Sample

scoped instance : Lower where
  lower value := value.toLower

-- A second process of the same role.
def spare : ProcessIdentity :=
  { process with ordinal := 1, startId := "start-1" }

def spareAttestation : Attestation :=
  { attestation "nonce-2" with process := spare }

-- The model after the same activation.
def model (inventory : List ProcessIdentity) (items : List (Attestation × Int)) :
    Result ReferenceModel Exc Plan :=
  ReferenceModel.activate ["demo"] "demo" [plugin] plan.host [] [obligation] predecessor false
    "launch-1" inventory items (ReferenceModel.new 0)

def activated (inventory : List ProcessIdentity) (items : List (Attestation × Int)) :
    Result W Exc Unit :=
  activate { call with launch := fun _ _ => .ok inventory } plan "launch-1" items
    (new (.plain ⟨none, none⟩) [])

theorem model_returns {inventory : List ProcessIdentity} {items : List (Attestation × Int)}
    (h : (model inventory items).value.toOption = some plan) :
    Returns (ReferenceModel.activate ["demo"] "demo" [plugin] plan.host [] [obligation] predecessor
      false "launch-1" inventory items) plan (ReferenceModel.new 0) (model inventory items).state :=
  ⟨Fallible.ok_of_toOption h, rfl⟩

theorem activated_returns {inventory : List ProcessIdentity} {items : List (Attestation × Int)}
    (h : (activated inventory items).value.toOption = some ()) :
    Returns (activate { call with launch := fun _ _ => .ok inventory } plan "launch-1" items) ()
      (new (.plain ⟨none, none⟩) []) (activated inventory items).state :=
  ⟨Fallible.ok_of_toOption h, rfl⟩

def isPlain (w : W) : Bool :=
  match w.traffic with
  | .plain _    => true
  | .exposure _ => false

-- The fake gate lets everything through.
theorem passes_of_plain {w : W} (h : isPlain w) : Passes call plan w := by
  rw [isPlain] at h
  rw [Passes]
  split at h
  case h_1 ht => simp only [ht]; rfl
  case h_2    => contradiction

-- With evidence of the required process alone, they agree.
theorem agrees_of_required :
    (∃ g m', Returns (ReferenceModel.commit 0) g
      (model [process] [(attestation "nonce-1", 100)]).state m') ↔
    ∃ g w'', Returns (commit call plan.planId 0) g
      (activated [process] [(attestation "nonce-1", 100)]).state w'' := by
  refine (commit_agrees_iff reachable_new rfl (by decide +kernel) rfl rfl
    (activated_returns (by decide +kernel)) (model_returns (by decide +kernel)) rfl rfl
    (by decide)).mpr fun _ => ⟨fun _ => ?_, fun _ => passes_of_plain (by decide +kernel)⟩
  intro ⟨o, ho, i, hi, _, _, hne⟩
  have ho : o = obligation := by simpa [plan] using ho
  have hi : i = attestation "nonce-1" := by simpa using hi
  subst ho hi
  exact hne (by decide)

-- With evidence of the spare process as well, only the coordinator commits.
theorem not_agrees_of_spare :
    let inventory := [process, spare]
    let items := [(attestation "nonce-1", 100), (spareAttestation, 100)]
    (model inventory items).value.toOption = some plan ∧
      (activated inventory items).value.toOption = some () ∧
      ¬((∃ g m', Returns (ReferenceModel.commit 0) g (model inventory items).state m') ↔
        ∃ g w'', Returns (commit call plan.planId 0) g (activated inventory items).state w'') := by
  refine ⟨by decide +kernel, by decide +kernel, fun h => ?_⟩
  have hw : (commit call plan.planId 0 (activated [process, spare]
      [(attestation "nonce-1", 100), (spareAttestation, 100)]).state).value.toOption = some 1 := by
    decide +kernel
  have ⟨g, m', hv, _⟩ := h.mpr ⟨1, _, Fallible.ok_of_toOption hw, rfl⟩
  have hn : (ReferenceModel.commit 0 (model [process, spare]
      [(attestation "nonce-1", 100), (spareAttestation, 100)]).state).value.toOption = none := by
    decide +kernel
  rw [hv] at hn
  contradiction

end Coordinator.Sample
