import ExtManager.Coordinator.Cas
import ExtManager.Coordinator.Rules

open Crash Prog Relation

namespace Store

variable {s : Store} {planId : String}

-- The process of an inventory with these role and ordinal.
theorem find?_process {inventory : List ProcessIdentity} {p : ProcessIdentity}
    (hn : (inventory.map processKey).Nodup) (hp : p ∈ inventory) :
    (inventory.find? fun q => q.role = p.role ∧ q.ordinal = p.ordinal) = some p := by
  induction inventory
  case nil => contradiction
  case cons q qs ih =>
    rw [List.map_cons, List.nodup_cons] at hn
    rcases List.mem_cons.mp hp with he | hm
    · simp [he]
    · have hne : ¬(q.role = p.role ∧ q.ordinal = p.ordinal) := fun ⟨hr, ho⟩ =>
        hn.left (List.mem_map.mpr ⟨p, hm, by simp [processKey, hr, ho]⟩)
      rw [List.find?_cons_of_neg (by simpa using hne)]
      exact ih hn.right hm

theorem process?_eq {inventory : List ProcessIdentity} {p : ProcessIdentity}
    (hi : s.inventory planId = inventory) (hn : (inventory.map processKey).Nodup)
    (hp : p ∈ inventory) : s.process? planId p.role p.ordinal = some p := by
  unfold process?
  rw [hi]
  exact find?_process hn hp

end Store

namespace Coordinator

variable [Sha256] {τ π : Type} [TrafficAdapter τ] [TrafficGate π] {c : Call} {planId : String}
variable {a : Activation} {inventory : List ProcessIdentity} {items : List (Attestation × Int)}
variable {w w' : World τ π} {n : Int} {t : π}

-- The observations of attestations, one after the other, each at its time.
def observeAll (c : Call) (planId : String) : List (Attestation × Int) → M τ π Unit
  | []                   => pure ()
  | (item, now) :: items => do
    observe c planId item (some now)
    observeAll c planId items

-- What gets a recovered plan back to where it can be committed.
def reobserve (c : Call) (planId : String) (inventory : List ProcessIdentity)
    (items : List (Attestation × Int)) : M τ π Unit := do
  refreshInventory planId inventory
  resumeObserving planId
  observeAll c planId items

-- The plan can be observed again, and then some commit makes it `Effective`.
def Reactivates (c : Call) (planId : String) (inventory : List ProcessIdentity)
    (items : List (Attestation × Int)) (w : World τ π) : Prop :=
  ∃ w₁ expected generation w₂ a, Returns (reobserve c planId inventory items) () w w₁ ∧
    Returns (commit c planId expected) generation w₁ w₂ ∧
    w₂.store.activation planId = some a ∧ a.state = .effective

-- An attestation of a process of the inventory, for this launch of the plan, which the verifier
-- accepts when it is observed and which has not expired when the plan is committed.
structure Valid (c : Call) (planId : String) (a : Activation) (inventory : List ProcessIdentity)
    (item : Attestation) (now : Int) : Prop where
  planId   : item.planId = planId
  launchId : a.launchId = some item.launchId
  artifact : item.artifactId ∈ a.plan.plugins.map (·.id)
  process  : item.process ∈ inventory
  verified : c.verify item now a.plan = .ok ()
  expires  : c.now ≤ item.expiresAt

-- Fresh valid attestations for every obligation and required process of the plan.
structure Attested (c : Call) (planId : String) (a : Activation)
    (inventory : List ProcessIdentity) (items : List (Attestation × Int)) (s : Store) : Prop where
  keys   : (inventory.map Store.processKey).Nodup
  valid  : ∀ i ∈ items, Valid c planId a inventory i.1 i.2
  nonces : (items.map (·.1.nonce)).Nodup
  fresh  : ∀ i ∈ items, ∀ e ∈ s.evidence, e.nonce ≠ i.1.nonce
  covers : ∀ o ∈ a.plan.obligations, ∀ ordinal ∈ o.requiredOrdinals, ∃ i ∈ items,
    i.1.obligationId = o.obligationId ∧ i.1.event = o.event ∧ i.1.process.role = o.role ∧
      i.1.process.ordinal = ordinal

-- What the observations do to the world.
structure Observed (c : Call) (planId : String) (items : List (Attestation × Int))
    (w w' : World τ π) : Prop where
  traffic    : w'.traffic = w.traffic
  faults     : w'.faults = w.faults
  generation : w'.store.generation = w.store.generation
  activation : w'.store.activation = w.store.activation
  inventory  : w'.store.inventory = w.store.inventory
  evidence   : ∀ e, e ∈ w'.store.evidence ↔
    e ∈ w.store.evidence ∨ ∃ i ∈ items, e = Store.evidenceRow planId c.managerEpoch i.1

omit [Sha256] [TrafficAdapter τ] [TrafficGate π] in
theorem Observed.trans {i : Attestation × Int} {w₁ : World τ π} (h : Observed c planId [i] w w₁)
    (h' : Observed c planId items w₁ w') : Observed c planId (i :: items) w w' where
  traffic    := h'.traffic.trans h.traffic
  faults     := h'.faults.trans h.faults
  generation := h'.generation.trans h.generation
  activation := h'.activation.trans h.activation
  inventory  := h'.inventory.trans h.inventory
  evidence e := by
    rw [h'.evidence, h.evidence]
    simp [or_assoc]

omit [TrafficAdapter τ] [TrafficGate π] in
theorem observe_returns {item : Attestation} {now : Int} (ha : w.store.activation planId = some a)
    (ho : a.state.observable) (hi : w.store.inventory planId = inventory)
    (hk : (inventory.map Store.processKey).Nodup) (hv : Valid c planId a inventory item now)
    (hf : ∀ e ∈ w.store.evidence, e.nonce ≠ item.nonce) :
    ∃ w', Returns (observe c planId item (some now)) () w w' ∧
      Observed c planId [(item, now)] w w' := by
  have hst : ¬stale w.store a planId item := by
    simp only [stale, not_or, not_not]
    refine ⟨hv.planId, hv.launchId.symm, hv.artifact, ?_⟩
    simp [Store.process?_eq hi hk hv.process]
  obtain ⟨s, hs⟩ : ∃ s, w.store.insertEvidence planId c.managerEpoch item = .ok s :=
    ⟨_, Store.insertEvidence_ok_iff.mpr ⟨hf, rfl⟩⟩
  refine ⟨w.setStore s, ?_, ?_⟩
  · simp only [observe, returns_bind, returns_row, returns_raiseIf, returns_lift, returns_read,
      returns_transaction]
    exact ⟨a, w, ⟨ha, rfl⟩, (), w, ⟨by simpa using ho, rfl⟩, (), w, ⟨hv.verified, rfl⟩, _, w,
      ⟨rfl, rfl⟩, (), w, ⟨hst, rfl⟩, s, hs, rfl⟩
  · obtain ⟨_, he⟩ := Store.insertEvidence_ok_iff.mp hs
    subst he
    exact ⟨rfl, rfl, rfl, rfl, rfl, by simp [Store.log, or_comm]⟩

omit [TrafficAdapter τ] [TrafficGate π] in
theorem observeAll_returns (ha : w.store.activation planId = some a) (ho : a.state.observable)
    (hi : w.store.inventory planId = inventory) (hk : (inventory.map Store.processKey).Nodup)
    (hv : ∀ i ∈ items, Valid c planId a inventory i.1 i.2)
    (hn : (items.map (·.1.nonce)).Nodup)
    (hf : ∀ i ∈ items, ∀ e ∈ w.store.evidence, e.nonce ≠ i.1.nonce) :
    ∃ w', Returns (observeAll c planId items) () w w' ∧ Observed c planId items w w' := by
  induction items generalizing w
  case nil => exact ⟨w, by simp [observeAll], rfl, rfl, rfl, rfl, rfl, by simp⟩
  case cons i items ih =>
    rw [List.map_cons, List.nodup_cons] at hn
    have ⟨w₁, hr, hobs⟩ := observe_returns ha ho hi hk (hv i (by simp)) (hf i (by simp))
    have hf' : ∀ i ∈ items, ∀ e ∈ w₁.store.evidence, e.nonce ≠ i.1.nonce := by
      intro i' hm e he
      rcases (hobs.evidence e).mp he with he | ⟨_, hi, he⟩
      · exact hf i' (List.mem_cons_of_mem _ hm) e he
      · rw [List.mem_singleton.mp hi] at he
        subst he
        exact fun hne => hn.left (List.mem_map.mpr ⟨i', hm, hne.symm⟩)
    have ⟨w', hr', hobs'⟩ := ih (hobs.activation ▸ ha) (hobs.inventory ▸ hi)
      (fun i hm => hv i (List.mem_cons_of_mem _ hm)) hn.right hf'
    refine ⟨w', ?_, hobs.trans hobs'⟩
    simp only [observeAll, returns_bind]
    exact ⟨(), w₁, hr, hr'⟩

-- What the world is like once the plan has been observed again.
structure Ready (c : Call) (planId : String) (a : Activation) (w w' : World τ π) : Prop where
  traffic    : w'.traffic = w.traffic
  faults     : w'.faults = w.faults
  generation : w'.store.generation = w.store.generation
  activation : w'.store.activation planId = some { a with state := .observing }
  complete   : w'.store.evidenceComplete c.managerEpoch a.plan c.now

omit [TrafficAdapter τ] [TrafficGate π] in
theorem Observed.complete (h : Observed c planId items w w')
    (hat : Attested c planId a inventory items w.store) (hid : a.plan.planId = planId)
    (hc : a.plan.obligations ≠ [] ∧ ∀ o ∈ a.plan.obligations, o.requiredOrdinals ≠ [])
    (hi : w.store.inventory planId = inventory) :
    w'.store.evidenceComplete c.managerEpoch a.plan c.now := by
  subst hid
  simp only [Store.evidenceComplete, Bool.and_eq_true, decide_eq_true_eq, List.all_eq_true]
  refine ⟨hc, fun o ho ordinal hord => ?_⟩
  have ⟨i, hm, hobl, hev, hrole, hordinal⟩ := hat.covers o ho ordinal hord
  have hv := hat.valid i hm
  have hp : w'.store.process? a.plan.planId o.role ordinal = some i.1.process := by
    rw [← hrole, ← hordinal]
    exact Store.process?_eq (h.inventory ▸ hi) hat.keys hv.process
  simp only [hp, List.any_eq_true, decide_eq_true_eq]
  refine ⟨_, List.mem_filter.mpr ⟨(h.evidence _).mpr (.inr ⟨i, hm, rfl⟩), ?_⟩, ?_⟩
  · simp [Store.evidenceRow]
  · exact ⟨hv.expires, hrole, hordinal, rfl, hobl, hev⟩

omit [TrafficAdapter τ] [TrafficGate π] in
theorem reobserve_returns (hinv : w.store.Inv) (ha : w.store.activation planId = some a)
    (hs : a.state = .reconcile) (hat : Attested c planId a inventory items w.store) :
    ∃ w', Returns (reobserve c planId inventory items) () w w' ∧ Ready c planId a w w' := by
  obtain ⟨s₁, hs₁⟩ : ∃ s, w.store.setInventory planId inventory = .ok s :=
    ⟨_, Store.setInventory_ok_iff.mpr ⟨hat.keys, rfl⟩⟩
  obtain ⟨_, he⟩ := Store.setInventory_ok_iff.mp hs₁
  let w₁ := w.setStore ((s₁.invalidate planId).log planId .inventory "refresh"
    (.obj [("processes", .arr (inventory.map (·.asdict)))]))
  have ha₁ : w₁.store.activation planId = some a := by
    simp [w₁, he, Store.invalidate, Store.log, ha]
  have hr₁ : Returns (refreshInventory planId inventory) () w w₁ := by
    simp only [refreshInventory, returns_bind, returns_row, returns_raiseIf, returns_transaction]
    refine ⟨a, w, ⟨ha, rfl⟩, (), w, ⟨by simp [hs, State.observable], rfl⟩, _, ?_, rfl⟩
    rw [hs₁]
    rfl
  let w₂ := w₁.setStore (w₁.store.shift planId { a with state := .observing }
    [⟨planId, .transition, State.value .observing, .obj [("from", .str a.state.value)]⟩] [])
  have ha₂ : w₂.store.activation planId = some { a with state := .observing } := by
    simp [w₂]
  have hr₂ : Returns (resumeObserving planId) () w₁ w₂ := by
    simp only [resumeObserving, returns_transaction]
    exact ⟨_, Store.transition_ok_iff.mpr ⟨a, ha₁, by simp [hs, State.transitions], rfl⟩, rfl⟩
  have hi₂ : w₂.store.inventory planId = inventory := by
    simp [w₂, w₁, he, Store.shift, Store.setActivation, Store.log, Store.invalidate]
  -- the nonces of invalid evidence are still taken
  have hf : ∀ i ∈ items, ∀ e ∈ w₂.store.evidence, e.nonce ≠ i.1.nonce := by
    intro i hm e hme
    simp only [w₂, w₁, he, Store.shift, Store.setActivation, Store.log, Store.invalidate,
      World.setStore, List.mem_map] at hme
    obtain ⟨e', hm', he'⟩ := hme
    have hn : e.nonce = e'.nonce := by
      rw [← he']
      split <;> rfl
    exact hn ▸ hat.fresh i hm e' hm'
  have hv (i) (hm : i ∈ items) :
      Valid c planId { a with state := .observing } inventory i.1 i.2 :=
    have h := hat.valid i hm
    ⟨h.planId, h.launchId, h.artifact, h.process, h.verified, h.expires⟩
  obtain ⟨w', hr, hobs⟩ := observeAll_returns ha₂ rfl hi₂ hat.keys hv hat.nonces hf
  refine ⟨w', ?_, hobs.traffic, hobs.faults, ?_, hobs.activation ▸ ha₂, ?_⟩
  · simp only [reobserve, returns_bind]
    exact ⟨(), w₁, hr₁, (), w₂, hr₂, hr⟩
  · rw [hobs.generation]
    simp [w₂, w₁, he, Store.shift, Store.setActivation, Store.log, Store.invalidate]
  · have hat₂ : Attested c planId { a with state := .observing } inventory items w₂.store :=
      ⟨hat.keys, hv, hat.nonces, hf, hat.covers⟩
    have hid := hinv.planId _ _ ha
    have hne := hinv.complete _ _ ha
    have hc := hobs.complete hat₂ hid hne hi₂
    exact hc

omit [Sha256] [TrafficAdapter τ] [TrafficGate π] in
theorem commitWal_eq {plan : Plan} {expected : Int} {s : Store}
    (ha : s.activation planId = some a) (ht : .commitReady ∈ a.state.transitions)
    (hg : s.generation = expected) (hp : plan.predecessor.generation = expected) :
    commitWal planId plan expected s = .ok { s.shift planId { a with state := .commitReady }
      [⟨planId, .wal, "commit", .obj [("from", .int expected)]⟩,
        ⟨planId, .transition, State.value .commitReady, .obj [("from", .str a.state.value)]⟩] [] with
      generation := s.generation + 1 } := by
  have hs := Store.transition_ok_iff.mpr ⟨a, ha, ht, rfl⟩
  simp only [commitWal, hs]
  exact if_pos ⟨hg, hp⟩

-- The lease is valid, and the gate does what it is asked.
structure Working (c : Call) (plan : Plan) (t : π) : Prop where
  lease    : c.leaseValid plan
  activate : (TrafficGate.activate plan t).1 = .ok ()

theorem Ready.commit_returns (h : Ready c planId a w w') (ht : w.traffic = .plain t)
    (hf : w.faults = []) (hw : Working c a.plan t)
    (hg : w.store.generation = a.plan.predecessor.generation) :
    ∃ generation w₂ a₂, Returns (commit c planId a.plan.predecessor.generation) generation w' w₂ ∧
      w₂.store.activation planId = some a₂ ∧ a₂.state = .effective := by
  have ht' := h.traffic.trans ht
  have hwal := commitWal_eq h.activation (by simp [State.transitions]) (h.generation.trans hg) rfl
  obtain ⟨s₁, hs₁⟩ : ∃ s, commitWal planId a.plan a.plan.predecessor.generation w'.store = .ok s :=
    ⟨_, hwal⟩
  have ha₁ : s₁.activation planId = some { a with state := .commitReady } := by
    have he := Except.ok.inj (hs₁.symm.trans hwal)
    simp [he, Store.shift, Store.setActivation]
  obtain ⟨s₂, hs₂⟩ : ∃ s, (s₁.log planId .receipt "commit"
      (.obj [("generation", .int s₁.generation)])).transition planId .effective = .ok s :=
    ⟨_, Store.transition_ok_iff.mpr ⟨_, ha₁, by simp [State.transitions], rfl⟩⟩
  obtain ⟨a₂, ha₂, hst⟩ := Store.activation_of_transition hs₂
  let w₁ := w'.setStore s₁
  let w₂ := w₁.setTraffic (.plain (TrafficGate.activate a.plan t).2)
  have htraffic : Returns (commitTraffic c a.plan a.plan.predecessor.generation) () w₁ w₂ := by
    have hp : Returns (onPlain (TrafficGate.activate a.plan)) () w₁ w₂ :=
      (returns_onPlain (show w₁.traffic = .plain t from ht')).mpr ⟨hw.activate, rfl⟩
    simp only [commitTraffic, returns_bind]
    exact ⟨false, w₁, by simp [isExposure, w₁, ht'], hp⟩
  have hf₁ {point : String} : point ∉ w₁.faults := by simp [w₁, h.faults, hf]
  refine ⟨s₂.generation, w₂.setStore s₂, a₂, ?_, ha₂, hst⟩
  simp only [commit, returns_bind, returns_row]
  refine ⟨_, w', ⟨h.activation, rfl⟩, ?_⟩
  simp only [hw.lease, not_true_eq_false, if_false, returns_bind, returns_read, returns_raiseIf,
    returns_transaction, returns_hit]
  exact ⟨_, w', ⟨rfl, rfl⟩, (), w', ⟨by simp [h.complete], rfl⟩, (), w₁, ⟨s₁, hs₁, rfl⟩, (), w₁,
    ⟨hf₁, rfl⟩, (), w₂, htraffic, (), w₂, ⟨hf₁, rfl⟩, (), _, ⟨s₂, hs₂, rfl⟩, rfl, rfl⟩

-- A commit has to be given the generation that both the tables and the plan have.
theorem Ready.commit_iff (h : Ready c planId a w w') (ht : w.traffic = .plain t)
    (hf : w.faults = []) (hw : Working c a.plan t) :
    (∃ expected generation w₂ a₂, Returns (commit c planId expected) generation w' w₂ ∧
      w₂.store.activation planId = some a₂ ∧ a₂.state = .effective) ↔
    w.store.generation = a.plan.predecessor.generation := by
  constructor
  case mp =>
    intro ⟨expected, _, _, _, hr, _⟩
    simp only [commit, returns_bind, returns_row] at hr
    obtain ⟨a₁, _, ⟨ha₁, he⟩, hr⟩ := hr
    subst he
    have he : { a with state := .observing } = a₁ := Option.some.inj (h.activation.symm.trans ha₁)
    subst he
    simp only [hw.lease, not_true_eq_false, if_false, returns_bind, returns_read, returns_raiseIf,
      returns_transaction] at hr
    obtain ⟨_, _, ⟨_, he⟩, _, _, ⟨_, he'⟩, _, _, ⟨_, hwal, _⟩, _⟩ := hr
    subst he he'
    obtain ⟨_, _, _, hg, hp, _⟩ := commitWal_ok hwal
    rw [← h.generation, hg, ← hp]
  case mpr =>
    exact fun hg => ⟨_, h.commit_returns ht hf hw hg⟩

omit [Sha256] [TrafficAdapter τ] [TrafficGate π] in
-- Where no other plan has committed, a plan is still at its own generation if it has not committed
-- either.
theorem generation_eq_iff {s : Store} (h : s.CasInv n) (ha : s.activation planId = some a)
    (ho : ∀ r ∈ s.journal, r.isCommit → r.planId = planId) :
    s.generation = a.plan.predecessor.generation ↔
      a.plan.predecessor.generation = n ∧ ∀ r ∈ s.journal, ¬r.isCommit := by
  constructor
  case mp =>
    intro hg
    have hn : ∀ r ∈ s.journal, ¬r.isCommit := by
      intro r hm hk
      have := h.below r hm hk a (ho r hm hk ▸ ha)
      omega
    have hz : s.journal.countP (·.isCommit) = 0 := List.countP_eq_zero.mpr hn
    exact ⟨by rw [← hg, h.count, hz]; simp, hn⟩
  case mpr =>
    intro ⟨hp, hn⟩
    rw [h.count, List.countP_eq_zero.mpr hn, hp]
    simp

theorem reactivates_iff_generation (hinv : w.store.Inv) (ht : w.traffic = .plain t)
    (hf : w.faults = []) (ha : w.store.activation planId = some a) (hs : a.state = .reconcile)
    (hw : Working c a.plan t) (hat : Attested c planId a inventory items w.store) :
    Reactivates c planId inventory items w ↔
      w.store.generation = a.plan.predecessor.generation := by
  have ⟨w₁, hr, hready⟩ := reobserve_returns hinv ha hs hat
  rw [← hready.commit_iff ht hf hw]
  constructor
  case mp =>
    intro ⟨w₁', expected, generation, w₂, a₂, hr', hc⟩
    have he : w₁ = w₁' := hr.right.symm.trans hr'.right
    exact ⟨expected, generation, w₂, a₂, he ▸ hc⟩
  case mpr =>
    intro ⟨expected, generation, w₂, a₂, hc⟩
    exact ⟨w₁, expected, generation, w₂, a₂, hr, hc⟩

-- In every run in which no other plan has committed, a recovered plan can be activated again
-- exactly where it was made for the generation of the tables and its own commit has not taken it.
theorem reactivates_iff (h : Reachable (Initial n) (Next Always Anything) w)
    (ht : w.traffic = .plain t) (hf : w.faults = [])
    (ha : w.store.activation planId = some a) (hs : a.state = .reconcile)
    (ho : ∀ r ∈ w.store.journal, r.isCommit → r.planId = planId) (hw : Working c a.plan t)
    (hat : Attested c planId a inventory items w.store) :
    Reactivates c planId inventory items w ↔
      a.plan.predecessor.generation = n ∧ ∀ r ∈ w.store.journal, ¬r.isCommit :=
  (reactivates_iff_generation (reachable_inv h) ht hf ha hs hw hat).trans
    (generation_eq_iff (reachable_cas h) ha ho)

end Coordinator

namespace Coordinator.Sample

-- The process has died, and a new coordinator recovers.
def recovered (w : W) : W :=
  (Op.recover planId).after call (w.setStore w.store.boot)

-- The coordinator that takes over.
def call₂ : Call :=
  { call with managerEpoch := 2 }

-- What the new coordinator finds of the plan.
def activation : Activation :=
  ⟨plan, .reconcile, some "launch-1"⟩

-- The commit dies before its write-ahead transaction.
def early : W :=
  recovered ((Op.commit planId 0).diesAt 0 call (observed []))

-- The commit dies right after its write-ahead transaction.
def late : W :=
  recovered (committed ["commit.after_wal"])

theorem working {t : FakeTrafficGate} : Working call₂ activation.plan t :=
  ⟨rfl, rfl⟩

theorem attested {s : Store} (h : ∀ e ∈ s.evidence, e.nonce ≠ "nonce-2") :
    Attested call₂ planId activation [process] [(attestation "nonce-2", 100)] s where
  keys   := by decide +kernel
  valid  := by
    simp only [List.mem_singleton, forall_eq]
    exact ⟨rfl, rfl, by decide, by decide, by decide, by decide⟩
  nonces := by simp
  fresh  := by simpa [attestation] using h
  covers := by decide +kernel

theorem reactivates_of_early :
    Reactivates call₂ planId [process] [(attestation "nonce-2", 100)] early := by
  have h : Reachable (Initial 0) (Next Always Anything) early :=
    .step (.step (.step reachable_observed (.op _ _ trivial Op.diesAt_mem)) .boot)
      (.op _ _ trivial Op.after_mem)
  have ⟨hn, ha, hfresh, ht, hf⟩ : (∀ r ∈ early.store.journal, ¬r.isCommit) ∧
      early.store.activation planId = some activation ∧
      (∀ e ∈ early.store.evidence, e.nonce ≠ "nonce-2") ∧
      plain? early = some ⟨some "predecessor", some "predecessor"⟩ ∧ early.faults = [] := by
    decide +kernel
  exact (reactivates_iff h (plain?_eq.mp ht) hf ha rfl (fun r hm hk => absurd hk (hn r hm)) working
    (attested hfresh)).mpr ⟨rfl, hn⟩

theorem not_reactivates_of_late : Reachable (Initial 0) (Next Always Anything) late ∧
    late.store.activation planId = some activation ∧ late.faults = [] ∧
    (∀ r ∈ late.store.journal, r.isCommit → r.planId = planId) ∧
    Attested call₂ planId activation [process] [(attestation "nonce-2", 100)] late.store ∧
    ¬Reactivates call₂ planId [process] [(attestation "nonce-2", 100)] late := by
  have h : Reachable (Initial 0) (Next Always Anything) late :=
    .step (.step reachable_committed .boot) (.op _ _ trivial Op.after_mem)
  have ⟨ha, hfresh, ht, hf, hown, hgeneration⟩ : late.store.activation planId = some activation ∧
      (∀ e ∈ late.store.evidence, e.nonce ≠ "nonce-2") ∧
      plain? late = some ⟨some "predecessor", some "predecessor"⟩ ∧ late.faults = [] ∧
      (∀ r ∈ late.store.journal, r.isCommit → r.planId = planId) ∧
      late.store.generation ≠ activation.plan.predecessor.generation := by
    decide +kernel
  have hat := attested hfresh
  refine ⟨h, ha, hf, hown, hat, ?_⟩
  rw [reactivates_iff_generation (reachable_inv h) (plain?_eq.mp ht) hf ha rfl working hat]
  exact hgeneration

end Coordinator.Sample
