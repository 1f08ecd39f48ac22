import ExtManager.Coordinator.Journal

open Crash Prog Relation

-- The row of a transaction that has recorded an inventory: a refresh, or a launch that has come to
-- its end.
def JournalRow.Records (planId : String) (r : JournalRow) : Prop :=
  r.planId = planId ∧ (r.kind = .inventory ∨ r.kind = .receipt ∧ r.operation = "launch")

instance {planId : String} {r : JournalRow} : Decidable (r.Records planId) :=
  inferInstanceAs (Decidable (_ ∧ _))

-- What is fresh has been accepted since the last boot.
theorem Event.Fresh.mem {planId : String} {managerEpoch : Int} {item : Attestation}
    {history newer older : List Event} (h : Fresh planId managerEpoch item history)
    (he : history = newer ++ .booted :: older) : .accepted planId managerEpoch item ∈ newer := by
  have ⟨new, old, hh, hb, _⟩ := h
  rcases List.append_eq_append_iff.mp (hh.symm.trans he) with ⟨l, rfl, hl⟩ | ⟨l, rfl, hl⟩
  · rcases List.cons_eq_append_iff.mp hl with ⟨_, hl⟩ | ⟨l', rfl, _⟩
    · cases hl
    · exact List.mem_append_right _ List.mem_cons_self
  · rcases List.cons_eq_append_iff.mp hl with ⟨_, hl⟩ | ⟨l', rfl, _⟩
    · cases hl
    · exact absurd (List.mem_append_right _ List.mem_cons_self) hb

namespace Store

variable {s s' s'' : Store} {planId : String}

def state? (s : Store) (planId : String) : Option State :=
  (s.activation planId).map (·.state)

-- What `s'` has more than `s`. The inventory of the plan is that of `s` unless a row of it has been
-- written since.
structure Later (planId : String) (s s' : Store) (rows : List JournalRow) (newer : List Event) :
    Prop where
  journal   : s'.journal = rows ++ s.journal
  history   : s'.history = newer ++ s.history
  inventory : (∃ r ∈ rows, r.Records planId) ∨ s'.inventory planId = s.inventory planId

theorem Later.refl : Later planId s s [] [] :=
  ⟨rfl, rfl, .inr rfl⟩

theorem Later.boot : Later planId s s.boot [] [.booted] :=
  ⟨rfl, rfl, .inr rfl⟩

theorem Later.trans {rows rows' : List JournalRow} {newer newer' : List Event}
    (h : Later planId s s' rows newer) (h' : Later planId s' s'' rows' newer') :
    Later planId s s'' (rows' ++ rows) (newer' ++ newer) where
  journal   := by rw [h'.journal, h.journal, List.append_assoc]
  history   := by rw [h'.history, h.history, List.append_assoc]
  inventory := by
    rcases h'.inventory with ⟨r, hm, hr⟩ | he
    · exact .inl ⟨r, List.mem_append_left _ hm, hr⟩
    · rcases h.inventory with ⟨r, hm, hr⟩ | he'
      · exact .inl ⟨r, List.mem_append_right _ hm, hr⟩
      · exact .inr (he.trans he')

-- A plan has no inventory before the end of its launch, and has committed where its state says so.
structure LaunchInv (s : Store) : Prop where
  inventory : ∀ id, s.inventory id ≠ [] → ∃ a, s.activation id = some a ∧ a.state.early = false
  committed : ∀ id a, s.activation id = some a → a.state.committed →
    ∃ r ∈ s.journal, r.planId = id ∧ r.isCommit

theorem LaunchInv.change {a b : Activation} (h : s.LaunchInv) (new : List JournalRow)
    (ha : s.activation planId = some a)
    (hact : s'.activation = fun id => if id = planId then some b else s.activation id)
    (hj : s'.journal = new ++ s.journal)
    (hinv : ∀ id, id ≠ planId → s'.inventory id = s.inventory id)
    (hself : s'.inventory planId ≠ [] → b.state.early = false)
    (hc : b.state.committed → a.state.committed ∨ ∃ r ∈ new, r.planId = planId ∧ r.isCommit) :
    s'.LaunchInv where
  inventory id hne := by
    by_cases hid : id = planId
    case pos => exact ⟨b, by simp [hact, hid], hself (hid ▸ hne)⟩
    case neg =>
      have ⟨a', ha', hst⟩ := h.inventory id (hinv id hid ▸ hne)
      exact ⟨a', by simp [hact, hid, ha'], hst⟩
  committed id a' ha' hst := by
    rw [hact] at ha'
    by_cases hid : id = planId
    case pos =>
      simp only [hid, if_true, Option.some.injEq] at ha'
      subst ha' hid
      rcases hc hst with hst | ⟨r, hm, hr⟩
      · have ⟨r, hm, hr⟩ := h.committed _ _ ha hst
        exact ⟨r, hj ▸ List.mem_append_right _ hm, hr⟩
      · exact ⟨r, hj ▸ List.mem_append_left _ hm, hr⟩
    case neg =>
      simp only [if_neg hid] at ha'
      have ⟨r, hm, hr⟩ := h.committed _ _ ha' hst
      exact ⟨r, hj ▸ List.mem_append_right _ hm, hr⟩

theorem launchInv_new {n : Int} : LaunchInv { Store.new with generation := n } :=
  ⟨fun _ h => absurd rfl h, fun _ _ h => nomatch h⟩

-- A plan that has not been launched has no inventory.
theorem LaunchInv.nil {a : Activation} (h : s.LaunchInv) (ha : s.activation planId = some a)
    (hs : a.state.early) : s.inventory planId = [] := by
  by_contra hne
  have ⟨a', ha', hst⟩ := h.inventory planId hne
  cases ha.symm.trans ha'
  exact absurd hs (by simp [hst])

end Store

namespace Coordinator

variable [Sha256] {τ π : Type} [TrafficAdapter τ] [TrafficGate π] {c : Call} {op : Op}
variable {w₀ w w' w₁ w₂ w₃ : World τ π} {s : Store} {n : Int} {planId : String}

omit [TrafficGate π] in
theorem Commit.launchInv (hc : Commit c op w₀ w s) (h₀ : w₀.store.Inv) (h : w.store.LaunchInv) :
    s = w₀.store ∨ s.LaunchInv := by
  cases hc
  case insert plan _ _ _ hs =>
    obtain ⟨hn, he⟩ := Store.insert_ok_iff.mp hs
    subst he
    refine .inr ⟨fun id hne => ?_, fun id a ha hst => ?_⟩
    · obtain ⟨a, ha, hst⟩ := h.inventory id hne
      have hid : id ≠ plan.planId := fun hid => by simp [hid, hn] at ha
      exact ⟨a, by simp [Store.log, Store.setActivation, hid, ha], hst⟩
    · by_cases hid : id = plan.planId
      case pos =>
        have he : ⟨plan, .planned, none⟩ = a := by
          simpa [Store.log, Store.setActivation, hid] using ha
        subst he
        contradiction
      case neg =>
        obtain ⟨r, hm, hr⟩ := h.committed id a
          (by simpa [Store.log, Store.setActivation, hid] using ha) hst
        exact ⟨r, List.mem_cons_of_mem _ hm, hr⟩
  case delete hs _ _ _ _ => exact .inl (Store.delete_insert h₀ hs)
  case note a _ _ ha _ =>
    refine .inr (h.change [_] ha (Store.activation_self ha) rfl (fun _ _ => rfl)
      (fun hne => ?_) .inl)
    obtain ⟨a', ha', hst⟩ := h.inventory _ hne
    exact Option.some.inj (ha.symm.trans ha') ▸ hst
  case shift a target rows _ ha ht _ hc _ =>
    refine .inr (h.change rows ha rfl rfl (fun _ _ => rfl) (fun hne => ?_) fun hst => .inl ?_)
    · obtain ⟨a', ha', hst⟩ := h.inventory _ hne
      cases ha.symm.trans ha'
      exact Store.early_transitions ht hst
    · have ht' : target = .effective := by
        revert hst
        cases target <;> simp [State.committed]
        exact absurd rfl hc.ne_commitReady
      revert ht
      rw [ht']
      cases a.state <;> simp [State.transitions, State.committed]
  case launch a _ ha hp =>
    refine .inr (h.change [_, _] ha rfl rfl (fun _ _ => rfl) (fun hne => ?_) (by rintro ⟨⟩))
    exact absurd (h.nil ha (by simp [hp, State.early])) hne
  case launched a _ _ _ _ ha _ hi =>
    obtain ⟨_, he⟩ := Store.setInventory_ok_iff.mp hi
    subst he
    exact .inr (h.change [_, _] ha rfl rfl (fun _ hid => if_neg hid) (fun _ => rfl)
      (by rintro ⟨⟩))
  case evidence a item _ _ ha _ _ _ hs =>
    obtain ⟨_, he⟩ := Store.insertEvidence_ok_iff.mp hs
    subst he
    refine .inr (h.change [_] ha (Store.activation_self ha) rfl (fun _ _ => rfl)
      (fun hne => ?_) .inl)
    obtain ⟨a', ha', hst⟩ := h.inventory _ hne
    exact Option.some.inj (ha.symm.trans ha') ▸ hst
  case refresh a inventory s _ ha ho hi =>
    obtain ⟨_, he⟩ := Store.setInventory_ok_iff.mp hi
    subst he
    refine .inr (h.change [_] ha (Store.activation_self ha) rfl (fun _ hid => if_neg hid)
      (fun _ => ?_) .inl)
    revert ho
    cases a.state <;> simp [State.observable, State.early]
  case wal a hop _ ha ht _ _ _ he =>
    subst he
    refine .inr (h.change [_, _] ha rfl rfl (fun _ _ => rfl) (fun _ => rfl) fun _ => .inr ?_)
    exact ⟨_, List.mem_cons_self, rfl, by simp [JournalRow.isCommit]⟩

theorem reachable_launchInv {may : Call → Op → World τ π → Prop}
    {env : Traffic τ π → Traffic τ π → Prop} (h : Reachable (Initial n) (Next may env) w) :
    w.store.LaunchInv :=
  (run_store_invariant h Store.launchInv_new (fun _ _ h => ⟨h.inventory, h.committed⟩)
    fun _ _ _ _ _ _ h₀ _ h hc => hc.launchInv h₀ h).right

omit [TrafficGate π] in
theorem Commit.later (hc : Commit c op w₀ w s) (h₀ : w₀.store.Inv) :
    s = w₀.store ∨ ∃ rows newer, Store.Later planId w.store s rows newer := by
  cases hc
  case insert hs =>
    have ⟨_, he⟩ := Store.insert_ok_iff.mp hs
    subst he
    exact .inr ⟨[_], [], rfl, rfl, .inr rfl⟩
  case delete hs _ _ _ _  => exact .inl (Store.delete_insert h₀ hs)
  case note               => exact .inr ⟨[_], [], rfl, rfl, .inr rfl⟩
  case shift rows _ _ _ _ _ _ => exact .inr ⟨rows, [], rfl, rfl, .inr rfl⟩
  case launch             => exact .inr ⟨[_, _], [], rfl, rfl, .inr rfl⟩
  case launched hi =>
    have ⟨_, he⟩ := Store.setInventory_ok_iff.mp hi
    subst he
    refine .inr ⟨[_, _], [], rfl, rfl, ?_⟩
    by_cases hid : planId = op.planId
    case pos => exact .inl ⟨_, List.mem_cons_of_mem _ List.mem_cons_self, hid.symm, .inr ⟨rfl, rfl⟩⟩
    case neg => exact .inr (if_neg hid)
  case evidence hs =>
    have ⟨_, he⟩ := Store.insertEvidence_ok_iff.mp hs
    subst he
    exact .inr ⟨[_], [_], rfl, rfl, .inr rfl⟩
  case refresh hi =>
    have ⟨_, he⟩ := Store.setInventory_ok_iff.mp hi
    subst he
    refine .inr ⟨[_], [_], rfl, rfl, ?_⟩
    by_cases hid : planId = op.planId
    case pos => exact .inl ⟨_, List.mem_cons_self, hid.symm, .inl rfl⟩
    case neg => exact .inr (if_neg hid)
  case wal he =>
    subst he
    exact .inr ⟨[_, _], [], rfl, rfl, .inr rfl⟩

theorem Op.later (h : w.store.Inv) (he : w' ∈ op.ends c w) :
    ∃ rows newer, Store.Later planId w.store w'.store rows newer :=
  (Steps.store_invariant (I := fun s => ∃ rows newer, Store.Later planId w.store s rows newer)
    (Op.steps_of_ends he) h ⟨[], [], .refl⟩ fun _ _ _ ⟨_, _, hl⟩ hc =>
      (hc.later h).imp_right fun ⟨_, _, hl'⟩ => ⟨_, _, hl.trans hl'⟩).right

theorem run_later {may : Call → Op → World τ π → Prop} {env : Traffic τ π → Traffic τ π → Prop}
    (h : Reachable (Initial n) (Next may env) w) (hr : ReflTransGen (Next may env) w w') :
    ∃ rows newer, Store.Later planId w.store w'.store rows newer := by
  induction hr
  case refl => exact ⟨[], [], .refl⟩
  case tail hr hn ih =>
    have ⟨_, _, hl⟩ := ih
    cases hn
    case op hm he =>
      have ⟨_, _, hl'⟩ : ∃ rows newer, Store.Later planId _ _ rows newer :=
        Op.later (reachable_inv (h.trans hr)) he
      exact ⟨_, _, hl.trans hl'⟩
    case boot         => exact ⟨_, _, hl.trans .boot⟩
    case faults | env => exact ⟨_, _, hl⟩

-- Only a launch and a refresh write an inventory.
theorem Op.inventory_eq (h : w.store.Inv) (hl : ∀ launchId, op ≠ .launch op.planId launchId)
    (hr : ∀ inventory, op ≠ .refreshInventory op.planId inventory) (he : w' ∈ op.ends c w) :
    w'.store.inventory = w.store.inventory := by
  refine (Steps.store_invariant (I := fun s => s.inventory = w.store.inventory)
    (Op.steps_of_ends he) h rfl fun _ _ _ hi hc => ?_).right
  cases hc
  case insert hs =>
    have ⟨_, he⟩ := Store.insert_ok_iff.mp hs
    exact .inr (he ▸ hi)
  case delete hs _ _ _ _      => exact .inl (Store.delete_insert h hs)
  case note | shift | launch  => exact .inr hi
  case launched launchId _ _ hop _ _ _ => exact absurd hop (hl launchId)
  case evidence hs =>
    have ⟨_, he⟩ := Store.insertEvidence_ok_iff.mp hs
    exact .inr (he ▸ hi)
  case refresh inventory _ hop _ _ _ => exact absurd hop (hr inventory)
  case wal he => exact .inr (he ▸ hi)

omit [TrafficGate π] in
-- Where a plan has committed, the generation is past the one that it was made for.
theorem Commit.uncommitted {expected : Int} {a : Activation}
    (hc : Commit c (.commit planId expected) w₀ w s) (h : w.store.CasInv n)
    (hr : ∃ r ∈ w.store.journal, r.planId = planId ∧ r.isCommit)
    (hu : ∀ a, w.store.activation planId = some a → ¬a.state.committed)
    (ha : s.activation planId = some a) : ¬a.state.committed := by
  cases hc
  case insert | delete => contradiction
  case note            => exact hu a ha
  case shift b target _ _ hb ht _ hc _ =>
    cases Store.activation_shift.symm.trans ha
    intro hst
    have ht' : target = .effective := by
      revert hst
      cases target <;> simp [State.committed]
      exact absurd rfl hc.ne_commitReady
    refine hu b hb ?_
    revert ht
    rw [ht']
    cases b.state <;> simp [State.transitions, State.committed]
  case launch | launched =>
    cases Store.activation_shift.symm.trans ha
    simp [State.committed]
  case evidence hs =>
    obtain ⟨_, he⟩ := Store.insertEvidence_ok_iff.mp hs
    subst he
    exact hu a ha
  case refresh hs =>
    obtain ⟨_, he⟩ := Store.setInventory_ok_iff.mp hs
    subst he
    exact hu a ha
  case wal b hop hw hb _ _ hg hp he =>
    have hid := (Op.commit.inj hop).left
    subst hid
    obtain ⟨r, hm, hid, hk⟩ := hr
    have := h.below r hm hk b (hid ▸ hb)
    omega

theorem uncommitted_of_committed {expected : Int} {a : Activation}
    (h : Reachable (Initial n) (Next Always Anything) w)
    (hr : ∃ r ∈ w.store.journal, r.planId = planId ∧ r.isCommit)
    (hu : ∀ a, w.store.activation planId = some a → ¬a.state.committed)
    (he : w' ∈ (Op.commit planId expected).ends c w)
    (ha : w'.store.activation planId = some a) : ¬a.state.committed := by
  let I (s : Store) : Prop := s.CasInv n ∧
    (∃ r ∈ s.journal, r.planId = planId ∧ r.isCommit) ∧
      ∀ a, s.activation planId = some a → ¬a.state.committed
  have hinv := reachable_inv h
  refine (Steps.store_invariant (I := I) (Op.steps_of_ends he) hinv ⟨reachable_cas h, hr, hu⟩ ?_
    ).right.right.right a ha
  intro w₁ s hi ⟨hcas, ⟨r, hm, hr⟩, hu⟩ hc
  rcases hc.casInv hinv hi hcas with he | hcas'
  · exact .inl he
  have hlater : s = w.store ∨ ∃ rows newer, Store.Later planId w₁.store s rows newer :=
    hc.later hinv
  rcases hlater with he | ⟨rows, _, hl⟩
  · exact .inl he
  · exact .inr ⟨hcas', ⟨r, hl.journal ▸ List.mem_append_right _ hm, hr⟩,
      fun a ha => hc.uncommitted hcas ⟨r, hm, hr⟩ hu ha⟩

omit [TrafficGate π] in
-- A plan whose rollback has begun stays with it.
theorem Commit.ending {a : Activation} (hc : Commit c op w₀ w s) (h₀ : w₀.store.Inv)
    (ha : w.store.activation planId = some a) (he : a.state.ending) :
    s = w₀.store ∨ ∃ a', s.activation planId = some a' ∧ a'.state.ending := by
  have hother {b : Activation} {rows outcomes} (hid : planId ≠ op.planId) :
      ∃ a', (w.store.shift op.planId b rows outcomes).activation planId = some a' ∧
        a'.state.ending :=
    ⟨a, by simp [Store.shift, Store.setActivation, hid, ha], he⟩
  cases hc
  case insert plan _ _ _ hs =>
    obtain ⟨hn, heq⟩ := Store.insert_ok_iff.mp hs
    have hid : planId ≠ plan.planId := fun hid => by simp [hid, hn] at ha
    exact .inr ⟨a, by simp [heq, Store.log, Store.setActivation, hid, ha], he⟩
  case delete hs _ _ _ _ => exact .inl (Store.delete_insert h₀ hs)
  case note              => exact .inr ⟨a, ha, he⟩
  case shift b target _ _ hb ht _ _ _ =>
    by_cases hid : planId = op.planId
    case neg => exact .inr (hother hid)
    case pos =>
      subst hid
      cases ha.symm.trans hb
      refine .inr ⟨_, Store.activation_shift, ?_⟩
      revert he ht
      cases a.state <;> cases target <;> simp [State.transitions, State.ending]
  case launch b _ hb hp =>
    by_cases hid : planId = op.planId
    case neg => exact .inr (hother hid)
    case pos =>
      cases (hid ▸ ha).symm.trans hb
      simp [hp, State.ending] at he
  case launched b _ _ _ _ hb hp hi =>
    obtain ⟨_, heq⟩ := Store.setInventory_ok_iff.mp hi
    subst heq
    by_cases hid : planId = op.planId
    case neg => exact .inr ⟨a, by simp [Store.shift, Store.setActivation, hid, ha], he⟩
    case pos =>
      cases (hid ▸ ha).symm.trans hb
      simp [hp, State.ending] at he
  case evidence hs =>
    obtain ⟨_, heq⟩ := Store.insertEvidence_ok_iff.mp hs
    subst heq
    exact .inr ⟨a, ha, he⟩
  case refresh hi =>
    obtain ⟨_, heq⟩ := Store.setInventory_ok_iff.mp hi
    subst heq
    exact .inr ⟨a, ha, he⟩
  case wal id _ b hop hw hb ht _ _ _ heq =>
    subst heq
    by_cases hid : planId = id
    case neg => exact .inr ⟨a, by simp [Store.shift, Store.setActivation, hid, ha], he⟩
    case pos =>
      cases (hid ▸ ha).symm.trans hb
      revert he ht
      cases a.state <;> simp [State.transitions, State.ending]

theorem Op.ending {a : Activation} (h : w.store.Inv) (he : w' ∈ op.ends c w)
    (ha : w.store.activation planId = some a) (hs : a.state.ending) :
    ∃ a', w'.store.activation planId = some a' ∧ a'.state.ending :=
  (Steps.store_invariant (I := fun s => ∃ a', s.activation planId = some a' ∧ a'.state.ending)
    (Op.steps_of_ends he) h ⟨a, ha, hs⟩ fun _ _ _ ⟨_, ha', hs'⟩ hc => hc.ending h ha' hs').right

omit [Sha256] [TrafficAdapter τ] [TrafficGate π] in
theorem keeps_refused {D : World τ π → Prop} {body : Store → Except Exc Store} {e : Exc}
    (hd : D w) (h : body w.store = .error e) :
    Keeps D (fun _ _ => False) (transaction body : M τ π Unit) w := by
  refine wp_act.mpr ⟨hd, ?_⟩
  simp only [h]
  exact ⟨hd, fun _ h => nomatch h⟩

-- An operation that interrupts a plan leaves one alone that is degraded.
omit [Sha256] in
theorem externalLeaseLost_degraded {a : Activation} (ha : w.store.activation planId = some a)
    (hs : a.state = .degraded) : Keeps (fun w' => w'.store = w.store) (fun _ _ => True)
      (externalLeaseLost c planId : M τ π State) w := by
  unfold externalLeaseLost
  have ht : w.store.transition planId .degraded =
      .error (.contract .invalidTransition "Degraded -> Degraded") := by
    simp [Store.transition, Store.row_ok_iff.mpr ha, hs, State.transitions, State.value]
  exact .lift rfl fun a' ha' => .seq (keeps_refused rfl ht) fun _ _ _ h => h.elim

theorem recover_degraded {a : Activation} (ha : w.store.activation planId = some a)
    (hs : a.state = .degraded) : Keeps (fun w' => w'.store = w.store) (fun _ _ => True)
      (recover planId : M τ π State) w := by
  unfold recover
  refine .lift rfl fun a' ha' => .read ?_
  cases ha.symm.trans (Store.row_ok_iff.mp ha')
  rw [hs]
  exact .lift rfl fun _ _ => .pure rfl trivial

theorem commit_degraded {expected : Int} {a : Activation}
    (ha : w.store.activation planId = some a) (hs : a.state = .degraded) :
    Keeps (fun w' => w'.store = w.store) (fun _ _ => True)
      (commit c planId expected : M τ π Int) w := by
  unfold commit
  refine .lift rfl fun a' ha' => .ite (fun _ => ?_) fun _ => .read ?_
  · exact .seq (externalLeaseLost_degraded ha hs) fun _ _ h _ => .raise h
  have ht : commitWal planId a'.plan expected w.store =
      .error (.contract .invalidTransition "Degraded -> CommitReady") := by
    simp [commitWal, Store.transition, Store.row_ok_iff.mpr ha, hs, State.transitions, State.value]
    rfl
  exact .raiseIf rfl fun _ => .seq (keeps_refused rfl ht) fun _ _ _ h => h.elim

-- An operation has put the plan into `Reconcile` from `s`, or a new coordinator has found it in `s`
-- on its way.
inductive Interrupted (planId : String) (s : State) (w w₁ : World τ π) : Prop
  | recovered {c : Call} : w₁ ∈ (Op.recover planId).ends c w → w.store.state? planId = some s →
      s ≠ .reconcile → w₁.store.state? planId = some .reconcile → Interrupted planId s w w₁
  | leaseLost {c : Call} {op : Op} :
      op = .externalLeaseLost planId ∨ (∃ expected, op = .commit planId expected) → w₁ ∈ op.ends c w →
      w.store.state? planId = some s → s ≠ .reconcile → w₁.store.state? planId = some .reconcile →
      Interrupted planId s w w₁
  | restarted : w.store.state? planId = some s → s = .launching ∨ s = .observing →
      w₁ = w.setStore w.store.boot → Interrupted planId s w w₁

theorem Interrupted.state {s : State} (h : Interrupted planId s w w₁) :
    ∃ a, w.store.activation planId = some a ∧ a.state = s := by
  cases h
  case recovered hs _ _   => exact Option.map_eq_some_iff.mp hs
  case leaseLost hs _ _   => exact Option.map_eq_some_iff.mp hs
  case restarted hs _ _   => exact Option.map_eq_some_iff.mp hs

-- An operation that has put the plan into `Reconcile`.
theorem Interrupted.cases {s : State} (h : Interrupted planId s w w₁) :
    w₁ = w.setStore w.store.boot ∧ (s = .launching ∨ s = .observing) ∨
    ∃ c op, w₁ ∈ Op.ends op c w ∧ w₁.store.state? planId = some .reconcile ∧ s ≠ .reconcile ∧
      (∀ launchId, op ≠ .launch op.planId launchId) ∧
      (∀ inventory, op ≠ .refreshInventory op.planId inventory) ∧
      (∀ a, w.store.activation planId = some a → a.state = .degraded → w₁.store = w.store) := by
  cases h
  case restarted hs he => exact .inl ⟨he, hs⟩
  case recovered c he _ hs hr =>
    exact .inr ⟨c, _, he, hr, hs, nofun, nofun, fun a ha hd => (recover_degraded ha hd).void.ends _ he⟩
  case leaseLost c op ho he _ hs hr =>
    rcases ho with rfl | ⟨expected, rfl⟩
    all_goals refine .inr ⟨c, _, he, hr, hs, nofun, nofun, fun a ha hd => ?_⟩
    · exact (externalLeaseLost_degraded ha hd).void.ends _ he
    · exact (commit_degraded ha hd).void.ends _ he

theorem Interrupted.inventory_eq {s : State} (h : w.store.Inv) (hi : Interrupted planId s w w₁) :
    w₁.store.inventory = w.store.inventory := by
  rcases hi.cases with ⟨rfl, _⟩ | ⟨c, op, he, _, _, hl, hr, _⟩
  · rfl
  · exact Op.inventory_eq h hl hr he

-- The states in which a plan is found.
theorem Interrupted.early {s : State} (h : w.store.Inv) (hi : Interrupted planId s w w₁) :
    s.early ∨ s.committed ∨ s = .observing := by
  have ⟨a, ha, hs⟩ := hi.state
  rcases hi.cases with ⟨_, rfl | rfl⟩ | ⟨c, op, he, hr, hne, _, _, hd⟩
  · exact .inl rfl
  · exact .inr (.inr rfl)
  have ⟨a₁, ha₁, hs₁⟩ := Option.map_eq_some_iff.mp hr
  have hend : s.ending = false := by
    by_contra hend
    have ⟨a', ha', hend'⟩ := Op.ending h he ha (by simpa [hs] using hend)
    cases ha₁.symm.trans ha'
    simp [hs₁, State.ending] at hend'
  have hdeg : s ≠ .degraded := by
    rintro rfl
    rw [hd a ha hs] at ha₁
    cases ha.symm.trans ha₁
    simp [hs] at hs₁
  revert hend hdeg hne
  cases s <;> simp [State.ending, State.early, State.committed]

-- A process of the plan as it is recorded, with an item of it that one coordinator has accepted.
def Reobserved (s : Store) (planId : String) (a : Activation) (managerEpoch : Int)
    (newer : List Event) : Prop :=
  ∀ o ∈ a.plan.obligations, ∀ ordinal ∈ o.requiredOrdinals, ∃ p ∈ s.inventory planId,
    p.role = o.role ∧ p.ordinal = ordinal ∧ ∃ item, .accepted planId managerEpoch item ∈ newer ∧
      a.launchId = some item.launchId ∧ item.process.role = p.role ∧
      item.process.ordinal = p.ordinal ∧ item.process.startId = p.startId ∧
      item.process.epoch = p.epoch ∧ item.obligationId = o.obligationId ∧ item.event = o.event

-- Once a plan has been interrupted, a commit gets it to `CommitReady` only with an inventory that
-- has been recorded since. A plan that was found in `Observing` may keep the inventory that it had,
-- but after a restart all of its processes have been observed again.
theorem commit_after_interruption {s : State} {expected : Int} {a : Activation}
    (h : Reachable (Initial n) (Next Always Anything) w) (hi : Interrupted planId s w w₁)
    (hr : ReflTransGen (Next Always Anything) w₁ w₂)
    (he : w₃ ∈ (Op.commit planId expected).ends c w₂)
    (hs₂ : ∀ a, w₂.store.activation planId = some a → ¬a.state.committed)
    (ha : w₃.store.activation planId = some a) (hs₃ : a.state.committed) :
    ∃ rows newer, w₃.store.journal = rows ++ w₁.store.journal ∧
      w₃.store.history = newer ++ w₁.store.history ∧
      ((∃ r ∈ rows, r.Records planId) ∨ s = .observing ∧
        (w₁ = w.setStore w.store.boot → Reobserved w₃.store planId a c.managerEpoch newer)) := by
  have hn : Next Always Anything w w₁ := by
    rcases hi.cases with ⟨rfl, _⟩ | ⟨_, _, hop, _⟩
    · exact .boot
    · exact .op _ _ trivial hop
  have h₁ := h.step hn
  have h₂ := h₁.trans hr
  have hcov := evidence_sound h₂ he hs₂ ha hs₃
  have ⟨_, _, hl⟩ : ∃ rows newer, Store.Later planId w.store w₁.store rows newer :=
    run_later h (.single hn)
  have ⟨_, _, hl₁⟩ : ∃ rows newer, Store.Later planId w₁.store w₂.store rows newer :=
    run_later h₁ hr
  have ⟨_, _, hl₂⟩ : ∃ rows newer, Store.Later planId w₂.store w₃.store rows newer :=
    Op.later (reachable_inv h₂) he
  have hlater := hl₁.trans hl₂
  refine ⟨_, _, hlater.journal, hlater.history, ?_⟩
  rcases hlater.inventory with hrec | hsame
  · exact .inl hrec
  have ⟨a₀, ha₀, hs₀⟩ := hi.state
  have hlaunch := reachable_launchInv h
  rcases hi.early (reachable_inv h) with hearly | hcommitted | hobserving
  · -- the plan had no inventory, and has none
    have hnil : w₃.store.inventory planId = [] := by
      rw [hsame, hi.inventory_eq (reachable_inv h)]
      exact hlaunch.nil ha₀ (hs₀ ▸ hearly)
    have ⟨hne, hall⟩ := (reachable_inv (h₂.step (.op _ _ trivial he))).complete _ _ ha
    have ⟨o, ho⟩ := List.exists_mem_of_ne_nil _ hne
    have ⟨ordinal, hord⟩ := List.exists_mem_of_ne_nil _ (hall o ho)
    have ⟨p, hp, _⟩ := hcov o ho ordinal hord
    exact absurd (hnil ▸ hp) List.not_mem_nil
  · -- the plan has committed before
    have ⟨r, hm, hr⟩ := hlaunch.committed _ _ ha₀ (hs₀ ▸ hcommitted)
    have hm : r ∈ w₂.store.journal := by
      rw [hl₁.journal, hl.journal]
      exact List.mem_append_right _ (List.mem_append_right _ hm)
    exact absurd hs₃ (uncommitted_of_committed h₂ ⟨r, hm, hr⟩ hs₂ he ha)
  · refine .inr ⟨hobserving, fun hboot o ho ordinal hord => ?_⟩
    have ⟨p, hp, hrole, hordinal, _, _, item, _, _, hfresh, hlaunched, hr, ho, hs, hep, hobl, hev,
      _⟩ := hcov o ho ordinal hord
    have hnew := hfresh.mem (hlater.history.trans (by rw [hboot]; rfl))
    exact ⟨p, hp, hrole, hordinal, item, hnew, hlaunched, hr, ho, hs, hep, hobl, hev⟩

end Coordinator

namespace Coordinator.Sample

-- A call of the coordinator that has been started after the first one.
def restarted : Call :=
  { call with managerEpoch := 2 }

-- A run in which the plan is interrupted and committed without a new inventory.
structure Unrefreshed (c : Call) (w w₁ w₂ w₃ : W) : Prop where
  reachable   : Reachable (Initial 0) (Next Always Anything) w
  interrupted : Interrupted planId .observing w w₁
  run         : ReflTransGen (Next Always Anything) w₁ w₂
  commits     : w₃ ∈ (Op.commit planId 0).ends c w₂
  before      : w₂.store.state? planId = some .observing
  after       : w₃.store.state? planId = some .effective
  unrecorded  : ¬∃ rows, w₃.store.journal = rows ++ w₁.store.journal ∧ ∃ r ∈ rows, r.Records planId

theorem unrecorded_of_take {s₁ s₃ : Store} (k : Nat)
    (hl : s₃.journal.length = k + s₁.journal.length)
    (hn : ∀ r ∈ s₃.journal.take k, ¬r.Records planId) :
    ¬∃ rows, s₃.journal = rows ++ s₁.journal ∧ ∃ r ∈ rows, r.Records planId := by
  intro ⟨rows, hj, r, hm, hr⟩
  have hk : rows.length = k := by
    rw [hj, List.length_append] at hl
    omega
  rw [hj, List.take_left' hk] at hn
  exact hn r hm hr

-- Found in `Observing`, with the old inventory observed again.
def reobserved : W :=
  (Op.observe planId (attestation "nonce-2") none).after restarted
    ((launched []).setStore (launched []).store.boot)

-- Put into `Reconcile` and back.
def reconciled : W :=
  (Op.recover planId).after call (observed [])

def resumed : W :=
  (Op.resumeObserving planId).after call reconciled

-- A restart does not ask for a new inventory, and a recovery without a restart asks for nothing.
theorem commit_unrefreshed :
    (∃ w₃, Unrefreshed restarted (launched []) ((launched []).setStore (launched []).store.boot)
      reobserved w₃) ∧
    ∃ w₃, Unrefreshed call (observed []) reconciled resumed w₃ ∧
      w₃.store.history.length = reconciled.store.history.length := by
  have ⟨⟨hs₁, hs₂, hs₃⟩, hl, hn⟩ :
      ((launched []).store.state? planId = some .observing ∧
        reobserved.store.state? planId = some .observing ∧
        ((Op.commit planId 0).after restarted reobserved).store.state? planId =
          some .effective) ∧
      ((Op.commit planId 0).after restarted reobserved).store.journal.length =
        5 + (launched []).store.boot.journal.length ∧
      ∀ r ∈ ((Op.commit planId 0).after restarted reobserved).store.journal.take 5,
        ¬r.Records planId := by
    decide +kernel
  have ⟨⟨hr₁, hr₂, hr₃, hr₄⟩, hk, hm, hh⟩ :
      ((observed []).store.state? planId = some .observing ∧
        reconciled.store.state? planId = some .reconcile ∧
        resumed.store.state? planId = some .observing ∧
        ((Op.commit planId 0).after call resumed).store.state? planId = some .effective) ∧
      ((Op.commit planId 0).after call resumed).store.journal.length =
        5 + reconciled.store.journal.length ∧
      (∀ r ∈ ((Op.commit planId 0).after call resumed).store.journal.take 5,
        ¬r.Records planId) ∧
      ((Op.commit planId 0).after call resumed).store.history.length =
        reconciled.store.history.length := by
    decide +kernel
  refine ⟨⟨(Op.commit planId 0).after restarted reobserved, ?_⟩,
    ⟨(Op.commit planId 0).after call resumed, ?_, hh⟩⟩
  · exact {
      reachable   := reachable_launched
      interrupted := .restarted hs₁ (.inr rfl) rfl
      run         := .single (.op _ _ trivial Op.after_mem)
      commits     := Op.after_mem
      before      := hs₂
      after       := hs₃
      unrecorded  := unrecorded_of_take 5 hl hn
    }
  · exact {
      reachable   := reachable_observed
      interrupted := .recovered Op.after_mem hr₁ (by decide) hr₂
      run         := .single (.op _ _ trivial Op.after_mem)
      commits     := Op.after_mem
      before      := hr₃
      after       := hr₄
      unrecorded  := unrecorded_of_take 5 hk hm
    }

-- A launch that has died on its way, found by a new coordinator.
def dead : W :=
  launched ["launch.after_side_effect"]

def refreshed : W :=
  (Op.observe planId (attestation "nonce-1") none).after restarted <|
    (Op.refreshInventory planId [process]).after restarted <|
      (Op.resumeObserving planId).after restarted (dead.setStore dead.store.boot)

theorem commit_refreshed : ∃ w₃ ∈ (Op.commit planId 0).ends restarted refreshed,
    w₃.store.state? planId = some .effective ∧
      ∃ rows, w₃.store.journal = rows ++ dead.store.boot.journal ∧ ∃ r ∈ rows, r.Records planId := by
  obtain ⟨hw₁, hw₂, hw₃⟩ : dead.store.state? planId = some .launching ∧
      refreshed.store.state? planId = some .observing ∧
      ((Op.commit planId 0).after restarted refreshed).store.state? planId = some .effective := by
    decide +kernel
  have hi : Interrupted planId .launching dead (dead.setStore dead.store.boot) :=
    .restarted hw₁ (.inl rfl) rfl
  have hr : ReflTransGen (Next Always Anything) (dead.setStore dead.store.boot) refreshed :=
    .tail (.tail (.single (.op _ _ trivial Op.after_mem)) (.op _ _ trivial Op.after_mem))
      (.op _ _ trivial Op.after_mem)
  obtain ⟨a, ha, hs⟩ := Option.map_eq_some_iff.mp hw₃
  obtain ⟨rows, _, hj, _, hrec⟩ := commit_after_interruption (c := restarted) reachable_launched hi hr
    Op.after_mem (fun a₀ ha₀ => by
      have hs₀ := Option.some.inj <| (Option.map_eq_some_iff.mpr ⟨a₀, ha₀, rfl⟩).symm.trans hw₂
      simp [hs₀, State.committed]) ha (by rw [hs]; rfl)
  exact ⟨_, Op.after_mem, hw₃, rows, hj, hrec.resolve_right fun h => absurd h.left (by simp)⟩

end Coordinator.Sample
