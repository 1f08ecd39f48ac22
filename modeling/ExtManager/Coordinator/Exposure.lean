import ExtManager.Coordinator.OnePlan

open Crash Prog Relation

namespace Gate

variable [Sha256] {g g' : Gate DeterministicTrafficAdapter}

theorem Op.ends_openIntents {τ : Type} [TrafficAdapter τ] {op : Op} {g g' : Gate τ}
    (h : g.db.Inv) (ho : ∀ n proof, op ≠ .open n proof) (he : g' ∈ op.ends g) :
    g'.db.openIntents = g.db.openIntents :=
  Steps.db_invariant (P := fun db => db.openIntents = g.db.openIntents) (Op.steps_of_ends h he) h rfl
    fun _ _ _ hp hc => (hc.openIntents_eq ho).trans hp

-- A row that is there stays, whatever is called.
theorem Op.ends_row {τ : Type} [TrafficAdapter τ] {op : Op} {g g' : Gate τ} {row : GateRow}
    (h : g.db.Inv) (hr : g.db.row = some row) (he : g' ∈ op.ends g) :
    ∃ row', g'.db.row = some row' :=
  have ⟨row', hr', _⟩ := Steps.same (Op.steps_of_ends h he) h hr
  ⟨row', hr'⟩

end Gate

namespace Coordinator

variable [Sha256] {π : Type} {p : Plan} {n : Int} {c : Call} {op : Op} {a : Activation}
variable {g₀ g g' : Gate DeterministicTrafficAdapter} {s s' : Store} {target : State}
variable {w₀ w w' : World DeterministicTrafficAdapter π}

-- The route of a predecessor.
def predecessorRoute (p : PredecessorSnapshot) : RouteState where
  generation := some p.generation
  fence      := predecessorFence p.generation
  snapshot   := p.asdict

-- The state of a plan tells the route.
structure Honest (p : Plan) (s : State) (g : Gate DeterministicTrafficAdapter) : Prop where
  failedSafe : s = .failedSafe → g.traffic.route.isClosed
  rolledBack : s = .rolledBack → g.traffic.route = predecessorRoute p.predecessor
  effective  : s = .effective →
    g.traffic.route.generation = some (p.predecessor.generation + 1) ∧
      ∃ intent ∈ g.db.openIntents, intent.fence = some g.traffic.route.fence

omit [Sha256] in
theorem Honest.of_live (h : target.live) : Honest p target g := by
  constructor
  all_goals
    rintro rfl
    simp [State.live] at h

omit [Sha256] in
theorem Honest.congr {s : State} (h : Honest p s g) (hd : g'.db = g.db)
    (hr : g'.traffic.route = g.traffic.route) : Honest p s g' := by
  constructor
  · simpa only [hr] using h.failedSafe
  · simpa only [hr] using h.rolledBack
  · simpa only [hr, hd] using h.effective

-- What is known of the gate next to the tables: it was staged for the plan, and no open was
-- announced before the plan had taken its generation.
structure Known (p : Plan) (s : Store) (g : Gate DeterministicTrafficAdapter) : Prop
    extends Gate.Good g where
  predecessor : g.db.For p.predecessor.asdict
  later       : g.db.openIntents ≠ [] → p.predecessor.generation < s.generation

theorem Known.congr (h : Known p s g) (hd : g'.db = g.db)
    (hr : g'.traffic.route = g.traffic.route) : Known p s g' :=
  ⟨h.toGood.congr hd hr, hd ▸ h.predecessor, by simpa only [hd] using h.later⟩

theorem Known.grow (h : Known p s g) (hs : s.generation ≤ s'.generation) : Known p s' g :=
  ⟨h.toGood, h.predecessor, fun hne => lt_of_lt_of_le (h.later hne) hs⟩

theorem Known.columns {row : GateRow} (h : Known p s g) (hr : g.db.row = some row) :
    row.predecessor = p.predecessor.asdict ∧
      row.predecessorGeneration = p.predecessor.generation ∧
      row.candidateGeneration = p.predecessor.generation + 1 := by
  have ⟨hp, hn⟩ := h.predecessor row hr
  have hn : p.predecessor.generation = row.predecessorGeneration := Except.ok.inj hn
  exact ⟨hp, hn.symm, by rw [(h.toInv.row row hr).generation, hn]⟩

theorem Known.predecessorRoute {row : GateRow} {r : RouteState} (h : Known p s g)
    (hr : g.db.row = some row) (hp : Gate.isPredecessor row r) :
    r = predecessorRoute p.predecessor := by
  obtain ⟨hpre, hn, _⟩ := h.columns hr
  simp only [Gate.isPredecessor, Bool.and_eq_true, decide_eq_true_eq, hpre, hn] at hp
  obtain ⟨⟨hg, hf⟩, hs⟩ := hp
  cases r
  subst hg hf hs
  rfl

-- The candidate's route stands under the fence of the open.
theorem Known.effective {row : GateRow} (h : Known p s g) (hr : g.db.row = some row)
    (hg : g.traffic.route.generation = some (p.predecessor.generation + 1)) :
    Honest p .effective g := by
  refine ⟨by simp, by simp, fun _ => ⟨hg, h.route row hr ?_⟩⟩
  rw [(h.columns hr).right.right, hg]

-- All that is known of the tables and the gate in a run of one plan.
structure Exposed (p : Plan) (w : World DeterministicTrafficAdapter π) : Prop where
  inv    : w.store.Inv
  plan   : ∀ a, w.store.activation p.planId = some a → a.plan = p
  gate   : ∀ g, w.traffic = .exposure g → Known p w.store g
  honest : ∀ a g, w.store.activation p.planId = some a → w.traffic = .exposure g →
    Honest p a.state g

-- Operations on one plan, of which `recover` meets a failed host only where the gate fails too.
def Careful (p : Plan) (c : Call) (op : Op) (w : World DeterministicTrafficAdapter π) : Prop :=
  Only p c op w ∧ ∀ g row, op = .recover p.planId → HostFailed w p.planId →
    w.traffic = .exposure g → g.db.row = some row → g.Failing row

-- Between two operations the process may be started again and the adapter may get other faults,
-- but the database and the route stay.
inductive Still : Traffic DeterministicTrafficAdapter π → Traffic DeterministicTrafficAdapter π → Prop
  | exposure {g g' : Gate DeterministicTrafficAdapter} : g'.db = g.db → g'.traffic.route = g.traffic.route →
      Still (.exposure g) (.exposure g')

theorem Returned.mem {o : Gate.Op} {α : Type} {m : Gate.M DeterministicTrafficAdapter α} {r : α}
    (hr : Gate.Returned m r g g') (ho : o.run = void m) : g' ∈ o.ends g := by
  rw [Gate.Op.ends, ho, ends_void, ← hr.right]
  exact List.mem_append_right _ (List.mem_singleton.mpr rfl)

-- Whatever lets an operation end the activation in a state lets the route be as the state says.
theorem Cause.honest (hc : Cause op w₀ w target) (h₀ : Exposed p w₀) (h : Exposed p w)
    (hmay : Careful p c op w₀) (hg : w.traffic = .exposure g) : Honest p target g := by
  have hid := hmay.left.left
  cases hc
  case other ht =>
    rcases ht with ⟨hl, _⟩ | he
    · exact .of_live hl
    · exact ⟨by simp [he], by simp [he], by simp [he]⟩
  case plain ht _ => simp [hg] at ht
  case opened a n proof fence g₀ g₁ ha hgen hn hg₀ hg₁ hr =>
    have he : g₁ = g := Traffic.exposure.inj (hg₁.symm.trans hg)
    subst he
    have hk := h₀.gate g₀ hg₀
    have hp := h₀.plan a (hid ▸ ha)
    have hempty : g₀.db.openIntents = [] := by
      by_contra hne
      have := hk.later hne
      rw [hp] at hgen
      omega
    obtain ⟨row, hrow⟩ : ∃ row, g₀.db.row = some row := Gate.row_of_returned hr
    have hm : g₁ ∈ (Gate.Op.open n proof).ends g₀ := Returned.mem hr rfl
    obtain ⟨row', hrow'⟩ := Gate.Op.ends_row hk.toInv hrow hm
    refine (h.gate g₁ hg).effective hrow' ?_
    rw [Gate.open_returned hk.toGood hempty hr, hn, hp]
  case reopened g₀ g₁ hg₀ hg₁ hr =>
    have he : g₁ = g := Traffic.exposure.inj (hg₁.symm.trans hg)
    subst he
    have hk := h₀.gate g₀ hg₀
    obtain ⟨row, hrow, _, _, hroute⟩ := Gate.reconcile_returned hk.toGood hr
    obtain ⟨row', hrow'⟩ := Gate.Op.ends_row hk.toInv hrow (Gate.mem_of_reconcile hr)
    refine (h.gate g₁ hg).effective hrow' ?_
    rw [hroute rfl, (hk.columns hrow).right.right]
  case rolledBack n outcome g₀ g₁ hg₀ hg₁ hr ht =>
    have he : g₁ = g := Traffic.exposure.inj (hg₁.symm.trans hg)
    subst he
    obtain ⟨hf, hb⟩ := Gate.rollback_returned hr
    have hroute (hc : outcome.target = .rolledBack) :
        g₁.traffic.route = predecessorRoute p.predecessor := by
      obtain ⟨row, hrow, hp⟩ := hb hc
      exact (h₀.gate g₀ hg₀).predecessorRoute hrow hp
    cases outcome
    case failedSafe                  => exact ⟨fun _ => hf rfl, by simp [ht, rollbackTarget], by simp [ht, rollbackTarget]⟩
    case safetyUnknown               => exact ⟨by simp [ht, rollbackTarget], by simp [ht, rollbackTarget], by simp [ht, rollbackTarget]⟩
    case restoredStrong | behavioral =>
      exact ⟨by simp [ht, rollbackTarget], fun _ => hroute rfl, by simp [ht, rollbackTarget]⟩
  case failClosed g₁ hg₁ hr hc =>
    have he : g₁ = g := Traffic.exposure.inj (hg₁.symm.trans hg)
    subst he
    exact ⟨fun _ => Gate.failClose_returned hr hc, by simp, by simp⟩
  case reconciled g₀ g₁ hg₀ hg₁ hr ht =>
    have he : g₁ = g := Traffic.exposure.inj (hg₁.symm.trans hg)
    subst he
    have hk := h₀.gate g₀ hg₀
    obtain ⟨row, hrow, hf, hb, _⟩ := Gate.reconcile_returned hk.toGood hr
    rcases ht with ⟨hs, ht⟩ | ⟨hs, ht⟩
    · exact ⟨fun _ => hf hs, by simp [ht], by simp [ht]⟩
    · exact ⟨by simp [ht], fun _ => hk.predecessorRoute hrow (hb hs), by simp [ht]⟩
  case hostFailed planId state g₀ g₁ hop hhost hg₀ hg₁ hr hs =>
    have he : g₁ = g := Traffic.exposure.inj (hg₁.symm.trans hg)
    subst he
    have hk := h₀.gate g₀ hg₀
    have hplan : planId = p.planId := by rw [← hid, hop]; rfl
    subst hplan
    obtain ⟨row, hrow, hf, _⟩ := Gate.reconcile_returned hk.toGood hr
    have hfail := hmay.right g₀ row hop hhost hg₀ hrow
    have hst := (Gate.reconcile_failing hk.toInv hrow hfail hr).resolve_right hs
    exact ⟨fun _ => hf hst, by simp, by simp⟩

-- No transaction takes the generation back.
theorem Commit.generation_le (hc : Commit c op w₀ w s) : w.store.generation ≤ s.generation := by
  cases hc.effect
  case insert hs _ _ =>
    have ⟨_, he⟩ := Store.insert_ok_iff.mp hs
    rw [he]
    exact le_rfl
  case delete he => rw [he]; exact le_rfl
  case change hc _ =>
    rcases hc.generation with ⟨_, hg⟩ | ⟨_, _, _, _, _, _, hg⟩
    · exact hg.ge
    · omega

theorem Exposed.commit (h₀ : Exposed p w₀) (h : Exposed p w) (hmay : Careful p c op w₀)
    (hc : Commit c op w₀ w s) : Exposed p (w.setStore s) where
  inv    := hc.inv h.inv h₀.inv
  plan   := hc.plan_eq h.plan h₀.plan h₀.inv hmay.left
  gate   := fun g hg => (h.gate g hg).grow hc.generation_le
  honest := by
    intro a' g ha' hg
    replace hg : w.traffic = .exposure g := hg
    replace ha' : s.activation p.planId = some a' := ha'
    have hid := hmay.left.left
    rw [← hid] at ha'
    have hsame {a} (ha : w.store.activation op.planId = some a) : Honest p a.state g :=
      h.honest a g (hid ▸ ha) hg
    cases hc
    case insert plan hop _ _ hs =>
      obtain ⟨_, he⟩ := Store.insert_ok_iff.mp hs
      subst hop he
      have he : Activation.mk plan .planned none = a' := by
        simpa [Store.log, Store.setActivation, Op.planId] using ha'
      exact he ▸ .of_live rfl
    case delete hop _ _ _ _ _ =>
      subst hop
      simp [Store.delete, Store.setActivation, Op.planId] at ha'
    case note  => exact hsame ha'
    case shift ha _ _ hcause _ =>
      have he := Option.some.inj (Store.activation_shift.symm.trans ha')
      exact he ▸ hcause.honest h₀ h hmay hg
    case launch | launched =>
      have he := Option.some.inj (Store.activation_shift.symm.trans ha')
      exact he ▸ .of_live rfl
    case evidence hs =>
      obtain ⟨_, he⟩ := Store.insertEvidence_ok_iff.mp hs
      subst he
      exact hsame ha'
    case refresh hs =>
      obtain ⟨_, he⟩ := Store.setInventory_ok_iff.mp hs
      subst he
      exact hsame ha'
    case wal a hop _ _ _ _ _ _ he =>
      subst hop he
      have he : { a with state := .commitReady } = a' := by
        simpa [Store.shift, Store.setActivation, Op.planId] using ha'
      exact he ▸ .of_live rfl

-- What one step of an operation keeps.
theorem Exposed.step (h₀ : Exposed p w₀) (h : Exposed p w) (hmay : Careful p c op w₀)
    (hs : Step c op w₀ w w') : Exposed p w' := by
  cases hs
  case fault     => exact ⟨h.inv, h.plan, h.gate, h.honest⟩
  case plain     => exact ⟨h.inv, h.plan, by simp, by simp⟩
  case commit hc => exact h₀.commit h hmay hc
  case gate g o g' hg hcall he =>
    have hk := h.gate g hg
    have hid := hmay.left.left
    refine ⟨h.inv, h.plan, fun g₁ hg₁ => ?_, fun a g₁ ha _ => .of_live (hcall.live (hid ▸ ha))⟩
    have he' : g' = g₁ := by simpa using hg₁
    subst he'
    refine ⟨Gate.Op.ends_good hk.toGood hcall.strict he,
      Gate.Op.ends_for hk.toInv hk.predecessor (hcall.for hmay.left) he, fun hne => ?_⟩
    by_cases ho : ∃ n proof, o = .open n proof
    case pos =>
      have ⟨n, proof, ho⟩ := ho
      subst ho
      cases hcall
      case «open» a ha _ hlt => exact h.plan a (hid ▸ ha) ▸ hlt
    case neg =>
      rw [Gate.Op.ends_openIntents hk.toInv (fun n proof he => ho ⟨n, proof, he⟩) he] at hne
      exact hk.later hne

variable [TrafficGate π]

end Coordinator

namespace Coordinator.Sample

-- A call whose host cannot roll back.
def failing : Call :=
  { call with hostRollback := fun _ => .error (.runtime "deterministic rollback failure") }

-- The rollback dies once the gate has failed closed.
def failClosed : W :=
  (Op.rollback planId "drill").diesAt 6 failing (prepared [])

end Coordinator.Sample
