import ExtManager.Coordinator.Runs
import ExtManager.Gate.Settled

open Crash Prog Relation

-- The row, if there is one, was staged over this predecessor.
def GateDb.For (predecessor : Json) (db : GateDb) : Prop :=
  ∀ row, db.row = some row → row.predecessor = predecessor ∧
    generationOf predecessor = .ok row.predecessorGeneration

namespace Gate

variable [Sha256] {τ : Type} [TrafficAdapter τ] {op : Op} {g₀ g g' : Gate τ} {db : GateDb}
variable {predecessor : Json}

-- The operation stages no candidate over another predecessor.
def Op.For (predecessor : Json) : Op → Prop
  | .stage _ predecessor' => predecessor' = predecessor
  | _                     => True

theorem Commit.for (hc : Commit op g₀ g db) (ho : op.For predecessor)
    (h : g.db.For predecessor) : db.For predecessor := by
  intro row' hr'
  cases hr : g.db.row
  case some row =>
    have ⟨row'', hr'', same, _⟩ := hc.grows hr
    have he : row'' = row' := Option.some.inj (hr''.symm.trans hr')
    subst he
    rw [same.predecessor, same.predecessorGeneration]
    exact h row hr
  case none =>
    have ⟨_, hop, hg⟩ := hc.staged_op hr hr'
    subst hop
    exact ⟨ho, ho ▸ hg⟩

theorem Op.ends_for (h : g.db.Inv) (hf : g.db.For predecessor) (ho : op.For predecessor)
    (he : g' ∈ op.ends g) : g'.db.For predecessor :=
  Steps.db_invariant (Op.steps_of_ends h he) h hf fun _ _ _ hf hc => hc.for ho hf

end Gate

namespace Coordinator

variable [Sha256] {τ π : Type} [TrafficAdapter τ] [TrafficGate π] {c : Call} {op : Op} {p : Plan}
variable {w₀ w w' : World τ π} {s : Store} {n : Int}
variable {may : Call → Op → World τ π → Prop} {env : Traffic τ π → Traffic τ π → Prop}

-- Operations on one plan.
def Only (p : Plan) (_ : Call) (op : Op) (_ : World τ π) : Prop :=
  op.planId = p.planId ∧ ∀ q, op = .plan q → q = p

-- Empty tables, and a gate over a database that has just been created.
def Created (n : Int) (w : World τ π) : Prop :=
  Initial n w ∧ ∀ g, w.traffic = .exposure g → g.Initial

omit [TrafficAdapter τ] [TrafficGate π] in
theorem GateCall.for {o : Gate.Op} (hc : GateCall op w o) (ho : Only p c op w₀) :
    o.For p.predecessor.asdict := by
  cases hc
  case stage hop _ => rw [ho.right _ hop]; rfl
  all_goals trivial

omit [TrafficAdapter τ] [TrafficGate π] in
theorem GateCall.strict {o : Gate.Op} (hc : GateCall op w o) : o.Strict := by
  cases hc
  case rollback => exact rfl
  all_goals trivial

omit [TrafficAdapter τ] [TrafficGate π] in
-- The gate is called for a plan that is on its way only.
theorem GateCall.live {o : Gate.Op} {a : Activation} (hc : GateCall op w o)
    (ha : w.store.activation op.planId = some a) : a.state.live := by
  have he {a'} (ha' : w.store.activation op.planId = some a') : a' = a :=
    Option.some.inj (ha'.symm.trans ha)
  cases hc
  case stage hop ha' =>
    subst hop
    rw [← he ha']
    rfl
  all_goals exact he ‹w.store.activation op.planId = some _› ▸ ‹_›

omit [TrafficGate π] in
-- What every call of the gate keeps holds of the gate throughout an operation.
theorem Steps.gate_invariant {I : Gate τ → Prop} (hs : Steps c op w₀ w)
    (h : ∀ g, w₀.traffic = .exposure g → I g)
    (hc : ∀ (w : World τ π) o g g', GateCall op w o → I g → g' ∈ o.ends g → I g') :
    ∀ g, w.traffic = .exposure g → I g := by
  induction hs
  case refl => exact h
  case tail hn ih =>
    intro g hg
    cases hn
    case fault            => exact ih g hg
    case commit           => exact ih g hg
    case plain            => simp at hg
    case gate g₁ _ g₂ hg₁ hcall he =>
      have he' : g₂ = g := by simpa using hg
      exact he' ▸ hc _ _ g₁ g₂ hcall (ih g₁ hg₁) he

-- What every call of the gate and its environment keep holds of the gate in every run.
theorem run_gate_invariant {I : Gate τ → Prop} (h : Reachable (Created n) (Next may env) w)
    (hi : ∀ g, g.Initial → I g)
    (hc : ∀ (c : Call) (op : Op) (w₀ w : World τ π) o g g', may c op w₀ → GateCall op w o → I g →
      g' ∈ o.ends g → I g')
    (he : ∀ t g', env t (.exposure g') → ∃ g, t = .exposure g ∧ (I g → I g')) :
    ∀ g, w.traffic = .exposure g → I g := by
  refine h.invariant (I := fun w => ∀ g, w.traffic = .exposure g → I g) (fun w h g hg => ?_)
    fun w w' _ ih hn => ?_
  · exact hi g (h.right g hg)
  · cases hn
    case op c op hmay hend =>
      exact Steps.gate_invariant (Op.steps_of_ends hend) ih fun w' o g g' => hc c op w w' o g g' hmay
    case boot   => exact ih
    case faults => exact ih
    case env t henv =>
      intro g' hg'
      have ht : t = .exposure g' := hg'
      have ⟨g, hg, hk⟩ := he _ g' (ht ▸ henv)
      exact hk (ih g hg)

omit [TrafficGate π] in
theorem Commit.plan_eq (hc : Commit c op w₀ w s)
    (h : ∀ a, w.store.activation p.planId = some a → a.plan = p)
    (h₀ : ∀ a, w₀.store.activation p.planId = some a → a.plan = p) (hinv : w₀.store.Inv)
    (hmay : Only p c op w₀) : ∀ a, s.activation p.planId = some a → a.plan = p := by
  intro a ha
  cases hc.effect
  case insert hop hs _ _ =>
    obtain ⟨_, he⟩ := Store.insert_ok_iff.mp hs
    have hp := hmay.right _ hop
    subst hp he
    simp only [Store.log, Store.setActivation, if_true, Option.some.injEq] at ha
    rw [← ha]
  case change hc _ =>
    obtain ⟨a₀, ha₀, hp⟩ := hc.activation ha
    exact hp.trans (h a₀ ha₀)
  case delete hs he =>
    rw [he, Store.delete_insert hinv hs] at ha
    exact h₀ a ha

-- The activation of a plan that is planned alone is that of the plan.
theorem run_plan (h : Reachable (Created n) (Next (Only p) env) w) :
    w.store.Inv ∧ ∀ a, w.store.activation p.planId = some a → a.plan = p := by
  let I (s : Store) := s.Inv ∧ ∀ a, s.activation p.planId = some a → a.plan = p
  refine h.invariant (I := fun w => I w.store) (fun w h => ⟨h.left.inv, ?_⟩) fun w w' _ ih hn => ?_
  · have hs := h.left
    rw [Initial] at hs
    simp [hs, Store.new]
  · cases hn
    case op c op hmay he =>
      have hs := Op.steps_of_ends he
      clear he
      induction hs
      case refl => exact ih
      case tail hn hi =>
        rcases hn.store_cases with he | hc
        · exact he ▸ hi
        · exact ⟨hc.inv hi.left ih.left, hc.plan_eq hi.right ih.right ih.left hmay⟩
    case boot   => exact ⟨⟨ih.left.journal, ih.left.planId, ih.left.complete⟩, ih.right⟩
    case faults => exact ih
    case env    => exact ih

end Coordinator
