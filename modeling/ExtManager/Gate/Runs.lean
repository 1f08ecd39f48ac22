import ExtManager.Codec.Fallible
import ExtManager.Gate.Invariant

open Crash Prog Relation

namespace Gate

variable [Sha256] {τ : Type} [TrafficAdapter τ]

-- A gate over a database that has just been created.
def Initial (g : Gate τ) : Prop :=
  g.db = ⟨none, [], [], []⟩

-- What happens to a gate: an operation ends or dies somewhere on its way, the process is started
-- again with other fault points, another clock and another authority, and between two operations
-- the environment changes the adapter as `env` lets it. An operation is called only where `may` holds.
inductive Next (may : Op → Gate τ → Prop) (env : τ → τ → Prop) : Gate τ → Gate τ → Prop
  | op {g g'} (op : Op) : may op g → g' ∈ op.ends g → Next may env g g'
  | restart {g faults clock ticks authority} : Next may env g
      { g with faults := faults, clock := clock, ticks := ticks, authority := authority }
  | env {g t} : env g.traffic t → Next may env g (g.setTraffic t)

-- Every operation may be called everywhere.
abbrev Always : Op → Gate τ → Prop :=
  fun _ _ => True

-- The environment may do anything to the adapter.
abbrev Anything : τ → τ → Prop :=
  fun _ _ => True

variable {init : Gate τ → Prop} {may : Op → Gate τ → Prop} {env : τ → τ → Prop} {g g' : Gate τ}

omit [TrafficAdapter τ] in
theorem Initial.inv (h : g.Initial) : g.db.Inv := by
  rw [Initial] at h
  rw [h]
  exact ⟨by simp, fun _ => rfl, by simp⟩

theorem Next.inv (hn : Next may env g g') (h : g.db.Inv) : g'.db.Inv := by
  cases hn
  case op _ he => exact Op.ends_inv h he
  case restart => exact h
  case env     => exact h

theorem reachable_inv (h : Reachable init (Next may env) g) (hi : ∀ g, init g → g.Initial) :
    g.db.Inv :=
  h.invariant (fun g h => (hi g h).inv) fun _ _ _ hi hn => hn.inv hi

-- What every transaction keeps holds of the database in every run.
theorem run_db_invariant {P : GateDb → Prop} (hr : ReflTransGen (Next may env) g g')
    (h : g.db.Inv) (hp : P g.db)
    (hc : ∀ op (g₀ g : Gate τ) db, g.db.Inv → P g.db → Commit op g₀ g db → P db) :
    g'.db.Inv ∧ P g'.db := by
  induction hr
  case refl => exact ⟨h, hp⟩
  case tail hn ih =>
    refine ⟨hn.inv ih.left, ?_⟩
    cases hn
    case op he =>
      exact Steps.db_invariant (Op.steps_of_ends ih.left he) ih.left ih.right (hc _ _)
    case restart => exact ih.right
    case env     => exact ih.right

-- The gate after an operation that nothing interrupts.
def Op.after (op : Op) (g : Gate τ) : Gate τ :=
  (op.run g.start).state

theorem Op.after_mem {op : Op} : op.after g ∈ op.ends g :=
  List.mem_append_right _ (List.mem_singleton.mpr rfl)

section Evaluated

omit [Sha256]

-- Values that are found by evaluation.
theorem returned_of_toOption {α : Type} {m : M DeterministicTrafficAdapter α} {a : α}
    {g : Gate DeterministicTrafficAdapter} (h : (m g.start).value.toOption = some a) :
    Returned m a g (m g.start).state :=
  ⟨Fallible.ok_of_toOption h, rfl⟩

end Evaluated

end Gate

-- A small gate to run: generation 1 is replaced by `plan-2`.
namespace Gate.Sample

def predecessor : Json :=
  .obj [("generation", .int 1)]

def candidate : Json :=
  .str "plan-2"

def grant : LeaseGrant where
  holder       := "manager"
  fencingToken := 7
  expiresAt    := 1000

def proof : OpenProof where
  planId          := "plan-2"
  generation      := 2
  evidenceCount   := 1
  evidenceDigest  := "sha256:edecec53ab11f560816e75a17681eb83886beace01d7fb927d99707d3d031aac"
  coverageDigest  := "sha256:a9abdf9d65aca89473fb6fdca2f409294aa91ffc15d09af512de64d0f884ab9e"
  lease           := grant
  candidateDigest := "sha256:bdf4de17e439b82fb50dd5400aec8fa098b0fe26ab070dc1b82db038473cf328"

-- The digests of the values above. Their two encodings are the same text.
def digests : List (Json × String) :=
  [(predecessor, "fa02354bd70e0b908b245c66be4bbc6626f0e5c7dae4b4953d802d0b647b1ffb"),
    (candidate, "bdf4de17e439b82fb50dd5400aec8fa098b0fe26ab070dc1b82db038473cf328"),
    (.obj proof.fields, "3e799df11fb20c2caa12e241fe455d55a8ec83729eb4a35321a622e1b11f42db")]

scoped instance : Sha256 where
  canonical value := (digests.lookup value).getD ""
  ascii value     := (digests.lookup value).getD ""

def adapter : DeterministicTrafficAdapter where
  route             := ⟨some 1, "fence-1", predecessor⟩
  authority         := grant
  faults            := []
  behavioralRestore := false
  rollbackFails     := false

-- A gate over a new database. Its process is killed at the points in `faults`.
def new {τ : Type} (traffic : τ) (faults : List String) : Gate τ where
  db        := ⟨none, [], [], []⟩
  traffic   := traffic
  authority := none
  faults    := faults
  clock     := fun _ => 100
  ticks     := 0
  reads     := []

def created : Gate DeterministicTrafficAdapter :=
  new adapter []

def staged : Gate DeterministicTrafficAdapter :=
  (Op.stage candidate predecessor).after created

def closed : Gate DeterministicTrafficAdapter :=
  (Op.close 2).after staged

def opened : Gate DeterministicTrafficAdapter :=
  (Op.open 2 proof).after closed

theorem initial_created : created.Initial :=
  rfl

-- The process dies before the route of the candidate is opened.
def interrupted {τ : Type} [TrafficAdapter τ] (traffic : τ) : Gate τ :=
  (Op.open 2 proof).after <| (Op.close 2).after <| (Op.stage candidate predecessor).after <|
    new traffic ["open.after_intent"]

theorem reachable_interrupted {τ : Type} [TrafficAdapter τ] {traffic : τ}
    {may : Op → Gate τ → Prop} {env : τ → τ → Prop} (h : ∀ op g, op ≠ .reconcile → may op g) :
    Reachable Initial (Next may env) (interrupted traffic) :=
  have hi : (new traffic ["open.after_intent"]).Initial := rfl
  .step (.step (.step (.init hi) (.op _ (h _ _ (by simp)) Op.after_mem))
    (.op _ (h _ _ (by simp)) Op.after_mem)) (.op _ (h _ _ (by simp)) Op.after_mem)

variable {env : DeterministicTrafficAdapter → DeterministicTrafficAdapter → Prop}

theorem reachable_staged : Reachable Initial (Next Always env) staged :=
  .step (.init initial_created) (.op _ trivial Op.after_mem)

theorem reachable_closed : Reachable Initial (Next Always env) closed :=
  .step reachable_staged (.op _ trivial Op.after_mem)

theorem reachable_opened : Reachable Initial (Next Always env) opened :=
  .step reachable_closed (.op _ trivial Op.after_mem)

end Gate.Sample
