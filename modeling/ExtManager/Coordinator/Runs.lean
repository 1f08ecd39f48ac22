import ExtManager.Coordinator.Refinement

open Crash Prog Relation

namespace Store

variable {s s' : Store} {planId : String} {plan : Plan}

-- What holds of the tables whatever happens: every journal row is about an activation, and every
-- activation is of a plan that has something to prove.
structure Inv [Sha256] (s : Store) : Prop where
  journal    : ∀ r ∈ s.journal, (s.activation r.planId).isSome
  planId     : ∀ id a, s.activation id = some a → a.plan.planId = id
  complete   : ∀ id a, s.activation id = some a → a.plan.obligations ≠ [] ∧
    ∀ o ∈ a.plan.obligations, o.requiredOrdinals ≠ []

variable [Sha256]

theorem insert_ok_iff : s.insert plan = .ok s' ↔ s.activation plan.planId = none ∧
    s' = (s.setActivation plan.planId (some ⟨plan, .planned, none⟩)).log plan.planId .transition
      "plan" (.obj [("state", .str "Planned")]) := by
  unfold insert
  cases s.activation plan.planId
  case none   => simp [eq_comm]
  case some a => simp

-- The deletes of `plan` undo its inserts.
theorem delete_insert (h : s.Inv) (hs : s.insert plan = .ok s') : s'.delete plan.planId = s := by
  have ⟨hn, he⟩ := insert_ok_iff.mp hs
  subst he
  have hj : s.journal.filter (·.planId ≠ plan.planId) = s.journal := by
    refine List.filter_eq_self.mpr fun r hr => ?_
    have := h.journal r hr
    simp only [ne_eq, decide_not, Bool.not_eq_true', decide_eq_false_iff_not]
    intro he
    simp [he, hn] at this
  have ha : (fun id => if id = plan.planId then none else
      if id = plan.planId then some (Activation.mk plan .planned none) else s.activation id) =
      s.activation := by
    refine funext fun id => ?_
    by_cases he : id = plan.planId <;> simp [he, hn]
  simp only [delete, setActivation, log, ha, List.filter_cons, ne_eq, not_true_eq_false,
    decide_false, Bool.false_eq_true, if_false]
  exact congrArg (fun j => { s with journal := j }) hj

-- The tables change by rows about a plan and a new activation of the same plan, and the generation
-- only with the row of a commit.
structure Changed (planId : String) (a b : Activation) (rows : List JournalRow) (s s' : Store) :
    Prop where
  before     : s.activation planId = some a
  after      : s'.activation = fun id => if id = planId then some b else s.activation id
  plan       : b.plan = a.plan
  about      : ∀ r ∈ rows, r.planId = planId
  journal    : s'.journal = rows ++ s.journal
  generation : (∀ r ∈ rows, r.isCommit = false) ∧ s'.generation = s.generation ∨
    ∃ r r', rows = [r, r'] ∧ r.isCommit ∧ r'.isCommit = false ∧
      a.plan.predecessor.generation = s.generation ∧ s'.generation = s.generation + 1

section

variable {a b : Activation} {rows : List JournalRow}

omit [Sha256] in
theorem activation_self (ha : s.activation planId = some a) :
    s.activation = fun id => if id = planId then some a else s.activation id := by
  refine funext fun id => ?_
  by_cases he : id = planId <;> simp [he, ha]

omit [Sha256] in
-- What the new activation of a plan was before.
theorem Changed.activation (h : Changed planId a b rows s s') {id : String} {a' : Activation}
    (ha' : s'.activation id = some a') :
    ∃ a₀, s.activation id = some a₀ ∧ a'.plan = a₀.plan := by
  rw [h.after] at ha'
  by_cases he : id = planId
  case pos =>
    simp only [he, if_true, Option.some.injEq] at ha'
    exact ⟨a, he ▸ h.before, ha' ▸ h.plan⟩
  case neg => exact ⟨a', by simpa [he] using ha', rfl⟩

omit [Sha256] in
theorem Changed.isSome (h : Changed planId a b rows s s') {id : String}
    (hs : (s.activation id).isSome) : (s'.activation id).isSome := by
  rw [h.after]
  by_cases he : id = planId <;> simp [he, hs]

theorem Changed.inv (hc : Changed planId a b rows s s') (h : s.Inv) : s'.Inv where
  journal := by
    intro r hm
    rw [hc.journal, List.mem_append] at hm
    rcases hm with hm | hm
    · simp [hc.after, hc.about r hm]
    · exact hc.isSome (h.journal r hm)
  planId := by
    intro id a' ha'
    have ⟨a₀, ha₀, hp⟩ := hc.activation ha'
    exact hp ▸ h.planId id a₀ ha₀
  complete := by
    intro id a' ha'
    have ⟨a₀, ha₀, hp⟩ := hc.activation ha'
    exact hp ▸ h.complete id a₀ ha₀

end

omit [Sha256] in
theorem setInventory_ok_iff {processes : List ProcessIdentity} :
    s.setInventory planId processes = .ok s' ↔ (processes.map processKey).Nodup ∧
      s' = { s with inventory := fun id => if id = planId then processes else s.inventory id } := by
  unfold setInventory
  split
  case isTrue h  => simp [h, eq_comm]
  case isFalse h => simp [h]

omit [Sha256] in
theorem insertEvidence_ok_iff {managerEpoch : Int} {item : Attestation} :
    s.insertEvidence planId managerEpoch item = .ok s' ↔
      (∀ e ∈ s.evidence, e.nonce ≠ item.nonce) ∧
      s' = { s with
        evidence := evidenceRow planId managerEpoch item :: s.evidence
        history  := .accepted planId managerEpoch item :: s.history }.log planId .evidence item.event
          item.asdict := by
  unfold insertEvidence
  split
  case isTrue h =>
    have ⟨e, hm, he⟩ := List.any_eq_true.mp h
    simp only [reduceCtorEq, false_iff, not_and]
    exact fun hn => absurd (of_decide_eq_true he) (hn e hm)
  case isFalse h =>
    have hn : ∀ e ∈ s.evidence, e.nonce ≠ item.nonce := by simpa using h
    rw [Except.ok.injEq, and_iff_right hn]
    exact eq_comm

end Store

namespace Coordinator

variable [Sha256] {τ π : Type} [TrafficAdapter τ] [TrafficGate π] {c : Call} {op : Op}
variable {w₀ w w' : World τ π} {s : Store}

-- What a transaction does to the activations, the journal and the generation.
inductive Effect (op : Op) (w₀ w : World τ π) (s : Store) : Prop
  | insert {plan} : op = .plan plan → w.store.insert plan = .ok s → plan.obligations ≠ [] →
      (∀ o ∈ plan.obligations, o.requiredOrdinals ≠ []) → Effect op w₀ w s
  | delete {plan} : w₀.store.insert plan = .ok w.store → s = w.store.delete plan.planId →
      Effect op w₀ w s
  | change {a b rows} : Store.Changed op.planId a b rows w.store s →
      (∀ r ∈ rows, r.isCommit = false) ∨ (∃ expected, op = .commit op.planId expected) →
      Effect op w₀ w s

omit [TrafficGate π] in
theorem Commit.effect (hc : Commit c op w₀ w s) : Effect op w₀ w s := by
  cases hc
  case insert hop hne ho hs    => exact .insert hop hs hne ho
  case delete hs _ _ _ _       => exact .delete hs rfl
  case note a operation detail ha _ =>
    have hk : ∀ r ∈ [JournalRow.mk op.planId .receipt operation detail], r.isCommit = false := by
      simp [JournalRow.isCommit]
    exact .change ⟨ha, Store.activation_self ha, rfl, by simp, rfl, .inl ⟨hk, rfl⟩⟩ (.inl hk)
  case shift rows _ ha _ hr _ _ =>
    have hk : ∀ r ∈ rows, r.isCommit = false := fun r hm => (hr.plain hm).right
    exact .change ⟨ha, rfl, rfl, fun r hm => (hr.plain hm).left, rfl, .inl ⟨hk, rfl⟩⟩ (.inl hk)
  case launch launchId ha _ =>
    have hk : ∀ r ∈ [JournalRow.mk op.planId .wal "launch" (.obj [("launch_id", .str launchId)]),
        .moved op.planId .prepared .launching], r.isCommit = false := by
      simp [JournalRow.isCommit, JournalRow.moved]
    exact .change ⟨ha, rfl, rfl, by simp [JournalRow.moved], rfl, .inl ⟨hk, rfl⟩⟩ (.inl hk)
  case launched inventory _ _ ha _ hi =>
    obtain ⟨_, he⟩ := Store.setInventory_ok_iff.mp hi
    subst he
    have hk : ∀ r ∈ [.moved op.planId .launching .observing, JournalRow.mk op.planId .receipt
        "launch" (.obj [("count", .int inventory.length)])], r.isCommit = false := by
      simp [JournalRow.isCommit, JournalRow.moved]
    exact .change ⟨ha, rfl, rfl, by simp [JournalRow.moved], rfl, .inl ⟨hk, rfl⟩⟩ (.inl hk)
  case evidence a item _ _ ha _ _ _ hs =>
    obtain ⟨_, he⟩ := Store.insertEvidence_ok_iff.mp hs
    subst he
    have hk : ∀ r ∈ [JournalRow.mk op.planId .evidence item.event item.asdict],
        r.isCommit = false := by
      simp [JournalRow.isCommit]
    exact .change ⟨ha, Store.activation_self ha, rfl, by simp, rfl, .inl ⟨hk, rfl⟩⟩ (.inl hk)
  case refresh a inventory s _ ha _ hi =>
    obtain ⟨_, he⟩ := Store.setInventory_ok_iff.mp hi
    subst he
    have hk : ∀ r ∈ [JournalRow.mk op.planId .inventory "refresh"
        (.obj [("processes", .arr (inventory.map (·.asdict)))])], r.isCommit = false := by
      simp [JournalRow.isCommit]
    exact .change ⟨ha, Store.activation_self ha, rfl, by simp, rfl, .inl ⟨hk, rfl⟩⟩ (.inl hk)
  case wal planId expected a ho _ ha _ _ hg hp he =>
    subst ho he
    refine .change (?_ : Store.Changed planId a { a with state := .commitReady }
      [⟨planId, .wal, "commit", .obj [("from", .int expected)]⟩,
        .moved planId a.state .commitReady] w.store _) (.inr ⟨expected, rfl⟩)
    exact ⟨ha, rfl, rfl, by simp [JournalRow.moved], rfl,
      .inr ⟨_, _, rfl, rfl, rfl, hp.trans hg.symm, rfl⟩⟩

omit [TrafficAdapter τ] [TrafficGate π] in
theorem insert_inv {plan : Plan} {s s' : Store} (h : s.Inv) (hs : s.insert plan = .ok s')
    (hne : plan.obligations ≠ []) (ho : ∀ o ∈ plan.obligations, o.requiredOrdinals ≠ []) :
    s'.Inv := by
  have ⟨_, he⟩ := Store.insert_ok_iff.mp hs
  have hact (id) : s'.activation id =
      if id = plan.planId then some ⟨plan, .planned, none⟩ else s.activation id := by
    rw [he]
    rfl
  refine ⟨fun r hm => ?_, fun id a ha => ?_, fun id a ha => ?_⟩
  · rw [hact]
    by_cases hid : r.planId = plan.planId
    case pos => simp [hid]
    case neg =>
      rw [he] at hm
      have hm := (List.mem_cons.mp hm).resolve_left fun he => hid (by rw [he])
      simp [hid, h.journal r hm]
  all_goals
    rw [hact] at ha
    by_cases hid : id = plan.planId
    case pos =>
      simp only [hid, if_true, Option.some.injEq] at ha
      subst ha
      first | exact hid.symm | exact ⟨hne, ho⟩
    case neg =>
      rw [if_neg hid] at ha
      first | exact h.planId id a ha | exact h.complete id a ha

omit [TrafficGate π] in
theorem Commit.inv (hc : Commit c op w₀ w s) (h : w.store.Inv) (h₀ : w₀.store.Inv) : s.Inv := by
  cases hc.effect
  case insert hs hne ho => exact insert_inv h hs hne ho
  case change hc _      => exact hc.inv h
  case delete hs he     =>
    rw [he, Store.delete_insert h₀ hs]
    exact h₀

omit [TrafficGate π] in
-- Only transactions touch the tables.
theorem Step.store_cases (hs : Step c op w₀ w w') :
    w'.store = w.store ∨ Commit c op w₀ w w'.store := by
  cases hs
  case commit hc => exact .inr hc
  all_goals exact .inl rfl

omit [TrafficGate π] in
-- What every transaction keeps holds of the tables throughout an operation. A transaction may also
-- take an operation back to where it started.
theorem Steps.store_invariant {I : Store → Prop} (hs : Steps c op w₀ w) (h : w₀.store.Inv)
    (hi : I w₀.store) (hc : ∀ w s, w.store.Inv → I w.store → Commit c op w₀ w s →
      s = w₀.store ∨ I s) : w.store.Inv ∧ I w.store := by
  induction hs
  case refl => exact ⟨h, hi⟩
  case tail hn ih =>
    rcases hn.store_cases with he | hco
    · exact he ▸ ih
    · refine ⟨hco.inv ih.left h, ?_⟩
      rcases hc _ _ ih.left ih.right hco with he | hi'
      · exact he ▸ hi
      · exact hi'

-- What happens to a store and its gate: an operation of some coordinator ends or dies somewhere on
-- its way, a new coordinator is started, another one takes over with its own fault points, and
-- between two operations the environment changes the traffic as `env` lets it. An operation is
-- called only where `may` holds.
inductive Next (may : Call → Op → World τ π → Prop) (env : Traffic τ π → Traffic τ π → Prop) :
    World τ π → World τ π → Prop
  | op {w w' : World τ π} (c : Call) (op : Op) : may c op w → w' ∈ op.ends c w → Next may env w w'
  | boot {w : World τ π} : Next may env w (w.setStore w.store.boot)
  | faults {w : World τ π} {faults} : Next may env w (w.setFaults faults)
  | env {w : World τ π} {t} : env w.traffic t → Next may env w (w.setTraffic t)

-- Every operation may be called everywhere.
abbrev Always : Call → Op → World τ π → Prop :=
  fun _ _ _ => True

-- Coordinators may have any traffic gates.
abbrev Anything : Traffic τ π → Traffic τ π → Prop :=
  fun _ _ => True

-- Empty tables at a generation.
def Initial (n : Int) (w : World τ π) : Prop :=
  w.store = { Store.new with generation := n }

variable {n : Int} {may : Call → Op → World τ π → Prop} {env : Traffic τ π → Traffic τ π → Prop}

omit [TrafficAdapter τ] [TrafficGate π] in
theorem Initial.inv (h : Initial n w) : w.store.Inv := by
  rw [Initial] at h
  rw [h]
  exact ⟨by simp [Store.new], by simp [Store.new], by simp [Store.new]⟩

-- What every transaction and every boot keeps holds of the tables in every run.
theorem run_store_invariant {I : Store → Prop} (h : Reachable (Initial n) (Next may env) w)
    (hi : I { Store.new with generation := n }) (hb : ∀ s, s.Inv → I s → I s.boot)
    (hc : ∀ (c : Call) (op : Op) (w₀ w : World τ π) s, may c op w₀ → w₀.store.Inv →
      w.store.Inv → I w.store → Commit c op w₀ w s → s = w₀.store ∨ I s) :
    w.store.Inv ∧ I w.store := by
  refine h.invariant (I := fun w => w.store.Inv ∧ I w.store) (fun w h => ⟨h.inv, ?_⟩)
    fun w w' _ ⟨hinv, hi⟩ hn => ?_
  · rw [Initial] at h
    exact h ▸ hi
  · cases hn
    case op c op hmay he =>
      exact Steps.store_invariant (Op.steps_of_ends he) hinv hi fun _ _ => hc c op w _ _ hmay hinv
    case boot   => exact ⟨⟨hinv.journal, hinv.planId, hinv.complete⟩, hb _ hinv hi⟩
    case faults => exact ⟨hinv, hi⟩
    case env    => exact ⟨hinv, hi⟩

theorem reachable_inv (h : Reachable (Initial n) (Next may env) w) : w.store.Inv :=
  (run_store_invariant (I := fun _ => True) h trivial (fun _ _ _ => trivial)
    fun _ _ _ _ _ _ _ _ _ _ => .inr trivial).left

-- The world after an operation that nothing interrupts.
def Op.after (op : Op) (c : Call) (w : World τ π) : World τ π :=
  (op.run c w).state

theorem Op.after_mem : op.after c w ∈ op.ends c w :=
  List.mem_append_right _ (List.mem_singleton.mpr rfl)

-- The world where the process dies before the durable step `k` of an operation.
def Op.diesAt (op : Op) (k : Nat) (c : Call) (w : World τ π) : World τ π :=
  ((op.ends c w)[k]?).getD (op.after c w)

theorem Op.diesAt_mem {k : Nat} : op.diesAt k c w ∈ op.ends c w := by
  unfold diesAt
  cases h : (op.ends c w)[k]?
  case none    => exact Op.after_mem
  case some w' => exact List.mem_of_getElem? h

end Coordinator

-- A small plan to run: one process has to load the plugin.
namespace Coordinator.Sample

def plugin : PluginIdentity where
  «namespace»    := "org.vllm-hust"
  name           := "demo"
  version        := "1"
  artifactSha256 := "aaaaaaaaaaaaaaaaaaaaaaaaaaaaaaaaaaaaaaaaaaaaaaaaaaaaaaaaaaaaaaaa"

def obligation : EvidenceObligation where
  obligationId     := "workers-loaded"
  role             := "worker"
  event            := "loaded"
  requiredOrdinals := [0]

def predecessor : PredecessorSnapshot where
  generation     := 0
  planId         := some "predecessor"
  renderedInputs := .obj [("route", .str "old")]

def plan : Plan where
  plugins     := [plugin]
  host        := ⟨"vllm", "0.28", "fake", "1"⟩
  claims      := []
  obligations := [obligation]
  predecessor := predecessor

-- A plan that was made for the same predecessor.
def rival : Plan :=
  { plan with fallbackProven := true }

def planId : String :=
  "plan:sha256:e0e3b23d5a6d4c67c028b70a2bcb81f49ec1585f2f45ec9a0a5fac67f5401bea"

-- A plan that was made to follow the first one.
def successor : Plan :=
  { plan with predecessor := ⟨1, some planId, .obj [("route", .str "new")]⟩ }

-- The digests of the values above. Their two encodings are the same text.
def digests : List (Json × String) :=
  [(plan.asdict, "e0e3b23d5a6d4c67c028b70a2bcb81f49ec1585f2f45ec9a0a5fac67f5401bea"),
    (plugin.asdict, "893e86ba882b0814f4385a2b1fe4f19b6dde4eae76eabd5aed60c56081fdbc04"),
    (predecessor.asdict, "fd5226a8950f41bf2525847f55ecaf37523ca6e0ac5df278af3ce81ce219591c"),
    (.str planId, "b9950220e53a78026f09bc861535a73c8e03bc005cc75c5b4043484270f43293"),
    (rival.asdict, "39352ebe9e55d6d29673d208a2584dee6d43ac2aaff887bd5e12e8f4c7c5670b"),
    (successor.asdict, "20ec8e3f32fc6931b362de34d8718f39d3601de078f4ab84cce016f76fa971ab")]

scoped instance : Sha256 where
  canonical value := (digests.lookup value).getD ""
  ascii value     := (digests.lookup value).getD ""

def process : ProcessIdentity where
  host    := "host-a"
  role    := "worker"
  ordinal := 0
  startId := "start-0"
  epoch   := 1

def attestation (nonce : String) : Attestation where
  planId       := planId
  launchId     := "launch-1"
  process      := process
  obligationId := obligation.obligationId
  event        := obligation.event
  nonce        := nonce
  issuedAt     := 100
  expiresAt    := 160
  artifactId   := "plugin:sha256:893e86ba882b0814f4385a2b1fe4f19b6dde4eae76eabd5aed60c56081fdbc04"

-- A call of a coordinator over the fake adapters.
def call : Call where
  managerEpoch := 1
  signed       := false
  now          := 100
  prepare      := fun plan => .ok [("plan_id", .str plan.planId), ("prepared", .bool true)]
  launch       := fun _ _ => .ok [process]
  hostRollback := fun p => .ok [("restored_generation", .int p.generation)]
  verify       := FakeEvidenceVerifier.verify
  leaseValid   := fun _ => true

abbrev W :=
  World DeterministicTrafficAdapter FakeTrafficGate

def new (traffic : Traffic DeterministicTrafficAdapter FakeTrafficGate) (faults : List String) :
    W where
  store   := Store.new.boot
  traffic := traffic
  faults  := faults

def grant : LeaseGrant where
  holder       := "manager"
  fencingToken := 7
  expiresAt    := 1000

-- An exposure gate over the predecessor's route.
def gate : Gate DeterministicTrafficAdapter where
  db        := ⟨none, [], [], []⟩
  traffic   := ⟨⟨some 0, "fence-0", predecessor.asdict⟩, grant, [], false, false⟩
  authority := none
  faults    := []
  clock     := fun _ => 100
  ticks     := 0
  reads     := []

-- The plan is prepared, with an exposure gate.
def prepared (faults : List String) : W :=
  (Op.prepare planId).after call <| (Op.plan plan).after call <| new (.exposure gate) faults

-- The plan is launched, with a gate that is no exposure gate.
def launched (faults : List String) : W :=
  (Op.launch planId "launch-1").after call <| (Op.prepare planId).after call <|
    (Op.plan plan).after call <| new (.plain ⟨none, none⟩) faults

def observed (faults : List String) : W :=
  (Op.observe planId (attestation "nonce-1") none).after call (launched faults)

def committed (faults : List String) : W :=
  (Op.commit planId 0).after call (observed faults)

theorem planId_eq : plan.planId = planId := by
  decide +kernel

def exposure? (w : W) : Option (Gate DeterministicTrafficAdapter) :=
  match w.traffic with
  | .exposure g => some g
  | .plain _    => none

theorem exposure?_eq {w : W} {g : Gate DeterministicTrafficAdapter} :
    exposure? w = some g ↔ w.traffic = .exposure g := by
  unfold exposure?
  split <;> simp [*]

def plain? (w : W) : Option FakeTrafficGate :=
  match w.traffic with
  | .exposure _ => none
  | .plain t    => some t

theorem plain?_eq {w : W} {t : FakeTrafficGate} : plain? w = some t ↔ w.traffic = .plain t := by
  unfold plain?
  split <;> simp [*]

variable {may : Call → Op → W → Prop}
variable {env : Traffic DeterministicTrafficAdapter FakeTrafficGate →
  Traffic DeterministicTrafficAdapter FakeTrafficGate → Prop}

theorem reachable_new {traffic : Traffic DeterministicTrafficAdapter FakeTrafficGate}
    {faults : List String} : Reachable (Initial 0) (Next may env) (new traffic faults) :=
  have h : Initial 0 (⟨Store.new, traffic, faults⟩ : W) := rfl
  .step (.init h) .boot

theorem reachable_launched {faults : List String} :
    Reachable (Initial 0) (Next Always env) (launched faults) :=
  .step (.step (.step reachable_new (.op _ _ trivial Op.after_mem))
    (.op _ _ trivial Op.after_mem)) (.op _ _ trivial Op.after_mem)

theorem reachable_observed {faults : List String} :
    Reachable (Initial 0) (Next Always env) (observed faults) :=
  .step reachable_launched (.op _ _ trivial Op.after_mem)

theorem reachable_committed {faults : List String} :
    Reachable (Initial 0) (Next Always env) (committed faults) :=
  .step reachable_observed (.op _ _ trivial Op.after_mem)

end Coordinator.Sample
