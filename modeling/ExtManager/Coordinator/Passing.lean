import ExtManager.Coordinator.Reactivation
import ExtManager.Gate.Calls

open Crash Prog GateDb

-- What has to be so for a commit to get through the gate.
namespace Gate

variable [Sha256] {τ : Type} [TrafficAdapter τ] {g g' : Gate τ} {row : GateRow} {proof : OpenProof}
variable {n : Int} {u : Unit}

section Rules

variable {α β : Type} {k : α → M τ β} {b : β}

omit [Sha256] [TrafficAdapter τ] in
theorem returns_row_seq {k : GateRow → M τ β} (hr : g.db.getRow = .ok row) :
    Returns (Gate.row >>= k) b g g' ↔ Returns (k row) b g g' := by
  simp [Gate.row, hr]

omit [Sha256] [TrafficAdapter τ] in
theorem returns_hit_seq {point : String} {k : Unit → M τ β} (hf : g.faults = []) :
    Returns (hit point >>= k) b g g' ↔ Returns (k ()) b g g' := by
  simp only [hit, returns_bind, returns_silent, hf, List.not_mem_nil, if_false]
  constructor
  · rintro ⟨_, _, he, h⟩
    cases he
    exact h
  · exact fun h => ⟨(), g, rfl, h⟩

omit [Sha256] [TrafficAdapter τ] in
theorem returns_now_seq {k : Int → M τ β} :
    Returns (now >>= k) b g g' ↔ Returns (k (g.clock g.ticks)) b g.tick g' := by
  simp [now]

omit [Sha256] [TrafficAdapter τ] in
theorem returns_call_seq {f : τ → Except Exc α × τ} :
    Returns (call f >>= k) b g g' ↔
      ∃ a t, f g.traffic = (.ok a, t) ∧ Returns (k a) b (g.setTraffic t) g' := by
  simp only [returns_bind, call, returns_act, Prod.mk.injEq]
  constructor
  · rintro ⟨a, _, ⟨hv, rfl⟩, h⟩
    exact ⟨a, _, Prod.ext hv rfl, h⟩
  · rintro ⟨a, t, hf, h⟩
    exact ⟨a, _, ⟨by rw [hf], by rw [hf]⟩, h⟩

omit [Sha256] in
theorem returns_queryRoute_seq {k : RouteState → M τ β} :
    Returns (queryRoute >>= k) b g g' ↔ ∃ r t, TrafficAdapter.queryRoute g.traffic = (.ok r, t) ∧
      Returns (k r) b ((g.setTraffic t).addRead r) g' := by
  simp only [returns_bind, queryRoute, returns_act]
  rcases TrafficAdapter.queryRoute g.traffic with ⟨v, t⟩
  cases v <;> simp

omit [Sha256] [TrafficAdapter τ] in
theorem returns_transition_seq {target : GateState} {operation : GateOperation} {kind : GateKind}
    {detail : Json} {fence : Option String} {id : Option OperationId}
    {update : Nat → GateRow → GateRow} {k : Unit → M τ β} (hr : g.db.getRow = .ok row)
    (ha : row.state.accepts target) :
    Returns (transition n target operation kind detail fence id update >>= k) b g g' ↔
      Returns (k ()) b (g.setDb (g.db.moved row n target operation kind detail fence id update)) g' := by
  have ht : g.db.transition n target operation kind detail fence id = .ok (g.db.nextSeq,
      g.db.moved row n target operation kind detail fence id fun _ row => row) :=
    transition_ok_iff.mpr ⟨row, hr, ha, rfl⟩
  simp only [transition, transaction, returns_bind, returns_act, ht, moved_updateRow]
  constructor
  · rintro ⟨_, _, he, h⟩
    cases he
    exact h
  · exact fun h => ⟨(), _, rfl, h⟩

omit [Sha256] [TrafficAdapter τ] in
theorem returns_raiseIf_seq {c : Prop} [Decidable c] {e : Exc} {k : Unit → M τ β} :
    Returns (raiseIf c e >>= k) b g g' ↔ ¬c ∧ Returns (k ()) b g g' := by
  simp only [returns_bind, returns_raiseIf]
  constructor
  · rintro ⟨_, _, ⟨hc, rfl⟩, h⟩
    exact ⟨hc, h⟩
  · rintro ⟨hc, h⟩
    exact ⟨(), g, ⟨hc, rfl⟩, h⟩

omit [Sha256] [TrafficAdapter τ] in
theorem returns_lift_seq {f : Gate τ → Except Exc α} :
    Returns (lift f >>= k) b g g' ↔ ∃ a, f g = .ok a ∧ Returns (k a) b g g' := by
  simp [and_assoc]

omit [Sha256] [TrafficAdapter τ] in
theorem returns_read_seq {f : Gate τ → α} :
    Returns (read f >>= k) b g g' ↔ Returns (k (f g)) b g g' := by
  simp

end Rules

-- What the adapter has to answer for a candidate to be opened.
def Carries (g : Gate τ) (row : GateRow) (n : Int) (proof : OpenProof) : Prop :=
  let fence := candidateFence n proof row.transitionSeq
  ∃ t r t', TrafficAdapter.open n fence row.candidate proof.lease (g.clock (g.ticks + 1)) g.traffic =
    (.ok (), t) ∧ TrafficAdapter.queryRoute t = (.ok r, t') ∧
    ¬candidateMismatch n (some fence) proof.candidateDigest r

-- The effect of an open whose intent has been written.
theorem openEffect_returns_iff {fence : String} {row' : GateRow} (hf : g.faults = [])
    (hr : g.db.getRow = .ok row') (hs : row'.state = .opening) :
    (∃ b g', Returns (openEffect row n proof fence) b g g') ↔
      ∃ t r t', TrafficAdapter.open n fence row.candidate proof.lease (g.clock g.ticks) g.traffic =
        (.ok (), t) ∧ TrafficAdapter.queryRoute t = (.ok r, t') ∧
        ¬candidateMismatch n (some fence) proof.candidateDigest r := by
  have hf₁ (t : τ) : (g.tick.setTraffic t).faults = [] := hf
  have hf₂ (t : τ) (r : RouteState) (t' : τ) :
    (((g.tick.setTraffic t).setTraffic t').addRead r).faults = [] := hf
  simp only [openEffect, returns_hit_seq hf, returns_now_seq, returns_call_seq]
  constructor
  case mp =>
    rintro ⟨b, g', _, t, ho, h⟩
    rw [returns_hit_seq (hf₁ t), returns_queryRoute_seq] at h
    obtain ⟨r, t', hq, h⟩ := h
    rw [returns_hit_seq (hf₂ t r t')] at h
    refine ⟨t, r, t', ho, hq, fun hm => ?_⟩
    rw [if_pos hm] at h
    obtain ⟨_, _, _, h⟩ := returns_bind.mp h
    obtain ⟨_, _, _, h⟩ := returns_bind.mp h
    exact returns_raise h
  case mpr =>
    rintro ⟨t, r, t', ho, hq, hm⟩
    have hr' : (((g.tick.setTraffic t).setTraffic t').addRead r).db.getRow = .ok row' := hr
    refine ⟨fence, ?_⟩
    apply Exists.intro
    refine ⟨(), t, ho, ?_⟩
    rw [returns_hit_seq (hf₁ t), returns_queryRoute_seq]
    refine ⟨r, t', hq, ?_⟩
    rw [returns_hit_seq (hf₂ t r t'), if_neg hm,
      returns_transition_seq hr' (by simp [hs, GateState.accepts, GateState.allowed])]
    exact returns_pure.mpr ⟨.refl _, .refl _⟩

-- A closed candidate is opened where the proof is in order and the adapter does what it is asked.
theorem open_returns_iff (hr : g.db.getRow = .ok row) (hs : row.state = .candidateClosed)
    (hf : g.faults = []) (hn : proof.generation = n) :
    (∃ fence g', Returns (Gate.open n proof) fence g g') ↔ Provable row n proof ∧
      1 ≤ proof.evidenceCount ∧ isSha256 proof.evidenceDigest ∧ isSha256 proof.coverageDigest ∧
      TrafficAdapter.leaseValid proof.lease (g.clock g.ticks) g.traffic ∧ g.Carries row n proof := by
  have hne : ¬row.state = .candidateOpen ∧ ¬row.state = .opening := by simp [hs]
  have ha : row.state.accepts .opening := by simp [hs, GateState.accepts, GateState.allowed]
  let fence := candidateFence n proof row.transitionSeq
  let g₁ := g.tick.setDb (g.db.moved row n .opening .open .intent proof.intentDetail (some fence)
    none fun _ row => { row with proofDigest := some proof.digest })
  have hr₁ : g₁.db.getRow = .ok (openingRow g.db row proof) :=
    getRow_ok_iff.mpr ⟨rfl, (getRow_ok_iff.mp hr).right⟩
  have heffect : (∃ b g', Returns (openEffect row n proof fence) b g₁ g') ↔ g.Carries row n proof :=
    openEffect_returns_iff hf hr₁ rfl
  have hcandidate {b : String} {g' : Gate τ} : Returns (openCandidate row n proof) b g.tick g' ↔
      Returns (openEffect row n proof fence) b g₁ g' := by
    rw [openCandidate, returns_hit_seq (show g.tick.faults = [] from hf)]
    exact returns_transition_seq hr ha
  simp only [Gate.open, returns_row_seq hr, returns_raiseIf_seq, returns_lift_seq, returns_now_seq,
    returns_read_seq, if_neg hne.left, if_neg hne.right, hcandidate, ← heffect]
  constructor
  case mp =>
    rintro ⟨fence, g', hgen, expected, he, hp, hd, hev, hl, h⟩
    obtain ⟨hcount, hev⟩ := not_or.mp hev
    obtain ⟨hevidence, hcoverage⟩ := not_or.mp hev
    obtain ⟨hlease, hvalid⟩ := not_or.mp hl
    have hplan : expectedPlan row.candidate = .ok (.str proof.planId) := he.trans (by rw [not_not.mp hp])
    refine ⟨⟨?_, not_not.mp hd, not_not.mp hlease, hplan⟩, Int.not_lt.mp hcount, not_not.mp hevidence,
      not_not.mp hcoverage, not_not.mp hvalid, fence, g', h⟩
    exact not_not.mp (not_or.mp hgen).right
  case mpr =>
    rintro ⟨hp, hcount, hevidence, hcoverage, hvalid, fence, g', h⟩
    refine ⟨fence, g', ?_, _, hp.plan, not_not.mpr rfl, not_not.mpr hp.candidateDigest, ?_, ?_, h⟩
    · exact not_or.mpr ⟨not_not.mpr hn, not_not.mpr hp.generation⟩
    · exact not_or.mpr ⟨Int.not_lt.mpr hcount, not_or.mpr ⟨not_not.mpr hevidence, not_not.mpr hcoverage⟩⟩
    · exact not_or.mpr ⟨not_not.mpr hp.lease, not_not.mpr hvalid⟩

theorem stage_candidate {candidate predecessor : Json}
    (h : Returns (Gate.stage candidate predecessor : M τ Int) n g g') :
    ∃ row, g'.db.row = some row ∧ row.candidate = candidate := by
  unfold Gate.stage at h
  rw [returns_lift_seq] at h
  obtain ⟨m, _, h⟩ := h
  rw [returns_read_seq] at h
  cases hr : g.db.row <;> simp only [hr] at h
  case some row =>
    rw [returns_raiseIf_seq] at h
    obtain ⟨hsame, h⟩ := h
    obtain ⟨-, rfl⟩ := returns_pure.mp h
    exact ⟨row, hr, (not_not.mp hsame).right.left⟩
  case none =>
    obtain ⟨_, g₁, _, h⟩ := returns_bind.mp h
    rw [returns_raiseIf_seq, returns_read_seq] at h
    obtain ⟨_, _, h₂, h⟩ := returns_bind.mp h.right
    obtain ⟨row, hrow, _, rfl⟩ := returns_transitionAfter h₂
    obtain ⟨-, rfl⟩ := returns_pure.mp h
    obtain rfl := Option.some.inj (getRow_ok_iff.mp hrow).left
    exact ⟨_, rfl, rfl⟩

-- A gate that has returned from `close` is closed on the candidate that it had.
theorem close_closed (h : Returns (Gate.close n) u g g') : ∃ row row', g.db.getRow = .ok row ∧
    g'.db.getRow = .ok row' ∧ row'.state = .candidateClosed ∧ row'.candidateGeneration = n ∧
      row'.candidate = row.candidate := by
  have hreturns := close_returns h
  unfold Gate.close at h
  obtain ⟨row, _, h₁, h⟩ := returns_bind.mp h
  obtain ⟨hr, rfl⟩ := returns_lift.mp h₁
  rw [returns_raiseIf_seq] at h
  have hn := not_not.mp h.left
  have hrow := getRow_ok_iff.mp hr
  rcases hreturns with ⟨hd, hs⟩ | ⟨row', r, hr', _, _, _, _, hd⟩
  case inl =>
    rw [state?, hrow.left] at hs
    exact ⟨row, row, hr, hd ▸ hr, Option.some.inj hs, hn, rfl⟩
  case inr =>
    obtain rfl : row' = row := Except.ok.inj (hr'.symm.trans hr)
    exact ⟨row', _, hr, getRow_ok_iff.mpr ⟨congrArg GateDb.row hd, hrow.right⟩, rfl, hn, rfl⟩

end Gate

namespace Coordinator

variable [Sha256] {τ π : Type} [TrafficAdapter τ] [TrafficGate π] {c : Call} {p : Plan}
variable {planId id : String} {w w' : World τ π} {u : Unit} {a : Activation}

-- The fault points of an exposure gate.
def Traffic.faults : Traffic τ π → List String
  | .plain _    => []
  | .exposure g => g.faults

-- An exposure gate has been staged for the plan.
def Staged (p : Plan) : Traffic τ π → Prop
  | .plain _    => True
  | .exposure g => ∃ row, g.db.row = some row ∧ row.candidate = .str p.planId

-- An exposure gate is closed on the plan.
def Closed (p : Plan) : Traffic τ π → Prop
  | .plain _    => True
  | .exposure g => ∃ row, g.db.getRow = .ok row ∧ row.state = .candidateClosed ∧
    row.candidateGeneration = p.predecessor.generation + 1 ∧ row.candidate = .str p.planId

theorem plan_staged (h : Returns (Coordinator.plan p) id w w') :
    (p.obligations ≠ [] ∧ ¬p.obligations.any fun o => o.requiredOrdinals = []) ∧
      w.store.insert p = .ok w'.store ∧ w'.faults = w.faults ∧ Staged p w'.traffic := by
  unfold Coordinator.plan at h
  obtain ⟨_, _, h₁, h⟩ := returns_bind.mp h
  obtain ⟨ho, rfl⟩ := returns_raiseIf.mp h₁
  refine ⟨not_or.mp ho, ?_⟩
  obtain ⟨_, _, h₂, h⟩ := returns_bind.mp h
  obtain ⟨s, hs, rfl⟩ := returns_transaction.mp h₂
  cases ht : w.traffic
  case plain t =>
    have ht : (w.setStore s).traffic = .plain t := ht
    rw [returns_isPlain_seq ht] at h
    obtain ⟨_, _, h₃, h⟩ := returns_bind.mp h
    obtain ⟨_, rfl⟩ := (returns_onPlain ht).mp h₃
    obtain ⟨_, rfl⟩ := returns_pure.mp h
    exact ⟨hs, rfl, trivial⟩
  case exposure g =>
    have ht : (w.setStore s).traffic = .exposure g := ht
    rw [returns_isExposure_seq ht] at h
    obtain ⟨_, w₃, h₃, h⟩ := returns_bind.mp h
    obtain ⟨_, rfl⟩ := returns_pure.mp h
    rcases returns_attempt.mp h₃ with h₃ | ⟨_, _, h₃⟩
    case inl =>
      obtain ⟨_, h₃⟩ := returns_void.mp h₃
      obtain ⟨g', hg, rfl⟩ := (returns_onGate ht).mp h₃
      exact ⟨hs, rfl, Gate.stage_candidate hg⟩
    case inr =>
      obtain ⟨_, _, _, h₃⟩ := returns_bind.mp h₃
      exact absurd h₃ returns_raise

omit [TrafficGate π] in
theorem prepare_closed (h : Returns (prepare c planId) u w w')
    (ha : w.store.activation planId = some a) (hs : Staged a.plan w.traffic) :
    Closed a.plan w'.traffic := by
  unfold prepare at h
  rw [returns_row_seq ha] at h
  simp only [returns_bind, returns_transaction, returns_hit, returns_lift] at h
  obtain ⟨_, _, ⟨s, _, rfl⟩, _, _, ⟨_, rfl⟩, _, _, ⟨_, rfl⟩, _, _, ⟨_, rfl⟩, _, _,
    ⟨s', _, rfl⟩, exposed, _, hx, h⟩ := h
  obtain ⟨he, rfl⟩ := returns_read.mp hx
  cases ht : w.traffic <;> rw [ht] at hs
  case plain t =>
    have ht : ((w.setStore s).setStore s').traffic = .plain t := ht
    rw [ht] at he
    subst he
    obtain ⟨-, rfl⟩ := returns_pure.mp h
    rw [ht]
    trivial
  case exposure g =>
    have ht : ((w.setStore s).setStore s').traffic = .exposure g := ht
    rw [ht] at he
    subst he
    obtain ⟨g', hg, rfl⟩ := (returns_onGate ht).mp h
    obtain ⟨row₀, hr₀, hcandidate⟩ := hs
    obtain ⟨row, row', hr, hr', hst, hn, hc⟩ := Gate.close_closed hg
    obtain rfl : row₀ = row := Option.some.inj (hr₀.symm.trans (getRow_ok_iff.mp hr).left)
    exact ⟨row', hr', hst, hn, hc.trans hcandidate⟩

omit [TrafficAdapter τ] [TrafficGate π] [Sha256] in
theorem onGate_keeps {α : Type} {m : Gate.M τ α} {x : α} (h : Returns (onGate m) x w w') :
    w'.store = w.store ∧ w'.faults = w.faults := by
  cases ht : w.traffic
  case plain    => simp [Returns, onGate, ht, raise, silent] at h
  case exposure =>
    obtain ⟨_, _, rfl⟩ := (returns_onGate ht).mp h
    exact ⟨rfl, rfl⟩

-- The exposure gate, which is closed on the plan, lets its commit through: the verifier is a signed
-- one, the lease is still the one that was staged and holds, and the adapter opens the candidate.
structure Opens (c : Call) (p : Plan) (s : Store) (g : Gate τ) (row : GateRow) (proof : OpenProof) :
    Prop where
  signed   : c.signed
  row_eq   : g.db.getRow = .ok row
  proof_eq : openProof c p (p.predecessor.generation + 1) s g = .ok proof
  lease    : proof.lease = row.lease
  valid    : TrafficAdapter.leaseValid proof.lease (g.clock g.ticks) g.traffic
  digests  : isSha256 proof.evidenceDigest ∧ isSha256 proof.coverageDigest
  carries  : g.Carries row (p.predecessor.generation + 1) proof

-- The gate lets the commit of the plan through.
def Passes (c : Call) (p : Plan) (w : World τ π) : Prop :=
  match w.traffic with
  | .plain t    => (TrafficGate.activate p t).1 = .ok ()
  | .exposure g => ∃ row proof, Opens c p w.store g row proof

omit [TrafficGate π] in
-- The proof is about the evidence alone.
theorem openProof_congr {s s' : Store} {n : Int} {g : Gate τ} (h : s'.evidence = s.evidence) :
    openProof c p n s' g = openProof c p n s g := by
  rw [openProof, openProof, Store.validEvidence, Store.validEvidence, h]

omit [TrafficGate π] in
-- What a proof says that is made for the gate.
theorem openProof_eq {s : Store} {n : Int} {g : Gate τ} {row : GateRow} {proof : OpenProof}
    (h : openProof c p n s g = .ok proof) (hr : g.db.getRow = .ok row) : proof.generation = n ∧
      proof.planId = p.planId ∧ proof.candidateDigest = row.candidateDigest ∧
      proof.evidenceCount = (s.validEvidence p.planId c.managerEpoch).length := by
  simp only [openProof, hr, Except.ok.injEq] at h
  subst h
  exact ⟨rfl, rfl, rfl, by rw [List.length_insertionSort]⟩

theorem passes_setStore {s : Store} (h : s.evidence = w.store.evidence) :
    Passes c p (w.setStore s) ↔ Passes c p w := by
  rcases w with ⟨s₀, t, f⟩
  cases t
  case plain      => exact .rfl
  case exposure g =>
    refine exists_congr fun row => exists_congr fun proof => ?_
    have he := openProof_congr (c := c) (p := p) (n := p.predecessor.generation + 1) (g := g) h
    constructor
    · exact fun h => ⟨h.signed, h.row_eq, he ▸ h.proof_eq, h.lease, h.valid, h.digests, h.carries⟩
    · exact fun h => ⟨h.signed, h.row_eq, he.trans h.proof_eq, h.lease, h.valid, h.digests, h.carries⟩

-- Where all evidence is there, there is some.
omit [TrafficAdapter τ] [TrafficGate π] in
theorem validEvidence_ne_nil {s : Store} {epoch now : Int} (h : s.evidenceComplete epoch p now) :
    s.validEvidence p.planId epoch ≠ [] := by
  simp only [Store.evidenceComplete, Bool.and_eq_true, decide_eq_true_eq, List.all_eq_true] at h
  obtain ⟨⟨hne, hall⟩, hc⟩ := h
  obtain ⟨o, ho⟩ := List.exists_mem_of_ne_nil _ hne
  obtain ⟨ordinal, hord⟩ := List.exists_mem_of_ne_nil _ (hall o ho)
  have hc := hc o ho ordinal hord
  split at hc
  case h_1 => contradiction
  case h_2 =>
    obtain ⟨e, he, _⟩ := List.any_eq_true.mp hc
    exact List.ne_nil_of_mem he

theorem commitTraffic_returns_iff (hc : Closed p w.traffic)
    (hf : Traffic.faults w.traffic = [])
    (he : w.store.validEvidence p.planId c.managerEpoch ≠ []) :
    (∃ w', Returns (commitTraffic c p p.predecessor.generation) () w w') ↔ Passes c p w := by
  unfold commitTraffic
  cases ht : w.traffic
  case plain t =>
    simp only [returns_isPlain_seq ht, Bool.false_eq_true, if_false, returns_onPlain ht, Passes, ht]
    constructor
    · rintro ⟨_, ha, _⟩
      exact ha
    · exact fun ha => ⟨_, ha, rfl⟩
  case exposure g =>
    rw [ht] at hc hf
    obtain ⟨row, hr, hs, hn, hcandidate⟩ := hc
    simp only [returns_isExposure_seq ht, if_true, Passes, ht]
    constructor
    case mp =>
      rintro ⟨w', h⟩
      obtain ⟨_, _, h₁, h⟩ := returns_bind.mp h
      obtain ⟨hsigned, rfl⟩ := returns_raiseIf.mp h₁
      obtain ⟨proof, _, h₂, h⟩ := returns_bind.mp h
      obtain ⟨hp, rfl⟩ := returns_lift.mp h₂
      rw [ht] at hp
      obtain ⟨fence, h⟩ := returns_void.mp h
      obtain ⟨g', hg, -⟩ := (returns_onGate ht).mp h
      have hgen := (openProof_eq hp hr).left
      obtain ⟨hprov, _, hev, hcov, hvalid, hcarries⟩ :=
        (Gate.open_returns_iff (g := g.start) hr hs hf hgen).mp ⟨fence, g', hg⟩
      exact ⟨row, proof, not_not.mp hsigned, hr, hp, hprov.lease, hvalid, ⟨hev, hcov⟩, hcarries⟩
    case mpr =>
      rintro ⟨row', proof, h⟩
      obtain rfl : row' = row := Except.ok.inj (h.row_eq.symm.trans hr)
      obtain ⟨hgen, hid, hdigest, hcount⟩ := openProof_eq h.proof_eq hr
      have hprov : Gate.Provable row' (p.predecessor.generation + 1) proof := ⟨hn, hdigest, h.lease, by rw [hcandidate, hid]; rfl⟩
      have hcount : 1 ≤ proof.evidenceCount := by
        rw [hcount]
        exact Int.ofNat_le.mpr (List.length_pos_iff.mpr he)
      obtain ⟨fence, g', hg⟩ := (Gate.open_returns_iff (g := g.start) hr hs hf hgen).mpr
        ⟨hprov, hcount, h.digests.left, h.digests.right, h.valid, h.carries⟩
      refine ⟨w.setTraffic (.exposure g'), ?_⟩
      refine returns_bind.mpr ⟨(), w, returns_raiseIf.mpr ⟨not_not.mpr h.signed, rfl⟩, ?_⟩
      refine returns_bind.mpr ⟨proof, w, returns_lift.mpr ⟨by rw [ht]; exact h.proof_eq, rfl⟩, ?_⟩
      exact returns_void.mpr ⟨fence, (returns_onGate ht).mpr ⟨g', hg, rfl⟩⟩

theorem commitTraffic_keeps {expected : Int} (h : Returns (commitTraffic c p expected) u w w') :
    w'.store = w.store ∧ w'.faults = w.faults := by
  unfold commitTraffic at h
  cases ht : w.traffic
  case plain t =>
    rw [returns_isPlain_seq ht] at h
    obtain ⟨_, rfl⟩ := (returns_onPlain ht).mp h
    exact ⟨rfl, rfl⟩
  case exposure g =>
    rw [returns_isExposure_seq ht] at h
    obtain ⟨_, _, h₁, h⟩ := returns_bind.mp h
    obtain ⟨_, rfl⟩ := returns_raiseIf.mp h₁
    obtain ⟨proof, _, h₂, h⟩ := returns_bind.mp h
    obtain ⟨_, rfl⟩ := returns_lift.mp h₂
    obtain ⟨_, h⟩ := returns_void.mp h
    obtain ⟨_, _, rfl⟩ := (returns_onGate ht).mp h
    exact ⟨rfl, rfl⟩

-- A commit gets through where the evidence is complete and the gate lets it.
theorem commit_returns_iff {launchId : Option String}
    (ha : w.store.activation p.planId = some ⟨p, .observing, launchId⟩) (hc : Closed p w.traffic)
    (hf : w.faults = []) (hgf : Traffic.faults w.traffic = []) (hl : c.leaseValid p)
    (hg : w.store.generation = p.predecessor.generation) :
    (∃ g w', Returns (commit c p.planId p.predecessor.generation) g w w') ↔
      w.store.evidenceComplete c.managerEpoch p c.now ∧ Passes c p w := by
  have hgen : p.predecessor.generation = p.predecessor.generation := rfl
  have hwal := commitWal_eq ha (by simp [State.transitions]) hg hgen
  obtain ⟨s₁, hs₁⟩ : ∃ s, commitWal p.planId p p.predecessor.generation w.store = .ok s :=
    ⟨_, hwal⟩
  have he := Except.ok.inj (hs₁.symm.trans hwal)
  have hevidence : s₁.evidence = w.store.evidence := by simp [he, Store.shift, Store.setActivation]
  have hvalid : w.store.validEvidence p.planId c.managerEpoch =
      s₁.validEvidence p.planId c.managerEpoch := by
    rw [Store.validEvidence, Store.validEvidence, hevidence]
  have ha₁ : s₁.activation p.planId = some ⟨p, .commitReady, launchId⟩ := by
    simp [he, Store.shift, Store.setActivation]
  have hpasses := passes_setStore (c := c) (p := p) hevidence
  simp only [commit, returns_row_seq ha, hl, not_true_eq_false, if_false]
  constructor
  case mp =>
    rintro ⟨_, w', h⟩
    simp only [returns_bind, returns_read, returns_raiseIf, returns_transaction, returns_hit] at h
    obtain ⟨_, _, ⟨rfl, rfl⟩, _, _, ⟨hcomplete, rfl⟩, _, _, ⟨s, hs, rfl⟩, _, _, ⟨_, rfl⟩, _, w₁, ht,
      h⟩ := h
    have hcomplete := not_not.mp hcomplete
    obtain rfl : s₁ = s := Except.ok.inj (hs₁.symm.trans hs)
    have he := hvalid ▸ validEvidence_ne_nil hcomplete
    exact ⟨hcomplete, hpasses.mp ((commitTraffic_returns_iff (w := w.setStore s₁) hc hgf he).mp ⟨w₁, ht⟩)⟩
  case mpr =>
    rintro ⟨hcomplete, hp⟩
    have he := hvalid ▸ validEvidence_ne_nil hcomplete
    obtain ⟨w₁, ht⟩ := (commitTraffic_returns_iff (w := w.setStore s₁) hc hgf he).mpr (hpasses.mpr hp)
    obtain ⟨hstore, hfaults⟩ := commitTraffic_keeps ht
    have hnone {point : String} : point ∉ (w.setStore s₁).faults := by simp [hf]
    have hnone₁ {point : String} : point ∉ w₁.faults := by simp [hfaults, hf]
    have ha₂ : w₁.store.activation p.planId = some ⟨p, .commitReady, launchId⟩ := by
      rw [hstore]
      exact ha₁
    obtain ⟨s₂, hs₂⟩ : ∃ s, (w₁.store.log p.planId .receipt "commit"
        (.obj [("generation", .int w₁.store.generation)])).transition p.planId .effective = .ok s :=
      ⟨_, Store.transition_ok_iff.mpr ⟨_, ha₂, by simp [State.transitions], rfl⟩⟩
    refine ⟨s₂.generation, w₁.setStore s₂, ?_⟩
    simp only [returns_bind, returns_read, returns_raiseIf, returns_transaction, returns_hit]
    exact ⟨_, w, ⟨rfl, rfl⟩, (), w, ⟨not_not.mpr hcomplete, rfl⟩, (), _, ⟨s₁, hs₁, rfl⟩, (), _,
      ⟨hnone, rfl⟩, (), w₁, ht, (), w₁, ⟨hnone₁, rfl⟩, (), _, ⟨s₂, hs₂, rfl⟩, rfl, rfl⟩

end Coordinator
