import ExtManager.Codec.Fallible
import ExtManager.Gate.Oracle

namespace Oracle

-- The replay of a trace from one state to another, by the oracle's table.
inductive Replays : String → List TransitionRow → String → Prop
  | nil {s} : Replays s [] s
  | cons {s s' row rows} : row.fromState = some s →
      (∀ target, row.toState = some target → target = s ∨ target ∈ allowedFrom s) →
      Replays (row.toState.getD s) rows s' → Replays s (row :: rows) s'

inductive Mark
  | intent
  | receipt
  deriving DecidableEq

-- What a row is to the operation that it belongs to. The receipt of a stage has no intent.
def mark? (row : TransitionRow) : Option Mark :=
  if row.kind = "intent" then some .intent
  else if row.isPairedReceipt then some .receipt
  else none

def marks (id : String) (rows : List TransitionRow) : List Mark :=
  (rows.filter (·.operationId = id)).filterMap mark?

-- Intents and receipts alternate, from an intent to a receipt.
inductive Paired : List Mark → Prop
  | nil : Paired []
  | cons {ms} : Paired ms → Paired (.intent :: .receipt :: ms)

-- What is asked of a request of the candidate's generation and of one of the predecessor's.
structure Admissible (state : StateRow) (first : Option FirstOpen) (row : AdmissionRow) : Prop where
  routeEpoch  : row.routeEpoch ≠ ""
  generation  : state.candidateGeneration = some row.chosenGeneration ∨
    state.predecessorGeneration = row.chosenGeneration
  candidate   : state.candidateGeneration = some row.chosenGeneration →
    ∃ o, first = some o ∧ o.seq ≤ row.transitionSeq ∧ o.fence = some row.routeEpoch
  predecessor : state.predecessorGeneration = row.chosenGeneration →
    row.routeEpoch = predecessorFence row.chosenGeneration ∧
      ∀ o, first = some o → row.transitionSeq < o.seq

-- What the oracle accepts.
structure Accepted (t : Trace) (state : StateRow) : Prop where
  transitions : t.transitions ≠ []
  sequence    : t.transitions.map (·.seq) =
    (List.range t.transitions.length).map fun i : Nat => 1 + (i : Int)
  replay      : Replays GateState.predecessorOpen.value t.transitions state.state
  paired      : ∀ id, Paired (marks id t.transitions)
  generation  : ∀ n, state.candidateGeneration = some n → ∀ row ∈ t.transitions, row.generation = n
  oneOpen     : ∀ row ∈ t.openReceipts, ∀ row' ∈ t.openReceipts, row.generation = row'.generation
  opened      : ∀ row ∈ t.openReceipts,
    row.detail.lookup "observed_candidate_digest" = some (.str state.candidateDigest)
  closed      : ∀ row ∈ t.closeReceipts, row.detail.lookup "cancelled" = none →
    ∀ observed, observedPredecessor row = some observed → observed = .str state.predecessorDigest
  route       : state.state = GateState.candidateOpen.value →
    state.routeGeneration = state.candidateGeneration ∧
      some state.routeFence = t.firstOpen.bind (·.fence) ∧
      state.observedCandidateDigest = some state.candidateDigest
  requests    : ∀ event ∈ t.admissionEvents, ∀ event' ∈ t.admissionEvents,
    event.requestId = event'.requestId → event.chosenGeneration = event'.chosenGeneration
  admissions  : ∀ row ∈ t.admissions, Admissible state t.firstOpen row

@[simp]
theorem errorIf_eq_nil {c : Prop} [Decidable c] {e : OracleError} : errorIf c e = [] ↔ ¬c := by
  simp [errorIf]

section Scan

variable {candidate : Option Int} {s : Scan} {row : TransitionRow} {rows : List TransitionRow}
variable {id : String}

-- What an operation has open before the scan goes on.
def opens (pending : List String) (id : String) : List Mark :=
  if id ∈ pending then [.intent] else []

theorem not_paired_receipt {ms : List Mark} : ¬Paired (.receipt :: ms) := by
  intro h
  cases h

theorem not_paired_intents {ms : List Mark} : ¬Paired (.intent :: .intent :: ms) := by
  intro h
  cases h

theorem paired_cons_iff {ms : List Mark} : Paired (.intent :: .receipt :: ms) ↔ Paired ms := by
  refine ⟨fun h => ?_, .cons⟩
  cases h
  assumption

theorem marks_cons : marks id (row :: rows) =
    (if row.operationId = id then (mark? row).toList else []) ++ marks id rows := by
  by_cases h : row.operationId = id
  case neg => simp [marks, h]
  case pos =>
    cases hm : mark? row
    all_goals simp [marks, h, hm]

theorem nextPending_of_ne (h : row.operationId ≠ id) :
    opens (s.nextPending row) id = opens s.pending id := by
  have h' : id ≠ row.operationId := h.symm
  simp only [opens, Scan.nextPending]
  congr 1
  split_ifs
  all_goals simp [h']

-- A row pairs up with what its own operation has open.
theorem paired_own : (s.pairErrors row = [] ∧
      Paired (opens (s.nextPending row) row.operationId ++ marks row.operationId rows)) ↔
    Paired (opens s.pending row.operationId ++ marks row.operationId (row :: rows)) := by
  rw [marks_cons, if_pos rfl]
  by_cases hi : row.kind = "intent"
  case pos =>
    by_cases hp : row.operationId ∈ s.pending
    all_goals simp [Scan.pairErrors, Scan.nextPending, mark?, opens, hi, hp, not_paired_intents]
  case neg =>
    by_cases hr : row.isPairedReceipt
    case pos =>
      by_cases hp : row.operationId ∈ s.pending
      all_goals simp [Scan.pairErrors, Scan.nextPending, mark?, opens, hi, hr, hp,
        not_paired_receipt, paired_cons_iff]
    case neg => simp [Scan.pairErrors, Scan.nextPending, mark?, opens, hi, hr]

theorem paired_step : (s.pairErrors row = [] ∧
      ∀ id, Paired (opens (s.nextPending row) id ++ marks id rows)) ↔
    ∀ id, Paired (opens s.pending id ++ marks id (row :: rows)) := by
  have hother {id} (h : row.operationId ≠ id) :
      opens (s.nextPending row) id ++ marks id rows =
        opens s.pending id ++ marks id (row :: rows) := by
    rw [nextPending_of_ne h, marks_cons, if_neg h, List.nil_append]
  refine ⟨fun ⟨he, hp⟩ id => ?_, fun hp => ?_⟩
  · by_cases h : row.operationId = id
    · exact h ▸ paired_own.mp ⟨he, hp row.operationId⟩
    · exact hother h ▸ hp id
  · have ⟨he, hown⟩ := paired_own.mpr (hp row.operationId)
    refine ⟨he, fun id => ?_⟩
    by_cases h : row.operationId = id
    · exact h ▸ hown
    · exact (hother h).symm ▸ hp id

theorem sequence_step {e : Int} :
    (row.seq = e ∧ rows.map (·.seq) = (List.range rows.length).map fun i : Nat => e + 1 + (i : Int)) ↔
      (row :: rows).map (·.seq) = (List.range (row :: rows).length).map fun i : Nat => e + (i : Int) := by
  have hshift (i : Nat) : e + ((i : Int) + 1) = e + 1 + (i : Int) := by omega
  simp [List.range_succ_eq_map, Function.comp_def, hshift]

theorem replay_step {r x : String} : (row.fromState = some r ∧
    (∀ target, row.toState = some target → target = r ∨ target ∈ allowedFrom r) ∧
    Replays (row.toState.getD r) rows x) ↔ Replays r (row :: rows) x := by
  refine ⟨fun ⟨h, ht, hr⟩ => .cons h ht hr, fun h => ?_⟩
  cases h
  case cons h ht hr => exact ⟨h, ht, hr⟩

theorem targetErrors_eq_nil : s.targetErrors row = [] ↔
    ∀ target, row.toState = some target → target = s.replayState ∨ target ∈ allowedFrom s.replayState := by
  cases h : row.toState
  case none        => simp [Scan.targetErrors, h]
  case some target => simp [Scan.targetErrors, h, or_iff_not_imp_left]

theorem errors_eq_nil : s.errors candidate row = [] ↔
    row.seq = s.expectedSeq ∧ row.fromState = some s.replayState ∧ s.pairErrors row = [] ∧
      (∀ target, row.toState = some target →
        target = s.replayState ∨ target ∈ allowedFrom s.replayState) ∧
      ∀ n, candidate = some n → row.generation = n := by
  simp only [Scan.errors, List.append_eq_nil_iff, errorIf_eq_nil, targetErrors_eq_nil, not_not,
    and_assoc]
  cases candidate
  case none   => simp
  case some n => simp [eq_comm (a := n)]

-- The scan finds nothing, leaves nothing open and ends in `x` iff the rows are in sequence, replay
-- to `x`, pair up and carry the candidate's generation.
theorem scan_iff {x : String} : ((scan candidate s rows).1 = [] ∧
      (scan candidate s rows).2.pending = [] ∧ (scan candidate s rows).2.replayState = x) ↔
    rows.map (·.seq) = (List.range rows.length).map (fun i : Nat => s.expectedSeq + (i : Int)) ∧
      Replays s.replayState rows x ∧ (∀ id, Paired (opens s.pending id ++ marks id rows)) ∧
      ∀ n, candidate = some n → ∀ row ∈ rows, row.generation = n := by
  induction rows generalizing s
  case nil =>
    have hreplay : s.replayState = x ↔ Replays s.replayState [] x := by
      refine ⟨fun h => h ▸ .nil, fun h => ?_⟩
      cases h
      rfl
    have hpaired : s.pending = [] ↔ ∀ id, Paired (opens s.pending id ++ marks id []) := by
      refine ⟨fun h id => ?_, fun h => List.eq_nil_iff_forall_not_mem.mpr fun id hid => ?_⟩
      · rw [h]
        exact .nil
      · have hp := h id
        rw [opens, if_pos hid] at hp
        cases hp
    simp [scan, hreplay, hpaired, and_comm]
  case cons row rows ih =>
    have hnext (h : row.seq = s.expectedSeq) : (s.next row).expectedSeq = s.expectedSeq + 1 := by
      simp [Scan.next, h]
    rw [← sequence_step, ← replay_step, ← paired_step]
    simp only [scan, List.append_eq_nil_iff, errors_eq_nil, List.forall_mem_cons]
    constructor
    · intro ⟨⟨⟨hseq, hfrom, hpair, htarget, hgen⟩, he⟩, hrest⟩
      have ⟨hs, hr, hp, hg⟩ := ih.mp ⟨he, hrest⟩
      rw [hnext hseq] at hs
      exact ⟨⟨hseq, hs⟩, ⟨hfrom, htarget, hr⟩, ⟨hpair, hp⟩, fun n hn => ⟨hgen n hn, hg n hn⟩⟩
    · intro ⟨⟨hseq, hs⟩, ⟨hfrom, htarget, hr⟩, ⟨hpair, hp⟩, hg⟩
      have hi := ih.mpr ⟨(hnext hseq).symm ▸ hs, hr, hp, fun n hn => (hg n hn).right⟩
      exact ⟨⟨⟨hseq, hfrom, hpair, htarget, fun n hn => (hg n hn).left⟩, hi.left⟩, hi.right⟩

end Scan

section Rest

variable {state : StateRow} {first : Option FirstOpen}

theorem crossedErrors_eq_nil {seen : List (String × Int)} {events : List AdmissionEventRow} :
    crossedErrors seen events = [] ↔
      (∀ event ∈ events, ∀ n, seen.lookup event.requestId = some n → event.chosenGeneration = n) ∧
      ∀ event ∈ events, ∀ event' ∈ events, event.requestId = event'.requestId →
        event.chosenGeneration = event'.chosenGeneration := by
  induction events generalizing seen
  case nil => simp [crossedErrors]
  case cons event events ih =>
    simp only [List.forall_mem_cons]
    cases hl : seen.lookup event.requestId
    case none =>
      have hlookup (e : AdmissionEventRow) :
          ((event.requestId, event.chosenGeneration) :: seen).lookup e.requestId =
            if e.requestId = event.requestId then some event.chosenGeneration
            else seen.lookup e.requestId := by
        by_cases h : e.requestId = event.requestId
        case pos => simp [h]
        case neg => simp [List.lookup_cons, h, beq_false_of_ne h]
      simp only [crossedErrors, hl, ih, hlookup]
      constructor
      · intro ⟨hs, hes⟩
        have hnew (e) (he : e ∈ events) (hid : e.requestId = event.requestId) :
            e.chosenGeneration = event.chosenGeneration := hs e he _ (if_pos hid)
        refine ⟨⟨by simp, fun e he n hn => ?_⟩, ⟨fun _ => trivial, fun e he hid => ?_⟩,
          fun e he => ⟨hnew e he, hes e he⟩⟩
        · by_cases hid : e.requestId = event.requestId
          · simp [hid, hl] at hn
          · exact hs e he n (by rw [if_neg hid, hn])
        · exact (hnew e he hid.symm).symm
      · intro ⟨⟨_, hs⟩, _, hes⟩
        refine ⟨fun e he n hn => ?_, fun e he => (hes e he).right⟩
        split at hn
        case isTrue hid  => exact ((hes e he).left hid).trans (Option.some.inj hn)
        case isFalse hid => exact hs e he n hn
    case some prior =>
      simp only [crossedErrors, hl, List.append_eq_nil_iff, errorIf_eq_nil, not_not, ih,
        Option.some.injEq, forall_eq']
      constructor
      · intro ⟨hp, hs, hes⟩
        have hnew (e) (he : e ∈ events) (hid : e.requestId = event.requestId) :
            e.chosenGeneration = event.chosenGeneration :=
          (hs e he prior (hid ▸ hl)).trans hp
        exact ⟨⟨hp.symm, hs⟩, ⟨fun _ => trivial, fun e he hid => (hnew e he hid.symm).symm⟩,
          fun e he => ⟨hnew e he, hes e he⟩⟩
      · intro ⟨⟨hp, hs⟩, _, hes⟩
        exact ⟨hp.symm, hs, fun e he => (hes e he).right⟩

theorem admissionErrors_eq_nil {row : AdmissionRow} :
    admissionErrors state.candidateGeneration (some state.predecessorGeneration) first row = [] ↔
      Admissible state first row := by
  simp only [admissionErrors, List.append_eq_nil_iff, errorIf_eq_nil, Option.some.injEq, and_assoc]
  constructor
  · intro ⟨hbefore, hafter, hgen, hepoch, hcand, hpred⟩
    refine ⟨hepoch, ?_, fun hc => ?_, fun hp => ⟨?_, fun o ho => ?_⟩⟩
    · by_contra h
      have ⟨hc, hp⟩ := not_or.mp h
      exact hgen ⟨hc, fun he => hp (Option.some.inj he)⟩
    · cases first
      case none   => exact absurd ⟨hc, rfl⟩ hbefore
      case some o =>
        refine ⟨o, rfl, ?_, not_not.mp fun h => hcand ⟨hc, h⟩⟩
        by_contra h
        exact hbefore ⟨hc, by simpa using h⟩
    · by_contra h
      exact hpred ⟨hp, h⟩
    · by_contra h
      exact hafter ⟨hp, by simpa [ho] using h⟩
  · intro h
    refine ⟨fun ⟨hc, hall⟩ => ?_, fun ⟨hp, hany⟩ => ?_, fun ⟨hc, hp⟩ => ?_, h.routeEpoch,
      fun ⟨hc, hf⟩ => ?_, fun ⟨hp, hf⟩ => hf (h.predecessor hp).left⟩
    · have ⟨o, ho, hseq, _⟩ := h.candidate hc
      simp only [ho, Option.all_some, decide_eq_true_eq] at hall
      omega
    · have ⟨o, ho, hseq⟩ := (Option.any_eq_true _ _).mp hany
      have hlt := (h.predecessor hp).right o ho
      have hseq := of_decide_eq_true hseq
      omega
    · exact h.generation.elim hc fun he => hp (congrArg some he)
    · have ⟨o, ho, _, hfence⟩ := h.candidate hc
      exact hf (by rw [ho, Option.bind_some, hfence])

theorem mapM_eq_ok {α β : Type} {f : α → Except Exc β} {g : α → β} {xs : List α}
    (h : ∀ a, f a = .ok (g a)) : xs.mapM f = .ok (xs.map g) := by
  induction xs
  case nil => rfl
  case cons x xs ih =>
    rw [List.mapM_cons, h, ih]
    rfl

end Rest

-- The part of `Accepted` about the receipts, from the two loops over them.
theorem openReceiptErrors_some {state : StateRow} {receipt : TransitionRow} :
    openReceiptErrors (some state) receipt = .ok (errorIf
      (receipt.detail.lookup "observed_candidate_digest" ≠ some (.str state.candidateDigest))
      .openSnapshot) :=
  rfl

-- The errors of one close receipt where there is a row of the state.
def closeErrors (state : StateRow) (receipt : TransitionRow) : List OracleError :=
  if (receipt.detail.lookup "cancelled").isSome then []
  else (observedPredecessor receipt).elim [] fun observed =>
    errorIf (observed ≠ .str state.predecessorDigest) .closeSnapshot

theorem closeReceiptErrors_some {state : StateRow} {receipt : TransitionRow} :
    closeReceiptErrors (some state) receipt = .ok (closeErrors state receipt) := by
  unfold closeReceiptErrors closeErrors
  split
  case isTrue  => rfl
  case isFalse =>
    cases observedPredecessor receipt
    all_goals rfl

theorem closeErrors_eq_nil {state : StateRow} {receipt : TransitionRow} :
    closeErrors state receipt = [] ↔ (receipt.detail.lookup "cancelled" = none →
      ∀ observed, observedPredecessor receipt = some observed →
        observed = .str state.predecessorDigest) := by
  unfold closeErrors
  cases hc : receipt.detail.lookup "cancelled"
  case some c => simp
  case none   =>
    cases observedPredecessor receipt
    all_goals simp

theorem dedup_length_le {generations : List Int} : ¬generations.dedup.length > 1 ↔
    ∀ n ∈ generations, ∀ m ∈ generations, n = m := by
  have hmem (n : Int) : n ∈ generations ↔ n ∈ generations.dedup := List.mem_dedup.symm
  have hnodup := List.nodup_dedup generations
  simp only [hmem]
  generalize generations.dedup = ns at hnodup
  match ns with
  | [] | [_]    => simp
  | n :: m :: _ =>
    have hne : n ≠ m := by
      simp only [List.nodup_cons, List.mem_cons, not_or] at hnodup
      exact hnodup.left.left
    simp [hne]

theorem stateErrors_eq_nil {state : StateRow} {receipts : List TransitionRow}
    {first : Option FirstOpen} {s : Scan} :
    stateErrors (some state) receipts first s = [] ↔ s.pending = [] ∧ s.replayState = state.state ∧
      (∀ row ∈ receipts, ∀ row' ∈ receipts, row.generation = row'.generation) ∧
      (state.state = GateState.candidateOpen.value →
        state.routeGeneration = state.candidateGeneration ∧
          some state.routeFence = first.bind (·.fence) ∧
          state.observedCandidateDigest = some state.candidateDigest) := by
  have hopen : (∀ n ∈ receipts.map (·.generation), ∀ m ∈ receipts.map (·.generation), n = m) ↔
      ∀ row ∈ receipts, ∀ row' ∈ receipts, row.generation = row'.generation := by
    simp
  have hroute : ¬routeMismatch state first ↔ state.routeGeneration = state.candidateGeneration ∧
      some state.routeFence = first.bind (·.fence) ∧
      state.observedCandidateDigest = some state.candidateDigest := by
    rw [routeMismatch, not_or, not_or, not_not, not_not, not_not]
  simp only [stateErrors, List.append_eq_nil_iff, errorIf_eq_nil, dedup_length_le, hopen, and_assoc,
    Option.any_some, decide_eq_true_eq, not_not, not_and, hroute]

-- The errors that the oracle finds where the gate has its row.
def errorsOf (t : Trace) (state : StateRow) : List OracleError :=
  errorIf (t.transitions = []) .missing ++ (scan t.candidate .start t.transitions).1 ++
    stateErrors (some state) t.openReceipts t.firstOpen (scan t.candidate .start t.transitions).2 ++
    t.openReceipts.flatMap (fun receipt => errorIf (receipt.detail.lookup
      "observed_candidate_digest" ≠ some (.str state.candidateDigest)) .openSnapshot) ++
    t.closeReceipts.flatMap (closeErrors state) ++ crossedErrors [] t.admissionEvents ++
    t.admissions.flatMap (admissionErrors t.candidate t.predecessor t.firstOpen)

theorem evaluate_errors {t : Trace} {state : StateRow} (hs : t.state = some state) :
    ∃ r, t.evaluate = .ok r ∧ r.errors = errorsOf t state ∧ (r.verdict = .pass ↔ r.errors = []) := by
  have hopen : t.openReceipts.mapM (openReceiptErrors t.state) = .ok _ :=
    mapM_eq_ok fun receipt => hs ▸ openReceiptErrors_some
  have hclose : t.closeReceipts.mapM (closeReceiptErrors t.state) = .ok _ :=
    mapM_eq_ok fun receipt => hs ▸ closeReceiptErrors_some
  refine ⟨_, by rw [Trace.evaluate, hopen, hclose]; rfl, ?_, ?_⟩
  · simp [errorsOf, hs, List.flatMap]
  · dsimp only
    split
    case isTrue h  => exact ⟨fun _ => h, fun _ => rfl⟩
    case isFalse h => exact ⟨nofun, fun he => absurd he h⟩

theorem errorsOf_eq_nil {t : Trace} {state : StateRow} (hs : t.state = some state) :
    errorsOf t state = [] ↔ Accepted t state := by
  have hcand : t.candidate = state.candidateGeneration := by simp [Trace.candidate, hs]
  have hpred : t.predecessor = some state.predecessorGeneration := by simp [Trace.predecessor, hs]
  have hscan := @scan_iff state.candidateGeneration .start t.transitions state.state
  simp only [errorsOf, hcand, hpred, List.append_eq_nil_iff, errorIf_eq_nil, stateErrors_eq_nil,
    List.flatMap_eq_nil_iff, closeErrors_eq_nil, crossedErrors_eq_nil, admissionErrors_eq_nil,
    not_not]
  constructor
  · intro ⟨⟨⟨⟨⟨⟨hne, he⟩, hp, hr, hone, hroute⟩, hopen⟩, hclose⟩, _, hreq⟩, hadm⟩
    have ⟨hseq, hreplay, hpaired, hgen⟩ := hscan.mp ⟨he, hp, hr⟩
    exact ⟨hne, hseq, hreplay, hpaired, hgen, hone, hopen, hclose, hroute, hreq, hadm⟩
  · intro h
    have ⟨he, hp, hr⟩ := hscan.mpr ⟨h.sequence, h.replay, h.paired, h.generation⟩
    exact ⟨⟨⟨⟨⟨⟨h.transitions, he⟩, hp, hr, h.oneOpen, h.route⟩, h.opened⟩, h.closed⟩, by simp,
      h.requests⟩, h.admissions⟩

theorem pass_of_accepted {t : Trace} {state : StateRow} (hs : t.state = some state)
    (h : Accepted t state) : ∃ r, t.evaluate = .ok r ∧ r.verdict = .pass := by
  have ⟨r, hr, he, hv⟩ := evaluate_errors hs
  exact ⟨r, hr, hv.mpr (he.trans ((errorsOf_eq_nil hs).mpr h))⟩

-- The oracle decides exactly what it is to accept, whatever the tables hold.
theorem evaluate_pass_iff (t : Trace) (state : StateRow) (hs : t.state = some state) :
    (∃ r, t.evaluate = .ok r ∧ r.verdict = .pass) ↔ Accepted t state := by
  refine ⟨fun ⟨r', hr', hv'⟩ => ?_, pass_of_accepted hs⟩
  have ⟨r, hr, he, hv⟩ := evaluate_errors hs
  rw [hr, Except.ok.injEq] at hr'
  rw [← errorsOf_eq_nil hs, ← he, ← hv, hr']
  exact hv'

section Missing

variable {receipt : TransitionRow}

-- A receipt whose snapshot is not compared with the row of the state.
def Unread (receipt : TransitionRow) : Prop :=
  receipt.detail.lookup "cancelled" = none → observedPredecessor receipt = none

theorem closeReceiptErrors_none :
    (∃ errors, closeReceiptErrors none receipt = .ok errors) ↔ Unread receipt := by
  unfold closeReceiptErrors Unread
  cases receipt.detail.lookup "cancelled"
  case some c => simp
  case none   =>
    cases observedPredecessor receipt
    all_goals simp

-- Both loops over the receipts come to their end.
def Compared (t : Trace) : Prop :=
  (∀ receipt ∈ t.openReceipts, ∃ errors, openReceiptErrors t.state receipt = .ok errors) ∧
    ∀ receipt ∈ t.closeReceipts, ∃ errors, closeReceiptErrors t.state receipt = .ok errors

theorem compared_iff {t : Trace} : Compared t ↔
    (t.state = none → t.openReceipts = [] ∧ ∀ receipt ∈ t.closeReceipts, Unread receipt) := by
  unfold Compared
  cases t.state
  case some state =>
    refine ⟨fun _ => nofun, fun _ => ⟨fun _ _ => ⟨_, openReceiptErrors_some⟩, fun _ _ => ?_⟩⟩
    exact ⟨_, closeReceiptErrors_some⟩
  case none       =>
    have hopen : (∀ receipt ∈ t.openReceipts, ∃ errors, openReceiptErrors none receipt = .ok errors) ↔
        t.openReceipts = [] := by
      rw [List.eq_nil_iff_forall_not_mem]
      exact forall₂_congr fun _ _ => iff_false_intro nofun
    simp only [hopen, closeReceiptErrors_none, true_implies]

theorem evaluate_ok_iff {t : Trace} : (∃ r, t.evaluate = .ok r) ↔ Compared t := by
  constructor
  · rintro ⟨r, hr⟩
    rw [Trace.evaluate] at hr
    obtain ⟨opens, ho, hr⟩ := Fallible.bind_ok.mp hr
    obtain ⟨closes, hc, _⟩ := Fallible.bind_ok.mp hr
    refine ⟨fun receipt hm => ?_, fun receipt hm => ?_⟩
    · have ⟨errors, _, he⟩ := Fallible.target_of_mapM ho receipt hm
      exact ⟨errors, he⟩
    · have ⟨errors, _, he⟩ := Fallible.target_of_mapM hc receipt hm
      exact ⟨errors, he⟩
  · rintro ⟨ho, hc⟩
    have ⟨opens, ho⟩ := Fallible.mapM_total ho
    have ⟨closes, hc⟩ := Fallible.mapM_total hc
    exact ⟨_, Fallible.bind_ok.mpr ⟨opens, ho, Fallible.bind_ok.mpr ⟨closes, hc, rfl⟩⟩⟩

theorem fail_of_missing {t : Trace} {r : OracleResult} (hr : t.evaluate = .ok r)
    (hs : t.state = none) : r.verdict = .fail := by
  rw [Trace.evaluate] at hr
  obtain ⟨opens, _, hr⟩ := Fallible.bind_ok.mp hr
  obtain ⟨closes, _, hr⟩ := Fallible.bind_ok.mp hr
  cases hr
  simp [errorIf, hs]

end Missing

-- The oracle fails closed.
def FailsClosed (t : Trace) : Prop :=
  ∃ r, t.evaluate = .ok r ∧ (t.state = none → r.verdict = .fail)

-- The oracle fails closed iff it has no receipt to compare with a row of the state that is missing.
theorem failsClosed_iff (t : Trace) : FailsClosed t ↔
    (t.state = none → t.openReceipts = [] ∧ ∀ receipt ∈ t.closeReceipts, Unread receipt) := by
  rw [← compared_iff, ← evaluate_ok_iff]
  constructor
  · rintro ⟨r, hr, _⟩
    exact ⟨r, hr⟩
  · rintro ⟨r, hr⟩
    exact ⟨r, hr, fail_of_missing hr⟩

end Oracle

namespace Oracle.Sample

-- A candidate that is staged and closed.
def transitions : List TransitionRow :=
  [⟨1, 2, "receipt", "stage", "stage:2", some "PREDECESSOR_OPEN", some "CANDIDATE_STAGED", none, []⟩,
    ⟨2, 2, "intent", "close", "close:2", some "CANDIDATE_STAGED", none, none, []⟩,
    ⟨3, 2, "receipt", "close", "close:2", some "CANDIDATE_STAGED", some "CANDIDATE_CLOSED", none,
      [("observed_predecessor_digest", .str "sha256:1")]⟩]

def state : StateRow where
  state                   := "CANDIDATE_CLOSED"
  predecessorGeneration   := 1
  candidateGeneration     := some 2
  routeGeneration         := some 1
  routeFence              := "fence-1"
  candidateDigest         := "sha256:2"
  observedCandidateDigest := none
  predecessorDigest       := "sha256:1"

def trace : Trace where
  transitions     := transitions
  admissions      := [⟨"first", "fence-1", 1, 1⟩]
  admissionEvents := [⟨"first", 1⟩, ⟨"first", 1⟩]
  state           := some state

theorem accepted_of_trace : trace.state = some state ∧ Accepted trace state := by
  refine ⟨rfl, (evaluate_pass_iff trace state rfl).mp ?_⟩
  have h : (trace.evaluate.toOption.map (·.verdict)) = some .pass := by decide +kernel
  cases he : trace.evaluate
  case error => simp [he, Except.toOption] at h
  case ok r  => exact ⟨r, rfl, by simpa [he, Except.toOption] using h⟩

-- The same tables without a candidate generation, and a row of yet another generation.
def unnamed : Trace :=
  { trace with
    transitions := transitions.map fun row => if row.seq = 3 then { row with generation := 7 } else row
    state       := some { state with candidateGeneration := none } }

-- The oracle passes them although their rows carry two generations and no candidate has either.
theorem not_generation_of_unnamed :
    unnamed.evaluate.toOption.map (·.verdict) = some .pass ∧
      (∀ state, unnamed.state = some state → state.candidateGeneration = none) ∧
      unnamed.transitions.map (·.generation) = [2, 2, 7] := by
  refine ⟨by decide +kernel, fun state h => ?_, by decide +kernel⟩
  rw [unnamed, Option.some.injEq] at h
  exact h ▸ rfl

-- A receipt of an open, and no row of the state.
def stateless : Trace where
  transitions     := [⟨1, 2, "receipt", "open", "open:2", some "OPENING", some "CANDIDATE_OPEN",
    some "fence-2", [("observed_candidate_digest", .str "sha256:2")]⟩]
  admissions      := []
  admissionEvents := []
  state           := none

theorem not_failsClosed : ¬∀ t, FailsClosed t := by
  intro h
  have ⟨r, hr, _⟩ := h stateless
  have hnone : stateless.evaluate.toOption = none := by decide +kernel
  rw [hr] at hnone
  cases hnone

end Oracle.Sample
