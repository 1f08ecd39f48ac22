import ExtManager.Crash.Paced
import ExtManager.Gate.Runs
import Mathlib.Data.List.Nodup

open Crash Prog Relation GateDb

namespace Gate

section Rows

variable [Sha256] {row row' : GateRow} {receipts receipts' : List GateTransition} {a : Admission}

-- A request was admitted to the predecessor before the open, or to the candidate under the fence of
-- the open and after it.
inductive Admitted (row : GateRow) (receipts : List GateTransition) (a : Admission) : Prop
  | predecessor : a.chosenGeneration = row.predecessorGeneration →
      a.routeEpoch = predecessorFence row.predecessorGeneration →
      (∀ t ∈ receipts, a.transitionSeq < t.seq) → Admitted row receipts a
  | candidate {t} : a.chosenGeneration = row.candidateGeneration → t ∈ receipts →
      t.fence = some a.routeEpoch → t.seq ≤ a.transitionSeq → Admitted row receipts a

omit [Sha256] in
theorem Admitted.grow (h : Admitted row receipts a) (same : Same row row')
    (hsub : ∀ t ∈ receipts, t ∈ receipts')
    (hnew : ∀ t ∈ receipts', t ∈ receipts ∨ a.transitionSeq < t.seq) : Admitted row' receipts' a := by
  cases h
  case predecessor hg hf hs =>
    refine .predecessor (hg.trans same.predecessorGeneration.symm) ?_ fun t ht => ?_
    · rw [hf, same.predecessorGeneration]
    · exact (hnew t ht).elim (hs t) id
  case candidate hg ht hf hs =>
    exact .candidate (hg.trans same.candidateGeneration.symm) (hsub _ ht) hf hs

-- The same request, finished in the meantime or not.
structure Continues (a a' : Admission) : Prop where
  requestId        : a'.requestId = a.requestId
  routeEpoch       : a'.routeEpoch = a.routeEpoch
  chosenGeneration : a'.chosenGeneration = a.chosenGeneration
  admittedAt       : a'.admittedAt = a.admittedAt
  transitionSeq    : a'.transitionSeq = a.transitionSeq
  finished         : a.finishedAt.isSome → a' = a

omit [Sha256] in
theorem Continues.rfl : Continues a a :=
  ⟨.refl _, .refl _, .refl _, .refl _, .refl _, fun _ => .refl _⟩

omit [Sha256] in
theorem Continues.trans {a' a'' : Admission} (h : Continues a a') (h' : Continues a' a'') :
    Continues a a'' where
  requestId        := h'.requestId.trans h.requestId
  routeEpoch       := h'.routeEpoch.trans h.routeEpoch
  chosenGeneration := h'.chosenGeneration.trans h.chosenGeneration
  admittedAt       := h'.admittedAt.trans h.admittedAt
  transitionSeq    := h'.transitionSeq.trans h.transitionSeq
  finished hf      := by
    have he := h.finished hf
    rw [h'.finished (he ▸ hf), he]

omit [Sha256] in
theorem Admitted.continues {a' : Admission} (h : Admitted row receipts a) (hc : Continues a a') :
    Admitted row receipts a' := by
  cases h
  case predecessor hg hf hs =>
    refine .predecessor (hc.chosenGeneration.trans hg) (hc.routeEpoch.trans hf) ?_
    rw [hc.transitionSeq]
    exact hs
  case candidate hg ht hf hs =>
    refine .candidate (hc.chosenGeneration.trans hg) ht ?_ ?_
    · rw [hc.routeEpoch, hf]
    · rw [hc.transitionSeq]
      exact hs

omit [Sha256] in
theorem continues_finishRow {id : String} {result : AdmissionResult} :
    Continues a (finishRow id result a) := by
  unfold finishRow
  split
  case isTrue h  => exact ⟨rfl, rfl, rfl, rfl, rfl, by simp [h.right]⟩
  case isFalse   => exact .rfl

end Rows

-- The finish events of one request.
def finishes (db : GateDb) (id : String) : List AdmissionEvent :=
  db.admissionEvents.filter fun e => e.kind = .finish ∧ e.requestId = id

-- What the gate knows about its requests.
structure AdmissionInv (db : GateDb) : Prop where
  row      : ∀ a ∈ db.admissions, ∃ row, db.row = some row ∧ Admitted row db.openReceipts a
  seq      : ∀ a ∈ db.admissions, a.transitionSeq ≤ db.transitions.length
  unique   : (db.admissions.map (·.requestId)).Nodup
  finishes : ∀ id, (finishes db id).length ≤ 1 ∧
    (finishes db id ≠ [] → ∃ a ∈ db.admissions, a.requestId = id ∧ a.finishedAt.isSome)

variable [Sha256] {τ : Type} [TrafficAdapter τ] {op : Op} {g₀ g g' : Gate τ} {db : GateDb}

omit [Sha256] [TrafficAdapter τ] in
theorem mem_openReceipts_of_grows {db' : GateDb} {ts : List GateTransition}
    {t : GateTransition} (h : db'.transitions = ts ++ db.transitions) :
    t ∈ db'.openReceipts ↔ (t ∈ ts ∧ t.isOpenReceipt) ∨ t ∈ db.openReceipts := by
  simp [openReceipts, h]

-- The admissions stay, and the rest of the database grows.
theorem AdmissionInv.grow (hi : AdmissionInv g.db) (hc : Commit op g₀ g db)
    (ha : db.admissions = g.db.admissions) (he : db.admissionEvents = g.db.admissionEvents) :
    AdmissionInv db := by
  refine ⟨fun a hm => ?row, fun a hm => ?seq, ha ▸ hi.unique, fun id => ?fin⟩
  case row =>
    rw [ha] at hm
    have ⟨row, hr, had⟩ := hi.row a hm
    have ⟨row', hr', same, _, ts, ht, hs⟩ := hc.grows hr
    refine ⟨row', hr', had.grow same (fun t h => (mem_openReceipts_of_grows ht).mpr (.inr h)) ?_⟩
    intro t h
    rcases (mem_openReceipts_of_grows ht).mp h with ⟨h, _⟩ | h
    · exact .inr <| Nat.lt_of_le_of_lt (hi.seq a hm) (hs t h)
    · exact .inl h
  case seq =>
    rw [ha] at hm
    have ⟨row, hr, _⟩ := hi.row a hm
    have ⟨_, _, _, _, ts, ht, _⟩ := hc.grows hr
    rw [ht, List.length_append]
    exact Nat.le_add_left_of_le (hi.seq a hm)
  case fin =>
    have := hi.finishes id
    simp only [Gate.finishes, he, ha] at this ⊢
    exact this

section Insert

variable {request : AdmissionRequest} {row : GateRow} {r : RouteState} {n : Int}

omit [TrafficAdapter τ] in
theorem of_not_continuityMismatch (h : ¬continuityMismatch row r) (hb : row.state.beforeOpen) :
    r.generation = some row.predecessorGeneration ∧
      r.fence = predecessorFence row.predecessorGeneration := by
  have := not_or.mp fun h' => h ⟨hb, h'⟩
  exact ⟨not_not.mp this.left, not_not.mp (not_or.mp this.right).left⟩

omit [TrafficAdapter τ] in
theorem of_not_unknownRoute (h : ¬unknownRoute row r) :
    r.generation = row.routeGeneration ∧ r.fence = row.routeFence := by
  have := not_or.mp h
  exact ⟨not_not.mp this.left, not_not.mp (not_or.mp this.right).left⟩

-- Where a new request is admitted, the row says which generation it goes to.
omit [TrafficAdapter τ] in
theorem admitted_newAdmission (h : db.Inv) (hr : db.row = some row) (hb : ¬row.state.blocked)
    (hn : r.generation = some n) (hm : ¬continuityMismatch row r) (hu : ¬unknownRoute row r) :
    Admitted row db.openReceipts (newAdmission request row r.fence n) := by
  have hp := (h.row row hr).phase
  generalize db.openIntents = intents at hp
  generalize db.openReceipts = receipts at hp ⊢
  cases hp
  case before hs _ _ =>
    obtain ⟨hg, hf⟩ := of_not_continuityMismatch hm (by rcases hs with hs | hs <;> simp [hs, GateState.beforeOpen])
    exact .predecessor (Option.some.inj (hn.symm.trans hg)) hf (by simp)
  case opened receipt _ _ _ hf hs hg _ =>
    obtain ⟨hg', hf'⟩ := of_not_unknownRoute hu
    refine .candidate ?_ (List.mem_singleton.mpr rfl) ?_ hs
    · exact Option.some.inj (hn.symm.trans (hg'.trans hg))
    · exact hf.trans (congrArg some hf'.symm)
  case opening hs _ => simp [hs, GateState.blocked] at hb
  case ended hs _ _ => rcases hs with hs | hs | hs <;> simp [hs, GateState.blocked] at hb

-- After the open it goes to the candidate.
omit [TrafficAdapter τ] in
theorem candidate_of_openReceipts (h : db.Inv) (hr : db.row = some row) (hb : ¬row.state.blocked)
    (hn : r.generation = some n) (hu : ¬unknownRoute row r) (hne : db.openReceipts ≠ []) :
    n = row.candidateGeneration := by
  have hp := (h.row row hr).phase
  generalize db.openIntents = intents at hp
  generalize db.openReceipts = receipts at hp hne
  cases hp
  case before | opening => contradiction
  case opened hg _ =>
    have ⟨hg', _⟩ := of_not_unknownRoute hu
    exact Option.some.inj (hn.symm.trans (hg'.trans hg))
  case ended hs _ _ => rcases hs with hs | hs | hs <;> simp [hs, GateState.blocked] at hb

omit [Sha256] [TrafficAdapter τ] in
theorem requestId_of_admission? {id : String} (h : db.admission? id = none) :
    id ∉ db.admissions.map (·.requestId) := by
  simpa [admission?] using h

omit [TrafficAdapter τ] in
theorem AdmissionInv.insertAdmission (hi : AdmissionInv db) (h : db.Inv) (hr : db.row = some row)
    (hb : ¬row.state.blocked) (hn : r.generation = some n) (hm : ¬continuityMismatch row r)
    (hu : ¬unknownRoute row r) (hnew : db.admission? request.requestId = none) :
    AdmissionInv (insertAdmission (newAdmission request row r.fence n) db) := by
  refine ⟨fun a ha => ?row, fun a ha => ?seq, ?unique, fun id => ?fin⟩
  case row =>
    rcases List.mem_cons.mp ha with ha | ha
    · exact ⟨row, hr, ha ▸ admitted_newAdmission h hr hb hn hm hu⟩
    · exact hi.row a ha
  case seq =>
    rcases List.mem_cons.mp ha with ha | ha
    · subst ha
      exact (h.row row hr).transitionSeq
    · exact hi.seq a ha
  case unique =>
    exact List.nodup_cons.mpr ⟨requestId_of_admission? hnew, hi.unique⟩
  case fin =>
    have he : Gate.finishes (Gate.insertAdmission (newAdmission request row r.fence n) db) id =
        Gate.finishes db id := by
      simp [Gate.finishes, Gate.insertAdmission]
    rw [he]
    refine ⟨(hi.finishes id).left, fun hne => ?_⟩
    obtain ⟨a, ha, hf⟩ := (hi.finishes id).right hne
    exact ⟨a, List.mem_cons_of_mem _ ha, hf⟩

end Insert

section Finish

variable {existing : Admission} {result : AdmissionResult}

omit [Sha256] [TrafficAdapter τ] in
theorem eq_of_requestId (hi : AdmissionInv db) {a a' : Admission} (ha : a ∈ db.admissions)
    (ha' : a' ∈ db.admissions) (he : a.requestId = a'.requestId) : a = a' :=
  List.inj_on_of_nodup_map hi.unique ha ha' he

omit [Sha256] [TrafficAdapter τ] in
theorem AdmissionInv.insertFinish (hi : AdmissionInv db)
    (he : db.admission? existing.requestId = some existing) (hf : existing.finishedAt = none) :
    AdmissionInv (insertFinish existing result db) := by
  have hmem := List.mem_of_find?_eq_some he
  have hnone : Gate.finishes db existing.requestId = [] := by
    by_contra hne
    have ⟨a, ha, hid, hs⟩ := (hi.finishes _).right hne
    rw [eq_of_requestId hi ha hmem hid, hf] at hs
    contradiction
  refine ⟨fun a ha => ?row, fun a ha => ?seq, ?unique, fun id => ?fin⟩
  case row =>
    have ⟨b, hb, hba⟩ := List.mem_map.mp ha
    have ⟨row, hr, had⟩ := hi.row b hb
    exact ⟨row, hr, hba ▸ had.continues continues_finishRow⟩
  case seq =>
    have ⟨b, hb, hba⟩ := List.mem_map.mp ha
    rw [← hba, continues_finishRow.transitionSeq]
    exact hi.seq b hb
  case unique =>
    have he : (Gate.insertFinish existing result db).admissions.map (·.requestId) =
        db.admissions.map (·.requestId) := by
      simp [Gate.insertFinish, Function.comp_def, continues_finishRow.requestId]
    exact he ▸ hi.unique
  case fin =>
    by_cases hid : existing.requestId = id
    case pos =>
      subst hid
      have he : (Gate.finishes (Gate.insertFinish existing result db) existing.requestId).length =
          (Gate.finishes db existing.requestId).length + 1 := by
        simp [Gate.finishes, Gate.insertFinish]
      refine ⟨by simp [he, hnone], fun _ => ⟨_, List.mem_map_of_mem hmem, continues_finishRow.requestId, ?_⟩⟩
      simp [finishRow, hf]
    case neg =>
      have he : Gate.finishes (Gate.insertFinish existing result db) id = Gate.finishes db id := by
        simp [Gate.finishes, Gate.insertFinish, hid]
      rw [he]
      refine ⟨(hi.finishes id).left, fun hne => ?_⟩
      have ⟨a, ha, haid, hs⟩ := (hi.finishes id).right hne
      refine ⟨_, List.mem_map_of_mem ha, continues_finishRow.requestId.trans haid, ?_⟩
      rw [continues_finishRow.finished hs]
      exact hs

end Finish

theorem Commit.admissionInv (hc : Commit op g₀ g db) (h : g.db.Inv) (hi : AdmissionInv g.db) :
    AdmissionInv db := by
  have hc' := hc
  cases hc
  case admission hr hb _ hn hm hu hnew =>
    exact hi.insertAdmission h (h.getRow.mp hr) hb hn hm hu hnew
  case finish he hf => exact hi.insertFinish he hf
  all_goals exact hi.grow hc' rfl rfl

theorem Commit.continues {a : Admission} (hc : Commit op g₀ g db) (ha : a ∈ g.db.admissions) :
    ∃ a' ∈ db.admissions, Continues a a' := by
  cases hc
  case admission => exact ⟨a, List.mem_cons_of_mem _ ha, .rfl⟩
  case finish    => exact ⟨_, List.mem_map_of_mem ha, continues_finishRow⟩
  all_goals exact ⟨a, ha, .rfl⟩

-- A request gets its admission only while the gate is not blocked.
theorem Commit.requestIds {s : GateState} (hc : Commit op g₀ g db) (hs : g₀.state? = some s)
    (hb : s.blocked) : db.admissions.map (·.requestId) = g.db.admissions.map (·.requestId) := by
  cases hc
  case admission row _ _ h₀ hr hb' _ _ _ _ _ =>
    rw [state?, ← h₀, (getRow_ok_iff.mp hr).left, Option.map_some, Option.some.injEq] at hs
    exact absurd (hs ▸ hb) hb'
  case finish =>
    simp [insertFinish, Function.comp_def, continues_finishRow.requestId]
  all_goals rfl

-- From one state of the database to the next the requests stay the same, or one of them gets its
-- admission in a transaction that finds the gate in a state that is not blocked.
inductive Guarded (db : GateDb) : GateDb → Prop
  | same {db'} : db'.admissions.map (·.requestId) = db.admissions.map (·.requestId) → Guarded db db'
  | admitted {row a} : db.row = some row → ¬row.state.blocked → Guarded db (insertAdmission a db)

section Guard

variable {α : Type} {g : Gate τ}

omit [Sha256] in
theorem Guarded.rfl : Guarded db db :=
  .same (.refl _)

omit [Sha256] [TrafficAdapter τ] in
theorem append_guarded {kind : GateKind} {operation : GateOperation} {fromState : GateState}
    {n : Int} {fence : Option String} {detail : Json} {id : Option OperationId} :
    Paced (·.db) Guarded (append n kind operation fromState fence detail id : M τ Unit) g :=
  .act (.same (.refl _))

omit [Sha256] [TrafficAdapter τ] in
theorem transition_guarded {kind : GateKind} {operation : GateOperation} {target : GateState}
    {n : Int} {fence : Option String} {detail : Json} {id : Option OperationId}
    {update : Nat → GateRow → GateRow} :
    Paced (·.db) Guarded (transition n target operation kind detail fence id update : M τ Unit) g := by
  refine .act ?_
  cases h : g.db.transition n target operation kind detail fence id
  all_goals simp only [h]
  case error => exact .rfl
  case ok r  =>
    have ⟨row, _, _, he⟩ := GateDb.transition_ok_iff.mp h
    subst he
    exact .same (.refl _)

omit [Sha256] in
theorem tryCloseAll_guarded : Paced (·.db) Guarded (tryCloseAll : M τ _) g :=
  .attempt (.seq (.act .rfl) fun _ _ _ => .pure) fun _ _ _ _ => .pure

omit [Sha256] in
theorem tryQueryRoute_guarded : Paced (·.db) Guarded (tryQueryRoute : M τ _) g := by
  refine .attempt (.seq (.act ?_) fun _ _ _ => .pure) fun _ _ _ _ => .pure
  rcases TrafficAdapter.queryRoute g.traffic with ⟨_ | _, _⟩
  all_goals exact .rfl

omit [Sha256] [TrafficAdapter τ] in
theorem hit_guarded {point : String} : Paced (·.db) Guarded (hit point : M τ Unit) g := by
  refine .silent ?_
  split
  all_goals rfl

omit [Sha256] in
theorem failClose_guarded {n : Int} {reason : String} :
    Paced (·.db) Guarded (failClose n reason : M τ _) g :=
  .seq (.silent rfl) fun _ _ _ => .seq .raiseIf fun _ _ _ => .seq append_guarded fun _ _ _ =>
    .seq hit_guarded fun _ _ _ => .seq tryCloseAll_guarded fun _ _ _ => .seq hit_guarded fun _ _ _ =>
      .seq tryQueryRoute_guarded fun _ _ _ => .seq transition_guarded fun _ _ _ => .pure

-- The row that `observe` looks at first is still there when it inserts the admission.
theorem grantAdmission_guarded {request : AdmissionRequest} :
    Paced (·.db) Guarded (grantAdmission request : M τ _) g := by
  refine .seq (.silent rfl) fun row g₁ h₁ => .seq .raiseIf fun _ g₂ h₂ => .seq (.silent rfl) ?_
  intro r g₃ h₃
  obtain ⟨hr, hg₁⟩ := returns_lift.mp h₁
  obtain ⟨hb, hg₂⟩ := returns_raiseIf.mp h₂
  have hg₃ : g₃.db = g.db := by
    simp only [readRoute, returns_silent, Prod.mk.injEq] at h₃
    rw [← h₃.right, addRead_db, ← hg₂, ← hg₁]
  cases r.generation
  case none   => exact .raise
  case some n =>
    refine .seq .raiseIf fun _ g₄ h₄ => ?_
    obtain ⟨_, hg₄⟩ := returns_raiseIf.mp h₄
    split
    case isTrue  => exact .seq failClose_guarded fun _ _ _ => .raise
    case isFalse =>
      refine .seq .raiseIf fun _ g₅ h₅ => .seq (.act ?_) fun _ _ _ => .pure
      obtain ⟨_, hg₅⟩ := returns_raiseIf.mp h₅
      have hdb : g₅.db = g.db := by rw [← hg₅, ← hg₄, hg₃]
      exact .admitted (hdb ▸ (GateDb.getRow_ok_iff.mp hr).left) hb

omit [Sha256] [TrafficAdapter τ] in
theorem finishAdmission_guarded {existing : Admission} {result : AdmissionResult} :
    Paced (·.db) Guarded (finishAdmission existing result : M τ _) g := by
  refine .seq .raiseIf fun _ _ _ => .seq .raiseIf fun _ _ _ => .seq .raiseIf fun _ g' _ => .act ?_
  refine .same ?_
  simp [insertFinish, Function.comp_def, continues_finishRow.requestId]

theorem observe_guarded {request : AdmissionRequest} {result : Option AdmissionResult} :
    Paced (·.db) Guarded (observe request result : M τ _) g := by
  refine .seq (.seq (.silent rfl) fun existing _ _ => ?admitted) fun existing _ _ => ?finish
  case admitted =>
    cases existing
    case none   => exact grantAdmission_guarded
    case some _ => exact .pure
  case finish =>
    cases result
    case none   => exact .pure
    case some _ => exact .seq finishAdmission_guarded fun _ _ _ => .pure

end Guard

-- No operation but `observe` gives a request its admission.
theorem Commit.requestIds_of_ne (hc : Commit op g₀ g db) (hop : ∀ request result, op ≠ .observe request result) :
    db.admissions.map (·.requestId) = g.db.admissions.map (·.requestId) := by
  cases hc
  case admission he _ _ _ _ _ _ _ _ => exact absurd he (hop _ _)
  case finish => simp [insertFinish, Function.comp_def, continues_finishRow.requestId]
  all_goals rfl

theorem Op.ends_guarded (h : g.db.Inv) : ((g :: op.ends g).map (·.db)).IsChain Guarded := by
  by_cases hop : ∃ request result, op = .observe request result
  case pos =>
    obtain ⟨request, result, rfl⟩ := hop
    have hpaced : Paced (·.db) Guarded (Gate.observe request result) g.start :=
      observe_guarded
    have ⟨hhead, hchain⟩ := hpaced.void
    refine List.isChain_cons.mpr ⟨fun db hdb => ?_, hchain⟩
    exact Option.some.inj (hhead.symm.trans hdb) ▸ .rfl
  case neg =>
    let ids (g : Gate τ) := g.db.admissions.map (·.requestId)
    have hids : ∀ g' ∈ g :: op.ends g, ids g' = ids g := by
      refine List.forall_mem_cons.mpr ⟨rfl, fun g' he => ?_⟩
      refine Steps.db_invariant (P := fun db => db.admissions.map (·.requestId) = ids g)
        (Op.steps_of_ends h he) h rfl fun g₁ db _ hp hc => ?_
      exact (hc.requestIds_of_ne fun request result he => hop ⟨request, result, he⟩).trans hp
    have hchain : ((g :: op.ends g).map ids).IsChain (· = ·) := isChain_map_of_forall rfl hids
    refine List.isChain_map_of_isChain _ ?_ ((List.isChain_map ids).mp hchain)
    exact fun _ _ he => .same he.symm

-- The candidate has been opened, and every request that the predecessor was given is finished.
def PredecessorDone (db : GateDb) : Prop :=
  db.openReceipts ≠ [] ∧ ∀ row, db.row = some row → ∀ a ∈ db.admissions,
    a.chosenGeneration = row.predecessorGeneration → a.finishedAt.isSome

-- Once the candidate has been opened, the predecessor is given no request any more.
theorem Commit.predecessorDone (hc : Commit op g₀ g db) (h : g.db.Inv) (hd : PredecessorDone g.db) :
    PredecessorDone db := by
  cases hr : g.db.row
  case none     => exact absurd (by simp [openReceipts, h.empty hr]) hd.left
  case some row =>
    obtain ⟨row', hr', same, _, ts, ht, _⟩ := hc.grows hr
    refine ⟨?_, fun row'' hr'' a ha hg => ?_⟩
    case refine_1 =>
      simp only [openReceipts, ht, List.filter_append, ne_eq, List.append_eq_nil_iff, not_and]
      exact fun _ => hd.left
    have hrow : row'' = row' := Option.some.inj (hr''.symm.trans hr')
    rw [hrow, same.predecessorGeneration] at hg
    cases hc
    case admission row₀ r n _ h₀ hr₀ hb ho hn hm hu hnew =>
      have hrow₀ : row = row₀ := Option.some.inj (hr.symm.trans (h.getRow.mp hr₀))
      subst hrow₀
      rcases List.mem_cons.mp ha with ha | ha
      · have hcand := candidate_of_openReceipts h hr hb hn hu hd.left
        have hgen := (h.row row hr).generation
        have hn : a.chosenGeneration = n := ha ▸ rfl
        omega
      · exact hd.right row hr a ha hg
    case finish =>
      obtain ⟨b, hb, hba⟩ := List.mem_map.mp ha
      have hf := hd.right row hr b hb (by rw [← hg, ← hba, continues_finishRow.chosenGeneration])
      rw [← hba, continues_finishRow.finished hf]
      exact hf
    all_goals exact hd.right row hr a ha hg

section Runs

variable {env : τ → τ → Prop}

theorem reachable_admissionInv (h : Reachable Initial (Next Always env) g) : AdmissionInv g.db := by
  let I (g : Gate τ) := AdmissionInv g.db
  refine h.invariant (I := I) (fun g h => ?_) fun g g' h hi hn => ?_
  · rw [Initial] at h
    simp only [I, h]
    exact ⟨by simp, by simp, by simp, by simp [Gate.finishes]⟩
  · exact (run_db_invariant (.single hn) (reachable_inv h fun _ h => h) hi
      fun _ _ _ _ h hi hc => hc.admissionInv h hi).right

theorem run_continues {a : Admission} (h : g.db.Inv) (hr : ReflTransGen (Next Always env) g g')
    (ha : a ∈ g.db.admissions) : ∃ a' ∈ g'.db.admissions, Continues a a' := by
  let P (db : GateDb) := ∃ a' ∈ db.admissions, Continues a a'
  refine (run_db_invariant (P := P) hr h ⟨a, ha, .rfl⟩ ?_).right
  intro _ _ _ _ _ ⟨a', ha', hc'⟩ hc
  have ⟨a'', ha'', hc''⟩ := hc.continues ha'
  exact ⟨a'', ha'', hc'.trans hc''⟩

theorem predecessorDone_of_drain {n : Int} (h : g.db.Inv)
    (hd : (drain n g.start).value = .ok true) :
    (drain n g.start).state.db.Inv ∧ PredecessorDone (drain n g.start).state.db := by
  obtain ⟨_, hs, hp⟩ : Runs (.drain n) g.start _ (drain n) g.start := drain_runs rfl .refl
  obtain ⟨row, hr, hdr⟩ := hp true hd
  obtain ⟨hst, hun⟩ := hdr rfl
  have hinv := Steps.inv hs h
  obtain ⟨row', hr', same⟩ := Steps.same hs h (getRow_ok_iff.mp hr).left
  rw [state?, hr', Option.map_some, Option.some.injEq] at hst
  obtain ⟨_, _, receipt, _, hc, _⟩ := (hinv.row row' hr').phase.of_open (.inl hst)
  refine ⟨hinv, by simp [hc], fun row'' hr'' a ha hg => ?_⟩
  have hrow : row'' = row' := Option.some.inj (hr''.symm.trans hr')
  rw [hrow, same.predecessorGeneration] at hg
  rw [unfinished, List.countP_eq_zero] at hun
  have := hun a ha
  cases hf : a.finishedAt
  case none   => simp [hg, hf] at this
  case some _ => rfl

-- Admission safety: the environment may change the route under the gate as it likes.
theorem admission_safe (h : Reachable Initial (Next Always Anything) g) :
    g.db.openReceipts.length ≤ 1 ∧
    (∀ a ∈ g.db.admissions, ∃ row, g.db.row = some row ∧ Admitted row g.db.openReceipts a) ∧
    (∀ op g' s, g' ∈ Op.ends op g → g.state? = some s → s.blocked →
      g'.db.admissions.map (·.requestId) = g.db.admissions.map (·.requestId)) ∧
    (∀ op, ((g :: Op.ends op g).map (·.db)).IsChain Guarded) ∧
    (∀ g', ReflTransGen (Next Always Anything) g g' → ∀ a ∈ g.db.admissions,
      ∃ a' ∈ g'.db.admissions, Continues a a' ∧
        ∀ b ∈ g'.db.admissions, b.requestId = a.requestId → b = a') ∧
    (∀ id, (finishes g.db id).length ≤ 1) ∧
    (∀ n g', (drain n g.start).value = .ok true →
      ReflTransGen (Next Always Anything) (drain n g.start).state g' →
      ∀ row, g'.db.row = some row → ∀ a ∈ g'.db.admissions,
        a.chosenGeneration = row.predecessorGeneration → a.finishedAt.isSome) := by
  have hinv := reachable_inv h fun _ h => h
  have hadm := reachable_admissionInv h
  refine ⟨?receipt, hadm.row, ?blocked, fun _ => Op.ends_guarded hinv, ?continues, fun id => (hadm.finishes id).left, ?drain⟩
  case receipt =>
    cases hr : g.db.row
    case none     => simp [openReceipts, hinv.empty hr]
    case some row => exact (hinv.row row hr).phase.length_le.right
  case blocked =>
    intro op g' s he hs hb
    let P (db : GateDb) := db.admissions.map (·.requestId) = g.db.admissions.map (·.requestId)
    refine Steps.db_invariant (P := P) (Op.steps_of_ends hinv he) hinv rfl fun g₁ db _ hp hc => ?_
    exact (hc.requestIds hs hb).trans hp
  case continues =>
    intro g' hr a ha
    obtain ⟨a', ha', hc⟩ := run_continues hinv hr ha
    refine ⟨a', ha', hc, fun b hb he => ?_⟩
    exact eq_of_requestId (reachable_admissionInv (h.trans hr)) hb ha'
      (he.trans hc.requestId.symm)
  case drain =>
    intro n g' hd hr
    obtain ⟨hinv', hdone⟩ := predecessorDone_of_drain hinv hd
    exact (run_db_invariant hr hinv' hdone
      fun _ _ _ _ h hd hc => hc.predecessorDone h hd).right.right

end Runs

end Gate

namespace Gate.Sample

-- The first request is admitted to the predecessor and finishes after the open, the second one is
-- admitted to the candidate.
def served : Gate DeterministicTrafficAdapter :=
  (Op.observe ⟨"second", 5⟩ none).after <|
    (Op.observe ⟨"first", 3⟩ (some ⟨4, some "ok", none⟩)).after <| (Op.open 2 proof).after <|
      (Op.close 2).after <| (Op.observe ⟨"first", 3⟩ none).after staged

theorem reachable_served : Reachable Initial (Next Always Anything) served :=
  .step (.step (.step (.step (.step reachable_staged (.op _ trivial Op.after_mem))
    (.op _ trivial Op.after_mem)) (.op _ trivial Op.after_mem)) (.op _ trivial Op.after_mem))
    (.op _ trivial Op.after_mem)

theorem admission_safe_of_served :
    served.db.admissions.map (fun a => (a.requestId, a.chosenGeneration)) =
        [("second", 2), ("first", 1)] ∧
      (∀ a ∈ served.db.admissions, ∃ row, served.db.row = some row ∧
        Admitted row served.db.openReceipts a) ∧
      ∀ row, (drain 2 served.start).state.db.row = some row →
        ∀ a ∈ (drain 2 served.start).state.db.admissions,
          a.chosenGeneration = row.predecessorGeneration → a.finishedAt.isSome := by
  have ⟨_, hrow, _, _, _, _, hdrain⟩ := admission_safe reachable_served
  have ⟨hmap, hvalue⟩ :
      served.db.admissions.map (fun a => (a.requestId, a.chosenGeneration)) =
        [("second", 2), ("first", 1)] ∧
      (drain 2 served.start).value.toOption = some true := by
    decide +kernel
  exact ⟨hmap, hrow, hdrain 2 _ (Fallible.ok_of_toOption hvalue) .refl⟩

end Gate.Sample
