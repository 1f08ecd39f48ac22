import ExtManager.Gate.Refinement

open Crash Prog Relation

namespace GateTransition

def isOpenIntent (t : GateTransition) : Bool :=
  t.operation = .open ∧ t.kind = .intent

-- The receipt of an open that entered `CANDIDATE_OPEN`.
def isOpenReceipt (t : GateTransition) : Bool :=
  t.kind = .receipt ∧ t.toState = some .candidateOpen ∧
    (t.operation = .open ∨ t.operation = .openReconcile)

end GateTransition

namespace GateDb

def openIntents (db : GateDb) : List GateTransition :=
  db.transitions.filter (·.isOpenIntent)

def openReceipts (db : GateDb) : List GateTransition :=
  db.transitions.filter (·.isOpenReceipt)

theorem latest_openIntents {db : GateDb} : db.latest .open .intent = db.openIntents.head? := by
  simp [latest, openIntents, List.head?_filter, GateTransition.isOpenIntent]

variable [Sha256]

-- The intent of an open that `row` has been moved by.
structure Intended (row : GateRow) (intent : GateTransition) (proof : OpenProof) : Prop where
  detail          : intent.detail = proof.intentDetail
  fence           : intent.fence.isSome
  candidateDigest : proof.candidateDigest = row.candidateDigest
  lease           : proof.lease = row.lease
  proofDigest     : row.proofDigest = some proof.digest

-- How far the open of the candidate has come, from its intents and its receipts.
inductive Phase (row : GateRow) : List GateTransition → List GateTransition → Prop
  | before : row.state = .candidateStaged ∨ row.state = .candidateClosed →
      row.routeGeneration = some row.predecessorGeneration →
      row.routeFence = predecessorFence row.predecessorGeneration → Phase row [] []
  | opening {intent proof} : row.state = .opening → Intended row intent proof →
      Phase row [intent] []
  | opened {intent proof receipt} : row.state = .candidateOpen ∨ row.state = .draining →
      Intended row intent proof → intent.fence = some row.routeFence →
      receipt.fence = some row.routeFence → receipt.seq ≤ row.transitionSeq →
      row.routeGeneration = some row.candidateGeneration →
      row.observedCandidateDigest = some row.candidateDigest → Phase row [intent] [receipt]
  | ended {intents receipts} :
      row.state = .rolledBack ∨ row.state = .failedSafe ∨ row.state = .safetyUnknown →
      intents.length ≤ 1 → receipts.length ≤ 1 → Phase row intents receipts

section Phase

variable {row : GateRow} {intents receipts : List GateTransition}

theorem Phase.of_before (h : Phase row intents receipts) (hs : row.state.beforeOpen) :
    intents = [] ∧ receipts = [] ∧ row.routeGeneration = some row.predecessorGeneration ∧
      row.routeFence = predecessorFence row.predecessorGeneration := by
  cases h
  case before hg hf => exact ⟨rfl, rfl, hg, hf⟩
  case opening hs' _ => simp [hs', GateState.beforeOpen] at hs
  case opened hs' _ _ _ _ _ _ =>
    cases hs'
    all_goals simp_all [GateState.beforeOpen]
  case ended hs' _ _ =>
    rcases hs' with hs' | hs' | hs'
    all_goals simp [hs', GateState.beforeOpen] at hs

theorem Phase.of_opening (h : Phase row intents receipts) (hs : row.state = .opening) :
    ∃ intent proof, intents = [intent] ∧ receipts = [] ∧ Intended row intent proof := by
  cases h
  case opening intent proof _ hi => exact ⟨intent, proof, rfl, rfl, hi⟩
  all_goals simp_all

theorem Phase.of_open (h : Phase row intents receipts)
    (hs : row.state = .candidateOpen ∨ row.state = .draining) :
    ∃ intent proof receipt, intents = [intent] ∧ receipts = [receipt] ∧
      Intended row intent proof ∧ intent.fence = some row.routeFence ∧
      receipt.fence = some row.routeFence ∧ receipt.seq ≤ row.transitionSeq ∧
      row.routeGeneration = some row.candidateGeneration ∧
      row.observedCandidateDigest = some row.candidateDigest := by
  cases h
  case opened intent proof receipt _ hi hf hf' hseq hg ho =>
    exact ⟨intent, proof, receipt, rfl, rfl, hi, hf, hf', hseq, hg, ho⟩
  all_goals cases hs <;> simp_all

theorem Phase.length_le (h : Phase row intents receipts) :
    intents.length ≤ 1 ∧ receipts.length ≤ 1 := by
  cases h
  case ended hi hr => exact ⟨hi, hr⟩
  all_goals simp

end Phase

structure RowInv (db : GateDb) (row : GateRow) : Prop where
  schema            : row.schemaVersion = 2
  generation        : row.candidateGeneration = row.predecessorGeneration + 1
  candidateDigest   : row.candidateDigest = digestOf row.candidate
  predecessorDigest : row.predecessorDigest = digestOf row.predecessor
  transitionSeq     : row.transitionSeq ≤ db.transitions.length
  phase             : Phase row db.openIntents db.openReceipts
  recovery          : db.pendingRecoveryClose.isSome →
    (row.state = .opening ∨ row.state = .failedSafe ∨ row.state = .safetyUnknown) ∧
      db.openIntents ≠ []
  recoveryId        : ∀ t ∈ db.transitions, t.operation = .openReconcileCloseAll →
    t.operationId = ⟨.openReconcileClose, row.candidateGeneration⟩

-- What holds of the database whatever the adapter does.
structure Inv (db : GateDb) : Prop where
  seq   : ∀ t ∈ db.transitions, t.seq ≤ db.transitions.length
  empty : db.row = none → db.transitions = []
  row   : ∀ row, db.row = some row → db.RowInv row

theorem Inv.getRow {db : GateDb} {row : GateRow} (h : db.Inv) :
    db.getRow = .ok row ↔ db.row = some row := by
  rw [getRow_ok_iff]
  exact ⟨And.left, fun hr => ⟨hr, (h.row row hr).schema⟩⟩

-- Before the open and while the candidate is open no recovery close is under way.
theorem RowInv.noRecovery {db : GateDb} {row : GateRow} (h : db.RowInv row)
    (hs : row.state ≠ .opening) (hf : row.state ≠ .failedSafe) (hu : row.state ≠ .safetyUnknown) :
    db.pendingRecoveryClose = none := by
  by_contra hp
  have := (h.recovery (Option.isSome_iff_ne_none.mpr hp)).left
  simp_all

-- The columns that stay as `stage` has written them.
structure Same (row row' : GateRow) : Prop where
  predecessorGeneration : row'.predecessorGeneration = row.predecessorGeneration
  candidateGeneration   : row'.candidateGeneration = row.candidateGeneration
  predecessor           : row'.predecessor = row.predecessor
  candidate             : row'.candidate = row.candidate
  lease                 : row'.lease = row.lease
  schemaVersion         : row'.schemaVersion = row.schemaVersion
  candidateDigest       : row'.candidateDigest = row.candidateDigest
  predecessorDigest     : row'.predecessorDigest = row.predecessorDigest

omit [Sha256] in
theorem Same.rfl {row : GateRow} : Same row row :=
  ⟨.refl _, .refl _, .refl _, .refl _, .refl _, .refl _, .refl _, .refl _⟩

omit [Sha256] in
theorem Same.trans {row row' row'' : GateRow} (h : Same row row') (h' : Same row' row'') :
    Same row row'' where
  predecessorGeneration := h'.predecessorGeneration.trans h.predecessorGeneration
  candidateGeneration   := h'.candidateGeneration.trans h.candidateGeneration
  predecessor           := h'.predecessor.trans h.predecessor
  candidate             := h'.candidate.trans h.candidate
  lease                 := h'.lease.trans h.lease
  schemaVersion         := h'.schemaVersion.trans h.schemaVersion
  candidateDigest       := h'.candidateDigest.trans h.candidateDigest
  predecessorDigest     := h'.predecessorDigest.trans h.predecessorDigest

section Cons

variable {db db' : GateDb} {t : GateTransition} {row row' : GateRow}

omit [Sha256] in
theorem seq_cons (h : ∀ t ∈ db.transitions, t.seq ≤ db.transitions.length)
    (ht : db'.transitions = t :: db.transitions) (hs : t.seq = db.nextSeq) :
    ∀ t ∈ db'.transitions, t.seq ≤ db'.transitions.length := by
  intro t' ht'
  rw [ht, List.mem_cons] at ht'
  rw [ht, List.length_cons]
  cases ht'
  case inl he => exact he ▸ hs ▸ Nat.le_refl _
  case inr hm => exact Nat.le_succ_of_le (h t' hm)

omit [Sha256] in
theorem openIntents_cons (ht : db'.transitions = t :: db.transitions)
    (h : t.isOpenIntent = false) : db'.openIntents = db.openIntents := by
  simp [openIntents, ht, h]

omit [Sha256] in
theorem openIntents_cons_of (ht : db'.transitions = t :: db.transitions) (h : t.isOpenIntent) :
    db'.openIntents = t :: db.openIntents := by
  simp [openIntents, ht, h]

omit [Sha256] in
theorem openReceipts_cons_of (ht : db'.transitions = t :: db.transitions) (h : t.isOpenReceipt) :
    db'.openReceipts = t :: db.openReceipts := by
  simp [openReceipts, ht, h]

omit [Sha256] in
theorem openReceipts_cons (ht : db'.transitions = t :: db.transitions)
    (h : t.isOpenReceipt = false) : db'.openReceipts = db.openReceipts := by
  simp [openReceipts, ht, h]

omit [Sha256] in
theorem pendingRecoveryClose_isSome_cons (ht : db'.transitions = t :: db.transitions)
    (hk : t.operation = .openReconcileCloseAll → t.kind ≠ .intent)
    (h : db'.pendingRecoveryClose.isSome) : db.pendingRecoveryClose.isSome := by
  by_contra hn
  rw [pendingRecoveryClose_cons (Option.not_isSome_iff_eq_none.mp hn) ht hk] at h
  contradiction

theorem RowInv.cons (h : db.RowInv row) (same : Same row row')
    (ht : db'.transitions = t :: db.transitions) (hs : row'.transitionSeq ≤ db.nextSeq)
    (hid : t.operation = .openReconcileCloseAll →
      t.operationId = ⟨.openReconcileClose, row.candidateGeneration⟩)
    (hphase : Phase row' db'.openIntents db'.openReceipts)
    (hrec : db'.pendingRecoveryClose.isSome →
      (row'.state = .opening ∨ row'.state = .failedSafe ∨ row'.state = .safetyUnknown) ∧
        db'.openIntents ≠ []) : db'.RowInv row' where
  schema            := same.schemaVersion.trans h.schema
  generation        := by
    rw [same.candidateGeneration, same.predecessorGeneration, h.generation]
  candidateDigest   := by rw [same.candidateDigest, same.candidate, h.candidateDigest]
  predecessorDigest := by rw [same.predecessorDigest, same.predecessor, h.predecessorDigest]
  transitionSeq     := by rw [ht]; exact hs
  phase             := hphase
  recovery          := hrec
  recoveryId        := by
    intro t' ht' ho
    rw [ht, List.mem_cons] at ht'
    rw [same.candidateGeneration]
    cases ht'
    case inl he => exact he ▸ hid (he ▸ ho)
    case inr hm => exact h.recoveryId t' hm ho

theorem RowInv.recovery_cons (h : db.RowInv row) (ht : db'.transitions = t :: db.transitions)
    (ho : t.operation ≠ .openReconcileCloseAll) {s : GateState}
    (hs : (s = .opening ∨ s = .failedSafe ∨ s = .safetyUnknown) ∨ db.pendingRecoveryClose = none)
    (hp : db'.pendingRecoveryClose.isSome) :
    (s = .opening ∨ s = .failedSafe ∨ s = .safetyUnknown) ∧ db'.openIntents ≠ [] := by
  have hp' := pendingRecoveryClose_isSome_cons ht (fun he => absurd he ho) hp
  refine ⟨hs.resolve_right (Option.isSome_iff_ne_none.mp hp'), ?_⟩
  have hne := (h.recovery hp').right
  simp only [openIntents, ht, List.filter_cons]
  split
  case isTrue  => simp
  case isFalse => exact hne

theorem Inv.cons (h : db.Inv) (ht : db'.transitions = t :: db.transitions)
    (hs : t.seq = db.nextSeq) (hr : db'.row = some row') (hrow : db'.RowInv row') : db'.Inv where
  seq   := seq_cons h.seq ht hs
  empty := by simp [hr]
  row   := by
    intro row he
    rw [hr, Option.some.injEq] at he
    exact he ▸ hrow

end Cons

end GateDb

namespace Gate

open GateDb

variable [Sha256] {τ : Type} [TrafficAdapter τ] {op : Op} {g₀ g : Gate τ} {db : GateDb}
variable {row : GateRow}

omit [TrafficAdapter τ] in
theorem append_inv {kind : GateKind} {operation : GateOperation} {id : Option OperationId}
    {fromState : Option GateState} {fence : Option String} {detail : Json} (h : db.Inv)
    (hr : db.row = some row) (ho : operation = .open → kind = .receipt)
    (hid : operation = .openReconcileCloseAll →
      id = some ⟨.openReconcileClose, row.candidateGeneration⟩)
    (hrec : operation = .openReconcileCloseAll → kind = .intent → row.state = .opening) :
    (db.append row.candidateGeneration kind operation fromState none fence detail id).Inv := by
  have hrow := h.row row hr
  have hi : (db.append row.candidateGeneration kind operation fromState none fence detail
      id).openIntents = db.openIntents :=
    openIntents_cons rfl (by simp_all [GateTransition.isOpenIntent])
  refine h.cons rfl rfl hr
    (hrow.cons .rfl rfl (Nat.le_succ_of_le hrow.transitionSeq) ?id ?phase ?recovery)
  case id    => intro he; simp [hid he]
  case phase =>
    rw [hi, openReceipts_cons rfl (by simp [GateTransition.isOpenReceipt])]
    exact hrow.phase
  case recovery =>
    rw [hi]
    intro hp
    by_cases hk : operation = .openReconcileCloseAll ∧ kind = .intent
    case pos =>
      have hs := hrec hk.left hk.right
      have ⟨_, _, hone, _⟩ := hrow.phase.of_opening hs
      exact ⟨.inl hs, by simp [hone]⟩
    case neg =>
      exact hrow.recovery (pendingRecoveryClose_isSome_cons rfl (fun ho hi => hk ⟨ho, hi⟩) hp)

omit [TrafficAdapter τ] in
theorem Note.inv {kind : GateKind} {operation : GateOperation} {id : Option OperationId}
    {fromState : Option GateState} {fence : Option String} {detail : Json}
    (hn : Note row kind operation id) (h : db.Inv) (hr : db.row = some row) :
    (db.append row.candidateGeneration kind operation fromState none fence detail id).Inv := by
  cases hn
  all_goals exact append_inv h hr (by simp) (by simp) (by simp_all)

theorem Verdict.ended {operation : GateOperation} {s : GateState}
    (h : Verdict op g₀ g row operation s) : s = .rolledBack ∨ s = .failedSafe ∨ s = .safetyUnknown := by
  cases h
  all_goals simp

omit [Sha256] in
theorem accepts_rolledBack {s : GateState} (h : s.accepts .rolledBack) :
    s ≠ .opening ∧ s ≠ .failedSafe ∧ s ≠ .safetyUnknown := by
  revert h
  cases s <;> decide

omit [Sha256] in
theorem accepts_candidateClosed {s : GateState} (h : s.accepts .candidateClosed) : s.beforeOpen := by
  revert h
  cases s <;> decide

omit [Sha256] in
theorem accepts_draining {s : GateState} (h : s.accepts .draining) :
    s = .candidateOpen ∨ s = .draining := by
  revert h
  cases s <;> decide

section Move

variable {target : GateState} {operation : GateOperation} {kind : GateKind} {detail : Json}
variable {fence : Option String} {id : Option OperationId} {update : Nat → GateRow → GateRow}

-- The row after a move, with the update that follows it.
def movedRow (db : GateDb) (row : GateRow) (target : GateState) (update : Nat → GateRow → GateRow) :
    GateRow :=
  update db.nextSeq
    { row with state := target, transitionSeq := db.nextSeq, revision := row.revision + 1 }

omit [TrafficAdapter τ] in
theorem moved_inv (h : db.Inv) (hr : db.row = some row)
    (same : Same row (movedRow db row target update))
    (hseq : (movedRow db row target update).transitionSeq ≤ db.nextSeq)
    (ho : operation ≠ .openReconcileCloseAll)
    (hphase : Phase (movedRow db row target update)
      (db.moved row row.candidateGeneration target operation kind detail fence id update).openIntents
      (db.moved row row.candidateGeneration target operation kind detail fence id
        update).openReceipts)
    (hrec : ((movedRow db row target update).state = .opening ∨
        (movedRow db row target update).state = .failedSafe ∨
        (movedRow db row target update).state = .safetyUnknown) ∨ db.pendingRecoveryClose = none) :
    (db.moved row row.candidateGeneration target operation kind detail fence id update).Inv :=
  have hrow := h.row row hr
  h.cons rfl rfl rfl <| hrow.cons same rfl hseq (fun he => absurd he ho) hphase <|
    hrow.recovery_cons rfl ho hrec

omit [TrafficAdapter τ] in
theorem drain_inv (h : db.Inv) (hr : db.row = some row)
    (hs : row.state = .candidateOpen ∨ row.state = .draining)
    (ht : target = .candidateOpen ∨ target = .draining) :
    (db.moved row row.candidateGeneration target .drain kind detail fence id
      fun _ row => row).Inv := by
  have hrow := h.row row hr
  have ⟨intent, proof, receipt, hi, hc, hint, hf, hf', hseq, hg, ho⟩ := hrow.phase.of_open hs
  refine moved_inv h hr ⟨rfl, rfl, rfl, rfl, rfl, rfl, rfl, rfl⟩ (Nat.le_refl _) (by simp) ?_ <|
    .inr <| hrow.noRecovery ?_ ?_ ?_
  case refine_1 =>
    rw [openIntents_cons rfl (by simp [GateTransition.isOpenIntent]),
      openReceipts_cons rfl (by simp [GateTransition.isOpenReceipt]), hi, hc]
    exact .opened ht ⟨hint.detail, hint.fence, hint.candidateDigest, hint.lease, hint.proofDigest⟩
      hf hf' (Nat.le_trans hseq (Nat.le_succ_of_le hrow.transitionSeq)) hg ho
  all_goals cases hs <;> simp_all

omit [TrafficAdapter τ] in
theorem terminal_inv (h : db.Inv) (hr : db.row = some row) (ha : row.state.accepts target)
    (ht : target = .rolledBack ∨ target = .failedSafe ∨ target = .safetyUnknown)
    (ho : operation = .rollback ∨ operation = .failClose ∨ operation = .open)
    (hu : OnlyRoute update) :
    (db.moved row row.candidateGeneration target operation .receipt detail fence id
      update).Inv := by
  have hrow := h.row row hr
  have ⟨_, _, he⟩ := hu db.nextSeq
    { row with state := target, transitionSeq := db.nextSeq, revision := row.revision + 1 }
  have he : movedRow db row target update = _ := he
  refine moved_inv h hr ?same ?seq ?op ?phase ?recovery
  case same => rw [he]; exact ⟨rfl, rfl, rfl, rfl, rfl, rfl, rfl, rfl⟩
  case seq  => exact he ▸ Nat.le_refl _
  case op   => rcases ho with ho | ho | ho <;> simp [ho]
  case phase =>
    rw [openIntents_cons rfl (by simp [GateTransition.isOpenIntent]), openReceipts_cons rfl
      (by rcases ht with ht | ht | ht <;> simp [GateTransition.isOpenReceipt, ht]), he]
    exact .ended ht hrow.phase.length_le.left hrow.phase.length_le.right
  case recovery =>
    rw [he]
    rcases ht with ht | ht | ht
    · subst ht
      have ⟨h₁, h₂, h₃⟩ := accepts_rolledBack ha
      exact .inr <| hrow.noRecovery h₁ h₂ h₃
    · exact .inl <| .inr <| .inl ht
    · exact .inl <| .inr <| .inr ht

theorem Move.inv (hm : Move op g₀ g row target operation kind detail fence id update)
    (ha : row.state.accepts target) (h : g.db.Inv) (hr : g.db.row = some row) :
    (g.db.moved row row.candidateGeneration target operation kind detail fence id update).Inv := by
  have hrow := h.row row hr
  cases hm
  case closed =>
    have hs := accepts_candidateClosed ha
    have ⟨hi, hc, hg, hf⟩ := hrow.phase.of_before hs
    refine moved_inv h hr ⟨rfl, rfl, rfl, rfl, rfl, rfl, rfl, rfl⟩ (Nat.le_refl _) (by simp) ?_ <|
      .inr <| hrow.noRecovery ?_ ?_ ?_
    case refine_1 =>
      rw [openIntents_cons rfl (by simp [GateTransition.isOpenIntent]),
        openReceipts_cons rfl (by simp [GateTransition.isOpenReceipt]), hi, hc]
      exact .before (.inr rfl) hg hf
    all_goals intro hs'; simp [hs', GateState.beforeOpen] at hs
  case opening proof fence hs hd hl =>
    have hs' : row.state = .candidateClosed := (accepts_opening ha).resolve_right hs
    have ⟨hi, hc, _, _⟩ := hrow.phase.of_before (by simp [hs', GateState.beforeOpen])
    refine moved_inv h hr ⟨rfl, rfl, rfl, rfl, rfl, rfl, rfl, rfl⟩ (Nat.le_refl _) (by simp) ?_ <|
      .inl <| .inl rfl
    rw [openIntents_cons_of rfl (by simp [GateTransition.isOpenIntent]),
      openReceipts_cons rfl (by simp [GateTransition.isOpenReceipt]), hi, hc]
    exact .opening rfl ⟨rfl, rfl, hd, hl, rfl⟩
  case opened intent proof r hs hnone hi hp ho hm hop =>
    have ⟨intent', proof', hone, hc, hint⟩ := hrow.phase.of_opening hs
    have he : intent' = intent := by simpa [latest_openIntents, hone] using hi
    subst he
    have hproof : proof = (proof', proof'.digest) := by
      simpa [hint.detail, ofDetail_intentDetail] using hp.symm
    subst hproof
    have ⟨_, hf, hd⟩ : r.generation = some row.candidateGeneration ∧ some r.fence = intent'.fence ∧
        digestOf r.snapshot = proof'.candidateDigest := by
      simpa [candidateMismatch, not_or] using hm
    refine moved_inv h hr ⟨rfl, rfl, rfl, rfl, rfl, rfl, rfl, rfl⟩ (Nat.le_refl _) ?_ ?_ <| .inr hnone
    case refine_1 => cases hop <;> simp_all
    case refine_2 =>
      rw [openIntents_cons rfl (by simp [GateTransition.isOpenIntent]),
        openReceipts_cons_of rfl (by simpa [GateTransition.isOpenReceipt] using hop), hone, hc]
      refine .opened (.inl rfl) ⟨hint.detail, hint.fence, hint.candidateDigest, hint.lease,
        hint.proofDigest⟩ hf.symm rfl (Nat.le_refl _) rfl ?_
      exact congrArg some (hd.trans hint.candidateDigest)
  case draining   => exact drain_inv h hr (accepts_draining ha) (.inr rfl)
  case drained hs _ => exact drain_inv h hr (.inr hs) (.inl rfl)
  case terminal ho hv hu => exact terminal_inv h hr ha hv.ended ho hu

end Move

omit [TrafficAdapter τ] in
theorem staged_inv {candidate predecessor detail : Json} {n : Int} {r : RouteState}
    {grant : LeaseGrant} (h : db.Inv) (hr : db.row = none) (hg : r.generation = some n)
    (hf : r.fence = predecessorFence n) :
    ({ db with row := some (stagedRow candidate predecessor n r grant) }.moved
      (stagedRow candidate predecessor n r grant) (n + 1) .candidateStaged .stage .receipt detail
      none none fun _ row => row).Inv := by
  have he := h.empty hr
  refine h.cons rfl rfl rfl ⟨rfl, rfl, rfl, rfl, ?seq, ?phase, ?recovery, ?id⟩
  case seq      => exact Nat.le_refl _
  case phase    =>
    rw [openIntents_cons rfl (by simp [GateTransition.isOpenIntent]),
      openReceipts_cons rfl (by simp [GateTransition.isOpenReceipt])]
    simp only [openIntents, openReceipts, he, List.filter_nil]
    exact .before (.inl rfl) hg hf
  case recovery => simp [pendingRecoveryClose, moved, GateDb.append, he]
  case id       => simp [moved, GateDb.append, he]

omit [TrafficAdapter τ] in
theorem recovery_inv {intent : GateTransition} {target : GateState} {detail detail' : Json}
    {id : Option OperationId} (h : db.Inv) (hr : db.row = some row)
    (hp : db.pendingRecoveryClose = some intent) (ha : row.state.accepts target)
    (ht : target = .rolledBack ∨ target = .failedSafe ∨ target = .safetyUnknown) :
    ((db.append row.candidateGeneration .receipt .openReconcileCloseAll (some .opening) none
      (some "closed") detail (some intent.operationId)).moved row row.candidateGeneration target
      .open .receipt detail' none id fun _ row => row).Inv := by
  have hm := List.mem_of_find?_eq_some hp
  have ho : intent.operation = .openReconcileCloseAll := by
    have := List.find?_some hp
    simp_all
  have hid := (h.row row hr).recoveryId intent hm ho
  exact terminal_inv (append_inv h hr (by simp) (by simp [hid]) (by simp)) hr ha ht (by simp)
    onlyRoute_id

-- Every transaction of every operation keeps the invariant.
theorem Commit.inv (hc : Commit op g₀ g db) (h : g.db.Inv) : db.Inv := by
  cases hc
  case stage hr _ _ hg hf _   => exact staged_inv h hr hg hf
  case append hr hn _         => exact hn.inv h (h.getRow.mp hr)
  case move hr ha hm _        => exact hm.inv ha h (h.getRow.mp hr)
  case recovery hr hp ha hv _ => exact recovery_inv h (h.getRow.mp hr) hp ha hv.ended
  case admission | finish     =>
    refine ⟨h.seq, h.empty, fun row hr => ?_⟩
    have hrow := h.row row hr
    exact ⟨hrow.schema, hrow.generation, hrow.candidateDigest, hrow.predecessorDigest,
      hrow.transitionSeq, hrow.phase, hrow.recovery, hrow.recoveryId⟩

theorem Move.same {target : GateState} {operation : GateOperation} {kind : GateKind} {detail : Json}
    {fence : Option String} {id : Option OperationId} {update : Nat → GateRow → GateRow}
    (hm : Move op g₀ g row target operation kind detail fence id update) :
    Same row (movedRow db row target update) ∧ (movedRow db row target update).state = target := by
  cases hm
  case terminal hu =>
    have ⟨_, _, he⟩ := hu db.nextSeq
      { row with state := target, transitionSeq := db.nextSeq, revision := row.revision + 1 }
    have he : movedRow db row target update = _ := he
    rw [he]
    exact ⟨⟨rfl, rfl, rfl, rfl, rfl, rfl, rfl, rfl⟩, rfl⟩
  all_goals exact ⟨⟨rfl, rfl, rfl, rfl, rfl, rfl, rfl, rfl⟩, rfl⟩

omit [Sha256] in
theorem accepts_self {s : GateState} : s.accepts s := by
  simp [GateState.accepts]

-- What a transaction does to a row that is there: the table of transitions only grows, and the
-- state follows the table of allowed transitions.
theorem Commit.grows (hc : Commit op g₀ g db) (hr : g.db.row = some row) :
    ∃ row', db.row = some row' ∧ Same row row' ∧ row.state.accepts row'.state ∧
      ∃ ts, db.transitions = ts ++ g.db.transitions ∧ ∀ t ∈ ts, g.db.transitions.length < t.seq := by
  cases hc
  case stage hn _ _ _ _ _ => simp [hn] at hr
  case append             =>
    exact ⟨row, hr, .rfl, accepts_self, [_], rfl, by simp [nextSeq]⟩
  case move row' _ _ _ _ _ _ _ hr' ha hm _ =>
    have he : row = row' := by simpa [hr] using (getRow_ok_iff.mp hr').left
    subst he
    exact ⟨movedRow g.db row _ _, rfl, hm.same.left, by rw [hm.same.right]; exact ha, [_], rfl,
      by simp [nextSeq]⟩
  case recovery row' _ _ _ _ _ hr' _ ha _ _ =>
    have he : row = row' := by simpa [hr] using (getRow_ok_iff.mp hr').left
    subst he
    refine ⟨_, rfl, ⟨rfl, rfl, rfl, rfl, rfl, rfl, rfl, rfl⟩, ha, [_, _], rfl, fun t ht => ?_⟩
    have ht : t.seq = g.db.transitions.length + 1 + 1 ∨ t.seq = g.db.transitions.length + 1 := by
      rw [List.mem_cons, List.mem_singleton] at ht
      exact ht.imp (congrArg GateTransition.seq) (congrArg GateTransition.seq)
    omega
  case admission | finish => exact ⟨row, hr, .rfl, accepts_self, [], rfl, by simp⟩

-- The gate gets to `ROLLED_BACK` or `FAILED_SAFE` by a verdict only.
theorem Commit.entered {row' : GateRow} (hc : Commit op g₀ g db) (hr' : db.row = some row')
    (hs : row'.state = .rolledBack ∨ row'.state = .failedSafe) :
    ∃ row, g.db.row = some row ∧ Same row row' ∧
      (row.state = row'.state ∨ ∃ operation, Verdict op g₀ g row operation row'.state) := by
  cases hc
  case stage => cases hr'; simp at hs
  case append | admission | finish => exact ⟨row', hr', .rfl, .inl rfl⟩
  case move row target _ _ _ _ _ update hr ha hm _ =>
    have he : movedRow g.db row target update = row' := Option.some.inj hr'
    subst he
    have ⟨same, ht⟩ : Same row (movedRow g.db row target update) ∧ _ := hm.same
    rw [ht] at hs ⊢
    refine ⟨row, (getRow_ok_iff.mp hr).left, same, .inr ?_⟩
    cases hm
    case terminal hv _ => exact ⟨_, hv⟩
    all_goals simp at hs
  case recovery row _ _ _ _ _ hr _ _ hv _ =>
    cases hr'
    exact ⟨row, (getRow_ok_iff.mp hr).left, ⟨rfl, rfl, rfl, rfl, rfl, rfl, rfl, rfl⟩, .inr ⟨_, hv⟩⟩

-- A row comes into being over the predecessor's route.
theorem Commit.staged {row' : GateRow} (hc : Commit op g₀ g db) (hr : g.db.row = none)
    (hr' : db.row = some row') :
    row'.state = .candidateStaged ∧
      row'.candidateGeneration = row'.predecessorGeneration + 1 ∧
      ∃ r, g.Observed r ∧ r.generation = some row'.predecessorGeneration ∧
        r.fence = predecessorFence row'.predecessorGeneration ∧ r.snapshot = row'.predecessor := by
  cases hc
  case stage r _ _ _ _ _ ho hg hf hs =>
    cases hr'
    exact ⟨rfl, rfl, r, ho, hg, hf, hs⟩
  case admission | finish => exact absurd (hr.symm.trans hr') (by simp)
  all_goals simp_all [getRow]

-- A row comes into being by `stage`.
theorem Commit.staged_op {row' : GateRow} (hc : Commit op g₀ g db) (hr : g.db.row = none)
    (hr' : db.row = some row') : ∃ candidate, op = .stage candidate row'.predecessor ∧
      generationOf row'.predecessor = .ok row'.predecessorGeneration := by
  cases hc
  case stage hop _ hn _ _ _ _ =>
    cases hr'
    exact ⟨_, hop, hn⟩
  case admission | finish => exact absurd (hr.symm.trans hr') (by simp)
  all_goals simp_all [getRow]

omit [Sha256] in
theorem mem_openIntents_of_grows {db db' : GateDb} {intent : GateTransition}
    {ts : List GateTransition} (h : db'.transitions = ts ++ db.transitions)
    (hi : intent ∈ db.openIntents) : intent ∈ db'.openIntents := by
  simp only [openIntents, h, List.filter_append, List.mem_append]
  exact .inr hi

-- Only an open announces an open.
theorem Commit.openIntents_eq (hc : Commit op g₀ g db) (ho : ∀ n proof, op ≠ .open n proof) :
    db.openIntents = g.db.openIntents := by
  cases hc
  case stage              => exact openIntents_cons rfl rfl
  case admission | finish => rfl
  case append hn _        => cases hn <;> exact openIntents_cons rfl rfl
  case recovery           => exact (openIntents_cons rfl rfl).trans (openIntents_cons rfl rfl)
  case move hm _          =>
    cases hm
    case opening hop _ _ _ _ _ => exact absurd hop (ho _ _)
    all_goals exact openIntents_cons rfl (by simp [GateTransition.isOpenIntent])

-- Only transactions touch the database.
theorem Step.db_cases {g' : Gate τ} (hs : Step op g₀ g g') :
    g'.db = g.db ∨ Commit op g₀ g g'.db := by
  cases hs
  case commit hc     => exact .inr hc
  case query v _ _ _ => cases v <;> exact .inl rfl
  all_goals exact .inl rfl

theorem Steps.inv (hs : Steps op g₀ g) (h : g₀.db.Inv) : g.db.Inv := by
  induction hs
  case refl        => exact h
  case tail hs hinv =>
    rcases hs.db_cases with he | hc
    · exact he ▸ hinv
    · exact hc.inv hinv

-- What every transaction keeps holds of the database throughout an operation.
theorem Steps.db_invariant {P : GateDb → Prop} (hs : Steps op g₀ g) (h : g₀.db.Inv) (hp : P g₀.db)
    (hc : ∀ g db, g.db.Inv → P g.db → Commit op g₀ g db → P db) : P g.db := by
  induction hs
  case refl => exact hp
  case tail hs hn ih =>
    rcases hn.db_cases with he | hco
    · exact he ▸ ih
    · exact hc _ _ (Steps.inv hs h) ih hco

theorem Steps.same (hs : Steps op g₀ g) (h : g₀.db.Inv) (hr : g₀.db.row = some row) :
    ∃ row', g.db.row = some row' ∧ Same row row' := by
  let P (db : GateDb) := ∃ row', db.row = some row' ∧ Same row row'
  refine Steps.db_invariant (P := P) hs h ⟨row, hr, .rfl⟩ fun g db _ ⟨row', hr', same⟩ hc => ?_
  have ⟨row'', hr'', same', _⟩ := hc.grows hr'
  exact ⟨row'', hr'', same.trans same'⟩

theorem Op.steps_of_ends {g' : Gate τ} (h : g.db.Inv) (he : g' ∈ op.ends g) :
    Steps op g.start g' := by
  refine op.ends_steps (fun hs => ?_) he
  have ⟨row, hr, hs⟩ := Option.map_eq_some_iff.mp hs
  exact (h.row row hr).noRecovery (by simp [hs]) (by simp [hs]) (by simp [hs])

theorem Op.ends_inv {g' : Gate τ} (h : g.db.Inv) (he : g' ∈ op.ends g) : g'.db.Inv :=
  (Op.steps_of_ends h he).inv h

end Gate
