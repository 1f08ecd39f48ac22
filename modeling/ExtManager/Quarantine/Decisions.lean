import ExtManager.Quarantine.Chains

namespace Quarantine

open Process Process.Prog

variable {tid : Tid}

theorem validateRestored_restoredValue {digest : Digest} {a : Option Digest} {reason : Reason}
    (h : reason.Restores) :
    validateRestored tid digest a none (restoredValue tid digest a reason) = .ok () := by
  simp [validateRestored, restoredValue, h]

theorem validateBlocked_blockedValue {digest : Digest} {a z : Option Digest} {reason : Reason}
    (h : reason.Blocks) (hz : reason = .sourceReplacementAfterFinalize ↔ z.isSome) :
    validateBlocked tid digest a z (blockedValue tid digest a z reason) = .ok () := by
  simp only [validateBlocked, blockedValue, true_and]
  exact if_pos ⟨h, hz⟩

theorem validateFinalized_finalizedValue {digest applied fact : Digest} {i : ProcessIdentity}
    (h : i.Valid) :
    validateFinalized tid digest applied (finalizedValue tid digest applied fact i) = .ok () := by
  simp [validateFinalized, finalizedValue, h]

variable [Deployment] {strict : Prop} {r : Root}

section Marks

variable {i : Record}

theorem markBlocked_records {z : Option Digest} {reason : Reason} {a : Option Digest}
    (hi : r.files.lookup (.record tid .intent) = some i)
    (ha : a = (r.files.lookup (.record tid .applied)).map Deployment.ofRecord)
    (hr : r.files.lookup (.record tid .restored) = none) (hb : reason.Blocks)
    (hz : reason = .sourceReplacementAfterFinalize ↔ z.isSome)
    (hs : strict → Careful r.files (.record tid .blocked)
      (blockedValue tid (Deployment.ofRecord i) a z reason) →
      z = (r.files.lookup (.record tid .finalized)).map Deployment.ofRecord) :
    Yields (Sees strict) (recordKeeping strict) (fun _ _ => True) (fun _ => True)
      (markBlocked tid (Deployment.ofRecord i) a z reason) r := by
  refine (writeRecord_records fun _ hg hc => ?_).mono (fun _ _ _ => trivial) fun _ _ => trivial
  exact hc.put_blocked hi (ha ▸ validateBlocked_blockedValue hb hz) (fun h => hs h (hg h)) hr

theorem block_records {reason : Reason} {text : String} {c : Chain} {α : Type}
    (hi : r.files.lookup (.record tid .intent) = some c.intent)
    (ha : c.applied = r.files.lookup (.record tid .applied))
    (hz : r.files.lookup (.record tid .finalized) = none)
    (hr : r.files.lookup (.record tid .restored) = none) (hb : reason.Blocks)
    (hn : reason ≠ .sourceReplacementAfterFinalize) :
    Yields (Sees strict) (recordKeeping strict) (fun _ _ => False) (fun _ => True)
      (block (α := α) tid c reason text) r := by
  refine .bind (markBlocked_records hi (congrArg _ ha) hr hb (by simp [hn]) fun _ _ => ?_)
    fun _ _ _ => .raise trivial
  simp [hz]

end Marks

theorem finalizeLocked_records {applied fact : Digest} {p : ProcessIdentity} :
    Yields (Sees strict) (recordKeeping strict) (fun _ _ => True) (fun _ => True)
      (finalizeLocked tid applied fact p) r := by
  refine .bind ((theRecord_records readQuarantineRecord_records).mono (fun _ _ h => h)
    fun _ _ => trivial) fun i r' ⟨hr, hi⟩ => ?_
  cases hr
  refine .bind ((theRecord_records readQuarantineRecord_records).mono (fun _ _ h => h)
    fun _ _ => trivial) fun a r' ⟨hr, ha⟩ => ?_
  cases hr
  refine .lift_seq (fun _ _ => trivial) fun ⟨v, s⟩ hs => .lift_seq (fun _ _ => trivial) fun _ hv => ?_
  refine .raiseIf_seq (fun _ => trivial) fun hp => ?_
  simp only [not_or, not_not] at hp
  refine .bind (readQuarantineRecord_records.mono (fun _ _ h => h) fun _ _ => trivial)
    fun o r' ⟨hr, ho, _⟩ => ?_
  cases hr
  refine .raiseIf_seq (fun _ => trivial) fun hn => ?_
  have hr := ho.symm.trans <| not_not.mp hn
  refine .bind (readQuarantineRecord_records.mono (fun _ _ h => h) fun _ _ => trivial)
    fun o r' ⟨hr, ho, _⟩ => ?_
  cases hr
  refine .raiseIf_seq (fun _ => trivial) fun hn => ?_
  have hb := ho.symm.trans <| not_not.mp hn
  refine elsewhere_seq (only_onSink elsewhere_snapshotJournal trivial) trivial fun _ => ?_
  refine .raiseIf_seq (fun _ => trivial) fun _ => ?_
  refine elsewhere_seq (only_openJournalRoot nofun) trivial fun _ => ?_
  refine .bind (R := fun _ r' => r' = r) ?_ fun _ r' hr' => ?_
  · refine elsewhere_closing (elsewhere_os nofun) (fun _ _ _ => trivial) ?_
    refine elsewhere_seq elsewhere_readSourceFence trivial fun _ => ?_
    refine elsewhere_seq elsewhere_journalExists trivial fun _ => ?_
    refine .when (fun _ => ?_) fun _ => rfl
    refine .bind (markBlocked_records hi (by simp [ha]) hr (by decide) (by simp)
      fun _ hg => ?_) fun _ _ _ => .raise trivial
    simp [hg rfl rfl]
  · cases hr'
    refine (writeRecord_records fun _ _ hc => ?_).mono (fun _ _ _ => trivial) fun _ _ => trivial
    exact hc.put_finalized hi ha (validateFinalized_finalizedValue hp.right.right.right) hr hb

theorem keepFinalized_records {c : Chain} {s : QuarantinedJournal} {z : Record} {b : Nat}
    (hi : r.files.lookup (.record tid .intent) = some c.intent)
    (ha : c.applied = r.files.lookup (.record tid .applied))
    (hz : r.files.lookup (.record tid .finalized) = some z)
    (hr : r.files.lookup (.record tid .restored) = none) :
    Yields (Sees strict) (recordKeeping strict) (fun _ _ => True) (fun _ => True)
      (keepFinalized tid c s z b) r := by
  refine .lift_seq (fun _ _ => trivial) fun _ _ => ?_
  refine elsewhere_seq (only_onSink elsewhere_snapshotJournal trivial) trivial fun _ => ?_
  refine .raiseIf_seq (fun _ => trivial) fun _ => ?_
  refine elsewhere_seq elsewhere_readSourceFence trivial fun _ => ?_
  refine elsewhere_seq elsewhere_journalExists trivial fun _ => ?_
  refine .bind (R := fun _ _ => True) (.when (fun _ => ?_) fun _ => trivial) fun _ _ _ => .pure trivial
  refine .bind (markBlocked_records hi (congrArg _ ha) hr (by decide) (by simp) fun _ _ => ?_)
    fun _ _ _ => .raise trivial
  simp [hz]

theorem elsewhere_keepRestored {c : Chain} {s : QuarantinedJournal} {v : Record} {b : Nat} :
    (keepRestored tid c s v b).Only Elsewhere := by
  refine .bind trivial fun _ => .bind elsewhere_readSourceFence fun _ => .bind .raiseIf fun _ => ?_
  refine .bind elsewhere_journalExists fun _ => .bind .raiseIf fun _ => ?_
  exact .bind (only_onSink elsewhere_snapshotJournal trivial) fun _ => .bind .raiseIf fun _ => trivial

-- What the records of a transaction without a terminal record are when it is reconciled.
structure Unfinished (r : Root) (tid : Tid) (c : Chain) : Prop where
  intent : r.files.lookup (.record tid .intent) = some c.intent
  applied : c.applied = r.files.lookup (.record tid .applied)
  finalized : r.files.lookup (.record tid .finalized) = none
  restored : r.files.lookup (.record tid .restored) = none
  blocked : r.files.lookup (.record tid .blocked) = none

theorem bringBack_records {c : Chain} {s : QuarantinedJournal} {b : Nat} (h : Unfinished r tid c) :
    Yields (Sees strict) (recordKeeping strict) (fun reason r' => r' = r ∧ reason.Restores)
      (fun _ => True) (bringBack tid c s b) r := by
  have blocks {α} {P : α → Root → Prop} {reason : Reason} {text : String} (hb : reason.Blocks)
      (hn : reason ≠ .sourceReplacementAfterFinalize) : Yields (Sees strict) (recordKeeping strict) P
      (fun _ => True) (block (α := α) tid c reason text) r :=
    (block_records h.intent h.applied h.finalized h.restored hb hn).mono nofun fun _ _ => trivial
  refine elsewhere_seq elsewhere_journalExists trivial fun _ => ?_
  refine elsewhere_seq elsewhere_journalExists trivial fun _ => ?_
  refine .ite (fun _ => blocks (by decide) nofun) fun _ => .ite (fun _ => ?_) fun _ => ?_
  · refine elsewhere_seq elsewhere_readSourceFence trivial fun _ => ?_
    refine .bind (R := fun _ r' => r' = r) ?_ fun _ r' hr => ?_
    · refine .attempt (restoreQuarantinedJournal_records (q := s)) fun e r' hr => ?_
      cases hr
      cases e
      case sink => exact blocks (by decide) nofun
      all_goals exact .raise trivial
    · refine .pure ⟨hr, ?_⟩
      split <;> trivial
  · refine .ite (fun _ => ?_) fun _ => blocks (by decide) nofun
    refine elsewhere_seq elsewhere_snapshotJournal trivial fun _ => ?_
    exact .ite (fun _ => blocks (by decide) nofun) fun _ => .pure ⟨rfl, trivial⟩

theorem restoreUnfinished_records {c : Chain} {s : QuarantinedJournal} {b : Nat}
    (h : Unfinished r tid c) :
    Yields (Sees strict) (recordKeeping strict) (fun _ _ => True) (fun _ => True)
      (restoreUnfinished tid c s b) r := by
  refine .bind (bringBack_records h) fun reason r' ⟨hr, hs⟩ => ?_
  cases hr
  refine elsewhere_seq elsewhere_removeFence trivial fun _ => ?_
  refine .bind (R := fun _ _ => True) ?_ fun _ _ _ => .pure trivial
  refine (writeRecord_records fun _ _ hc => ?_).mono (fun _ _ _ => trivial) fun _ _ => trivial
  exact hc.put_restored h.intent (validateRestored_restoredValue hs) (fun _ => congrArg _ h.applied)
    h.finalized h.blocked

theorem refuseBlocked_only {c : Chain} {v : Record} : (refuseBlocked tid c v).Only Elsewhere :=
  .bind trivial fun _ => .bind trivial fun _ => trivial

theorem settle_records {b : Nat} :
    Yields (Sees strict) (recordKeeping strict) (fun _ _ => True) (fun _ => True) (settle b tid) r := by
  have reads {n : Name} {required : Bool} :
      Yields (Sees strict) (recordKeeping strict) (fun o r' => r' = r ∧ o = r.files.lookup n)
        (fun _ => True) (readRecord .quarantine n required) r :=
    readRecord_records.mono (fun _ _ h => ⟨h.left, h.right.left⟩) fun _ _ => trivial
  refine .bind ((theRecord_records readRecord_records).mono (fun _ _ h => h) fun _ _ => trivial)
    fun i r' ⟨hr, hi⟩ => ?_
  cases hr
  refine .lift_seq (fun _ _ => trivial) fun ⟨v, s⟩ hs => .raiseIf_seq (fun _ => trivial) fun hp => ?_
  refine .bind reads fun a r' ⟨hr, ha⟩ => ?_
  cases hr
  refine .lift_seq (fun _ _ => trivial) fun _ _ => .bind reads fun z r' ⟨hr, hz⟩ => ?_
  cases hr
  refine .bind reads fun o r' ⟨hr, ho⟩ => ?_
  cases hr
  refine .bind reads fun k r' ⟨hr, hk⟩ => ?_
  cases hr
  refine .raiseIf_seq (fun _ => trivial) fun hn => ?_
  match k, z, o with
  | some k, _,      _      => exact elsewhere refuseBlocked_only (fun _ => trivial) trivial
  | none,   some z, none   => exact keepFinalized_records hi ha hz.symm ho.symm
  | none,   some z, some o => exact absurd ⟨nofun, .inl nofun⟩ hn
  | none,   none,   some o => exact elsewhere elsewhere_keepRestored (fun _ => trivial) trivial
  | none,   none,   none   => exact restoreUnfinished_records ⟨hi, ha, hz.symm, ho.symm, hk.symm⟩

theorem settleAll_records {b : Nat} {tids : List Tid} {a : ReconciliationResult} :
    Yields (Sees strict) (recordKeeping strict) (fun _ _ => True) (fun _ => True)
      (settleAll b tids a) r := by
  induction tids generalizing r a with
  | nil            => exact .pure trivial
  | cons tid _ ih => exact .bind settle_records fun _ _ _ => ih

theorem reconcileLocked_records {b : Nat} :
    Yields (Sees strict) (recordKeeping strict) (fun _ _ => True) (fun _ => True)
      (reconcileLocked b) r := by
  refine elsewhere_seq (only_openJournalRoot nofun) trivial fun _ => ?_
  refine elsewhere_seq (.attempt (only_openJournalRoot nofun) fun _ => .bind (elsewhere_os nofun)
    fun _ => trivial) trivial fun _ => ?_
  refine elsewhere_closing (.bind (elsewhere_os nofun) fun _ => elsewhere_os nofun)
    (fun _ _ _ => trivial) ?_
  refine elsewhere_seq (elsewhere_os nofun) trivial fun _ => ?_
  refine elsewhere_seq (elsewhere_os nofun) trivial fun _ => ?_
  refine .raiseIf_seq (fun _ => trivial) fun _ => elsewhere_seq elsewhere_sweep trivial fun _ => ?_
  refine .bind ((recordWindow strict).sweep.mono (fun _ _ h => h) fun _ _ => trivial) fun names r' _ => ?_
  exact .raiseIf_seq (fun _ => trivial) fun _ => settleAll_records

-- What a prepared fact stands on: its intent is published, and it is the intent of its snapshot.
structure Ready (fact : Fact) (r : Root) : Prop where
  intent : r.files.lookup (.record fact.tid .intent) = some fact.intent
  snapshot : ∃ v, intentSnapshot fact.tid fact.intent = .ok (v, fact.snapshot)

theorem Ready.grows {fact : Fact} {r' : Root} (h : Ready fact r)
    (hg : Grows strict r.files r'.files) : Ready fact r' :=
  ⟨hg.persist _ _ h.intent, h.snapshot⟩

theorem prepareLocked_records {b : Binding} :
    Yields (Sees strict) (recordKeeping strict) Ready (fun _ => True) (prepareLocked b) r := by
  refine .bind reconcileLocked_records fun _ r' _ => ?_
  refine elsewhere_seq (elsewhere_os nofun) trivial fun raw => ?_
  refine elsewhere_seq elsewhere_snapshotJournal trivial fun s => .raiseIf_seq (fun _ => trivial) fun _ => ?_
  refine .bind ((writeRecord_records fun hn _ hc => hc.put_intent hn rfl).mono (fun _ _ h => h)
    fun _ _ => trivial) fun i r'' ⟨hi, hl, _⟩ => .pure ?_
  cases hi
  exact ⟨hl, _, intentSnapshot_intentValue rfl⟩

-- The records of these stages are not there.
def Lacks (r : Root) (tid : Tid) (stages : List Stage) : Prop :=
  ∀ st ∈ stages, r.files.lookup (.record tid st) = none

theorem refuseChanged_records {stages : List Stage} :
    Yields (Sees strict) (recordKeeping strict) (fun _ r' => r' = r ∧ Lacks r tid stages)
      (fun r' => r' = r) (refuseChanged tid stages) r := by
  induction stages with
  | nil            => exact .pure ⟨rfl, nofun⟩
  | cons st sts ih =>
    refine .bind readQuarantineRecord_records fun o r' ⟨hr, ho, _⟩ => ?_
    cases hr
    refine .raiseIf_seq (fun _ => rfl) fun hn => ih.mono (fun _ r' h => ⟨h.left, fun st' hm => ?_⟩) ?_
    · cases hm
      case head      => exact ho.symm.trans <| not_not.mp hn
      case tail hm   => exact h.right st' hm
    · exact fun _ h => h

theorem fenceTarget_records {fact : Fact} :
    Yields (Sees strict) (recordKeeping strict)
      (fun _ r' => r' = r ∧ Lacks r fact.tid [.applied, .finalized, .restored, .blocked])
      (fun r' => r' = r) (fenceTarget fact) r := by
  refine .bind refuseChanged_records fun _ r' ⟨hr, hl⟩ => ?_
  cases hr
  refine elsewhere_seq elsewhere_snapshotJournal rfl fun _ => .raiseIf_seq (fun _ => rfl) fun _ => ?_
  exact elsewhere_seq elsewhere_installFence rfl fun _ => .pure ⟨rfl, hl⟩

-- How far a commit has come, as its handler sees it.
structure Undoable (fact : Fact) (p : Progress) (r : Root) : Prop where
  ready : Ready fact r
  moved : p.quarantined ≠ none → Lacks r fact.tid [.finalized, .restored, .blocked]
  applied : ∀ a, p.applied = some a → r.files.lookup (.record fact.tid .applied) = some a

theorem commitMove_records {fact : Fact} (h : Ready fact r)
    (hl : Lacks r fact.tid [.applied, .finalized, .restored, .blocked]) :
    Yields (Sees strict) (recordKeeping strict) (fun p r' => Undoable fact p.1 r') (fun _ => False)
      (commitMove fact) r := by
  have ⟨v, hv⟩ := h.snapshot
  have hz := hl .finalized (by decide)
  have ho := hl .restored (by decide)
  have hk := hl .blocked (by decide)
  refine .bind (R := fun q r' => r' = r ∧ ∀ q', q = .ok q' → q' = fact.snapshot) ?_ fun q r' hq => ?_
  · refine .capture (F := fun r' => r' = r) (quarantineJournal_records.mono (fun q r' h => ?_)
      fun _ h => h) fun _ _ h => ⟨h, nofun⟩
    exact ⟨h.left, fun q' hq => by cases hq; exact h.right _ rfl⟩
  cases hq.left
  match q with
  | .error e => exact .pure ⟨h, nofun, nofun⟩
  | .ok q    =>
    cases hq.right q rfl
    let raw := appliedValue fact.tid (Deployment.ofRecord fact.intent) fact.snapshot
    have hput (_ : r.files.lookup (.record fact.tid .applied) = none)
        (_ : strict → Careful r.files (.record fact.tid .applied) raw) (hc : Chained strict r.files fact.tid) :
        Chained strict (r.files.insert (.record fact.tid .applied) raw) fact.tid :=
      hc.put_applied h.intent hv hz ho hk
    have hw := writeRecord_records hput
    have hx {r' : Root} (hw : Wrote strict r.files (.record fact.tid .applied) raw r'.files) :
        Ready fact r' ∧ Lacks r' fact.tid [.finalized, .restored, .blocked] := by
      obtain hw | ⟨hn, -, hw⟩ := hw
      · refine ⟨⟨hw ▸ h.intent, h.snapshot⟩, fun st hm => hw ▸ hl st (List.mem_cons_of_mem _ hm)⟩
      · refine ⟨⟨by simpa [hw] using h.intent, h.snapshot⟩, fun st hm => ?_⟩
        have hs : st ≠ .applied := by rintro rfl; simp at hm
        simpa [hw, hs] using hl st (List.mem_cons_of_mem _ hm)
    refine .bind (R := fun a r' => Ready fact r' ∧ Lacks r' fact.tid [.finalized, .restored, .blocked] ∧
      ∀ a', a = .ok a' → r'.files.lookup (.record fact.tid .applied) = some a') ?_ fun a r' ha => ?_
    · refine .capture (F := fun r' => Ready fact r' ∧
        Lacks r' fact.tid [.finalized, .restored, .blocked]) ?_ fun _ _ h => ⟨h.left, h.right, nofun⟩
      refine .raiseIf_seq (fun _ => hx (.inl rfl)) fun _ => hw.mono (fun a r' h => ?_) fun _ h => hx h
      exact ⟨(hx h.right.right).left, (hx h.right.right).right, fun a' ha => by
        cases ha
        exact h.left ▸ h.right.left⟩
    match a with
    | .error e => exact .pure ⟨ha.left, fun _ => ha.right.left, nofun⟩
    | .ok a    =>
      refine .bind (R := fun _ r'' => r'' = r') ?_ fun v r'' hr => ?_
      · refine .capture (F := fun r'' => r'' = r') ?_ fun _ _ h => h
        exact elsewhere (.bind (elsewhere_os nofun) fun _ => elsewhere_os nofun) (fun _ => rfl) rfl
      · cases hr
        refine .pure ⟨ha.left, fun _ => ha.right.left, fun a' h => ?_⟩
        cases h
        exact ha.right.right a rfl

theorem commitTry_records {fact : Fact} (h : Ready fact r) :
    Yields (Sees strict) (recordKeeping strict) (fun p r' => Undoable fact p.1 r') (fun _ => False)
      (commitTry fact) r := by
  refine .bind (R := fun v r' => r' = r ∧ ∀ u, v = .ok u →
    Lacks r fact.tid [.applied, .finalized, .restored, .blocked]) ?_ fun v r' hv => ?_
  · refine .capture (F := fun r' => r' = r) (fenceTarget_records.mono (fun _ _ h => ?_)
      fun _ h => h) fun _ _ h => ⟨h, nofun⟩
    exact ⟨h.left, fun _ _ => h.right⟩
  cases hv.left
  match v with
  | .error e => exact .pure ⟨h, nofun, nofun⟩
  | .ok u    => exact commitMove_records h (hv.right u rfl)

theorem undoCommit_records {fact : Fact} {p : Progress} (h : Undoable fact p r) :
    Yields (Sees strict) (recordKeeping strict) (fun _ _ => True) (fun _ => True)
      (undoCommit fact p) r := by
  have ⟨v, hv⟩ := h.ready.snapshot
  refine .bind (R := fun _ r' => r' = r) ?_ fun _ r' hr => ?_
  · match p.quarantined with
    | none   => exact .pure rfl
    | some q => exact restoreQuarantinedJournal_records.mono (fun _ _ h => h) fun _ _ => trivial
  cases hr
  refine elsewhere_seq (.when elsewhere_removeSourceFence) trivial fun _ => ?_
  refine .when (fun hq => ?_) fun _ => trivial
  have hl := h.moved hq
  refine .bind (R := fun _ _ => True) ?_ fun _ _ _ => .pure trivial
  refine (writeRecord_records fun _ hg hc => ?_).mono (fun _ _ _ => trivial) fun _ _ => trivial
  refine hc.put_restored h.ready.intent (validateRestored_restoredValue trivial) (fun hs => ?_)
    (hl .finalized (by decide)) (hl .blocked (by decide))
  -- The handler may not know of an applied record; with care there is none then.
  match ha : p.applied with
  | none   => simp [show r.files.lookup _ = none from hg hs rfl (by simp [ha])]
  | some a => simp [h.applied a ha]

theorem commitLocked_records {fact : Fact} (h : Ready fact r) :
    Yields (Sees strict) (recordKeeping strict) (fun _ _ => True) (fun _ => True)
      (commitLocked fact) r := by
  refine .bind ((commitTry_records h).mono (fun _ _ h => h) nofun) fun p r' hp => ?_
  match p with
  | (_, .ok _)    => exact .pure trivial
  | (p, .error e) =>
    refine .bind (R := fun _ _ => True) (.capture (undoCommit_records hp) fun _ _ _ => trivial)
      fun v _ _ => ?_
    cases v
    case ok    => exact .pure trivial
    case error => exact .pure trivial

end Quarantine
