import ExtManager.Quarantine.Records

namespace Quarantine

open Process Process.Prog

-- What the program does elsewhere: with the journals, and with the fences in the source root.
section Elsewhere

variable {α : Type} {s : Side} {n : Journal} {b : Nat}

theorem elsewhere_os {c : Call} (h : Elsewhere c) : (os c).Only Elsewhere :=
  only_os.mpr h

theorem elsewhere_opened {m : Sys α} (h : m.Only Elsewhere) :
    (openJournalRoot s >>= fun _ => closing (os .close) m).Only Elsewhere :=
  .bind (only_openJournalRoot nofun) fun _ => .ensure h <| elsewhere_os nofun

theorem elsewhere_expectAbsent {io : Errno → Error} {found : Error} {a : Except Errno α} :
    (expectAbsent io found a).Only Elsewhere := by
  unfold expectAbsent
  split <;> trivial

theorem elsewhere_readJournal {i : Ino} : (readJournal i b).Only Elsewhere :=
  .ensure (.bind (elsewhere_os nofun) fun _ => .bind (elsewhere_os nofun) fun _ => trivial)
    (elsewhere_os nofun)

theorem elsewhere_snapshotJournal : (snapshotJournal s n b).Only Elsewhere := by
  refine .bind .raiseIf fun _ => elsewhere_opened ?_
  refine .bind (only_wrapOs <| elsewhere_os nofun) fun i => .bind elsewhere_readJournal fun p => ?_
  refine .bind .raiseIf fun _ => .bind .raiseIf fun _ => ?_
  refine .bind (only_wrapOs <| elsewhere_os nofun) fun p => .bind .raiseIf fun _ => trivial

theorem elsewhere_readRecord {n : Name} {required : Bool} :
    (readRecord .source n required).Only Elsewhere := by
  refine .bind (only_ask.mpr nofun) fun a => ?_
  split
  · split <;> trivial
  · trivial
  · exact .ensure (.bind (elsewhere_os nofun) fun _ => .bind (elsewhere_os nofun) fun _ => trivial)
      (elsewhere_os nofun)

theorem elsewhere_discard {t : Nat} : (discard .source t).Only Elsewhere :=
  .attempt (.bind (elsewhere_os nofun) fun _ => elsewhere_os nofun) fun _ => trivial

theorem elsewhere_publishTemporary {n : Name} {raw : Record} {texts : Texts} {t : Nat} :
    (publishTemporary .source n raw texts t).Only Elsewhere := by
  refine .bind (only_mapOs <| .ensure (.bind (elsewhere_os nofun) fun _ => elsewhere_os nofun)
    (elsewhere_os nofun)) fun _ => .bind (only_ask.mpr nofun) fun a => ?_
  split
  · trivial
  · exact .bind elsewhere_readRecord fun _ => .bind .raiseIf fun _ => trivial
  · trivial

theorem elsewhere_publish {n : Name} {raw : Record} {texts : Texts} :
    (publish .source n raw texts).Only Elsewhere := by
  refine .bind elsewhere_readRecord fun o => ?_
  split
  · exact .bind .raiseIf fun _ => trivial
  · refine .bind (only_mapOs <| elsewhere_os nofun) fun t => .bind (.attempt
      elsewhere_publishTemporary fun _ => .bind elsewhere_discard fun _ => trivial) fun o => ?_
    split
    · exact .bind elsewhere_discard fun _ => trivial
    · exact .bind (elsewhere_os nofun) fun _ => .bind elsewhere_readRecord fun _ =>
        .bind .raiseIf fun _ => trivial

theorem elsewhere_journalExists : (journalExists s n).Only Elsewhere := by
  refine .bind (only_ask.mpr nofun) fun a => ?_
  split <;> trivial

theorem elsewhere_removeTemporaries {ts : List Nat} :
    (removeTemporaries .source ts).Only Elsewhere := by
  induction ts with
  | nil          => trivial
  | cons t ts ih =>
    exact .bind (only_wrapOs <| elsewhere_os nofun) fun _ =>
      .bind (only_wrapOs <| elsewhere_os nofun) fun _ => ih

theorem elsewhere_rollBackMove {e : Error} : (rollBackMove s n e).Only Elsewhere := by
  refine .bind (only_ask.mpr nofun) fun a => ?_
  split
  · exact .bind (only_wrapOs <| .bind (elsewhere_os nofun) fun _ => .bind (elsewhere_os nofun)
      fun _ => elsewhere_os nofun) fun _ => trivial
  · trivial
  · trivial

theorem elsewhere_confirmMove {q : QuarantinedJournal} : (confirmMove s q b).Only Elsewhere := by
  refine only_wrapOs <| .bind (elsewhere_os nofun) fun _ => .bind (elsewhere_os nofun) fun _ => ?_
  refine .bind (elsewhere_os nofun) fun _ => .bind .raiseIf fun _ => ?_
  refine .bind (only_wrapOs <| elsewhere_os nofun) fun _ => .bind ?_ fun _ => ?_
  · exact .ensure (.bind (elsewhere_os nofun) fun _ => .bind .raiseIf fun _ => elsewhere_os nofun)
      (elsewhere_os nofun)
  · exact .bind .raiseIf fun _ => .bind (only_ask.mpr nofun) fun _ => elsewhere_expectAbsent

theorem elsewhere_sweep : (sweep .source).Only Elsewhere :=
  .bind (elsewhere_os nofun) fun _ => .bind elsewhere_removeTemporaries fun _ =>
    .bind (.when <| elsewhere_os nofun) fun _ => trivial

variable [Deployment] {tid : Tid} {digest : Digest} {snapshot : QuarantinedJournal}

theorem elsewhere_installFence : (installFence tid digest snapshot).Only Elsewhere :=
  elsewhere_opened <| only_wrapOs elsewhere_publish

theorem elsewhere_readSourceFence {required : Bool} :
    (readSourceFence tid digest snapshot required).Only Elsewhere :=
  .bind elsewhere_readRecord fun _ => .bind .raiseIf fun _ => trivial

theorem elsewhere_removeFence : (removeFence tid digest snapshot).Only Elsewhere := by
  refine .bind elsewhere_readSourceFence fun o => ?_
  split
  · trivial
  · exact only_wrapOs <| .bind (elsewhere_os nofun) fun _ => elsewhere_os nofun

theorem elsewhere_removeSourceFence : (removeSourceFence tid digest snapshot).Only Elsewhere :=
  elsewhere_opened elsewhere_removeFence

end Elsewhere

variable [Deployment] {strict : Prop} {α β : Type} {r : Root} {tid : Tid}
variable {P : α → Root → Prop} {E : Root → Prop}

theorem elsewhere {m : Sys α} (h : m.Only Elsewhere) (hok : ∀ a, P a r) (herr : E r) :
    Yields (Sees strict) (recordKeeping strict) P E m r :=
  .of_only h (fun _ hc _ _ _ => hc.eq) (fun _ => .refl _) hok herr

theorem elsewhere_seq {m : Sys β} {k : β → Sys α} (h : m.Only Elsewhere) (herr : E r)
    (hok : ∀ b, Yields (Sees strict) (recordKeeping strict) P E (k b) r) :
    Yields (Sees strict) (recordKeeping strict) P E (m >>= k) r := by
  refine .bind (R := fun _ r' => r' = r) (elsewhere h (fun _ => rfl) herr) fun b r' h => ?_
  cases h
  exact hok b

theorem elsewhere_closing {f : Sys Unit} {m : Sys α} (hf : f.Only Elsewhere)
    (herr : ∀ a r', P a r' → E r') (h : Yields (Sees strict) (recordKeeping strict) P E m r) :
    Yields (Sees strict) (recordKeeping strict) P E (closing f m) r :=
  .ensure h (fun a _ ha => elsewhere hf (fun _ => ha) (herr a _ ha)) fun _ he =>
    elsewhere hf (fun _ => he) he

theorem inspectJournal_records {s : Side} {n : Journal} {b : Nat}
    {expected : Option QuarantinedJournal} :
    Yields (Sees strict) (recordKeeping strict) (fun q r' => r' = r ∧ ∀ e ∈ expected, q = e)
      (fun r' => r' = r) (inspectJournal s n b expected) r := by
  refine elsewhere_seq (elsewhere_os nofun) rfl fun _ => ?_
  refine elsewhere_seq (elsewhere_os nofun) rfl fun _ => ?_
  refine elsewhere_seq (only_ask.mpr nofun) rfl fun _ => ?_
  refine elsewhere_seq elsewhere_expectAbsent rfl fun _ => ?_
  refine elsewhere_seq (only_wrapOs <| elsewhere_os nofun) rfl fun i => ?_
  refine elsewhere_seq elsewhere_readJournal rfl fun p => ?_
  refine .raiseIf_seq (fun _ => rfl) fun _ => .raiseIf_seq (fun _ => rfl) fun _ => ?_
  refine .raiseIf_seq (fun _ => rfl) fun he => ?_
  refine elsewhere_seq (only_wrapOs <| elsewhere_os nofun) rfl fun p' => ?_
  refine .raiseIf_seq (fun _ => rfl) fun _ => .pure ⟨rfl, fun e hm => ?_⟩
  by_contra hne
  exact he ⟨e, hm, Ne.symm hne⟩

-- A move yields what it has been told to expect.
theorem quarantineJournal_records {s : Side} {n : Journal} {b : Nat}
    {expected : Option QuarantinedJournal} :
    Yields (Sees strict) (recordKeeping strict) (fun q r' => r' = r ∧ ∀ e ∈ expected, q = e)
      (fun r' => r' = r) (quarantineJournal s n b expected) r := by
  refine .raiseIf_seq (fun _ => rfl) fun _ => ?_
  refine elsewhere_seq (only_openJournalRoot nofun) rfl fun _ => ?_
  refine elsewhere_seq (.attempt (only_openJournalRoot nofun) fun _ => .bind (elsewhere_os nofun)
    fun _ => trivial) rfl fun _ => ?_
  refine elsewhere_closing (.bind (elsewhere_os nofun) fun _ => elsewhere_os nofun)
    (fun _ _ h => h.left) ?_
  refine .bind inspectJournal_records fun q r' h => ?_
  cases h.left
  refine elsewhere_seq (only_wrapOs <| elsewhere_os nofun) rfl fun _ => ?_
  refine elsewhere_seq (.attempt elsewhere_confirmMove fun _ => elsewhere_rollBackMove) rfl fun _ => ?_
  exact .pure h

theorem restoreQuarantinedJournal_records {q : QuarantinedJournal} {b : Nat} :
    Yields (Sees strict) (recordKeeping strict) (fun _ r' => r' = r) (fun r' => r' = r)
      (restoreQuarantinedJournal q b) r := by
  refine .bind quarantineJournal_records fun q' r' h => ?_
  cases h.left
  exact .raiseIf (fun _ => rfl) fun _ => rfl

theorem readRecord_records {n : Name} {required : Bool} :
    Yields (Sees strict) (recordKeeping strict)
      (fun o r' => r' = r ∧ o = r.files.lookup n ∧ (required = true → o ≠ none))
      (fun r' => r' = r) (readRecord .quarantine n required) r :=
  (recordWindow strict).readRecord.mono (fun _ _ h => h) fun _ h => h.left

theorem readQuarantineRecord_records {st : Stage} {required : Bool} :
    Yields (Sees strict) (recordKeeping strict)
      (fun o r' => r' = r ∧ o = r.files.lookup (.record tid st) ∧ (required = true → o ≠ none))
      (fun r' => r' = r) (readQuarantineRecord tid st required) r :=
  elsewhere_seq (only_openJournalRoot nofun) rfl fun _ =>
    elsewhere_closing (elsewhere_os nofun) (fun _ _ h => h.left) readRecord_records

-- A record that has to be there.
theorem theRecord_records {m : Sys (Option Record)} {o : Option Record}
    (h : Yields (Sees strict) (recordKeeping strict) (fun o' r' => r' = r ∧ o' = o ∧
      (true = true → o' ≠ none)) (fun r' => r' = r) m r) :
    Yields (Sees strict) (recordKeeping strict) (fun i r' => r' = r ∧ o = some i) (fun r' => r' = r)
      (m >>= theRecord) r := by
  refine .bind h fun o' r' ⟨hr, ho, hn⟩ => ?_
  cases hr
  cases ho
  match o with
  | none   => exact absurd rfl (hn rfl)
  | some i => exact .pure ⟨rfl, rfl⟩

-- What a try to publish leaves of the files.
def Wrote (strict : Prop) (f : Files) (n : Name) (raw : Record) (f' : Files) : Prop :=
  f' = f ∨ (f.lookup n = none ∧ (strict → Careful f n raw) ∧ f' = f.insert n raw)

theorem writeRecord_records {st : Stage} {raw : Record}
    (hput : r.files.lookup (.record tid st) = none →
      (strict → Careful r.files (.record tid st) raw) → Chained strict r.files tid →
      Chained strict (r.files.insert (.record tid st) raw) tid) :
    Yields (Sees strict) (recordKeeping strict)
      (fun a r' => a = raw ∧ r'.files.lookup (.record tid st) = some raw ∧
        Wrote strict r.files (.record tid st) raw r'.files)
      (fun r' => Wrote strict r.files (.record tid st) raw r'.files)
      (writeRecord tid st raw) r := by
  refine elsewhere_seq (only_openJournalRoot nofun) (.inl rfl) fun _ => ?_
  refine elsewhere_closing (elsewhere_os nofun) (fun _ _ h => h.right.right) ?_
  refine ((recordWindow strict).publish fun hn hg r₁ r₂ h₁ h₂ => ?_).mono (fun a r' h => ?_) fun r' h => ?_
  · exact (congrArg₂ (Grows strict) h₁ h₂).mpr <| .put hn <| hput hn hg
  · obtain ⟨rfl, ⟨r₁, rfl, hf, hl, -⟩ | ⟨r₁, rfl, hf, hn, hg, -⟩⟩ := h
    · exact ⟨rfl, (congrArg _ hf).trans hl, .inl hf⟩
    · exact ⟨rfl, (congrArg _ hf).trans (AList.lookup_insert ..), .inr ⟨hn, hg, hf⟩⟩
  · obtain ⟨r₁, rfl, hf, -⟩ | ⟨r₁, rfl, hf, hn, hg, -⟩ := h
    · exact .inl hf
    · exact .inr ⟨hn, hg, hf⟩

end Quarantine
