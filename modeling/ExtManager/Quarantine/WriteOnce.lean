import ExtManager.Process.Shares
import ExtManager.Quarantine.RecordFile

namespace RecordFile

open Process Prog

-- Who looks at the directory finds a record with these bytes.
def Visible (s : Dir) (raw : Bytes) : Prop :=
  ∃ file, s.record = some file ∧ s.content file = raw

theorem Visible.unique {s : Dir} {raw raw' : Bytes} (h : Visible s raw) (h' : Visible s raw') :
    raw = raw' := by
  have ⟨file, hf, hc⟩ := h
  have ⟨file', hf', hc'⟩ := h'
  cases hf.symm.trans hf'
  exact hc.symm.trans hc'

section Sharing

variable [PythonJson]

-- What has to be so when something happens.
def Justified (s : Dir) : Event → Prop
  | .called _           => True
  | .returned value raw => rawOf value = some raw ∧ Visible s raw
  | .saw record         => ∀ raw, record = some raw → Visible s raw

-- What a call may do, by the temporary that its process is at work on before and after it.
inductive Move : Option Nat → Option Nat → Dir → Dir → Prop
  | same {r s} : Move r r s s
  | unlink {r s} (file : Nat) : Move r r s (s.unlink file)
  | create {r s} : Move r (some s.created) s s.create
  | write {file s} (raw : Bytes) : Move (some file) (some file) s (s.append file raw)
  | publish {file s value} : s.record = none → .called value ∈ s.history →
      rawOf value = some (s.content file) → Move (some file) none s (s.publish file)
  | note {r s e} : Justified s e → Move r r s (s.note e)

-- What a process that is at work on a temporary has to expect of the others: they may remove the
-- temporary, but neither write to it nor make it the record.
structure Rely (r : Option Nat) (s s' : Dir) : Prop where
  created : s.created ≤ s'.created
  history : s.history ⊆ s'.history
  record : ∀ file, s.record = some file → s'.record = some file
  content : ∀ file, s.record = some file → s'.content file = s.content file
  free : ∀ file, r = some file → s.record ≠ some file → s'.record ≠ some file
  own : ∀ file, r = some file → s'.content file = s.content file

-- A record is what some call was to write, and what has happened agrees with it.
structure Sound (s : Dir) : Prop where
  created : ∀ file, s.record = some file → file < s.created
  called : ∀ raw, Visible s raw → ∃ value, .called value ∈ s.history ∧ rawOf value = some raw
  events : ∀ e ∈ s.history, Justified s e

-- A process is at work on files that have come up and are not the record.
def Valid (r : Option Nat) (s : Dir) : Prop :=
  ∀ file, r = some file → file < s.created ∧ s.record ≠ some file

variable {r r' t : Option Nat} {s s' s₁ s₂ s₃ : Dir} {raw : Bytes} {e : Event} {value : Value}

omit [PythonJson] in
theorem Visible.rely (h : Rely r s s') (hv : Visible s raw) : Visible s' raw := by
  have ⟨file, hf, hc⟩ := hv
  exact ⟨file, h.record file hf, (h.content file hf).trans hc⟩

theorem Justified.mono (h : Justified s e) (hv : ∀ raw, Visible s raw → Visible s' raw) :
    Justified s' e := by
  cases e
  case called value       => trivial
  case returned value raw => exact ⟨h.1, hv raw h.2⟩
  case saw record         => exact fun raw hr => hv raw (h raw hr)

namespace Rely

omit [PythonJson]

theorem refl (r : Option Nat) (s : Dir) : Rely r s s where
  created        := Nat.le_refl _
  history        := fun _ h => h
  record _ h     := h
  content _ _    := rfl
  free _ _ h     := h
  own _ _        := rfl

theorem trans (h : Rely r s₁ s₂) (h' : Rely r s₂ s₃) : Rely r s₁ s₃ where
  created           := Nat.le_trans h.created h'.created
  history           := fun _ he => h'.history (h.history he)
  record file hf    := h'.record file (h.record file hf)
  content file hf   := (h'.content file (h.record file hf)).trans (h.content file hf)
  free file hr hf   := h'.free file hr (h.free file hr hf)
  own file hr       := (h'.own file hr).trans (h.own file hr)

theorem valid (h : Rely r s s') (hv : Valid r s) : Valid r s' := by
  intro file hr
  have ⟨hlt, hne⟩ := hv file hr
  exact ⟨Nat.lt_of_lt_of_le hlt h.created, h.free file hr hne⟩

end Rely

namespace Move

theorem created_le (h : Move r r' s s') : s.created ≤ s'.created := by
  cases h
  case create => exact Nat.le_succ _
  all_goals exact Nat.le_refl _

theorem history_subset (h : Move r r' s s') : s.history ⊆ s'.history := by
  cases h
  case note => exact List.subset_append_left ..
  all_goals exact fun _ he => he

-- Only a temporary of its own is changed by a process, and then it is new or not the record.
theorem content_eq (h : Move r r' s s') (hv : Valid t s) (ht : ∀ file, r = some file → t ≠ some file)
    {file : Nat} (hf : t = some file) : s'.content file = s.content file := by
  cases h
  case create   => exact Function.update_of_ne (Nat.ne_of_lt (hv file hf).1) ..
  case write g _ =>
    refine Function.update_of_ne (fun he => ?_) ..
    exact ht g rfl (he ▸ hf)
  all_goals rfl

theorem record_eq (h : Move r r' s s') {file : Nat} (hf : s.record = some file) :
    s'.record = some file := by
  cases h
  case publish hn _ _ => exact nomatch hn.symm.trans hf
  all_goals exact hf

theorem record_content (h : Move r r' s s') (hs : Sound s) (hv : Valid r s) {file : Nat}
    (hf : s.record = some file) : s'.content file = s.content file := by
  cases h
  case create    => exact Function.update_of_ne (Nat.ne_of_lt (hs.created file hf)) ..
  case write g _ =>
    refine Function.update_of_ne (fun he => ?_) ..
    exact (hv g rfl).2 (he ▸ hf)
  all_goals rfl

theorem visible (h : Move r r' s s') (hs : Sound s) (hv : Valid r s) (hraw : Visible s raw) :
    Visible s' raw := by
  have ⟨file, hf, hc⟩ := hraw
  exact ⟨file, h.record_eq hf, (h.record_content hs hv hf).trans hc⟩

-- A record that is new is the temporary of its process.
theorem free (h : Move r r' s s') {file : Nat} (hf : r ≠ some file) (hn : s.record ≠ some file) :
    s'.record ≠ some file := by
  cases h
  case publish g _ _ _ _ => exact fun he => hf he
  all_goals exact hn

-- What is visible was so before, or was to be written.
theorem origin (h : Move r r' s s') (hs : Sound s) (hv : Valid r s) (hraw : Visible s' raw) :
    Visible s raw ∨ ∃ value, .called value ∈ s.history ∧ rawOf value = some raw := by
  have ⟨file, hf, hc⟩ := hraw
  by_cases hr : s.record = some file
  case pos => exact .inl ⟨file, hr, (h.record_content hs hv hr).symm.trans hc⟩
  case neg =>
    cases h
    case publish value _ hm ho =>
      cases hf
      cases hc
      exact .inr ⟨value, hm, ho⟩
    all_goals exact absurd hf hr

theorem justified (h : Move r r' s s') (he : e ∈ s'.history) : e ∈ s.history ∨ Justified s e := by
  cases h
  case note hj =>
    rcases List.mem_append.mp he with he | he
    case inl => exact .inl he
    case inr => exact .inr (List.mem_singleton.mp he ▸ hj)
  all_goals exact .inl he

theorem sound (h : Move r r' s s') (hs : Sound s) (hv : Valid r s) : Sound s' where
  created := by
    intro file hf
    refine Nat.lt_of_lt_of_le ?_ h.created_le
    by_cases hr : r = some file
    case pos => exact (hv file hr).1
    case neg =>
      by_contra hn
      exact h.free hr (fun he => hn (hs.created file he)) hf
  called := by
    intro raw hraw
    have ⟨value, hm, ho⟩ := (h.origin hs hv hraw).elim (hs.called raw) id
    exact ⟨value, h.history_subset hm, ho⟩
  events := by
    intro e he
    exact ((h.justified he).elim (hs.events e) id).mono fun raw => h.visible hs hv

theorem valid (h : Move r r' s s') (hs : Sound s) (hv : Valid r s) : Valid r' s' := by
  cases h
  case create =>
    intro file hf
    cases hf
    exact ⟨Nat.lt_succ_self _, fun he => Nat.lt_irrefl _ (hs.created _ he)⟩
  case publish =>
    intro file hf
    cases hf
  all_goals exact hv

-- The temporaries of two processes stay apart.
theorem apart (h : Move r r' s s') (ht : Valid t s) (ha : ∀ file, r = some file → t ≠ some file) :
    ∀ file, r' = some file → t ≠ some file := by
  cases h
  case create =>
    intro file hf he
    cases hf
    exact Nat.lt_irrefl _ (ht _ he).1
  case publish =>
    intro file hf
    cases hf
  all_goals exact ha

theorem rely (h : Move r r' s s') (hs : Sound s) (hv : Valid r s) (ht : Valid t s)
    (ha : ∀ file, r = some file → t ≠ some file) : Rely t s s' where
  created         := h.created_le
  history         := h.history_subset
  record _ hf     := h.record_eq hf
  content _ hf    := h.record_content hs hv hf
  free file hf hn := h.free (fun hr => ha file hr hf) hn
  own _ hf        := h.content_eq ht ha hf

end Move

omit [PythonJson] in
-- No two processes have one temporary.
theorem apart_comm {r t : Option Nat} (h : ∀ file, r = some file → t ≠ some file) :
    ∀ file, t = some file → r ≠ some file :=
  fun file ht hr => h file hr ht

omit [PythonJson] in
theorem apart_none (r : Option Nat) : ∀ file, r = some file → none ≠ some file :=
  fun file _ => (Option.some_ne_none file).symm

omit [PythonJson] in
theorem valid_none (s : Dir) : Valid none s := by
  intro file hf
  cases hf

def sharing : Sharing Dir (Option Nat) where
  nothing          := none
  inv              := Sound
  valid            := Valid
  apart r t        := ∀ file, r = some file → t ≠ some file
  guar             := Move
  rely             := Rely
  apart_symm       := @apart_comm
  apart_nothing    := apart_none
  valid_nothing    := valid_none
  rely_refl        := Rely.refl
  rely_trans       := Rely.trans
  valid_rely       := Rely.valid
  inv_guar         := Move.sound
  valid_guar       := Move.valid
  others h hs hv ha ht := ⟨h.apart ht ha, h.rely hs hv ht ha⟩

end Sharing

section Gives

variable [PythonJson] {α : Type} {r : Option Nat} {s : Dir} {m : Sys α} {P : α → Option Nat → Dir → Prop}
variable {file size n : Nat} {raw done view : Bytes} {value : Value} {e : Event} {name : String}

theorem stable_true : Stable sharing fun _ _ => True :=
  fun _ _ _ _ h => h

theorem gives_ask {c : Call} {R : c.Answer → Option Nat → Dir → Prop}
    (hR : ∀ a, Stable sharing (R a))
    (h : ∀ a s', sys c s a s' → ∃ r', Move r r' s s' ∧ R a r' s') :
    Gives sys sharing R (ask c) r s :=
  .call hR h fun _ _ _ ha => .pure ha

theorem gives_os {c : Call} {R : c.Value → Option Nat → Dir → Prop}
    (hR : ∀ v, Stable sharing (R v))
    (h : ∀ a s', sys c s a s' → ∃ r', Move r r' s s' ∧ ∀ v, a = .ok v → R v r' s') :
    Gives sys sharing R (os c) r s := by
  refine .call (R := fun a r s => ∀ v, a = .ok v → R v r s) ?_ h fun a r s ha => ?_
  · exact fun a r s s' hr ha v hv => hR v r s s' hr (ha v hv)
  · cases a
    case ok v    => exact .pure (ha v rfl)
    case error e => exact .raise

-- A call that leaves the directory alone.
theorem gives_quiet {c : Call} {P : Option Nat → Dir → Prop} (hP : Stable sharing P)
    (hc : ∀ a s', sys c s a s' → s' = s) (hs : P r s) :
    Gives sys sharing (fun _ => P) (os c) r s := by
  refine gives_os (fun _ => hP) fun a s' h => ?_
  cases hc a s' h
  exact ⟨r, .same, fun _ _ => hs⟩

theorem gives_closing (hP : ∀ a, Stable sharing (P a)) (h : Gives sys sharing P m r s) :
    Gives sys sharing P (m.ensure (os .close)) r s :=
  h.ensure (fun a _ _ hs => gives_quiet (hP a) (fun _ _ h => h) hs)
    fun _ _ => gives_quiet stable_true (fun _ _ h => h) trivial

theorem gives_mapOs {message : String} (h : Gives sys sharing P m r s) :
    Gives sys sharing P (mapOs message m) r s := by
  refine h.attempt fun e r s => ?_
  cases e
  all_goals exact .raise

-- The bytes that are read are those of the record, if they are not too many.
theorem gives_readAll (hf : s.record = some file) (hp : raw <+: s.content file)
    (hn : size ≤ n + raw.length) :
    Gives sys sharing (fun raw _ s => raw.length < size → Visible s raw)
      (readAll file size n raw) r s := by
  induction n generalizing raw r s with
  | zero      => exact .pure fun hlt => absurd hn (by omega)
  | succ n ih =>
    rw [readAll]
    split
    case isTrue h  => exact .pure fun hlt => absurd hlt (Nat.not_lt.mpr h)
    case isFalse h =>
      refine .bind (R := fun more _ s => s.record = some file ∧ raw ++ more <+: s.content file ∧
        (more = [] → s.content file = raw)) (gives_os ?_ ?_) fun more r s hmore => ?_
      · intro more r s s' hr hs
        rw [hr.content file hs.1]
        exact ⟨hr.record file hs.1, hs.2⟩
      · intro a s' ha
        cases ha.1
        refine ⟨r, .same, fun more hm => ?_⟩
        cases hm
        have ⟨hpre, _, hend⟩ := ha.2
        have ⟨rest, hrest⟩ := hp
        rw [← hrest, List.drop_left] at hpre
        refine ⟨hf, hrest ▸ (List.prefix_append_right_inj raw).mpr hpre, fun he => ?_⟩
        have hlen : (s.content file).length ≤ raw.length := (hend he).resolve_left (by omega)
        exact (hp.eq_of_length (Nat.le_antisymm hp.length_le hlen)).symm
      · split
        case isTrue he  => exact .pure fun _ => ⟨file, hmore.1, hmore.2.2 he⟩
        case isFalse he =>
          have hpos := List.length_pos_iff.mpr he
          refine ih hmore.1 hmore.2.1 ?_
          rw [List.length_append]
          omega

theorem gives_readRecordFromDirectory {required : Bool} :
    Gives sys sharing (fun o _ s => ∀ raw, o = some raw → Visible s raw)
      (readRecordFromDirectory name required) r s := by
  refine .bind (R := fun a _ s => ∀ file, a = .ok file → s.record = some file)
    (gives_ask ?_ ?_) fun a r s ha => ?_
  · exact fun a r s s' hr hs file hf => hr.record file (hs file hf)
  · intro a s' ha
    cases ha.1
    refine ⟨r, .same, fun file hf => ?_⟩
    cases hf
    exact ha.2
  · match a with
    | .error .notFound =>
      dsimp only
      split
      case isTrue  => exact .raise
      case isFalse => exact .pure nofun
    | .error .present | .error .io => exact .raise
    | .ok file =>
      have stable (raw : Bytes) : Stable sharing fun _ s =>
          raw.length < maxTransactionRecordBytes + 1 → Visible s raw :=
        fun r s s' hr hs hlt => (hs hlt).rely hr
      refine .bind (gives_closing stable ?_) fun raw r s hraw => ?_
      · refine .bind (R := fun _ _ s => s.record = some file) (gives_quiet ?_ ?_ (ha file rfl))
          fun safe r s hf => .raiseIf_seq fun _ => gives_readAll hf List.nil_prefix (Nat.le_refl _)
        · exact fun r s s' hr hf => hr.record file hf
        · exact fun _ _ h => h
      refine .raiseIf_seq fun hle => ?_
      refine .bind (R := fun _ _ s => Visible s raw)
        (.lift fun _ _ => hraw (Nat.lt_succ_of_le (Nat.not_lt.mp hle))) fun _ r s hv => .pure ?_
      intro raw' he
      cases he
      exact hv

theorem gives_readQuarantineRecord {required : Bool} :
    Gives sys sharing (fun o _ s => ∀ raw, o = some raw → Visible s raw)
      (readQuarantineRecord name required) r s := by
  have hopen : Gives sys sharing (fun _ _ _ => True) (os .openRoot) r s :=
    gives_quiet stable_true (fun _ _ h => h) trivial
  have stable (o : Option Bytes) : Stable sharing fun _ s => ∀ raw, o = some raw → Visible s raw :=
    fun _ _ _ hr hs raw ho => (hs raw ho).rely hr
  exact .bind hopen fun _ _ _ _ => gives_closing stable gives_readRecordFromDirectory

-- The process has a temporary of its own, and this is what it has written for its value.
structure Working (value : Value) (file : Nat) (raw : Bytes) (r : Option Nat) (s : Dir) : Prop where
  own : r = some file
  content : s.content file = raw
  called : .called value ∈ s.history

theorem stable_working : Stable sharing (Working value file raw) :=
  fun _ _ _ hr hw => {
    own     := hw.own
    content := (hr.own file hw.own).trans hw.content
    called  := hr.history hw.called
  }

omit [PythonJson] in
theorem Working.append (hw : Working value file done r s) :
    Working value file (done ++ raw) r (s.append file raw) where
  own     := hw.own
  content := by
    refine (Function.update_self ..).trans ?_
    rw [hw.content]
  called  := hw.called

theorem Working.move_write (hw : Working value file done r s) (raw : Bytes) :
    Move r r s (s.append file raw) :=
  hw.own ▸ .write raw

-- Round by round the rest gets shorter, and all of it comes behind what has been written.
theorem gives_writeAll (hw : Working value file done r s) (hn : view.length ≤ n) :
    Gives sys sharing (fun _ => Working value file (done ++ view)) (writeAll name file n view) r s := by
  induction n generalizing view done r s with
  | zero      =>
    cases List.length_eq_zero_iff.mp (Nat.le_zero.mp hn)
    refine .pure ?_
    rw [List.append_nil]
    exact hw
  | succ n ih =>
    rw [writeAll]
    split
    case isTrue he =>
      refine .pure ?_
      rw [he, List.append_nil]
      exact hw
    case isFalse he =>
      refine .bind (R := fun written => Working value file (done ++ view.take written))
        (gives_os (fun _ => stable_working) fun a s' ha => ?_) fun (written : Nat) r s hwritten => ?_
      · cases a
        case ok written =>
          cases ha.2
          refine ⟨r, hw.move_write _, fun v hv => ?_⟩
          cases hv
          exact hw.append
        case error e =>
          have ⟨k, hk⟩ := ha
          cases hk
          exact ⟨r, hw.move_write _, nofun⟩
      · refine .raiseIf_seq fun hzero => ?_
        have hpos : 0 < written := Nat.pos_of_ne_zero hzero
        have hlen : (view.drop written).length ≤ n := by
          rw [List.length_drop]
          omega
        have hall := ih hwritten hlen
        rw [List.append_assoc, List.take_append_drop] at hall
        exact hall

theorem Gives.keep_called (h : Gives sys sharing P m r s) (hc : .called value ∈ s.history) :
    Gives sys sharing (fun a r s => P a r s ∧ .called value ∈ s.history) m r s :=
  h.keep (J := fun s => .called value ∈ s.history)
    (fun _ _ _ _ hm _ _ hj => hm.history_subset hj) (fun _ _ _ hr hj => hr.history hj) hc

theorem Gives.keep_visible (h : Gives sys sharing P m r s) (hv : Visible s raw) :
    Gives sys sharing (fun a r s => P a r s ∧ Visible s raw) m r s :=
  h.keep (J := fun s => Visible s raw) (fun _ _ _ _ hm => hm.visible)
    (fun _ _ _ hr => Visible.rely hr) hv

theorem gives_unlink : Gives sys sharing (fun _ _ _ => True) (os (.unlink file)) r s := by
  refine gives_os (fun _ => stable_true) fun a s' ha => ?_
  cases a
  case ok v    =>
    cases ha.2
    exact ⟨r, .unlink file, fun _ _ => trivial⟩
  case error e =>
    cases ha
    exact ⟨r, .same, fun _ _ => trivial⟩

theorem gives_discard : Gives sys sharing (fun _ _ _ => True) (discard file) r s := by
  refine .attempt (.bind gives_unlink fun _ r s _ => ?_) fun _ _ _ => .pure trivial
  exact gives_quiet stable_true (fun _ _ h => h) trivial

-- A record that is there already is given back if it is the same.
theorem gives_publishTemporary (hw : Working value file [] r s) (hraw : rawOf value = some raw) :
    Gives sys sharing (fun o _ s => ∀ out, o = some out → out = raw ∧ Visible s out)
      (publishTemporary name raw file) r s := by
  refine .bind (R := fun _ => Working value file raw)
    (gives_closing (fun _ => stable_working) (gives_mapOs ?_)) fun _ r s hw => ?_
  · exact .bind (gives_writeAll hw (Nat.le_refl _)) fun _ r s hw =>
      gives_quiet stable_working (fun _ _ h => h) hw
  refine .bind (R := fun _ _ _ => True) (gives_ask (fun _ => stable_true) fun a s' ha => ?_)
    fun a r s _ => ?_
  · match a with
    | .ok _ =>
      have ⟨hnone, _, hs⟩ := ha
      cases hs
      exact ⟨none, hw.own ▸ .publish hnone hw.called (hw.content ▸ hraw), trivial⟩
    | .error .present =>
      cases ha.2
      exact ⟨r, .same, trivial⟩
    | .error .notFound | .error .io =>
      cases ha
      exact ⟨r, .same, trivial⟩
  · match a with
    | .ok _ => exact .pure nofun
    | .error .present =>
      refine .bind gives_readRecordFromDirectory fun existing r s hv => ?_
      refine .raiseIf_seq fun he => .pure fun out ho => ?_
      cases (not_not.mp he).symm.trans ho
      exact ⟨rfl, hv _ ho⟩
    | .error .notFound | .error .io => exact .raise

theorem gives_publish (hc : .called value ∈ s.history) (hraw : rawOf value = some raw) :
    Gives sys sharing (fun out _ s => out = raw ∧ Visible s out) (publish name raw) r s := by
  refine .bind (Gives.keep_called gives_readRecordFromDirectory hc) fun o r s ⟨hv, hc⟩ => ?_
  match o with
  | some existing =>
    exact .raiseIf_seq fun he => .pure ⟨not_not.mp he, hv existing rfl⟩
  | none =>
    refine .bind (R := fun temporary => Working value temporary [])
      (gives_mapOs (gives_os (fun _ => stable_working) fun a s' ha => ?_)) fun temporary r s hw => ?_
    · cases a
      case ok temporary =>
        have ⟨hf, hs⟩ := ha
        cases hf
        cases hs
        refine ⟨some s.created, .create, fun v hv => ?_⟩
        cases hv
        exact ⟨rfl, Function.update_self s.created _ _, hc⟩
      case error e =>
        cases ha
        exact ⟨r, .same, nofun⟩
    refine .bind (.attempt (gives_publishTemporary hw hraw) fun e r s =>
      .bind gives_discard fun _ _ _ _ => .raise) fun o r s ho => ?_
    match o with
    | some existing =>
      have ⟨he, hv⟩ := ho existing rfl
      exact .bind (Gives.keep_visible gives_discard hv) fun _ _ _ hv => .pure ⟨he, hv.2⟩
    | none =>
      refine .bind (gives_quiet stable_true (fun _ _ h => h) trivial) fun _ r s _ => ?_
      refine .bind gives_readRecordFromDirectory fun published r s hv => ?_
      exact .raiseIf_seq fun he => .pure ⟨rfl, hv raw (not_not.mp he)⟩

theorem gives_writeRecord (hc : .called value ∈ s.history) :
    Gives sys sharing (fun raw _ s => rawOf value = some raw ∧ Visible s raw)
      (writeRecord name value) r s := by
  refine .bind (R := fun raw _ s => rawOf value = some raw ∧ .called value ∈ s.history)
    (.lift fun raw hraw => ?_) fun raw r s ⟨hraw, hc⟩ => ?_
  · split at hraw
    case h_1 raw' he =>
      cases hraw
      exact ⟨he, hc⟩
    case h_2 => exact nomatch hraw
  refine .raiseIf_seq fun _ => ?_
  have hopen : Gives sys sharing (fun _ _ s => .called value ∈ s.history) (os .openRoot) r s :=
    gives_quiet (fun _ _ _ hr hj => hr.history hj) (fun _ _ h => h) hc
  refine .bind hopen fun _ r s hc => ?_
  have stable (out : Bytes) : Stable sharing fun _ s => out = raw ∧ Visible s out :=
    fun _ _ _ hr hs => ⟨hs.1, hs.2.rely hr⟩
  refine (gives_closing stable (gives_publish hc hraw)).mono fun out r s ⟨he, hv⟩ => ?_
  exact ⟨he ▸ hraw, hv⟩

theorem gives_removeTemporaries {files : List Nat} :
    Gives sys sharing (fun _ _ _ => True) (removeTemporaries files) r s := by
  induction files generalizing r s with
  | nil             => exact .pure trivial
  | cons file files ih =>
    refine .bind (gives_mapOs (gives_quiet stable_true (fun _ _ h => h) trivial)) fun safe r s _ => ?_
    refine .raiseIf_seq fun _ => ?_
    exact .bind (gives_mapOs gives_unlink) fun _ _ _ _ => ih

theorem gives_note (hj : Justified s e) :
    Gives sys sharing (fun _ _ s => e ∈ s.history) (os (.note e)) r s := by
  refine gives_os (fun _ _ _ _ hr he => hr.history he) fun a s' ha => ?_
  cases ha.2
  exact ⟨r, .note hj, fun _ _ => List.mem_append_right _ (List.mem_singleton_self e)⟩

theorem gives_program (t : Task) : Gives sys sharing (fun _ _ _ => True) (program name t) r s := by
  cases t
  case write value   =>
    refine .bind (gives_note trivial) fun _ r s hc => ?_
    refine .bind (gives_writeRecord hc) fun raw r s hraw => ?_
    exact (gives_note (e := .returned value raw) hraw).mono fun _ _ _ _ => trivial
  case read required =>
    refine .bind gives_readQuarantineRecord fun record r s hv => ?_
    exact (gives_note (e := .saw record) hv).mono fun _ _ _ _ => trivial
  case reconcile     =>
    refine .bind (gives_quiet stable_true (fun _ _ h => h.1) trivial) fun files r s _ => ?_
    refine .bind gives_removeTemporaries fun _ r s _ => ?_
    unfold Prog.when
    split
    case isTrue  => exact gives_quiet stable_true (fun _ _ h => h) trivial
    case isFalse => exact .pure trivial

end Gives

section Runs

variable [PythonJson] {name : String} {w w' : World Call Call.Answer Error Task Dir} {raw raw' : Bytes}

-- The runs of any number of writers, readers and cleaners, where any of them may be killed.
abbrev Reaches (name : String) (w w' : World Call Call.Answer Error Task Dir) : Prop :=
  Relation.ReflTransGen (Step sys (program name) fun _ => True) w w'

abbrev Run (name : String) (w : World Call Call.Answer Error Task Dir) : Prop :=
  Reachable sys (program name) (fun _ => True) Initial w

theorem sound_of_initial {s : Dir} (h : Initial s) : Sound s where
  created _ hf := nomatch h.1.symm.trans hf
  called _ hv  := nomatch h.1.symm.trans hv.choose_spec.1
  events _ he  := nomatch h.2.1 ▸ he

theorem Run.parted (h : Run name w) : (∃ part, Parted sys sharing w part) ∧ Sound w.state :=
  Parted.reachable (fun _ => sound_of_initial) (fun t _ _ => gives_program t) h

theorem Run.visible (h : Run name w) (hw : Reaches name w w') (hv : Visible w.state raw) :
    Visible w'.state raw := by
  have ⟨⟨_, hpart⟩, hs⟩ := h.parted
  exact hv.rely <| hpart.rely (fun t _ _ => gives_program t) hs hw

-- What is there at some time of a run is all of what some call was to write, and stays. Who has
-- looked has seen it, and who has written with success has written it.
structure WriteOnce (name : String) (w : World Call Call.Answer Error Task Dir) : Prop where
  whole : ∀ raw, Visible w.state raw →
    ∃ value, .called value ∈ w.state.history ∧ rawOf value = some raw
  fixed : ∀ w' raw raw', Reaches name w w' → Visible w.state raw →
    (Visible w'.state raw' ↔ raw' = raw)
  seen : ∀ raw, .saw (some raw) ∈ w.state.history → Visible w.state raw
  returned : ∀ value raw, .returned value raw ∈ w.state.history →
    rawOf value = some raw ∧ Visible w.state raw
  one : ∀ value raw value' raw', .returned value raw ∈ w.state.history →
    .returned value' raw' ∈ w.state.history → raw = raw' ∧ rawOf value = rawOf value'

theorem write_once (h : Run name w) : WriteOnce name w := by
  have hs := h.parted.2
  have hreturned (value : Value) (raw : Bytes) (he : .returned value raw ∈ w.state.history) :
      rawOf value = some raw ∧ Visible w.state raw := hs.events (.returned value raw) he
  exact {
    whole    := hs.called
    fixed    := fun w' raw raw' hw hv =>
      ⟨fun hv' => hv'.unique (h.visible hw hv), fun he => he ▸ h.visible hw hv⟩
    seen     := fun raw he => hs.events _ he raw rfl
    returned := hreturned
    one      := fun value raw value' raw' he he' => by
      have ⟨ho, hv⟩ := hreturned value raw he
      have ⟨ho', hv'⟩ := hreturned value' raw' he'
      cases hv.unique hv'
      exact ⟨rfl, ho.trans ho'.symm⟩
  }

end Runs

namespace Sample

scoped instance : PythonJson where
  loads t := if t = "{}\n".points then .ok (.obj []) else .error .decode
  ordered t v h := by
    split at h
    all_goals cases h
    exact .obj .nil nofun
  floatRepr := id
  isFinite _ := true
  floatEq t u := t = u
  floatEqInt _ _ := false

def fresh : Dir where
  record      := none
  temporaries := []
  content _   := []
  created     := 0
  history     := []

-- Only a call that is to fail does so, and a call reads and writes all that it is asked for.
def act : (c : Call) → Bool → Dir → c.Answer × Dir
  | .note e,     _,     s => (.ok (), s.note e)
  | _,           true,  s => (.error .io, s)
  | .open,       false, s => (s.record.elim (.error .notFound) .ok, s)
  | .fstat _,    false, s => (.ok true, s)
  | .stat _,     false, s => (.ok true, s)
  | .read f o n, false, s => (.ok (((s.content f).drop o).take n), s)
  | .create,     false, s => (.ok s.created, s.create)
  | .write f b,  false, s => (.ok b.length, s.append f b)
  | .rename f,   false, s =>
    if s.record ≠ none then (.error .present, s)
    else if f ∈ s.temporaries then (.ok (), s.publish f)
    else (.error .notFound, s)
  | .unlink f,   false, s =>
    if f ∈ s.temporaries then (.ok (), s.unlink f) else (.error .notFound, s)
  | .listdir,    false, s => (.ok s.temporaries, s)
  | .openRoot,   false, s => (.ok (), s)
  | .close,      false, s => (.ok (), s)
  | .fsync,      false, s => (.ok (), s)

theorem does (c : Call) (b : Bool) (s : Dir) : sys c s (act c b s).1 (act c b s).2 := by
  cases c <;> cases b
  case note.false | note.true => exact ⟨rfl, rfl⟩
  case open.false =>
    refine ⟨rfl, ?_⟩
    cases hr : s.record
    all_goals simp [act, hr]
  case read.false f o n =>
    refine ⟨rfl, List.take_prefix .., List.length_take_le .., fun he => ?_⟩
    exact (List.take_eq_nil_iff.mp he).imp_right List.drop_eq_nil_iff.mp
  case create.false => exact ⟨rfl, rfl⟩
  case write.false f raw =>
    refine ⟨Nat.le_refl _, ?_⟩
    rw [List.take_length]
    rfl
  case write.true f raw =>
    refine ⟨0, ?_⟩
    simp [act, Dir.append]
  case rename.false f =>
    by_cases hr : s.record = none
    case neg => simp [act, hr, sys]
    case pos => by_cases hf : f ∈ s.temporaries <;> simp [act, hr, hf, sys]
  case unlink.false f =>
    by_cases hf : f ∈ s.temporaries <;> simp [act, hf, sys]
  case listdir.false =>
    refine ⟨rfl, fun files he => ?_⟩
    cases he
    exact .refl _
  case listdir.true => exact ⟨rfl, nofun⟩
  case open.true | read.true => exact ⟨rfl, trivial⟩
  all_goals exact rfl

-- Two are to write, and a third one reads.
def tasks : List (Task × List Bool) :=
  [(.write (.obj []), List.replicate 20 false), (.write .null, List.replicate 20 false),
    (.read true, List.replicate 20 false)]

theorem write_once_tasks :
    (runs act (program "record") tasks fresh).history =
      [.called (.obj []), .returned (.obj []) [0x7B, 0x7D, 0x0A], .called .null,
        .saw (some [0x7B, 0x7D, 0x0A])] ∧
    WriteOnce "record" ⟨runs act (program "record") tasks fresh, fun _ => none⟩ := by
  have h : Run "record" ⟨runs act (program "record") tasks fresh, fun _ => none⟩ :=
    .runs does (fun _ _ => trivial) (.init ⟨rfl, rfl, nofun⟩)
  exact ⟨by decide +kernel, write_once h⟩

end Sample

end RecordFile
