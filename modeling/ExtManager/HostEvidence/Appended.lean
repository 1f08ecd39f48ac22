import ExtManager.HostEvidence.Torn
import ExtManager.Order.Seating

namespace HostEvidence

open Fallible

variable [Hashlib] [Decimal] {raw : Bytes} {e : HostEvent} {a : Attempt} {as : List Attempt}
variable {d d' : Directory} {journal name : Text}

section Reading

variable {records : List JournalEvent} {lines : List (Text × Nat × Bytes)}
variable {line : Text × Nat × Bytes} {js : List (Text × Entry)} {st : List JournalEvent × Nat}
variable {expected : Option (Int × Int)}

def Readable (line : Bytes) : Prop :=
  ∃ e, parseHostEvent line = .ok e

-- Two lines do not have the identifier of one event.
def Apart (x y : Bytes) : Prop :=
  ∀ e e', parseHostEvent x = .ok e → parseHostEvent y = .ok e' → e.eventId ≠ e'.eventId

theorem Apart.symm {x y : Bytes} (h : Apart x y) : Apart y x :=
  fun e e' he he' hid => h e' e he' he hid.symm

def Ended (j : Text × Entry) : Prop :=
  ∃ bytes, j.2 = .file bytes ∧ (bytes = [] ∨ bytes.getLast? = some 0x0A)

theorem ne_nil_of_readable (h : Readable raw) : raw ≠ [] := by
  rintro rfl
  obtain ⟨e, he⟩ := h
  have ⟨v, hv⟩ := read_of_parse (fun _ hx => absurd hx List.not_mem_nil) he
  cases hv

theorem readLine_total (h : Recorded lines records) (hl : Readable line.2.2)
    (ha : ∀ x ∈ lines, Apart x.2.2 line.2.2) : ∃ records', readLine records line = .ok records' := by
  obtain ⟨e, he⟩ := hl
  refine ⟨records ++ [⟨line.1, line.2.1, line.2.2, e⟩], refuse_seq.mpr
    ⟨ne_nil_of_readable ⟨e, he⟩, bind_ok.mpr ⟨e, mapError_ok.mpr he, ?_⟩⟩⟩
  refine refuse_seq.mpr ⟨fun ⟨r, hr, hid⟩ => ?_, rfl⟩
  exact ha r.line (h.lines ▸ List.mem_map_of_mem hr) r.event e (h.parsed r hr) he hid

theorem readLines_total {lines' : List (Text × Nat × Bytes)} (h : Recorded lines records)
    (hl : ∀ l ∈ lines', Readable l.2.2)
    (hp : (lines ++ lines').Pairwise fun x y => Apart x.2.2 y.2.2) :
    ∃ records', lines'.foldlM readLine records = .ok records' := by
  induction lines' generalizing lines records with
  | nil              => exact ⟨records, rfl⟩
  | cons line lines' ih =>
    have ⟨hline, hl⟩ := List.forall_mem_cons.mp hl
    have ⟨_, _, hcross⟩ := List.pairwise_append.mp hp
    obtain ⟨records₁, hr⟩ := readLine_total h hline fun x hx => hcross x hx line List.mem_cons_self
    obtain ⟨records', hr'⟩ := ih (h.next hr) hl (by simpa using hp)
    exact ⟨records', by rw [List.foldlM_cons]; exact bind_ok.mpr ⟨records₁, hr, hr'⟩⟩

theorem readJournals_total {js' : List (Text × Entry)} (h : Read js st) (hj : ∀ j ∈ js', Ended j)
    (hl : ∀ l ∈ js'.flatMap linesOf, Readable l.2.2)
    (hp : ((js ++ js').flatMap linesOf).Pairwise fun x y => Apart x.2.2 y.2.2) :
    ∃ st', js'.foldlM (readJournal none) st = .ok st' := by
  induction js' generalizing js st with
  | nil        => exact ⟨st, rfl⟩
  | cons j js' ih =>
    have ⟨⟨bytes, hf, hend⟩, hj⟩ := List.forall_mem_cons.mp hj
    have ⟨hlj, hl⟩ := List.forall_mem_append.mp (List.flatMap_cons ▸ hl)
    have hpj : (js.flatMap linesOf ++ linesOf j).Pairwise fun x y => Apart x.2.2 y.2.2 := by
      rw [List.flatMap_append, List.flatMap_cons, ← List.append_assoc] at hp
      exact (List.pairwise_append.mp hp).left
    obtain ⟨records, hr⟩ := readLines_total h hlj hpj
    have hstep : readJournal none st j = .ok (records, st.2 + bytes.length) := by
      unfold readJournal
      rw [hf]
      refine refuse_seq.mpr ⟨by simp, refuse_seq.mpr ⟨fun hn => ?_, bind_ok.mpr ⟨records, hr, rfl⟩⟩⟩
      exact hend.elim hn.left hn.right
    obtain ⟨st', hst⟩ := ih (h.next hstep) hj hl (by simpa using hp)
    exact ⟨st', by rw [List.foldlM_cons]; exact bind_ok.mpr ⟨_, hstep, hst⟩⟩

theorem ended_of_readJournal {j : Text × Entry} {st' : List JournalEvent × Nat}
    (h : readJournal none st j = .ok st') : Ended j := by
  unfold readJournal at h
  split at h
  case h_1 => cases h
  case h_2 bytes hf =>
    obtain ⟨-, h⟩ := refuse_seq.mp h
    obtain ⟨hend, -⟩ := refuse_seq.mp h
    exact ⟨bytes, hf, by simpa [not_and_or, or_iff_not_imp_left] using hend⟩

-- A directory is read iff its journals end where a line does, and all of their lines are events that
-- have been recorded once.
theorem readEvents_iff (he : ∀ identity ∈ expected, identity = d.identity) :
    (∃ records, readEvents d expected none = .ok records) ↔
      (∀ j ∈ d.journals, Ended j) ∧ (∀ l ∈ d.journals.flatMap linesOf, Readable l.2.2) ∧
        (d.journals.flatMap linesOf).Pairwise fun x y => Apart x.2.2 y.2.2 := by
  constructor
  · rintro ⟨records, h⟩
    have hrec := recorded_of_readEvents h
    obtain ⟨-, h⟩ := refuse_seq.mp h
    obtain ⟨-, h⟩ := refuse_seq.mp h
    obtain ⟨st, hst, -⟩ := bind_ok.mp h
    refine ⟨?_, ?_, ?_⟩
    · have hnil : ∀ j ∈ ([] : List (Text × Entry)), Ended j := fun _ hj => absurd hj List.not_mem_nil
      exact foldlM_ok (P := fun js _ => ∀ j ∈ js, Ended j)
        (fun _ _ j _ hjs hr => List.forall_mem_append.mpr
          ⟨hjs, List.forall_mem_singleton.mpr (ended_of_readJournal hr)⟩) hnil hst
    · rw [← hrec.lines]
      exact List.forall_mem_map.mpr fun r hr => ⟨r.event, hrec.parsed r hr⟩
    · rw [← hrec.lines, List.pairwise_map]
      refine hrec.distinct.imp_of_mem fun {r r'} hr hr' hne e e' he he' => ?_
      cases (hrec.parsed r hr).symm.trans he
      cases (hrec.parsed r' hr').symm.trans he'
      exact hne
  · rintro ⟨hj, hl, hp⟩
    obtain ⟨st, hst⟩ := readJournals_total (show Read [] ([], 0) from read_nil) hj hl hp
    refine ⟨st.1, refuse_seq.mpr ⟨by simp, refuse_seq.mpr ⟨fun ⟨i, hi, hne⟩ => hne (he i hi), ?_⟩⟩⟩
    exact bind_ok.mpr ⟨st, hst, rfl⟩

end Reading

section Attempts

def isJournal (name : Text) : Bool :=
  ".jsonl".points.isSuffixOf name

-- The records of the calls that write to a journal, with what they have written of them.
def piecesOf (journal : Text) (as : List Attempt) : List (Bytes × Bytes) :=
  as.filterMap fun a => (a.record?.filter (·.1 = journal)).map fun (_, raw) => (raw, a.written)

-- The records of a journal that have been written as a whole, in the order of the calls.
def recordsOf (journal : Text) (as : List Attempt) : List Bytes :=
  as.filterMap fun a => (a.recorded?.filter (·.1 = journal)).map (·.2)

omit [Hashlib] [Decimal] in
theorem writeAll_prefix {view : Bytes} {writes : List Write} : (writeAll view writes).1 <+: view := by
  induction writes generalizing view with
  | nil => exact List.prefix_refl _
  | cons w writes ih =>
    cases w
    case stopped n stop =>
      rw [writeAll]
      split
      · exact List.nil_prefix
      · exact List.take_prefix ..
    case wrote n =>
      rw [writeAll]
      split
      · exact List.nil_prefix
      split
      · exact List.nil_prefix
      · obtain ⟨r, hr⟩ := @ih (view.drop n)
        exact ⟨r, by rw [List.append_assoc, hr, List.take_append_drop]⟩

omit [Hashlib] [Decimal] in
-- The loop ends by itself when everything has been written.
theorem writeAll_eq {view : Bytes} {writes : List Write} (h : (writeAll view writes).2 = none) :
    (writeAll view writes).1 = view := by
  induction writes generalizing view with
  | nil => rfl
  | cons w writes ih =>
    cases w
    case stopped n stop =>
      rw [writeAll] at h ⊢
      split at h
      case isTrue hv  => rw [if_pos hv, hv]
      case isFalse hv => cases h
    case wrote n =>
      rw [writeAll] at h ⊢
      split at h
      case isTrue hv => rw [if_pos hv, hv]
      case' isFalse hv => rw [if_neg hv]
      split at h
      case isTrue => cases h
      case isFalse hn =>
        rw [if_neg hn]
        exact (congrArg (view.take n ++ ·) (ih h)).trans (List.take_append_drop ..)

theorem record_ok (h : a.record? = some (journal, raw)) :
    canonicalEvent a.event = .ok raw ∧ journal = journalName a.event := by
  unfold Attempt.record? at h
  split at h
  case h_1 raw' hr _ =>
    cases h
    exact ⟨hr, rfl⟩
  case h_2 => cases h

theorem isJournal_of_record (h : a.record? = some (journal, raw)) : isJournal journal := by
  rw [isJournal, (record_ok h).right, journalName, List.isSuffixOf_iff_suffix]
  exact List.suffix_append _ _

theorem written_eq (h : a.record? = some (journal, raw)) :
    a.written = (writeAll (raw ++ [0x0A]) a.writes).1 := by
  unfold Attempt.written
  split
  case h_1 hn => cases hn.symm.trans h
  case h_2 hr => cases hr.symm.trans h; rfl

theorem fits_of_mem {p : Bytes × Bytes} (h : p ∈ piecesOf journal as) : Fits p := by
  obtain ⟨a, _, ha⟩ := List.mem_filterMap.mp h
  obtain ⟨⟨j, raw⟩, hr, rfl⟩ := Option.map_eq_some_iff.mp ha
  have ⟨hr, _⟩ := Option.filter_eq_some_iff.mp hr
  refine ⟨isRecord_of_canonicalEvent (record_ok hr).left, ?_⟩
  rw [written_eq hr]
  exact writeAll_prefix

theorem recordsOf_eq : recordsOf journal as = ((piecesOf journal as).filter whole).map (·.1) := by
  rw [recordsOf, piecesOf, List.filter_filterMap, List.map_filterMap]
  refine List.filterMap_congr fun a _ => ?_
  unfold Attempt.recorded?
  cases a.record?
  case none => rfl
  case some r =>
    by_cases hj : r.1 = journal
    all_goals
      by_cases hw : a.written = r.2 ++ [0x0A]
      all_goals simp [hj, hw, whole, Option.filter]

end Attempts

section Directory

-- What the calls have written to a journal.
def bytesOf (journal : Text) (as : List Attempt) : Bytes :=
  (piecesOf journal as).flatMap (·.2)

theorem bytesOf_append : bytesOf journal (as ++ [a]) = bytesOf journal as ++
    (if a.record?.any (·.1 = journal) then a.written else []) := by
  rw [bytesOf, piecesOf, List.filterMap_append, List.flatMap_append, ← piecesOf, ← bytesOf]
  cases hr : a.record?
  case none => simp [hr]
  case some r => by_cases hj : r.1 = journal <;> simp [hr, hj, Option.filter]

theorem piecesOf_eq_nil (h : ∀ a ∈ as, ∀ r, a.record? = some r → r.1 ≠ journal) :
    piecesOf journal as = [] := by
  refine List.filterMap_eq_nil_iff.mpr fun a ha => ?_
  cases hr : a.record?
  case none   => rfl
  case some r => simp [Option.filter, h a ha r hr]

omit [Hashlib] [Decimal] in
theorem lookup_eq_none : d.lookup name = none ↔ ∀ j ∈ d.entries, j.1 ≠ name := by
  simp [Directory.lookup]

omit [Hashlib] [Decimal] in
theorem mem_of_lookup {x : Entry} (h : d.lookup name = some x) : (name, x) ∈ d.entries := by
  obtain ⟨j, hj, rfl⟩ := Option.map_eq_some_iff.mp h
  have hn := of_decide_eq_true (List.find?_some (p := fun j : Text × Entry => j.1 = name) hj)
  exact hn ▸ List.mem_of_find?_eq_some hj

omit [Hashlib] [Decimal] in
theorem journals_perm : d.journals.Perm (d.entries.filter fun j => isJournal j.1) := by
  unfold Directory.journals isJournal
  exact List.perm_insertionSort _ _

-- What calls have left in a directory that had no journals before.
structure Holds (as : List Attempt) (d : Directory) : Prop where
  names   : ((d.entries.filter fun j => isJournal j.1).map (·.1)).Nodup
  journal : ∀ j ∈ d.entries, isJournal j.1 → j.2 = .file (bytesOf j.1 as)
  opened  : ∀ a ∈ as, ∀ r, a.record? = some r → ∃ j ∈ d.entries, j.1 = r.1

theorem holds_nil (h : d.journals = []) : Holds [] d := by
  have hp : d.journals.Perm (d.entries.filter fun j => isJournal j.1) := journals_perm
  rw [h] at hp
  have hnil := hp.nil_eq.symm
  refine ⟨by simp [hnil], fun j hj hs => ?_, fun _ ha => (nomatch ha)⟩
  exact absurd (hnil ▸ List.mem_filter.mpr ⟨hj, hs⟩) List.not_mem_nil

theorem Holds.openJournal (h : Holds as d) (hj : isJournal journal) :
    ∃ d', d.openJournal journal = some d' ∧ Holds as d' ∧ d'.identity = d.identity ∧
      ∃ j ∈ d'.entries, j.1 = journal := by
  unfold Directory.openJournal
  split
  case h_1 hn =>
    have hn := lookup_eq_none.mp hn
    refine ⟨_, rfl, ⟨?_, fun j hm hs => ?_, fun a ha r hr => ?_⟩, rfl, (journal, .file []), by simp, rfl⟩
    · rw [List.filter_append, List.map_append]
      refine List.nodup_append.mpr ⟨h.names, by simp [hj], fun x hx y hy => ?_⟩
      obtain ⟨j, hm, rfl⟩ := List.mem_map.mp hx
      have hy : y = journal := by simpa [hj] using hy
      exact hy ▸ hn j (List.mem_filter.mp hm).left
    · rcases List.mem_append.mp hm with hm | hm
      · exact h.journal j hm hs
      · cases List.mem_singleton.mp hm
        have hnil : piecesOf journal as = [] := piecesOf_eq_nil fun a ha r hr => by
          obtain ⟨j, hm, he⟩ := h.opened a ha r hr
          exact he ▸ hn j hm
        rw [bytesOf, hnil]
        rfl
    · obtain ⟨j, hm, he⟩ := h.opened a ha r hr
      exact ⟨j, List.mem_append_left _ hm, he⟩
  case h_2 bytes hb => exact ⟨d, rfl, h, rfl, _, mem_of_lookup hb, rfl⟩
  case h_3 ho =>
    have := h.journal _ (mem_of_lookup ho) hj
    cases this

theorem Holds.extend (h : Holds as d) (hr : a.record? = some (journal, raw))
    (he : ∃ j ∈ d.entries, j.1 = journal) : Holds (as ++ [a]) (d.extend journal a.written) := by
  -- the names stay
  have hname (j : Text × Entry) :
      (if j.1 = journal then (j.1, j.2.extend a.written) else j).1 = j.1 := by
    split <;> rfl
  refine ⟨?_, fun j hm hs => ?_, fun a' ha r hr' => ?_⟩
  · have hmap : ((d.extend journal a.written).entries.filter fun j => isJournal j.1).map (·.1) =
        (d.entries.filter fun j => isJournal j.1).map (·.1) := by
      rw [Directory.extend, List.filter_map, List.map_map]
      refine (List.map_congr_left fun j _ => hname j).trans ?_
      refine congrArg (List.map _) (List.filter_congr fun j _ => ?_)
      exact congrArg isJournal (hname j)
    exact hmap ▸ h.names
  · obtain ⟨⟨n, x⟩, hj, rfl⟩ := List.mem_map.mp hm
    have hfile : x = .file (bytesOf n as) := h.journal _ hj (hname (n, x) ▸ hs)
    by_cases hn : n = journal
    case pos => simp [hn, hfile, bytesOf_append, hr, Entry.extend]
    case neg => simp [hn, hfile, bytesOf_append, hr, Ne.symm hn]
  · have hold : ∃ j ∈ d.entries, j.1 = r.1 := by
      rcases List.mem_append.mp ha with ha | ha
      · exact h.opened a' ha r hr'
      · cases List.mem_singleton.mp ha
        cases hr.symm.trans hr'
        exact he
    obtain ⟨j, hm, hj⟩ := hold
    exact ⟨_, List.mem_map_of_mem hm, (hname j).trans hj⟩

-- A call writes to its journal and leaves the others alone, and one that returns has written its
-- record.
theorem Holds.next (h : Holds as d) : Holds (as ++ [a]) (a.append d).1 ∧
    (a.append d).1.identity = d.identity ∧ ((a.append d).2 = none → a.recorded?.isSome) := by
  unfold Attempt.append
  split
  case h_1 hn =>
    have hsame (j : Text) : bytesOf j (as ++ [a]) = bytesOf j as := by
      simp [bytesOf_append, hn]
    refine ⟨⟨h.names, fun j hm hs => hsame j.1 ▸ h.journal j hm hs, fun a' ha r hr => ?_⟩, rfl, nofun⟩
    rcases List.mem_append.mp ha with ha | ha
    · exact h.opened a' ha r hr
    · cases List.mem_singleton.mp ha
      cases hn.symm.trans hr
  case h_2 journal raw hr =>
    obtain ⟨d', hd, h', hid, he⟩ := h.openJournal (isJournal_of_record hr)
    rw [hd]
    have hw := written_eq hr
    have hx := h'.extend hr he
    rw [hw] at hx
    refine ⟨hx, hid, fun hs => ?_⟩
    have hnone : (writeAll (raw ++ [0x0A]) a.writes).2 = none := by
      cases hst : (writeAll (raw ++ [0x0A]) a.writes).2
      case none   => rfl
      case some stop =>
        have hs : ((writeAll (raw ++ [0x0A]) a.writes).2 <|> a.after) = none := hs
        rw [hst] at hs
        cases hs
    simp [Attempt.recorded?, hr, hw, writeAll_eq hnone, Option.filter]

theorem appendAll_append : appendAll d (as ++ [a]) = (a.append (appendAll d as)).1 := by
  simp [appendAll]

theorem holds_appendAll (h : d.journals = []) :
    Holds as (appendAll d as) ∧ (appendAll d as).identity = d.identity := by
  induction as using List.reverseRecOn with
  | nil => exact ⟨holds_nil h, rfl⟩
  | append_singleton as a ih =>
    rw [appendAll_append]
    have ⟨hn, hid, _⟩ := ih.left.next (a := a)
    exact ⟨hn, hid.trans ih.right⟩

end Directory

section Main

variable {expected : Option (Int × Int)}

theorem mem_piecesOf (ha : a ∈ as) (hr : a.record? = some (journal, raw)) :
    (raw, a.written) ∈ piecesOf journal as :=
  List.mem_filterMap.mpr ⟨a, ha, by simp [hr, Option.filter]⟩

theorem recorded?_eq (hr : a.record? = some (journal, raw)) :
    a.recorded? = if whole (raw, a.written) then some (journal, raw) else none := by
  rw [Attempt.recorded?, hr]
  rfl

theorem written_of_not_torn (h : ∀ a ∈ as, ¬a.torn) {p : Bytes × Bytes}
    (hp : p ∈ piecesOf journal as) : Fits p ∧ (p.2 = [] ∨ whole p) := by
  refine ⟨fits_of_mem hp, ?_⟩
  obtain ⟨a, ha, hm⟩ := List.mem_filterMap.mp hp
  obtain ⟨⟨j, raw⟩, hr, rfl⟩ := Option.map_eq_some_iff.mp hm
  have ⟨hr, _⟩ := Option.filter_eq_some_iff.mp hr
  have ht := h a ha
  by_contra hn
  push Not at hn
  refine ht ?_
  simp [Attempt.torn, recorded?_eq hr, hr, hn.left, hn.right]

theorem piece_of_torn (ha : a ∈ as) (h : a.torn) : ∃ journal raw,
    a.record? = some (journal, raw) ∧ (raw, a.written) ∈ piecesOf journal as ∧ a.written ≠ [] ∧
      whole (raw, a.written) = false := by
  cases hr : a.record?
  case none => simp [Attempt.torn, hr] at h
  case some r =>
    refine ⟨r.1, r.2, rfl, mem_piecesOf ha hr, ?_⟩
    simpa [Attempt.torn, recorded?_eq hr, hr] using h

-- The lines of a journal of which no record has been left.
def rowOf (as : List Attempt) (journal : Text) : List (Text × Nat × Bytes) :=
  ((recordsOf journal as).zipIdx 1).map fun (raw, n) => (journal, n, raw)

theorem rowOf_raw : (rowOf as journal).map (fun l => (l.1, l.2.2)) =
    Seating.members Prod.fst journal (as.filterMap Attempt.recorded?) := by
  have hz : ((recordsOf journal as).zipIdx 1).map (fun x => (journal, x.1)) =
      (recordsOf journal as).map fun raw => (journal, raw) := by
    rw [← List.zipIdx_map_fst 1 (recordsOf journal as), List.map_map, List.zipIdx_map_fst]
    rfl
  rw [rowOf, List.map_map]
  refine hz.trans ?_
  rw [recordsOf, Seating.members, List.map_filterMap, List.filter_filterMap]
  refine List.filterMap_congr fun a _ => ?_
  cases a.recorded?
  case none   => rfl
  case some r => by_cases hj : r.1 = journal <;> simp [Option.filter, hj, Prod.ext_iff, eq_comm]

theorem journals_holds (h : Holds as d) : (d.journals.map (·.1)).Nodup ∧
    (∀ j ∈ d.journals, j.2 = .file (bytesOf j.1 as)) ∧
      ∀ a ∈ as, ∀ r, a.record? = some r → r.1 ∈ d.journals.map (·.1) := by
  have hp : d.journals.Perm (d.entries.filter fun j => isJournal j.1) := journals_perm
  refine ⟨(hp.map _).nodup_iff.mpr h.names, fun j hj => ?_, fun a ha r hr => ?_⟩
  · have ⟨hm, hs⟩ := List.mem_filter.mp (hp.mem_iff.mp hj)
    exact h.journal j hm hs
  · obtain ⟨j, hm, he⟩ := h.opened a ha r hr
    refine List.mem_map.mpr ⟨j, hp.mem_iff.mpr (List.mem_filter.mpr ⟨hm, ?_⟩), he⟩
    exact he ▸ isJournal_of_record hr

theorem lines_holds (h : Holds as d) (ht : ∀ a ∈ as, ¬a.torn) :
    d.journals.flatMap linesOf = (d.journals.map (·.1)).flatMap (rowOf as) ∧
      ∀ j ∈ d.journals, Ended j := by
  have ⟨_, hfile, _⟩ := journals_holds h
  refine ⟨?_, fun j hj => ⟨_, hfile j hj, ?_⟩⟩
  · rw [List.flatMap_map]
    refine List.flatMap_congr fun j hj => ?_
    have hwhole : ∀ p ∈ piecesOf j.1 as, Fits p ∧ (p.2 = [] ∨ whole p) :=
      fun p hp => written_of_not_torn ht hp
    have ⟨hl, _⟩ := lines_of_whole hwhole
    rw [linesOf, hfile j hj, rowOf, recordsOf_eq, ← hl]
    rfl
  · exact (lines_of_whole fun p hp => written_of_not_torn ht hp).right

-- The lines are those of the calls, journal by journal.
theorem lines_perm (h : Holds as d) (ht : ∀ a ∈ as, ¬a.torn) :
    ((d.journals.flatMap linesOf).map fun l => (l.1, l.2.2)).Perm
      (as.filterMap Attempt.recorded?) := by
  have ⟨hn, _, hopen⟩ := journals_holds h
  rw [(lines_holds h ht).left, List.map_flatMap]
  have hrow : ((d.journals.map (·.1)).flatMap fun k => (rowOf as k).map fun l => (l.1, l.2.2)) =
      (d.journals.map (·.1)).flatMap fun k =>
        Seating.members Prod.fst k (as.filterMap Attempt.recorded?) :=
    List.flatMap_congr fun _ _ => rowOf_raw
  rw [hrow]
  refine Seating.flatMap_members hn fun x hx => ?_
  obtain ⟨a, ha, hx⟩ := List.mem_filterMap.mp hx
  exact hopen a ha x (Option.filter_eq_some_iff.mp hx).left

theorem not_torn_of_read (h : Holds as d) (hj : ∀ j ∈ d.journals, Ended j)
    (hl : ∀ l ∈ d.journals.flatMap linesOf, Readable l.2.2) : ∀ a ∈ as, ¬a.torn := by
  intro a ha htorn
  have ⟨_, hfile, hopen⟩ := journals_holds h
  obtain ⟨journal, raw, hr, hp, hne, hw⟩ := piece_of_torn ha htorn
  obtain ⟨j, hm, rfl⟩ := List.mem_map.mp (hopen a ha _ hr)
  have hstart : ([] : Bytes) = [] ∨ IsBroken [] := .inl rfl
  obtain ⟨hnil, hbad⟩ := unreadable_of_torn (fun p hp => fits_of_mem hp) hstart (.inr ⟨_, hp, hne, hw⟩)
  obtain ⟨bytes, hb, hend⟩ := hj j hm
  cases (hfile j hm).symm.trans hb
  rcases hbad with hbad | ⟨line, hline, hbad⟩
  · exact hend.elim hnil hbad
  · have hmem : line ∈ (linesOf j).map (·.2.2) := by
      rw [linesOf, hfile j hm]
      simpa [bytesOf, List.map_map, Function.comp_def, List.zipIdx_map_fst] using hline
    obtain ⟨l, hl', rfl⟩ := List.mem_map.mp hmem
    obtain ⟨e, he⟩ := hl l (List.mem_flatMap.mpr ⟨j, hm, hl'⟩)
    exact hbad e he

-- The journals are read iff no record has been left and none has been written twice. Then each of
-- them holds the records that have been written as a whole, once and in the order of the calls, and
-- those of the calls that have returned are among them.
theorem appended_reads (hd : d.journals = []) (he : ∀ identity ∈ expected, identity = d.identity) :
    ((∃ records, readEvents (appendAll d as) expected none = .ok records) ↔
      (∀ a ∈ as, ¬a.torn) ∧
        (as.filterMap Attempt.recorded?).Pairwise fun x y => Apart x.2 y.2) ∧
    (∀ records, readEvents (appendAll d as) expected none = .ok records →
      (∀ journal, (records.filter (·.journal = journal)).map JournalEvent.line =
        ((recordsOf journal as).zipIdx 1).map fun (raw, n) => (journal, n, raw)) ∧
      ∀ r ∈ records, parseHostEvent r.raw = .ok r.event) ∧
    ∀ before a after, as = before ++ a :: after → (a.append (appendAll d before)).2 = none →
      a.recorded?.isSome := by
  have ⟨h, hid⟩ : Holds as (appendAll d as) ∧ (appendAll d as).identity = d.identity :=
    holds_appendAll hd
  have hiff := readEvents_iff (d := appendAll d as) fun i hi => (he i hi).trans hid.symm
  refine ⟨?_, fun records hr => ?_, fun before a after _ hs => ?_⟩
  · rw [hiff]
    have hpair (ht : ∀ a ∈ as, ¬a.torn) : ((appendAll d as).journals.flatMap linesOf).Pairwise
        (fun x y => Apart x.2.2 y.2.2) ↔
          (as.filterMap Attempt.recorded?).Pairwise fun x y => Apart x.2 y.2 := by
      rw [← (lines_perm h ht).pairwise_iff fun h => h.symm, List.pairwise_map]
    constructor
    · rintro ⟨hj, hl, hp⟩
      have ht := not_torn_of_read h hj hl
      exact ⟨ht, (hpair ht).mp hp⟩
    · rintro ⟨ht, hp⟩
      refine ⟨(lines_holds h ht).right, fun l hl => ?_, (hpair ht).mpr hp⟩
      have hm := (lines_perm h ht).mem_iff.mp (List.mem_map_of_mem hl)
      obtain ⟨a, ha, hx⟩ := List.mem_filterMap.mp hm
      have ⟨hc, _⟩ := record_ok (Option.filter_eq_some_iff.mp hx).left
      unfold canonicalEvent at hc
      split at hc
      case h_1 => cases hc
      case h_2 =>
        obtain ⟨e, hp, hc⟩ := bind_ok.mp hc
        cases hc
        exact ⟨e, mapError_ok.mp hp⟩
  · have hrec := recorded_of_readEvents hr
    have ⟨hj, hl, _⟩ := hiff.mp ⟨records, hr⟩
    have ht := not_torn_of_read h hj hl
    have ⟨hn, _, hopen⟩ := journals_holds h
    refine ⟨fun journal => ?_, hrec.parsed⟩
    have hf : (records.filter (·.journal = journal)).map JournalEvent.line =
        Seating.members Prod.fst journal (records.map JournalEvent.line) := by
      rw [Seating.members, List.filter_map]
      rfl
    rw [hf, hrec.lines, (lines_holds h ht).left, Seating.members_flatMap hn fun k x hx => ?_]
    · split
      case isTrue  => rfl
      case isFalse hk =>
        have hnil : recordsOf journal as = [] := by
          rw [recordsOf_eq, piecesOf_eq_nil fun a ha r hr (he : r.1 = journal) =>
            hk (he ▸ hopen a ha r hr)]
          rfl
        rw [hnil]
        rfl
    · obtain ⟨_, _, rfl⟩ := List.mem_map.mp hx
      rfl
  · have hb : Holds before (appendAll d before) := (holds_appendAll hd).left
    exact hb.next.right.right hs

end Main

end HostEvidence

namespace HostEvidence.Sample

def event : HostEvent where
  eventId              := eventId
  event                := "invoked".points
  observationKind      := .loaderLifecycle
  entryPoint           := ⟨"g".points, "n".points, "v".points⟩
  process              :=
    ⟨"h".points, "w".points, 0, 7, "pid:7:start_ticks:9".points, 1, some "host".points⟩
  observedAtNs         := 5
  deliveryAttempt      := 1
  planId               := some "p".points
  launchId             := some "l".points
  bindingStatus        := "bound".points
  occurrenceId         := none
  controllerInstanceId := none
  invocationSeq        := none
  dispatchId           := none
  identityStatus       := "verified".points
  detail               := none

def root : Directory :=
  ⟨(1, 2), []⟩

-- A call that fails before the journal is opened, one that is killed at its first write, and one
-- that writes its record in three pieces.
def calls : List Attempt :=
  [⟨event, some .raised, [], none⟩, ⟨event, none, [.stopped 0 .killed], none⟩,
    ⟨event, none, [.wrote 1, .wrote 2], none⟩]

theorem appended_calls : ∃ records, readEvents (appendAll root calls) none none = .ok records ∧
    (records.filter (·.journal = journalName event)).map JournalEvent.line =
      [(journalName event, 1, line "verified")] := by
  have hd : root.journals = [] := rfl
  have ⟨hiff, hread, _⟩ := @appended_reads _ _ calls root none hd nofun
  have ⟨hrec, hof, ht⟩ :
      calls.filterMap Attempt.recorded? = [(journalName event, line "verified")] ∧
        recordsOf (journalName event) calls = [line "verified"] ∧ ∀ a ∈ calls, ¬a.torn := by
    decide +kernel
  obtain ⟨records, hr⟩ := hiff.mpr ⟨ht, by rw [hrec]; exact List.pairwise_singleton ..⟩
  refine ⟨records, hr, ?_⟩
  rw [(hread records hr).left, hof]
  rfl

-- A call that has returned, and one that is killed behind the first byte of its record.
def returned : Attempt :=
  ⟨event, none, [], none⟩

def cut : Attempt :=
  ⟨event, none, [.stopped 1 .killed], none⟩

-- The record of the first one is not read any more.
theorem cut_unreadable : (returned.append root).2 = none ∧
    readEvents (appendAll root [returned, cut]) none none = .error .unfinished := by
  decide +kernel

end HostEvidence.Sample
