import ExtManager.HostEvidence.Binding

namespace HostEvidence

-- One exact line of a process journal.
structure JournalEvent where
  journal    : Text
  lineNumber : Nat
  raw        : Bytes
  event      : HostEvent
  deriving DecidableEq

-- A file that is owned and regular, or anything else.
inductive Entry
  | file (bytes : Bytes)
  | other

structure Directory where
  identity : Int × Int
  entries  : List (Text × Entry)

inductive ReadFailure
  | badLimit
  | directory
  | unreadable
  | limit
  | unfinished
  | emptyRecord
  | event (f : Failure)
  | duplicate
  deriving DecidableEq

-- `bytes.splitlines()`, with the line so far.
def splitLines (line : Bytes) : Bytes → List Bytes
  | []             => if line = [] then [] else [line.reverse]
  | 0x0D :: 0x0A :: r => line.reverse :: splitLines [] r
  | b :: r         =>
    if b = 0x0A ∨ b = 0x0D then line.reverse :: splitLines [] r else splitLines (b :: line) r

-- The lines of a journal with their numbers.
def linesOf (journal : Text × Entry) : List (Text × Nat × Bytes) :=
  match journal.2 with
  | .file bytes => ((splitLines [] bytes).zipIdx 1).map fun (raw, n) => (journal.1, n, raw)
  | .other      => []

-- The journals of a directory, in the order of their names.
def Directory.journals (d : Directory) : List (Text × Entry) :=
  (d.entries.filter fun j => ".jsonl".points.isSuffixOf j.1).insertionSort (·.1 ≤ ·.1)

def refuse (p : Prop) [Decidable p] (e : ReadFailure) : Except ReadFailure Unit :=
  if p then .error e else .ok ()

variable [Hashlib] [Decimal]

def readLine (records : List JournalEvent) (line : Text × Nat × Bytes) :
    Except ReadFailure (List JournalEvent) := do
  let (journal, lineNumber, raw) := line
  refuse (raw = []) .emptyRecord
  let event ← (parseHostEvent raw).mapError .event
  refuse (∃ r ∈ records, r.event.eventId = event.eventId) .duplicate
  return records ++ [{ journal, lineNumber, raw, event }]

-- One journal, behind so many bytes.
def readJournal (limit : Option Nat) (st : List JournalEvent × Nat) (journal : Text × Entry) :
    Except ReadFailure (List JournalEvent × Nat) :=
  match journal.2 with
  | .other      => .error .unreadable
  | .file bytes => do
    refuse (∃ l ∈ limit, l < st.2 + bytes.length) .limit
    refuse (bytes ≠ [] ∧ bytes.getLast? ≠ some 0x0A) .unfinished
    let records ← (linesOf journal).foldlM readLine st.1
    return (records, st.2 + bytes.length)

-- `read_events`.
def readEvents (d : Directory) (expected : Option (Int × Int)) (limit : Option Nat) :
    Except ReadFailure (List JournalEvent) := do
  refuse (limit = some 0) .badLimit
  refuse (∃ identity ∈ expected, identity ≠ d.identity) .directory
  let st ← d.journals.foldlM (readJournal limit) ([], 0)
  return st.1

section Reading

open Fallible

variable {p : Prop} [Decidable p] {u : Unit} {records : List JournalEvent} {d : Directory}
variable {expected : Option (Int × Int)} {limit : Option Nat}

omit [Hashlib] [Decimal] in
theorem refuse_ok {e : ReadFailure} : refuse p e = .ok u ↔ ¬p := by
  unfold refuse
  split
  case isTrue h  => exact ⟨nofun, fun hp => absurd h hp⟩
  case isFalse h => exact ⟨fun _ => h, fun _ => rfl⟩

omit [Hashlib] [Decimal] in
theorem refuse_seq {α : Type} {e : ReadFailure} {k : Unit → Except ReadFailure α} {a : α} :
    (refuse p e >>= k) = .ok a ↔ ¬p ∧ k () = .ok a := by
  rw [bind_ok]
  exact ⟨fun ⟨_, h, hk⟩ => ⟨refuse_ok.mp h, hk⟩, fun ⟨h, hk⟩ => ⟨(), refuse_ok.mpr h, hk⟩⟩

omit [Hashlib] [Decimal] in
-- Another failure than the one that is refused with comes from what follows.
theorem refuse_seq_error {α : Type} {e e' : ReadFailure} {k : Unit → Except ReadFailure α}
    (h : (refuse p e >>= k) = .error e') (hne : e ≠ e') : k () = .error e' := by
  unfold refuse at h
  split at h
  case isTrue  => exact absurd (Except.error.inj h) hne
  case isFalse => exact h

def JournalEvent.line (r : JournalEvent) : Text × Nat × Bytes :=
  (r.journal, r.lineNumber, r.raw)

-- The lines so far have been parsed to events with identifiers of their own.
structure Recorded (lines : List (Text × Nat × Bytes)) (records : List JournalEvent) : Prop where
  lines : records.map JournalEvent.line = lines
  parsed : ∀ r ∈ records, parseHostEvent r.raw = .ok r.event
  distinct : records.Pairwise (·.event.eventId ≠ ·.event.eventId)

theorem Recorded.next {lines : List (Text × Nat × Bytes)} {line : Text × Nat × Bytes}
    {records' : List JournalEvent} (h : Recorded lines records)
    (hr : readLine records line = .ok records') : Recorded (lines ++ [line]) records' := by
  obtain ⟨-, hr⟩ := refuse_seq.mp hr
  obtain ⟨event, hp, hr⟩ := bind_ok.mp hr
  have ⟨hd, hr⟩ := refuse_seq.mp hr
  cases hr
  constructor
  case lines    => simp [h.lines, JournalEvent.line]
  case parsed   =>
    refine List.forall_mem_append.mpr ⟨h.parsed, ?_⟩
    simpa using Fallible.mapError_ok.mp hp
  case distinct =>
    refine List.pairwise_append.mpr ⟨h.distinct, List.pairwise_singleton .., fun r hr r' hr' => ?_⟩
    rw [List.mem_singleton] at hr'
    exact fun he => hd ⟨r, hr, by rw [he, hr']⟩

-- The journals so far.
def Read (journals : List (Text × Entry)) (st : List JournalEvent × Nat) : Prop :=
  Recorded (journals.flatMap linesOf) st.1

theorem read_nil : Read [] ([], 0) :=
  ⟨rfl, fun _ h => absurd h List.not_mem_nil, .nil⟩

theorem Read.next {journals : List (Text × Entry)} {journal : Text × Entry}
    {st st' : List JournalEvent × Nat} (h : Read journals st)
    (hr : readJournal limit st journal = .ok st') : Read (journals ++ [journal]) st' := by
  unfold readJournal at hr
  split at hr
  case h_1 => cases hr
  case h_2 =>
    obtain ⟨-, hr⟩ := refuse_seq.mp hr
    obtain ⟨-, hr⟩ := refuse_seq.mp hr
    obtain ⟨records, hl, hr⟩ := bind_ok.mp hr
    cases hr
    simpa [Read] using foldlM_ok (P := Recorded) (fun _ _ _ _ h hr => h.next hr) h hl

-- What has been read are the lines of all journals.
theorem recorded_of_readEvents {d : Directory} (h : readEvents d expected limit = .ok records) :
    Recorded (d.journals.flatMap linesOf) records := by
  unfold readEvents at h
  obtain ⟨-, h⟩ := refuse_seq.mp h
  obtain ⟨-, h⟩ := refuse_seq.mp h
  obtain ⟨st, hst, h⟩ := bind_ok.mp h
  cases h
  exact foldlM_ok (P := Read) (fun _ _ _ _ h hr => h.next hr) read_nil hst

-- Two lines with the same identifier.
def Repeats (x y : Text × Nat × Bytes) : Prop :=
  ∃ e e', parseHostEvent x.2.2 = .ok e ∧ parseHostEvent y.2.2 = .ok e' ∧ e.eventId = e'.eventId

theorem repeats_of_readLine {lines : List (Text × Nat × Bytes)} {line : Text × Nat × Bytes}
    (h : Recorded lines records) (hr : readLine records line = .error .duplicate) :
    ∃ x ∈ lines, Repeats x line := by
  replace hr := refuse_seq_error hr nofun
  rcases bind_error.mp hr with hr | ⟨e, hp, hr⟩
  · cases hp : parseHostEvent line.2.2 <;> simp [hp, Except.mapError] at hr
  · unfold refuse at hr
    split at hr
    case isTrue hd =>
      obtain ⟨r, hr, hid⟩ := hd
      exact ⟨r.line, h.lines ▸ List.mem_map_of_mem hr, r.event, e, h.parsed r hr, Fallible.mapError_ok.mp hp, hid⟩
    case isFalse   => cases hr

theorem repeats_of_readJournal {journals : List (Text × Entry)} {journal : Text × Entry}
    {st : List JournalEvent × Nat} (h : Read journals st)
    (hr : readJournal limit st journal = .error .duplicate) :
    ∃ l₁ y l₂, linesOf journal = l₁ ++ y :: l₂ ∧ ∃ x ∈ journals.flatMap linesOf ++ l₁, Repeats x y := by
  unfold readJournal at hr
  split at hr
  case h_1 => cases hr
  case h_2 =>
    replace hr := refuse_seq_error (refuse_seq_error hr nofun) nofun
    rcases bind_error.mp hr with hr | ⟨_, _, hr⟩
    · obtain ⟨l₁, y, l₂, st₁, hl, hrec, hy⟩ :=
        foldlM_error (P := Recorded) (fun _ _ _ _ h hr => h.next hr) h hr
      exact ⟨l₁, y, l₂, hl, repeats_of_readLine hrec hy⟩
    · cases hr

-- A duplicate is found where two lines have the same identifier.
theorem repeats_of_duplicate (h : readEvents d expected limit = .error .duplicate) :
    ∃ l₁ y l₂, d.journals.flatMap linesOf = l₁ ++ y :: l₂ ∧ ∃ x ∈ l₁, Repeats x y := by
  unfold readEvents at h
  replace h := refuse_seq_error (refuse_seq_error h nofun) nofun
  rcases bind_error.mp h with h | ⟨_, _, h⟩
  · obtain ⟨js, j, js', st₁, hj, hst, hr⟩ :=
      foldlM_error (P := Read) (fun _ _ _ _ h hr => h.next hr) read_nil h
    obtain ⟨l₁, y, l₂, hl, hx⟩ := repeats_of_readJournal hst hr
    refine ⟨js.flatMap linesOf ++ l₁, y, l₂ ++ js'.flatMap linesOf, ?_, hx⟩
    simp [hj, hl]
  · cases h

end Reading

section Binding

variable {d : Directory} {expected : Option (Int × Int)} {limit : Option Nat}

-- The identifier binds an event, so that journals with a record for every line of theirs have no
-- observation twice, and those that are refused for a duplicate do.
theorem event_bound (hinj : Function.Injective Hashlib.sha256) :
    (∀ raw raw' e e', parseHostEvent raw = .ok e → parseHostEvent raw' = .ok e' →
      e.eventId = e'.eventId → SameObservation e e') ∧
    (∀ d expected limit records, readEvents d expected limit = .ok records →
      records.map JournalEvent.line = d.journals.flatMap linesOf ∧
      records.Pairwise (¬SameObservation ·.event ·.event)) ∧
    ∀ d expected limit, readEvents d expected limit = .error .duplicate →
      ∃ l₁ y l₂, d.journals.flatMap linesOf = l₁ ++ y :: l₂ ∧ ∃ x ∈ l₁, ∃ e e',
        parseHostEvent x.2.2 = .ok e ∧ parseHostEvent y.2.2 = .ok e' ∧ SameObservation e e' := by
  have hsame raw raw' e e' (h : parseHostEvent raw = .ok e) (h' : parseHostEvent raw' = .ok e')
      (hid : e.eventId = e'.eventId) : SameObservation e e' :=
    sameObservation_of_eventId hinj (parseHostEvent_ok h) (parseHostEvent_ok h') hid
  refine ⟨hsame, fun d expected limit records h => ?_, fun d expected limit h => ?_⟩
  · have hr := recorded_of_readEvents h
    exact ⟨hr.lines, hr.distinct.imp fun hne hs => hne hs.eventId⟩
  · obtain ⟨l₁, y, l₂, hl, x, hx, e, e', he, he', hid⟩ := repeats_of_duplicate h
    exact ⟨l₁, y, l₂, hl, x, hx, e, e', he, he', hsame _ _ e e' he he' hid⟩

end Binding

end HostEvidence

-- Two lines that differ in the status of the identity.
namespace HostEvidence.Sample

scoped instance : Decimal where
  value? c := if Scanner.isDigit c then some (c - '0'.toNat) else none

def line (status : String) : Bytes := [
  123, 34, 97, 114, 116, 105, 102, 97, 99, 116, 95, 100, 105, 103, 101, 115, 116, 34, 58, 110,
  117, 108, 108, 44, 34, 98, 105, 110, 100, 105, 110, 103, 95, 115, 116, 97, 116, 117, 115, 34,
  58, 34, 98, 111, 117, 110, 100, 34, 44, 34, 99, 111, 110, 116, 114, 111, 108, 108, 101, 114, 95,
  105, 110, 115, 116, 97, 110, 99, 101, 95, 105, 100, 34, 58, 110, 117, 108, 108, 44, 34, 100,
  101, 108, 105, 118, 101, 114, 121, 95, 97, 116, 116, 101, 109, 112, 116, 34, 58, 49, 44, 34,
  100, 101, 116, 97, 105, 108, 34, 58, 110, 117, 108, 108, 44, 34, 100, 105, 115, 112, 97, 116,
  99, 104, 95, 105, 100, 34, 58, 110, 117, 108, 108, 44, 34, 101, 110, 116, 114, 121, 95, 112,
  111, 105, 110, 116, 34, 58, 123, 34, 103, 114, 111, 117, 112, 34, 58, 34, 103, 34, 44, 34, 110,
  97, 109, 101, 34, 58, 34, 110, 34, 44, 34, 118, 97, 108, 117, 101, 34, 58, 34, 118, 34, 125, 44,
  34, 101, 118, 101, 110, 116, 34, 58, 34, 105, 110, 118, 111, 107, 101, 100, 34, 44, 34, 101,
  118, 101, 110, 116, 95, 105, 100, 34, 58, 34, 101, 48, 53, 101, 100, 50, 53, 53, 52, 54, 54,
  102, 54, 52, 50, 101, 53, 101, 48, 56, 55, 55, 52, 55, 98, 50, 98, 51, 54, 52, 101, 98, 50, 55,
  101, 56, 50, 48, 49, 49, 50, 99, 101, 50, 100, 98, 102, 99, 55, 52, 54, 52, 100, 49, 53, 98, 49,
  49, 97, 101, 99, 99, 53, 49, 34, 44, 34, 105, 100, 101, 110, 116, 105, 116, 121, 95, 115, 116,
  97, 116, 117, 115, 34, 58, 34] ++ status.points.map .ofNat ++ [
  34, 44, 34, 105, 110, 118, 111, 99, 97, 116, 105, 111, 110, 95, 115, 101, 113, 34, 58, 110, 117,
  108, 108, 44, 34, 108, 97, 117, 110, 99, 104, 95, 105, 100, 34, 58, 34, 108, 34, 44, 34, 111,
  98, 115, 101, 114, 118, 97, 116, 105, 111, 110, 95, 107, 105, 110, 100, 34, 58, 34, 108, 111,
  97, 100, 101, 114, 95, 108, 105, 102, 101, 99, 121, 99, 108, 101, 34, 44, 34, 111, 98, 115, 101,
  114, 118, 101, 100, 95, 97, 116, 95, 110, 115, 34, 58, 53, 44, 34, 111, 99, 99, 117, 114, 114,
  101, 110, 99, 101, 95, 105, 100, 34, 58, 110, 117, 108, 108, 44, 34, 112, 108, 97, 110, 95, 105,
  100, 34, 58, 34, 112, 34, 44, 34, 112, 108, 117, 103, 105, 110, 95, 105, 100, 34, 58, 110, 117,
  108, 108, 44, 34, 112, 114, 111, 99, 101, 115, 115, 34, 58, 123, 34, 97, 115, 115, 105, 103,
  110, 109, 101, 110, 116, 95, 115, 111, 117, 114, 99, 101, 34, 58, 34, 104, 111, 115, 116, 34,
  44, 34, 104, 111, 115, 116, 34, 58, 34, 104, 34, 44, 34, 111, 114, 100, 105, 110, 97, 108, 34,
  58, 48, 44, 34, 112, 105, 100, 34, 58, 55, 44, 34, 112, 114, 111, 99, 101, 115, 115, 95, 101,
  112, 111, 99, 104, 34, 58, 49, 44, 34, 114, 111, 108, 101, 34, 58, 34, 119, 34, 44, 34, 115,
  116, 97, 114, 116, 95, 105, 100, 101, 110, 116, 105, 116, 121, 34, 58, 34, 112, 105, 100, 58,
  55, 58, 115, 116, 97, 114, 116, 95, 116, 105, 99, 107, 115, 58, 57, 34, 125, 44, 34, 115, 99,
  104, 101, 109, 97, 34, 58, 34, 118, 108, 108, 109, 45, 104, 117, 115, 116, 45, 112, 108, 117,
  103, 105, 110, 45, 101, 118, 105, 100, 101, 110, 99, 101, 47, 48, 46, 49, 34, 125]

def material : Text := [
  91, 34, 104, 34, 44, 55, 44, 34, 112, 105, 100, 58, 55, 58, 115, 116, 97, 114, 116, 95, 116,
  105, 99, 107, 115, 58, 57, 34, 44, 49, 44, 34, 119, 34, 44, 48, 44, 34, 103, 34, 44, 34, 110,
  34, 44, 34, 118, 34, 44, 34, 105, 110, 118, 111, 107, 101, 100, 34, 44, 110, 117, 108, 108, 44,
  110, 117, 108, 108, 44, 34, 112, 34, 44, 34, 108, 34, 44, 34, 108, 111, 97, 100, 101, 114, 95,
  108, 105, 102, 101, 99, 121, 99, 108, 101, 34, 44, 110, 117, 108, 108, 44, 49, 44, 53, 44, 34,
  104, 111, 115, 116, 34, 93]

def eventId : Text := [
  101, 48, 53, 101, 100, 50, 53, 53, 52, 54, 54, 102, 54, 52, 50, 101, 53, 101, 48, 56, 55, 55,
  52, 55, 98, 50, 98, 51, 54, 52, 101, 98, 50, 55, 101, 56, 50, 48, 49, 49, 50, 99, 101, 50, 100,
  98, 102, 99, 55, 52, 54, 52, 100, 49, 53, 98, 49, 49, 97, 101, 99, 99, 53, 49]

-- The digest of one text, and others that no two texts share.
scoped instance : Hashlib where
  sha256 t := if t = material then eventId else t.map (· + 128)

theorem sha256_injective : Function.Injective Hashlib.sha256 := by
  have hne (t : Text) : eventId ≠ t.map (· + 128) := by
    intro h
    have hall : ∀ p ∈ eventId, 128 ≤ p := by
      rw [h]
      simp
    exact absurd hall (by decide)
  intro t t' h
  simp only [Hashlib.sha256] at h
  split at h <;> split at h
  case isTrue.isTrue ht ht'   => exact ht.trans ht'.symm
  case isTrue.isFalse         => exact absurd h (hne t')
  case isFalse.isTrue         => exact absurd h.symm (hne t)
  case isFalse.isFalse        => exact List.map_injective_iff.mpr (fun _ _ h => Nat.add_right_cancel h) h

def eventId? (raw : Bytes) : Option Text :=
  match parseHostEvent raw with
  | .ok e    => some e.eventId
  | .error _ => none

end HostEvidence.Sample

namespace HostEvidence

open Sample in
theorem event_bound_of_status : ∃ e e', parseHostEvent (line "verified") = .ok e ∧
    parseHostEvent (line "unknown") = .ok e' ∧ SameObservation e e' := by
  have h : eventId? (line "verified") = some eventId ∧ eventId? (line "unknown") = some eventId := by
    decide +kernel
  have parsed {raw : Bytes} (h : eventId? raw = some eventId) :
      ∃ e, parseHostEvent raw = .ok e ∧ e.eventId = eventId := by
    unfold eventId? at h
    split at h
    case h_1 e he => exact ⟨e, he, Option.some.inj h⟩
    case h_2      => cases h
  obtain ⟨e, he, hid⟩ := parsed h.left
  obtain ⟨e', he', hid'⟩ := parsed h.right
  exact ⟨e, e', he, he', (event_bound sha256_injective).left _ _ e e' he he' (hid.trans hid'.symm)⟩

end HostEvidence
