import ExtManager.Codec.Nested
import ExtManager.HostEvidence.Journal

namespace Profile

open Scanner (Config Number isBare isDigit)
open Fallible (Raises)

section Digits

def Coded (f : Failure) : Prop :=
  ∃ code, f = .attestation code

-- A token that starts with an integer that has more digits than `int` reads.
def Overlong (token : Text) : Prop :=
  ∃ n, Number.read? token = some n ∧ n.fraction = [] ∧ n.exponent = [] ∧
    maxStrDigits < (n.whole.filter isDigit).length

-- A part of a text is read, and ends with such a token.
def ReadsOverlong (text : Text) : Prop :=
  ∃ before after σ token, text = before ++ after ∧
    before.foldlM (Scanner.step reader) ⟨.value, []⟩ = .ok σ ∧ σ.mode = .bare token ∧
    (∀ c ∈ after.head?, ¬isBare c) ∧ Overlong token.reverse

variable {token text : Text} {raw : Bytes} {σ : Config} {c : Nat} {fields : Fields}
  {stack : List Scanner.Frame} {role : Option Fields}

theorem coded_fail {α : Type} {code : AttestationErrorCode} : Raises Coded (fail code : Except Failure α) :=
  .error ⟨code, rfl⟩

theorem coded_require {p : Prop} [Decidable p] {code : AttestationErrorCode} :
    Raises Coded (require p code) := by
  unfold require
  split
  case isTrue  => exact .ok
  case isFalse => exact coded_fail

theorem coded_pairs : Raises Coded (pairs fields) := by
  have hadd (result : Fields) (item : Text × Value) : Raises Coded (addPair result item) :=
    coded_require.bind fun _ _ => .ok
  exact .foldlM fun st a _ => hadd st a

theorem coded_start : Raises Coded (Scanner.start reader c stack) := by
  unfold Scanner.start
  repeat' split
  all_goals first | exact .ok | exact coded_fail

theorem coded_endObject : Raises Coded (Scanner.endObject reader fields stack) :=
  coded_pairs.bind fun _ _ => .ok

theorem coded_endText : Raises Coded (Scanner.endText reader role text stack) := by
  unfold Scanner.endText
  split
  case h_1 => exact .ok
  case h_2 => exact Raises.ok.bind fun _ _ => .ok

theorem coded_after : Raises Coded (Scanner.after reader σ c) := by
  unfold Scanner.after
  repeat' split
  all_goals first | exact .ok | exact coded_fail | exact coded_endObject

theorem Coded.ne_value {f : Failure} (h : Coded f) : f ≠ .value := by
  obtain ⟨_, rfl⟩ := h
  exact nofun

theorem ne_value_of_raises {α : Type} {x : Except Failure α} (h : Raises Coded x) : x ≠ .error .value :=
  fun he => (h _ he).ne_value rfl

-- A number starts with a digit, or with a sign before one.
theorem head_of_read? {n : Number} (h : Number.read? token = some n) :
    ∃ c r, token = c :: r ∧ (isDigit c ∨ c = '-'.toNat ∧ ∃ c' r', r = c' :: r' ∧ isDigit c') := by
  have hwhole {t : Text} {w} (h : Number.whole? t = some w) : ∃ c r, t = c :: r ∧ isDigit c := by
    unfold Number.whole? at h
    split at h
    case h_1     => cases h
    case h_2 c r =>
      split at h
      case isTrue hc => exact ⟨c, r, rfl, hc ▸ by decide⟩
      split at h
      case isTrue hd => exact ⟨c, r, rfl, hd⟩
      case isFalse   => cases h
  obtain ⟨w, hw, -⟩ := Option.bind_eq_some_iff.mp h
  unfold Number.signed? at hw
  split at hw
  case h_1     => cases hw
  case h_2 c r =>
    split at hw
    case isTrue hc =>
      obtain ⟨w', hw', -⟩ := Option.map_eq_some_iff.mp hw
      obtain ⟨c', r', hr, hd⟩ := hwhole hw'
      exact ⟨c, r, rfl, .inr ⟨hc, c', r', hr, hd⟩⟩
    case isFalse   =>
      obtain ⟨c', r', hr, hd⟩ := hwhole hw
      cases hr
      exact ⟨c, r, rfl, .inl hd⟩

theorem literal_value : Scanner.literal reader token = .error .value ↔ Overlong token := by
  have hnumber {n : Number} : reader.number n = .error .value ↔ n.fraction = [] ∧ n.exponent = [] ∧
      maxStrDigits < (n.whole.filter isDigit).length := by
    unfold reader
    dsimp only
    split
    case isTrue h  =>
      split
      case isTrue hd  => exact iff_of_true rfl ⟨h.left, h.right, hd⟩
      case isFalse hd => exact iff_of_false nofun fun h' => hd h'.right.right
    case isFalse h => exact iff_of_false nofun fun h' => h ⟨h'.left, h'.right.left⟩
  have hnone (h : Number.read? token = none) {x : Except Failure Value} (hx : x ≠ .error .value) :
      x = .error .value ↔ Overlong token :=
    iff_of_false hx fun ⟨_, hn, _⟩ => nomatch h.symm.trans hn
  unfold Scanner.literal
  split
  case isTrue h => exact hnone (h ▸ by decide) nofun
  split
  case isTrue h => exact hnone (h ▸ by decide) nofun
  split
  case isTrue h => exact hnone (h ▸ by decide) nofun
  split
  case isTrue h =>
    refine hnone (Option.eq_none_iff_forall_ne_some.mpr fun n hn => ?_) nofun
    obtain ⟨c, r, rfl, hc⟩ := head_of_read? hn
    rw [Bool.or_eq_true, Bool.or_eq_true] at h
    rcases h with (h | h) | h
    all_goals
      obtain ⟨t, ht⟩ := List.isPrefixOf_iff_prefix.mp h
      cases ht
    · exact absurd hc (by simp +decide)
    · exact absurd hc (by simp +decide)
    · rcases hc with hc | ⟨-, c, _, ⟨⟩, hc⟩
      · exact absurd hc (by decide)
      · exact absurd hc (by decide)
  split
  case h_1 hn   => exact hnone hn nofun
  case h_2 n hn =>
    refine Fallible.bind_error.trans ⟨?_, fun ⟨n', hn', h⟩ => .inl ?_⟩
    · rintro (h | ⟨v, -, h⟩)
      · exact ⟨n, hn, hnumber.mp h⟩
      · split at h
        all_goals cases h
    · cases hn.symm.trans hn'
      exact hnumber.mpr h

-- Only the end of a token can be refused so.
theorem coded_step (h : ∀ token, σ.mode ≠ .bare token) : Raises Coded (Scanner.step reader σ c) := by
  unfold Scanner.step
  split
  case h_8 token hm => exact absurd hm (h token)
  all_goals repeat' split
  all_goals first | exact .ok | exact coded_fail | exact coded_start | exact coded_endObject |
    exact coded_endText | exact coded_after

theorem step_value : Scanner.step reader σ c = .error .value ↔
    ∃ token, σ.mode = .bare token ∧ ¬isBare c ∧ Overlong token.reverse := by
  constructor
  · intro h
    by_cases hm : ∃ token, σ.mode = .bare token
    case neg => exact (ne_value_of_raises (coded_step (not_exists.mp hm)) h).elim
    case pos =>
      obtain ⟨token, hm⟩ := hm
      unfold Scanner.step at h
      rw [hm] at h
      dsimp only at h
      split at h
      case isTrue      => cases h
      case isFalse hb  =>
        rcases Fallible.bind_error.mp h with h | ⟨v, -, h⟩
        · exact ⟨token, hm, hb, literal_value.mp h⟩
        · split at h
          case isTrue  => cases h
          case isFalse => exact (ne_value_of_raises coded_after h).elim
  · rintro ⟨token, hm, hb, ho⟩
    unfold Scanner.step
    rw [hm]
    dsimp only
    rw [if_neg hb, literal_value.mpr ho]
    rfl

theorem finish_value : Scanner.finish reader σ = .error .value ↔
    ∃ token, σ.mode = .bare token ∧ Overlong token.reverse := by
  unfold Scanner.finish
  constructor
  · intro h
    split at h
    case h_1 _ token hm   =>
      rcases Fallible.bind_error.mp h with h | ⟨v, -, h⟩
      · exact ⟨token, hm, literal_value.mp h⟩
      · split at h
        all_goals cases h
    case h_2               => cases h
    case h_3               => cases h
    case h_4               => cases h
  · rintro ⟨token, hm, ho⟩
    rw [hm]
    dsimp only
    rw [literal_value.mpr ho]
    rfl

theorem run_value : Scanner.run reader ⟨.value, []⟩ text = .error .value ↔ ReadsOverlong text := by
  rw [Scanner.run_error]
  constructor
  · rintro (⟨before, c, after, σ, ht, hb, hs⟩ | ⟨σ, hb, hf⟩)
    · obtain ⟨token, hm, hc, ho⟩ := step_value.mp hs
      exact ⟨before, c :: after, σ, token, ht, hb, hm, by simpa using hc, ho⟩
    · obtain ⟨token, hm, ho⟩ := finish_value.mp hf
      exact ⟨text, [], σ, token, (List.append_nil _).symm, hb, hm, nofun, ho⟩
  · rintro ⟨before, after, σ, token, ht, hb, hm, hc, ho⟩
    cases after
    case nil          =>
      rw [List.append_nil] at ht
      exact .inr ⟨σ, ht ▸ hb, finish_value.mpr ⟨token, hm, ho⟩⟩
    case cons c after =>
      exact .inl ⟨before, c, after, σ, ht, hb, step_value.mpr ⟨token, hm, hc c rfl, ho⟩⟩

-- `parse_strict` raises the error of `int` where an integer is too long.
theorem parseStrict_value : parseStrict raw = .error .value ↔
    ∃ text, decode raw = some text ∧ ReadsOverlong text := by
  unfold parseStrict
  cases decode raw
  case none      =>
    constructor
    · rintro ⟨⟩
    · rintro ⟨_, ⟨⟩, _⟩
  case some text =>
    refine Iff.trans (b := ReadsOverlong text)
      (Fallible.bind_error.trans ⟨?_, fun h => .inr ⟨text, rfl, ?_⟩⟩) ⟨fun h => ⟨text, rfl, h⟩, ?_⟩
    · rintro (h | ⟨_, ⟨⟩, h⟩)
      · cases h
      rcases Fallible.bind_error.mp h with h | ⟨v, -, h⟩
      · exact run_value.mp h
      · split at h
        all_goals cases h
    · exact Fallible.bind_error.mpr (.inl (run_value.mpr h))
    · rintro ⟨_, ht, h⟩
      cases ht
      exact h

end Digits

end Profile

namespace HostEvidence

open Profile (Coded ReadsOverlong)

-- Whether the interpreter runs out of stack: in `json.loads` of a text, and in `_validate_unicode` of
-- what has been read from it.
class Stack where
  reads : Bytes → Bool
  walks : Bytes → Bool

section Checks

-- What `_invalid` and `_validate_unicode` raise, and `parse_strict` where it means to.
def Attested (f : Failure) : Prop :=
  ∃ code, f = .profile (.attestation code)

-- Something else is raised.
def Crashes {α : Type} (x : Except Failure α) : Prop :=
  ∃ f, x = .error f ∧ ¬Attested f

def Container : Option Value → Prop
  | some (.arr _) | some (.obj _) => True
  | _                           => False

def IsWord (v : Option Value) : Prop :=
  ∃ t, t ≠ [] ∧ v = some (.str t)

variable {α β : Type} {x : Except Failure α} {f : α → Except Failure β} {p : Prop} [Decidable p]
  {v : Option Value}

theorem crashes_bind : Crashes (x >>= f) ↔ Crashes x ∨ ∃ a, x = .ok a ∧ Crashes (f a) := by
  cases x
  case ok a    =>
    refine ⟨fun h => .inr ⟨a, rfl, h⟩, ?_⟩
    rintro (⟨_, ⟨⟩, _⟩ | ⟨_, ⟨⟩, h⟩)
    exact h
  case error e =>
    refine ⟨fun ⟨f, hf, h⟩ => .inl ⟨f, by cases hf; rfl, h⟩, ?_⟩
    rintro (⟨_, ⟨⟩, h⟩ | ⟨_, ⟨⟩, _⟩)
    exact ⟨_, rfl, h⟩

theorem not_crashes_ok {a : α} : ¬Crashes (.ok a : Except Failure α) :=
  nofun

theorem not_crashes_invalid : ¬Crashes (invalid : Except Failure α) := by
  rintro ⟨_, ⟨⟩, h⟩
  exact h ⟨_, rfl⟩

theorem not_crashes_require : ¬Crashes (require p) := by
  unfold require
  split
  case isTrue  => exact not_crashes_ok
  case isFalse => exact not_crashes_invalid

-- The checks of single fields raise nothing else.
theorem not_crashes_check : ¬Crashes (nonEmpty v) ∧ ¬Crashes (nonNegative v) ∧ ¬Crashes (nullable v) ∧
    ¬Crashes (occurrence v) ∧ ¬Crashes (sequence v) ∧ ¬Crashes (digest v) ∧
    ∀ fieldSets, ¬Crashes (object fieldSets v) := by
  refine ⟨?_, ?_, ?_, ?_, ?_, ?_, fun fieldSets => ?_⟩
  all_goals
    first
    | unfold nonEmpty | unfold nonNegative | unfold nullable | unfold occurrence | unfold sequence
    | unfold digest | unfold object
  all_goals repeat' split
  all_goals first | exact not_crashes_ok | exact not_crashes_invalid

theorem crashes_seq (h : ¬Crashes x) : Crashes (x >>= f) ↔ ∃ a, x = .ok a ∧ Crashes (f a) :=
  crashes_bind.trans (or_iff_right h)

theorem crashes_require {k : Unit → Except Failure α} : Crashes (require p >>= k) ↔ p ∧ Crashes (k ()) :=
  (crashes_seq not_crashes_require).trans
    ⟨fun ⟨_, hp, h⟩ => ⟨require_ok.mp hp, h⟩, fun ⟨hp, h⟩ => ⟨(), require_ok.mpr hp, h⟩⟩

theorem crashes_unhashable : Crashes (.error .unhashable : Except Failure α) :=
  ⟨_, rfl, nofun⟩

-- A set does not take a list or an object.
theorem crashes_oneOf {names : List Text} : Crashes (oneOf names v) ↔ Container v := by
  match v with
  | some (.arr _)              => exact iff_of_true crashes_unhashable trivial
  | some (.obj _)              => exact iff_of_true crashes_unhashable trivial
  | none | some .null | some (.bool _) | some (.int _) | some (.float _) =>
    exact iff_of_false not_crashes_invalid not_false
  | some (.str t)              =>
    refine iff_of_false ?_ not_false
    unfold oneOf
    dsimp only
    split
    case isTrue  => exact not_crashes_ok
    case isFalse => exact not_crashes_invalid

theorem crashes_kind : Crashes (kind v) ↔ Container v := by
  match v with
  | some (.arr _)              => exact iff_of_true crashes_unhashable trivial
  | some (.obj _)              => exact iff_of_true crashes_unhashable trivial
  | none | some .null | some (.bool _) | some (.int _) | some (.float _) =>
    exact iff_of_false not_crashes_invalid not_false
  | some (.str t)              =>
    refine iff_of_false ?_ not_false
    unfold kind
    dsimp only
    repeat' split
    all_goals first | exact not_crashes_ok | exact not_crashes_invalid

theorem crashes_map {g : α → β} : Crashes (g <$> x) ↔ Crashes x := by
  cases x
  case ok    => exact iff_of_false not_crashes_ok not_crashes_ok
  case error => exact ⟨fun ⟨_, he, h⟩ => ⟨_, rfl, by cases he; exact h⟩, fun ⟨_, he, h⟩ => ⟨_, rfl, by cases he; exact h⟩⟩

theorem crashes_assignment : Crashes (assignment v) ↔ Container v := by
  cases v
  case none => exact iff_of_false not_crashes_ok not_false
  case some => exact crashes_map.trans crashes_oneOf

theorem nonEmpty_iff : (∃ t, nonEmpty v = .ok t) ↔ IsWord v := by
  constructor
  · rintro ⟨t, h⟩
    obtain rfl := nonEmpty_ok h
    unfold nonEmpty at h
    dsimp only at h
    split at h
    case isTrue ht => exact ⟨t, ht, rfl⟩
    case isFalse   => cases h
  · rintro ⟨t, ht, rfl⟩
    exact ⟨t, if_pos ht⟩

theorem nonNegative_ok {n : Int} : nonNegative v = .ok n ↔ 0 ≤ n ∧ v = some (.int n) := by
  constructor
  · intro h
    unfold nonNegative at h
    split at h
    case h_1 m =>
      split at h
      case isTrue hm =>
        cases h
        exact ⟨hm, rfl⟩
      case isFalse   => cases h
    case h_2   => cases h
  · rintro ⟨hn, rfl⟩
    exact if_pos hn

theorem nullable_iff : (∃ o, nullable v = .ok o) ↔ v = some .null ∨ IsWord v := by
  constructor
  · rintro ⟨o, h⟩
    unfold nullable at h
    split at h
    case h_1   => exact .inl rfl
    case h_2 t =>
      split at h
      case isTrue ht => exact .inr ⟨t, ht, rfl⟩
      case isFalse   => cases h
    case h_3   => cases h
  · rintro (rfl | ⟨t, ht, rfl⟩)
    · exact ⟨none, rfl⟩
    · exact ⟨some t, if_pos ht⟩

theorem validateUnicode_ok {value : Fields} {u : Unit} : validateUnicode value = .ok u ↔ fieldsHaveEncoding value := by
  unfold validateUnicode
  split
  case isTrue h  => exact iff_of_true rfl h
  case isFalse h => exact iff_of_false nofun h

theorem parseEntryPoint_iff {entry : Fields} : (∃ p, parseEntryPoint entry = .ok p) ↔
    ∀ name ∈ ["group", "name", "value"], IsWord (entry.get? name.points) := by
  simp only [List.forall_mem_cons, ← nonEmpty_iff]
  constructor
  · rintro ⟨p, h⟩
    obtain ⟨group, hg, h⟩ := Fallible.bind_ok.mp h
    obtain ⟨name, hn, h⟩ := Fallible.bind_ok.mp h
    obtain ⟨value, hv, -⟩ := Fallible.bind_ok.mp h
    exact ⟨⟨group, hg⟩, ⟨name, hn⟩, ⟨value, hv⟩, nofun⟩
  · rintro ⟨⟨group, hg⟩, ⟨name, hn⟩, ⟨value, hv⟩, -⟩
    exact ⟨_, Fallible.bind_ok.mpr ⟨_, hg, Fallible.bind_ok.mpr ⟨_, hn, Fallible.bind_ok.mpr ⟨_, hv, rfl⟩⟩⟩⟩

-- Words that have to be there stand before what is checked next.
theorem crashes_nonEmpty {k : Text → Except Failure α} :
    Crashes (nonEmpty v >>= k) ↔ ∃ t, t ≠ [] ∧ v = some (.str t) ∧ Crashes (k t) := by
  rw [crashes_seq not_crashes_check.left]
  constructor
  · rintro ⟨t, ht, h⟩
    obtain ⟨t', ht', hv⟩ := nonEmpty_iff.mp ⟨t, ht⟩
    cases (nonEmpty_ok ht).symm.trans hv
    exact ⟨t, ht', hv, h⟩
  · rintro ⟨t, ht, rfl, h⟩
    exact ⟨t, if_pos ht, h⟩

end Checks

section Fields

variable [Hashlib] [Decimal] {value entry process : Fields} {raw : Bytes}

omit [Hashlib] [Decimal] in
theorem not_crashes_parseEntryPoint : ¬Crashes (parseEntryPoint entry) := by
  unfold parseEntryPoint
  simp only [crashes_nonEmpty]
  rintro ⟨_, _, _, _, _, _, _, _, _, h⟩
  exact not_crashes_ok h

omit [Hashlib] in
theorem crashes_parseProcess : Crashes (parseProcess process) ↔
    (∀ name ∈ ["host", "role", "start_identity"], IsWord (process.get? name.points)) ∧
      Container (process.get? "assignment_source".points) := by
  unfold parseProcess
  simp only [crashes_nonEmpty, List.forall_mem_cons]
  constructor
  · rintro ⟨host, hh, hhost, role, hr, hrole, start, hs, hstart, h⟩
    refine ⟨⟨⟨host, hh, hhost⟩, ⟨role, hr, hrole⟩, ⟨start, hs, hstart⟩,
      List.forall_mem_nil _⟩, ?_⟩
    rcases crashes_bind.mp h with h | ⟨_, -, h⟩
    · exact crashes_assignment.mp h
    · simp only [crashes_seq not_crashes_check.right.left, crashes_require] at h
      obtain ⟨_, _, _, _, _, _, _, _, h⟩ := h
      exact (not_crashes_ok h).elim
  · rintro ⟨⟨⟨host, hh, hhost⟩, ⟨role, hr, hrole⟩, ⟨start, hs, hstart⟩, -⟩, h⟩
    exact ⟨host, hh, hhost, role, hr, hrole, start, hs, hstart,
      crashes_bind.mpr (.inl (crashes_assignment.mpr h))⟩

-- What is checked before the names of an event and its kind.
structure Opened (value : Fields) : Prop where
  keys   : Profile.sameKeys value requiredFields
  schema : value.get? "schema".points = some (.str HOST_SCHEMA)

-- What is checked before the texts.
structure Identified (value : Fields) : Prop extends Opened value where
  event : ∃ t ∈ EVENTS, value.get? "event".points = some (.str t)
  kind  : ∃ k : ObservationKind, value.get? "observation_kind".points = some (.str k.value)

-- What is checked before the source of the process.
structure Named (value entry process : Fields) : Prop extends Identified value where
  unicode    : fieldsHaveEncoding value
  entryPoint : object [["group", "name", "value"]] (value.get? "entry_point".points) = .ok entry
  ofProcess  : object [processFields, processFields ++ ["assignment_source"]]
    (value.get? "process".points) = .ok process
  ids        : ∀ name ∈ ["event_id", "identity_status"], IsWord (value.get? name.points)
  names      : ∀ name ∈ ["group", "name", "value"], IsWord (entry.get? name.points)

-- What is checked before the status of the binding.
structure Numbered (value process : Fields) : Prop where
  parsed   : ∃ p, parseProcess process = .ok p
  observed : ∃ n, 0 ≤ n ∧ value.get? "observed_at_ns".points = some (.int n)
  attempt  : ∃ n, 1 ≤ n ∧ value.get? "delivery_attempt".points = some (.int n)
  nullable : ∀ name ∈ ["plan_id", "launch_id", "detail", "controller_instance_id"],
    value.get? name.points = some .null ∨ IsWord (value.get? name.points)

-- Why something else than an `AttestationError` is raised.
inductive Caused (raw : Bytes) : Prop
  | digits {text : Text} : Profile.decode raw = some text → ReadsOverlong text → Caused raw
  | event {value : Fields} : Profile.parseStrict raw = .ok value → Opened value →
    Container (value.get? "event".points) → Caused raw
  | kind {value : Fields} : Profile.parseStrict raw = .ok value → Opened value →
    (∃ t ∈ EVENTS, value.get? "event".points = some (.str t)) →
    Container (value.get? "observation_kind".points) → Caused raw
  | assignment {value entry process : Fields} : Profile.parseStrict raw = .ok value → Named value entry process →
    (∀ name ∈ ["host", "role", "start_identity"], IsWord (process.get? name.points)) →
    Container (process.get? "assignment_source".points) → Caused raw
  | binding {value entry process : Fields} : Profile.parseStrict raw = .ok value → Named value entry process →
    Numbered value process → Container (value.get? "binding_status".points) → Caused raw

omit [Hashlib] [Decimal] in
theorem crashes_parseStrict {k : Fields → Except Failure HostEvent} :
    Crashes ((Profile.parseStrict raw).mapError .profile >>= k) ↔
      (∃ text, Profile.decode raw = some text ∧ ReadsOverlong text) ∨
        ∃ value, Profile.parseStrict raw = .ok value ∧ Crashes (k value) := by
  rw [crashes_bind, ← Profile.parseStrict_value]
  refine or_congr ?_ (exists_congr fun value => and_congr_left fun _ => Fallible.mapError_ok)
  cases Profile.parseStrict raw
  case ok    => exact iff_of_false not_crashes_ok nofun
  case error f =>
    cases f
    case value       => exact iff_of_true ⟨_, rfl, nofun⟩ rfl
    case attestation =>
      refine iff_of_false ?_ nofun
      rintro ⟨_, ⟨⟩, h⟩
      exact h ⟨_, rfl⟩

omit [Hashlib] [Decimal] in
theorem kind_ok {v : Option Value} {k : ObservationKind} (h : kind v = .ok k) : v = some (.str k.value) := by
  unfold kind at h
  split at h
  case h_1 =>
    repeat' split at h
    all_goals cases h
    all_goals simp_all
  all_goals cases h

omit [Decimal] in
theorem not_crashes_checkKind {e : HostEvent} : ¬Crashes (checkKind e) := by
  unfold checkKind
  repeat' split
  all_goals first | exact not_crashes_require | exact not_crashes_invalid | skip
  rw [crashes_require]
  exact fun h => not_crashes_require h.right

omit [Hashlib] [Decimal] in
theorem kind_value (k : ObservationKind) : kind (some (.str k.value)) = .ok k := by
  cases k
  all_goals decide +kernel

omit [Hashlib] [Decimal] in
theorem oneOf_mem {names : List Text} {t : Text} (h : t ∈ names) : oneOf names (some (.str t)) = .ok t :=
  if_pos h

omit [Hashlib] [Decimal] in
-- Behind the texts stands what is checked next.
theorem crashes_of_named (hn : Named value entry process)
    {k : Text → ObservationKind → Fields → Text → Text → EntryPoint → Except Failure HostEvent}
    (h : ∀ event observationKind eventId status entryPoint,
      Crashes (k event observationKind process eventId status entryPoint)) : Crashes (do
      let event ← oneOf EVENTS (value.get? "event".points)
      let observationKind ← kind (value.get? "observation_kind".points)
      validateUnicode value
      let entry ← object [["group", "name", "value"]] (value.get? "entry_point".points)
      let process ← object [processFields, processFields ++ ["assignment_source"]]
        (value.get? "process".points)
      let eventId ← nonEmpty (value.get? "event_id".points)
      let status ← nonEmpty (value.get? "identity_status".points)
      let entryPoint ← parseEntryPoint entry
      k event observationKind process eventId status entryPoint) := by
  obtain ⟨t, ht, hevent⟩ := hn.event
  obtain ⟨kind', hkind⟩ := hn.kind
  obtain ⟨id, hid⟩ := nonEmpty_iff.mpr (hn.ids "event_id" (by decide))
  obtain ⟨status, hstatus⟩ := nonEmpty_iff.mpr (hn.ids "identity_status" (by decide))
  obtain ⟨point, hpoint⟩ := parseEntryPoint_iff.mpr hn.names
  have hnext {α β : Type} {x : Except Failure α} {f : α → Except Failure β} {a : α} (hx : x = .ok a)
      (h : Crashes (f a)) : Crashes (x >>= f) := crashes_bind.mpr (.inr ⟨a, hx, h⟩)
  exact hnext (hevent ▸ oneOf_mem ht) <| hnext (hkind ▸ kind_value kind') <|
    hnext (validateUnicode_ok (u := ()) |>.mpr hn.unicode) <| hnext hn.entryPoint <| hnext hn.ofProcess <|
    hnext hid <| hnext hstatus <| hnext hpoint (h ..)

theorem crashes_parseHostEvent : Crashes (parseHostEvent raw) ↔ Caused raw := by
  unfold parseHostEvent
  rw [crashes_parseStrict]
  constructor
  · rintro (⟨text, hd, ho⟩ | ⟨value, hv, h⟩)
    · exact .digits hd ho
    obtain ⟨hkeys, h⟩ := crashes_require.mp h
    obtain ⟨hschema, h⟩ := crashes_require.mp h
    have hopened : Opened value := ⟨hkeys, hschema⟩
    rcases crashes_bind.mp h with h | ⟨event, hevent, h⟩
    · exact .event hv hopened (crashes_oneOf.mp h)
    have hevent : ∃ t ∈ EVENTS, value.get? "event".points = some (.str t) :=
      ⟨event, (oneOf_ok hevent).right, (oneOf_ok hevent).left⟩
    rcases crashes_bind.mp h with h | ⟨kind, hkind, h⟩
    · exact .kind hv hopened hevent (crashes_kind.mp h)
    have hidentified : Identified value := ⟨hopened, hevent, kind, kind_ok hkind⟩
    have hunicode : ¬Crashes (validateUnicode value) := by
      unfold validateUnicode
      split
      case isTrue  => exact not_crashes_ok
      case isFalse =>
        rintro ⟨_, ⟨⟩, h⟩
        exact h ⟨_, rfl⟩
    obtain ⟨_, hencoded, h⟩ := (crashes_seq hunicode).mp h
    simp only [crashes_seq (not_crashes_check.right.right.right.right.right.right _), crashes_nonEmpty,
      crashes_seq not_crashes_parseEntryPoint] at h
    obtain ⟨entry, hentry, process, hprocess, id, hid, hideq, status, hstatus, hstatuseq, point, hpoint, h⟩ := h
    have hnamed : Named value entry process := by
      refine ⟨hidentified, validateUnicode_ok.mp hencoded, hentry, hprocess, ?_,
        parseEntryPoint_iff.mp ⟨point, hpoint⟩⟩
      simp only [List.forall_mem_cons]
      exact ⟨⟨id, hid, hideq⟩, ⟨status, hstatus, hstatuseq⟩, List.forall_mem_nil _⟩
    rcases crashes_bind.mp h with h | ⟨p, hp, h⟩
    · obtain ⟨hwords, h⟩ := crashes_parseProcess.mp h
      exact .assignment hv hnamed hwords h
    simp only [crashes_seq not_crashes_check.right.left, crashes_seq not_crashes_check.right.right.left,
      crashes_require] at h
    obtain ⟨observed, ho, attempt, ha, hpos, planId, hplan, launchId, hlaunch, detail, hdetail, controller,
      hcontroller, h⟩ := h
    rcases crashes_bind.mp h with h | ⟨_, -, h⟩
    · refine .binding hv hnamed ⟨⟨p, hp⟩, ⟨_, nonNegative_ok.mp ho⟩, ⟨_, hpos, (nonNegative_ok.mp ha).right⟩, ?_⟩
        (crashes_oneOf.mp h)
      simp only [List.forall_mem_cons, ← nullable_iff]
      exact ⟨⟨_, hplan⟩, ⟨_, hlaunch⟩, ⟨_, hdetail⟩, ⟨_, hcontroller⟩, List.forall_mem_nil _⟩
    · simp only [crashes_require, crashes_seq not_crashes_check.right.right.right.left,
        crashes_seq not_crashes_check.right.right.right.right.left,
        crashes_seq not_crashes_check.right.right.right.right.right.left,
        crashes_seq not_crashes_checkKind] at h
      obtain ⟨_, _, _, _, _, _, _, _, _, _, _, _, h⟩ := h
      exact (not_crashes_ok h).elim
  · rintro (⟨hd, ho⟩ | ⟨hv, ho, hc⟩ | ⟨hv, ho, ⟨t, ht, hevent⟩, hc⟩ | ⟨hv, hn, hwords, hc⟩ | ⟨hv, hn, hcount, hc⟩)
    · exact .inl ⟨_, hd, ho⟩
    all_goals refine .inr ⟨_, hv, crashes_require.mpr ⟨?_, crashes_require.mpr ⟨?_, ?_⟩⟩⟩
    · exact ho.keys
    · exact ho.schema
    · exact crashes_bind.mpr (.inl (crashes_oneOf.mpr hc))
    · exact ho.keys
    · exact ho.schema
    · exact crashes_bind.mpr (.inr ⟨t, hevent ▸ oneOf_mem ht, crashes_bind.mpr (.inl (crashes_kind.mpr hc))⟩)
    · exact hn.keys
    · exact hn.schema
    · refine crashes_of_named hn fun _ _ _ _ _ => ?_
      exact crashes_bind.mpr (.inl (crashes_parseProcess.mpr ⟨hwords, hc⟩))
    · exact hn.keys
    · exact hn.schema
    · refine crashes_of_named hn fun _ _ _ _ _ => ?_
      obtain ⟨p, hp⟩ := hcount.parsed
      obtain ⟨observed, ho⟩ := hcount.observed
      obtain ⟨attempt, ha, hattempt⟩ := hcount.attempt
      have hnull := hcount.nullable
      simp only [List.forall_mem_cons, ← nullable_iff] at hnull
      obtain ⟨⟨_, hplan⟩, ⟨_, hlaunch⟩, ⟨_, hdetail⟩, ⟨_, hcontroller⟩, -⟩ := hnull
      refine crashes_bind.mpr (.inr ⟨p, hp, ?_⟩)
      simp only [crashes_seq not_crashes_check.right.left, crashes_seq not_crashes_check.right.right.left,
        crashes_require]
      exact ⟨_, nonNegative_ok.mpr ho, _, nonNegative_ok.mpr ⟨by omega, hattempt⟩, ha, _, hplan, _, hlaunch,
        _, hdetail, _, hcontroller, crashes_bind.mpr (.inl (crashes_oneOf.mpr hc))⟩

end Fields

section Schema

variable [Hashlib] [Decimal] {process entry : Fields} {p : Process} {e : HostEvent} {raw : Bytes}
  {v : Option Value}

structure ProcessSatisfies (p : Process) : Prop where
  words   : ∀ t ∈ [p.host, p.role, p.startIdentity], t ≠ []
  numbers : ∀ n ∈ [p.ordinal, p.pid, p.processEpoch], 0 ≤ n
  source  : ∀ t ∈ p.assignmentSource, t ∈ ["host".points, "environment".points]
  start   : (startPrefix p.pid).isPrefixOf p.startIdentity ∧
    ∃ n ∈ Text.int? (p.startIdentity.drop (startPrefix p.pid).length), 0 ≤ n

-- What the three kinds of observations say about the fields of the scheduler.
inductive OfKind (e : HostEvent) : Prop
  | lifecycle (kind : e.observationKind = .loaderLifecycle)
    (absent : e.occurrenceId = none ∧ e.controllerInstanceId = none ∧ e.invocationSeq = none ∧
      e.dispatchId = none)
  | resolution (controller : Text) (kind : e.observationKind = .schedulerResolution)
    (event : e.event = "resolved".points) (controls : e.controllerInstanceId = some controller)
    (occurrence : e.occurrenceId = some (.text ("controller:".points ++ controller)))
    (absent : e.invocationSeq = none ∧ e.dispatchId = none)
  | dispatch (n : Int) (kind : e.observationKind = .schedulerDispatch)
    (event : e.event = "invoked".points) (controls : e.controllerInstanceId ≠ none)
    (occurrence : e.occurrenceId = some (.number n)) (sequence : e.invocationSeq = some n)
    (digest : e.dispatchId = some (Hashlib.sha256 (dumps (dispatchMaterial e))))

-- The schema of a host event.
structure Satisfies (e : HostEvent) : Prop where
  event      : e.event ∈ EVENTS
  words      : ∀ t ∈ [e.eventId, e.identityStatus, e.entryPoint.group, e.entryPoint.name,
    e.entryPoint.value], t ≠ []
  process    : ProcessSatisfies e.process
  observed   : 0 ≤ e.observedAtNs
  attempt    : 1 ≤ e.deliveryAttempt
  nullable   : ∀ o ∈ [e.planId, e.launchId, e.detail, e.controllerInstanceId], o ≠ some []
  status     : e.bindingStatus ∈ ["bound".points, "unbound".points]
  bound      : (e.planId = none ↔ e.launchId = none) ∧
    (e.planId ≠ none ∧ e.launchId ≠ none ↔ e.bindingStatus = "bound".points)
  occurrence : ∀ o ∈ e.occurrenceId, match o with
    | .number n => 1 ≤ n
    | .text t   => t ≠ []
  sequence   : ∀ n ∈ e.invocationSeq, 1 ≤ n
  dispatch   : ∀ t ∈ e.dispatchId, t.length = 64 ∧ t.all isHex
  kind       : OfKind e
  identity   : e.eventId = Hashlib.sha256 (dumps (eventMaterial e))

omit [Decimal] in
theorem ofKind_of_checkKind (h : checkKind e = .ok ()) : OfKind e := by
  unfold checkKind at h
  split at h
  case h_1 hkind => exact .lifecycle hkind (require_ok.mp h)
  case h_2 hkind =>
    split at h
    case h_1 controller hc =>
      obtain ⟨hevent, ho, hnone⟩ := require_ok.mp h
      exact .resolution controller hkind hevent hc ho hnone
    case h_2 => cases h
  case h_3 hkind =>
    split at h
    case h_1 controller n hc ho =>
      obtain ⟨⟨hevent, hn⟩, h⟩ := require_seq.mp h
      exact .dispatch n hkind hevent (hc ▸ nofun) ho hn (require_ok.mp h)
    case h_2 => cases h

omit [Hashlib] [Decimal] in
theorem nonEmpty_ne {t : Text} (h : nonEmpty v = .ok t) : t ≠ [] := by
  obtain ⟨t', ht, hv⟩ := nonEmpty_iff.mp ⟨t, h⟩
  cases (nonEmpty_ok h).symm.trans hv
  exact ht

omit [Hashlib] [Decimal] in
theorem nullable_ne {o : Option Text} (h : nullable v = .ok o) : o ≠ some [] := by
  unfold nullable at h
  repeat' split at h
  all_goals cases h
  · exact nofun
  · simpa

omit [Hashlib] [Decimal] in
theorem occurrence_positive {o : Option Occurrence} (h : occurrence v = .ok o) : ∀ x ∈ o, match x with
    | .number n => 1 ≤ n
    | .text t   => t ≠ [] := by
  unfold occurrence at h
  repeat' split at h
  all_goals cases h
  · exact nofun
  all_goals rintro _ ⟨⟩
  all_goals assumption

omit [Hashlib] [Decimal] in
theorem sequence_positive {o : Option Int} (h : sequence v = .ok o) : ∀ n ∈ o, 1 ≤ n := by
  unfold sequence at h
  repeat' split at h
  all_goals cases h
  · exact nofun
  · rintro _ ⟨⟩
    assumption

omit [Hashlib] [Decimal] in
theorem digest_hex {o : Option Text} (h : digest v = .ok o) : ∀ t ∈ o, t.length = 64 ∧ t.all isHex := by
  unfold digest at h
  repeat' split at h
  all_goals cases h
  · exact nofun
  · rintro _ ⟨⟩
    assumption

omit [Hashlib] in
theorem parseProcess_satisfies (h : parseProcess process = .ok p) : ProcessSatisfies p := by
  obtain ⟨host, hhost, h⟩ := Fallible.bind_ok.mp h
  obtain ⟨role, hrole, h⟩ := Fallible.bind_ok.mp h
  obtain ⟨start, hstart, h⟩ := Fallible.bind_ok.mp h
  obtain ⟨source, hsource, h⟩ := Fallible.bind_ok.mp h
  obtain ⟨ordinal, hordinal, h⟩ := Fallible.bind_ok.mp h
  obtain ⟨pid, hpid, h⟩ := Fallible.bind_ok.mp h
  obtain ⟨epoch, hepoch, h⟩ := Fallible.bind_ok.mp h
  obtain ⟨hstarts, h⟩ := require_seq.mp h
  obtain ⟨hticks, h⟩ := require_seq.mp h
  cases h
  constructor
  case words   =>
    simp only [List.forall_mem_cons]
    exact ⟨nonEmpty_ne hhost, nonEmpty_ne hrole, nonEmpty_ne hstart, nofun⟩
  case numbers =>
    simp only [List.forall_mem_cons]
    exact ⟨(nonNegative_ok.mp hordinal).left, (nonNegative_ok.mp hpid).left, (nonNegative_ok.mp hepoch).left, nofun⟩
  case source  =>
    cases hv : process.get? "assignment_source".points
    all_goals rw [hv] at hsource
    case none   =>
      cases hsource
      exact nofun
    case some v =>
      change some <$> oneOf ["host".points, "environment".points] (some v) = _ at hsource
      cases ho : oneOf ["host".points, "environment".points] (some v)
      all_goals rw [ho] at hsource
      case error => cases hsource
      case ok t  =>
        cases hsource
        rintro _ ⟨⟩
        exact (oneOf_ok ho).right
  case start   => exact ⟨hstarts, hticks⟩

omit [Hashlib] [Decimal] in
theorem parseEntryPoint_words {point : EntryPoint} (h : parseEntryPoint entry = .ok point) :
    ∀ t ∈ [point.group, point.name, point.value], t ≠ [] := by
  obtain ⟨group, hgroup, h⟩ := Fallible.bind_ok.mp h
  obtain ⟨name, hname, h⟩ := Fallible.bind_ok.mp h
  obtain ⟨value, hvalue, h⟩ := Fallible.bind_ok.mp h
  cases h
  simp only [List.forall_mem_cons]
  exact ⟨nonEmpty_ne hgroup, nonEmpty_ne hname, nonEmpty_ne hvalue, nofun⟩

theorem parseHostEvent_satisfies (h : parseHostEvent raw = .ok e) : Satisfies e := by
  obtain ⟨value, -, h⟩ := Fallible.bind_ok.mp h
  iterate 2 obtain ⟨-, h⟩ := require_seq.mp h
  obtain ⟨event, hevent, h⟩ := Fallible.bind_ok.mp h
  obtain ⟨kind, -, h⟩ := Fallible.bind_ok.mp h
  iterate 3 obtain ⟨_, -, h⟩ := Fallible.bind_ok.mp h
  obtain ⟨id, hid, h⟩ := Fallible.bind_ok.mp h
  obtain ⟨identity, hidentity, h⟩ := Fallible.bind_ok.mp h
  obtain ⟨point, hpoint, h⟩ := Fallible.bind_ok.mp h
  obtain ⟨process, hprocess, h⟩ := Fallible.bind_ok.mp h
  obtain ⟨observed, hobserved, h⟩ := Fallible.bind_ok.mp h
  obtain ⟨attempt, -, h⟩ := Fallible.bind_ok.mp h
  obtain ⟨hattempt, h⟩ := require_seq.mp h
  obtain ⟨planId, hplan, h⟩ := Fallible.bind_ok.mp h
  obtain ⟨launchId, hlaunch, h⟩ := Fallible.bind_ok.mp h
  obtain ⟨detail, hdetail, h⟩ := Fallible.bind_ok.mp h
  obtain ⟨controller, hcontroller, h⟩ := Fallible.bind_ok.mp h
  obtain ⟨status, hstatus, h⟩ := Fallible.bind_ok.mp h
  obtain ⟨hboth, h⟩ := require_seq.mp h
  obtain ⟨hbound, h⟩ := require_seq.mp h
  obtain ⟨occurrence, hoccurrence, h⟩ := Fallible.bind_ok.mp h
  obtain ⟨sequence, hsequence, h⟩ := Fallible.bind_ok.mp h
  obtain ⟨dispatch, hdispatch, h⟩ := Fallible.bind_ok.mp h
  obtain ⟨_, hkind, h⟩ := Fallible.bind_ok.mp h
  obtain ⟨hdigest, h⟩ := require_seq.mp h
  obtain ⟨-, h⟩ := require_seq.mp h
  cases h
  constructor
  case event      => exact (oneOf_ok hevent).right
  case words      =>
    refine List.forall_mem_cons.mpr ⟨nonEmpty_ne hid, List.forall_mem_cons.mpr ⟨nonEmpty_ne hidentity, ?_⟩⟩
    exact parseEntryPoint_words hpoint
  case process    => exact parseProcess_satisfies hprocess
  case observed   => exact (nonNegative_ok.mp hobserved).left
  case attempt    => exact hattempt
  case nullable   =>
    simp only [List.forall_mem_cons]
    exact ⟨nullable_ne hplan, nullable_ne hlaunch, nullable_ne hdetail, nullable_ne hcontroller, nofun⟩
  case status     => exact (oneOf_ok hstatus).right
  case bound      => exact ⟨hboth, hbound⟩
  case occurrence => exact occurrence_positive hoccurrence
  case sequence   => exact sequence_positive hsequence
  case dispatch   => exact digest_hex hdispatch
  case kind       => exact ofKind_of_checkKind hkind
  case identity   => exact hdigest

end Schema

section Interpreter

variable [Hashlib] [Decimal] [Stack] {raw : Bytes} {e : HostEvent} {f : Failure}

-- What `parse_host_event` does before `_validate_unicode`.
def identify (raw : Bytes) : Except Failure Unit := do
  let value ← (Profile.parseStrict raw).mapError .profile
  require (Profile.sameKeys value requiredFields)
  require (value.get? "schema".points = some (.str HOST_SCHEMA))
  let _ ← oneOf EVENTS (value.get? "event".points)
  let _ ← kind (value.get? "observation_kind".points)
  .ok ()

-- `parse_host_event` where the stack may be too small.
def parseHostEventIn (raw : Bytes) : Except Failure HostEvent :=
  if Stack.reads raw then .error .recursion
  else do
    identify raw
    if Stack.walks raw then .error .recursion else parseHostEvent raw

omit [Hashlib] [Decimal] [Stack] in
theorem identify_ok : identify raw = .ok () ↔ ∃ value, Profile.parseStrict raw = .ok value ∧ Identified value := by
  constructor
  · intro h
    obtain ⟨value, hv, h⟩ := Fallible.bind_ok.mp h
    obtain ⟨hkeys, h⟩ := require_seq.mp h
    obtain ⟨hschema, h⟩ := require_seq.mp h
    obtain ⟨event, hevent, h⟩ := Fallible.bind_ok.mp h
    obtain ⟨kind, hkind, -⟩ := Fallible.bind_ok.mp h
    exact ⟨value, Fallible.mapError_ok.mp hv, ⟨hkeys, hschema⟩,
      ⟨event, (oneOf_ok hevent).right, (oneOf_ok hevent).left⟩, kind, kind_ok hkind⟩
  · rintro ⟨value, hv, hi⟩
    obtain ⟨t, ht, hevent⟩ := hi.event
    obtain ⟨kind', hkind⟩ := hi.kind
    refine Fallible.bind_ok.mpr ⟨value, Fallible.mapError_ok.mpr hv, ?_⟩
    refine require_seq.mpr ⟨hi.keys, require_seq.mpr ⟨hi.schema, ?_⟩⟩
    exact Fallible.bind_ok.mpr ⟨t, hevent ▸ oneOf_mem ht, Fallible.bind_ok.mpr ⟨kind', hkind ▸ kind_value kind', rfl⟩⟩

omit [Stack] in
theorem identify_error (h : identify raw = .error f) : parseHostEvent raw = .error f := by
  rcases Fallible.bind_error.mp h with h | ⟨value, hv, h⟩
  · exact Fallible.bind_error.mpr (.inl h)
  refine Fallible.bind_error.mpr (.inr ⟨value, hv, ?_⟩)
  rcases Fallible.bind_error.mp h with h | ⟨u, hu, h⟩
  · exact Fallible.bind_error.mpr (.inl h)
  refine Fallible.bind_error.mpr (.inr ⟨u, hu, ?_⟩)
  rcases Fallible.bind_error.mp h with h | ⟨u, hu, h⟩
  · exact Fallible.bind_error.mpr (.inl h)
  refine Fallible.bind_error.mpr (.inr ⟨u, hu, ?_⟩)
  rcases Fallible.bind_error.mp h with h | ⟨event, he, h⟩
  · exact Fallible.bind_error.mpr (.inl h)
  refine Fallible.bind_error.mpr (.inr ⟨event, he, ?_⟩)
  rcases Fallible.bind_error.mp h with h | ⟨kind, hk, h⟩
  · exact Fallible.bind_error.mpr (.inl h)
  · cases h

-- Why something else is raised where the stack may be too small.
def Breaks (raw : Bytes) : Prop :=
  Stack.reads raw ∨ (∃ value, Profile.parseStrict raw = .ok value ∧ Identified value ∧ Stack.walks raw) ∨
    Caused raw

theorem crashes_parseHostEventIn : Crashes (parseHostEventIn raw) ↔ Breaks raw := by
  have hrecursion : Crashes (.error .recursion : Except Failure HostEvent) := ⟨_, rfl, nofun⟩
  unfold parseHostEventIn Breaks
  rw [← crashes_parseHostEvent]
  split
  case isTrue hr  => exact iff_of_true hrecursion (.inl hr)
  case isFalse hr =>
    rw [or_iff_right hr]
    cases hi : identify raw
    case error f =>
      have hnone : ¬∃ value, Profile.parseStrict raw = .ok value ∧ Identified value ∧ Stack.walks raw := by
        rintro ⟨value, hv, hid, -⟩
        exact nomatch hi.symm.trans (identify_ok.mpr ⟨value, hv, hid⟩)
      rw [or_iff_right hnone, identify_error hi]
      exact crashes_map (g := id) |>.symm.trans crashes_map
    case ok      =>
      obtain ⟨value, hv, hid⟩ := identify_ok.mp hi
      change Crashes (if Stack.walks raw then _ else _) ↔ _
      split
      case isTrue hw  => exact iff_of_true hrecursion (.inl ⟨value, hv, hid, hw⟩)
      case isFalse hw => exact (or_iff_right fun ⟨_, _, _, h⟩ => hw h).symm

theorem parseHostEventIn_ok (h : parseHostEventIn raw = .ok e) : parseHostEvent raw = .ok e := by
  unfold parseHostEventIn at h
  split at h
  case isTrue  => cases h
  case isFalse =>
    obtain ⟨_, -, h⟩ := Fallible.bind_ok.mp h
    split at h
    case isTrue  => cases h
    case isFalse => exact h

end Interpreter

-- `read_events` with any parser of host events.
section Reading

variable (parse : Bytes → Except Failure HostEvent)

def readLineBy (records : List JournalEvent) (line : Text × Nat × Bytes) :
    Except ReadFailure (List JournalEvent) := do
  let (journal, lineNumber, raw) := line
  refuse (raw = []) .emptyRecord
  let event ← (parse raw).mapError .event
  refuse (∃ r ∈ records, r.event.eventId = event.eventId) .duplicate
  return records ++ [{ journal, lineNumber, raw, event }]

def readJournalBy (limit : Option Nat) (st : List JournalEvent × Nat) (journal : Text × Entry) :
    Except ReadFailure (List JournalEvent × Nat) :=
  match journal.2 with
  | .other      => .error .unreadable
  | .file bytes => do
    refuse (∃ l ∈ limit, l < st.2 + bytes.length) .limit
    refuse (bytes ≠ [] ∧ bytes.getLast? ≠ some 0x0A) .unfinished
    let records ← (linesOf journal).foldlM (readLineBy parse) st.1
    return (records, st.2 + bytes.length)

def readEventsBy (d : Directory) (expected : Option (Int × Int)) (limit : Option Nat) :
    Except ReadFailure (List JournalEvent) := do
  refuse (limit = some 0) .badLimit
  refuse (∃ identity ∈ expected, identity ≠ d.identity) .directory
  let st ← d.journals.foldlM (readJournalBy parse limit) ([], 0)
  return st.1

theorem readEventsBy_parseHostEvent [Hashlib] [Decimal] : readEventsBy parseHostEvent = readEvents :=
  rfl

-- A line that is parsed: what is before it has been read.
structure Reaches (d : Directory) (expected : Option (Int × Int)) (limit : Option Nat)
    (line : Text × Nat × Bytes) : Prop where
  limited  : limit ≠ some 0
  expected : ∀ identity ∈ expected, identity = d.identity
  journals : ∃ js name bytes js' st, d.journals = js ++ (name, .file bytes) :: js' ∧
    js.foldlM (readJournalBy parse limit) ([], 0) = .ok st ∧
    (∀ l ∈ limit, st.2 + bytes.length ≤ l) ∧ (bytes ≠ [] → bytes.getLast? = some 0x0A) ∧
    ∃ l₁ l₂ records, linesOf (name, .file bytes) = l₁ ++ line :: l₂ ∧
      l₁.foldlM (readLineBy parse) st.1 = .ok records
  filled   : line.2.2 ≠ []

variable {parse} {d : Directory} {expected : Option (Int × Int)} {limit : Option Nat} {f : Failure}
  {line : Text × Nat × Bytes} {records : List JournalEvent} {journal : Text × Entry}
  {st : List JournalEvent × Nat}

theorem refuse_event {α : Type} {p : Prop} [Decidable p] {k : Unit → Except ReadFailure α}
    (e : ReadFailure) (hne : e ≠ .event f) : (refuse p e >>= k) = .error (.event f) ↔ ¬p ∧ k () = .error (.event f) := by
  constructor
  · intro h
    have hk := refuse_seq_error h hne
    refine ⟨fun hp => ?_, hk⟩
    rw [refuse, if_pos hp] at h
    exact hne (Except.error.inj h)
  · rintro ⟨hp, hk⟩
    rw [refuse, if_neg hp]
    exact hk

theorem readLineBy_event : readLineBy parse records line = .error (.event f) ↔
    line.2.2 ≠ [] ∧ parse line.2.2 = .error f := by
  unfold readLineBy
  obtain ⟨journal, lineNumber, raw⟩ := line
  dsimp only
  rw [refuse_event .emptyRecord nofun]
  refine and_congr_right fun _ => ?_
  cases parse raw
  case error => exact ⟨fun h => by cases h; rfl, fun h => by cases h; rfl⟩
  case ok    =>
    refine iff_of_false (fun h => ?_) nofun
    exact nomatch ((refuse_event .duplicate nofun).mp h).right

theorem readJournalBy_event : readJournalBy parse limit st journal = .error (.event f) ↔
    ∃ bytes, journal.2 = .file bytes ∧ (∀ l ∈ limit, st.2 + bytes.length ≤ l) ∧
      (bytes ≠ [] → bytes.getLast? = some 0x0A) ∧
      ∃ l₁ line l₂ records, linesOf journal = l₁ ++ line :: l₂ ∧
        l₁.foldlM (readLineBy parse) st.1 = .ok records ∧ line.2.2 ≠ [] ∧ parse line.2.2 = .error f := by
  unfold readJournalBy
  split
  case h_1 he       => exact iff_of_false nofun fun ⟨_, hb, _⟩ => nomatch he.symm.trans hb
  case h_2 bytes he =>
    have hfold : (((linesOf journal).foldlM (readLineBy parse) st.1 >>= fun records =>
        Except.ok (records, st.2 + bytes.length)) = .error (.event f)) ↔
        ∃ l₁ line l₂ records, linesOf journal = l₁ ++ line :: l₂ ∧
          l₁.foldlM (readLineBy parse) st.1 = .ok records ∧ line.2.2 ≠ [] ∧ parse line.2.2 = .error f := by
      refine Fallible.bind_error.trans ((or_iff_left fun ⟨_, _, h⟩ => nomatch h).trans ?_)
      rw [Fallible.foldlM_error_iff]
      simp only [readLineBy_event]
    rw [refuse_event .limit nofun, refuse_event .unfinished nofun]
    refine Iff.trans (and_congr ?_ (and_congr ?_ hfold)) ⟨fun h => ⟨bytes, he, h⟩, ?_⟩
    · push Not
      rfl
    · push Not
      rfl
    · rintro ⟨_, hb, h⟩
      cases he.symm.trans hb
      exact h

theorem readEventsBy_event : readEventsBy parse d expected limit = .error (.event f) ↔
    ∃ line, Reaches parse d expected limit line ∧ parse line.2.2 = .error f := by
  unfold readEventsBy
  rw [refuse_event .badLimit nofun, refuse_event .directory nofun]
  have hfold : ((d.journals.foldlM (readJournalBy parse limit) ([], 0) >>= fun st =>
      Except.ok st.1) = .error (.event f)) ↔ ∃ js journal js' st, d.journals = js ++ journal :: js' ∧
        js.foldlM (readJournalBy parse limit) ([], 0) = .ok st ∧
        readJournalBy parse limit st journal = .error (.event f) := by
    rw [← Fallible.foldlM_error_iff]
    exact Fallible.bind_error.trans (or_iff_left fun ⟨_, _, h⟩ => nomatch h)
  refine (and_congr_right fun _ => and_congr_right fun _ => hfold).trans ⟨?_, ?_⟩
  · rintro ⟨hl, hexp, js, ⟨name, entry⟩, js', st, hj, hst, he⟩
    obtain ⟨bytes, rfl, hlim, hend, l₁, line, l₂, records, hlines, hr, hfilled, hp⟩ := readJournalBy_event.mp he
    refine ⟨line, ⟨hl, ?_, ?_, hfilled⟩, hp⟩
    · push Not at hexp
      exact hexp
    · exact ⟨js, name, bytes, js', st, hj, hst, hlim, hend, l₁, l₂, records, hlines, hr⟩
  · rintro ⟨line, ⟨hl, hexp, ⟨js, name, bytes, js', st, hj, hst, hlim, hend, l₁, l₂, records, hlines, hr⟩, hfilled⟩, hp⟩
    refine ⟨hl, ?_, js, (name, .file bytes), js', st, hj, hst, ?_⟩
    · push Not
      exact hexp
    · exact readJournalBy_event.mpr ⟨bytes, rfl, hlim, hend, l₁, line, l₂, records, hlines, hr, hfilled, hp⟩

end Reading

section Rejecting

variable [Hashlib] [Decimal] [Stack]

-- An event of the schema is returned, or an `AttestationError` raised.
def Rejects (raw : Bytes) : Prop :=
  match parseHostEventIn raw with
  | .ok e    => Satisfies e
  | .error f => Attested f

-- An error of the sink, or an `AttestationError`.
def ReadsOrRejects (d : Directory) (expected : Option (Int × Int)) (limit : Option Nat) : Prop :=
  ∀ f, readEventsBy parseHostEventIn d expected limit = .error (.event f) → Attested f

theorem rejects_iff_not_breaks (raw : Bytes) : Rejects raw ↔ ¬Breaks raw := by
  rw [← crashes_parseHostEventIn, Rejects]
  cases hp : parseHostEventIn raw
  case ok e    => exact iff_of_true (parseHostEvent_satisfies (parseHostEventIn_ok hp)) not_crashes_ok
  case error f =>
    refine ⟨fun h ⟨_, hf, hc⟩ => ?_, fun h => ?_⟩
    · cases hf
      exact hc h
    · by_contra hc
      exact h ⟨f, rfl, hc⟩

-- Everything that is not a host event is rejected as such, unless a number, the nesting or the type of
-- one of four fields breaks the parser, and so is a directory unless such a line is reached.
theorem rejects_iff :
    (∀ raw, Rejects raw ↔ ¬Breaks raw) ∧
    ∀ d expected limit, ReadsOrRejects d expected limit ↔
      ∀ line, Reaches parseHostEventIn d expected limit line → ¬Breaks line.2.2 := by
  refine ⟨rejects_iff_not_breaks, fun d expected limit => ?_⟩
  constructor
  · intro h line hr hb
    obtain ⟨f, hf, hc⟩ := crashes_parseHostEventIn.mpr hb
    exact hc (h f (readEventsBy_event.mpr ⟨line, hr, hf⟩))
  · intro h f hf
    obtain ⟨line, hr, hp⟩ := readEventsBy_event.mp hf
    by_contra hc
    exact h line hr (crashes_parseHostEventIn.mp ⟨f, hp, hc⟩)

end Rejecting

end HostEvidence

-- An event whose name is a list.
namespace HostEvidence.Sample

-- The stack is large enough.
scoped instance : Stack where
  reads _ := false
  walks _ := false

def listed : Bytes := [
  123, 34, 97, 114, 116, 105, 102, 97, 99, 116, 95, 100, 105, 103, 101, 115, 116, 34, 58, 110,
  117, 108, 108, 44, 34, 98, 105, 110, 100, 105, 110, 103, 95, 115, 116, 97, 116, 117, 115, 34,
  58, 110, 117, 108, 108, 44, 34, 99, 111, 110, 116, 114, 111, 108, 108, 101, 114, 95, 105, 110,
  115, 116, 97, 110, 99, 101, 95, 105, 100, 34, 58, 110, 117, 108, 108, 44, 34, 100, 101, 108,
  105, 118, 101, 114, 121, 95, 97, 116, 116, 101, 109, 112, 116, 34, 58, 110, 117, 108, 108, 44,
  34, 100, 101, 116, 97, 105, 108, 34, 58, 110, 117, 108, 108, 44, 34, 100, 105, 115, 112, 97,
  116, 99, 104, 95, 105, 100, 34, 58, 110, 117, 108, 108, 44, 34, 101, 110, 116, 114, 121, 95,
  112, 111, 105, 110, 116, 34, 58, 110, 117, 108, 108, 44, 34, 101, 118, 101, 110, 116, 34, 58,
  91, 93, 44, 34, 101, 118, 101, 110, 116, 95, 105, 100, 34, 58, 110, 117, 108, 108, 44, 34, 105,
  100, 101, 110, 116, 105, 116, 121, 95, 115, 116, 97, 116, 117, 115, 34, 58, 110, 117, 108, 108,
  44, 34, 105, 110, 118, 111, 99, 97, 116, 105, 111, 110, 95, 115, 101, 113, 34, 58, 110, 117,
  108, 108, 44, 34, 108, 97, 117, 110, 99, 104, 95, 105, 100, 34, 58, 110, 117, 108, 108, 44, 34,
  111, 98, 115, 101, 114, 118, 97, 116, 105, 111, 110, 95, 107, 105, 110, 100, 34, 58, 110, 117,
  108, 108, 44, 34, 111, 98, 115, 101, 114, 118, 101, 100, 95, 97, 116, 95, 110, 115, 34, 58,
  110, 117, 108, 108, 44, 34, 111, 99, 99, 117, 114, 114, 101, 110, 99, 101, 95, 105, 100, 34,
  58, 110, 117, 108, 108, 44, 34, 112, 108, 97, 110, 95, 105, 100, 34, 58, 110, 117, 108, 108,
  44, 34, 112, 108, 117, 103, 105, 110, 95, 105, 100, 34, 58, 110, 117, 108, 108, 44, 34, 112,
  114, 111, 99, 101, 115, 115, 34, 58, 110, 117, 108, 108, 44, 34, 115, 99, 104, 101, 109, 97,
  34, 58, 34, 118, 108, 108, 109, 45, 104, 117, 115, 116, 45, 112, 108, 117, 103, 105, 110, 45,
  101, 118, 105, 100, 101, 110, 99, 101, 47, 48, 46, 49, 34, 125]

def directory : Directory where
  identity := (1, 2)
  entries  := [("a.jsonl".points, .file (listed ++ [0x0A]))]

theorem not_rejects : ¬Rejects listed ∧ ¬ReadsOrRejects directory none none := by
  have hparse : parseHostEventIn listed = .error .unhashable := by decide +kernel
  have hread : readEventsBy parseHostEventIn directory none none = .error (.event .unhashable) := by
    decide +kernel
  constructor
  · rw [Rejects, hparse]
    exact nofun
  · exact fun h => nomatch h _ hread

end HostEvidence.Sample
