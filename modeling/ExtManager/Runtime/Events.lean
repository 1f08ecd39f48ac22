import ExtManager.Attestation.Profile
import ExtManager.Codec.Canonical
import ExtManager.Codec.Fallible

-- Lists of lines, each of which is ended by the separator, except for the last.
namespace Lines

variable {α : Type} [DecidableEq α] {s : α}

def split (s : α) : List α → List (List α)
  | []     => []
  | c :: r =>
    if c = s then [c] :: split s r
    else match split s r with
      | []      => [[c]]
      | l :: ls => (c :: l) :: ls

-- What is left when one line has been read.
def skip (s : α) : List α → List α
  | []     => []
  | c :: r => if c = s then r else skip s r

-- The lines with the places where they start.
def starts (n : Nat) : List (List α) → List (Nat × List α)
  | []      => []
  | l :: ls => (n, l) :: starts (n + l.length) ls

def placed (s : α) (l : List α) : List (Nat × List α) :=
  starts 0 (split s l)

variable {l a b : List α} {ls : List (List α)} {n : Nat} {p : Nat × List α}

theorem split_skip : split s (skip s l) = (split s l).tail := by
  induction l
  case nil         => rfl
  case cons c l ih =>
    rw [skip, split]
    split
    · rfl
    · rw [ih]
      cases split s l
      all_goals rfl

theorem ne_nil_of_mem_split (h : l ∈ split s a) : l ≠ [] := by
  induction a generalizing l
  case nil         => contradiction
  case cons c a ih =>
    rw [split] at h
    split at h
    · rcases List.mem_cons.mp h with rfl | h
      · exact List.cons_ne_nil _ _
      · exact ih h
    · cases hs : split s a
      case nil          =>
        rw [hs] at h
        exact List.mem_singleton.mp h ▸ List.cons_ne_nil _ _
      case cons l' ls   =>
        rw [hs] at h ih
        rcases List.mem_cons.mp h with rfl | h
        · exact List.cons_ne_nil _ _
        · exact ih (List.mem_cons_of_mem _ h)

omit [DecidableEq α]

theorem map_starts : (starts n ls).map (·.2) = ls := by
  induction ls generalizing n
  case nil          => rfl
  case cons l ls ih => exact congrArg (l :: ·) ih

theorem le_of_mem_starts (h : p ∈ starts n ls) : n ≤ p.1 := by
  induction ls generalizing n
  case nil          => contradiction
  case cons l ls ih =>
    rcases List.mem_cons.mp h with rfl | h
    · exact le_rfl
    · exact (Nat.le_add_right ..).trans (ih h)

theorem lt_of_mem_starts (hl : l ≠ []) (h : p ∈ starts (n + l.length) ls) : n < p.1 :=
  (Nat.lt_add_of_pos_right (List.length_pos_of_ne_nil hl)).trans_le (le_of_mem_starts h)

theorem filter_starts_tail (hne : ∀ l ∈ ls, l ≠ []) :
    ((starts n ls).filter (n < ·.1)).map (·.2) = ls.tail := by
  cases ls
  case nil       => rfl
  case cons l ls =>
    have hl := hne l List.mem_cons_self
    have hself : (starts (n + l.length) ls).filter (n < ·.1) = starts (n + l.length) ls :=
      List.filter_eq_self.mpr fun p hp => decide_eq_true (lt_of_mem_starts hl hp)
    rw [starts, List.filter_cons_of_neg (by simp), hself, map_starts]
    rfl

-- The lines behind a place are the lines of what stands from there on, without the first.
theorem filter_placed [DecidableEq α] :
    ((starts n (split s (a ++ b))).filter (n + a.length < ·.1)).map (·.2) = (split s b).tail := by
  induction a generalizing n
  case nil         => exact filter_starts_tail fun l => ne_nil_of_mem_split
  case cons c a ih =>
    have ih := ih (n := n + 1)
    have hplace : n + (c :: a).length = n + 1 + a.length := by
      rw [List.length_cons]
      omega
    have hlt : ¬n + 1 + a.length < n := by omega
    rw [List.cons_append, split, hplace]
    split
    · rw [starts, List.filter_cons_of_neg (by simpa using hlt)]
      exact ih
    · cases hs : split s (a ++ b)
      case nil       =>
        rw [hs] at ih
        rw [← ih]
        simp [starts, hlt]
      case cons l ls =>
        have hself : ¬n + 1 + a.length < n + 1 := by omega
        rw [hs, starts, List.filter_cons_of_neg (by exact fun h => hself (of_decide_eq_true h))] at ih
        have hstart : n + (c :: l).length = n + 1 + l.length := by
          rw [List.length_cons]
          omega
        rw [← ih]
        simp only [starts, hstart]
        rw [List.filter_cons_of_neg (by simpa using hlt)]

end Lines

namespace RuntimeEvidence

inductive Raised
  | unicodeDecodeError
  | jsonDecodeError
  | valueError (message : String)
  | recursionError
  | attributeError
  deriving DecidableEq

-- `except (UnicodeDecodeError, json.JSONDecodeError, TypeError, ValueError)`.
def Raised.caught : Raised → Bool
  | unicodeDecodeError | jsonDecodeError | valueError _ => true
  | recursionError | attributeError                     => false

def reject (p : Prop) [Decidable p] (message : String) : Except Raised Unit :=
  if p then .error (.valueError message) else .ok ()

def hostSchema : Text :=
  "vllm-hust-plugin-evidence/0.1".points

def maxReadBytes : Nat :=
  1024 * 1024

-- `isinstance(value, str)` of a string that is not empty.
def isNonEmpty : Option Value → Bool
  | some (.str t) => t ≠ []
  | _             => false

def isInt : Option Value → Bool
  | some (.int _) => true
  | _             => false

def checkFields (event : Fields) : Except Raised Unit := do
  reject (event.get? "schema".points ≠ some (.str hostSchema)) "unsupported host evidence schema"
  reject (event.get? "binding_status".points ≠ some (.str "bound".points))
    "unbound host evidence is not accepted"
  reject (¬isNonEmpty (event.get? "plan_id".points)) "host evidence requires plan_id"
  reject (¬isNonEmpty (event.get? "launch_id".points)) "host evidence requires launch_id"
  match event.get? "process".points with
  | some (.obj process) => do
    reject (¬isNonEmpty (Fields.get? process "host".points)) "host evidence process requires host"
    reject (¬isInt (Fields.get? process "pid".points)) "host evidence process requires pid"
    reject (¬isNonEmpty (Fields.get? process "start_identity".points))
      "host evidence process requires start_identity"
  | _                   => .error (.valueError "host evidence requires process identity")

-- Only dictionaries have the method `get`.
def requireBoundEvent : Value → Except Raised Unit
  | .obj event => checkFields event
  | _          => .error .attributeError

section

variable [PythonJson]

def ofLoads : LoadsFailure → Raised
  | .decode    => .jsonDecodeError
  | .value     => .valueError ""
  | .recursion => .recursionError

-- `json.loads` of bytes.
def loads (line : Bytes) : Except Raised Value :=
  match Profile.decode line with
  | none      => .error .unicodeDecodeError
  | some text => (PythonJson.loads text).mapError ofLoads

def readEvent (line : Bytes) : Except Raised Value := do
  let event ← loads line
  requireBoundEvent event
  return event

-- The loop of `_events`.
def collect : List Bytes → Except Raised (List Value)
  | []            => .ok []
  | line :: lines => match readEvent line with
    | .ok event => (event :: ·) <$> collect lines
    | .error e  => if e.caught then collect lines else .error e

-- What `readlines` gives in the end.
def readLines (file : Bytes) : List Bytes :=
  let window := file.drop (file.length - maxReadBytes)
  Lines.split 0x0A (if maxReadBytes < file.length then Lines.skip 0x0A window else window)

-- `_events`, where the file can be read or not.
def events (file : Option Bytes) : Except Raised (List Value) :=
  match file with
  | none      => .ok []
  | some file => collect (readLines file)

end

-- The lines of a file that lie within its last bytes. All of them end before the file does.
def tail (file : Bytes) : List (Nat × Bytes) :=
  (Lines.placed 0x0A file).filter (file.length - maxReadBytes ≤ ·.1)

variable [PythonJson]

-- The event of a line that `_require_bound_event` accepts.
def bound? (line : Bytes) : Option Value := do
  let text ← Profile.decode line
  match PythonJson.loads text with
  | .ok (.obj event) => if (checkFields event).isOk then some (.obj event) else none
  | _                => none

-- The line is JSON, but no object, or it is nested too deeply.
inductive Foreign (line : Bytes) : Prop
  | value {t v} : Profile.decode line = some t → PythonJson.loads t = .ok v →
      (∀ event, v ≠ .obj event) → Foreign line
  | deep {t} : Profile.decode line = some t → PythonJson.loads t = .error .recursion →
      Foreign line

-- The line that starts with the window of a larger file is passed over, so it must not be an event,
-- and no other line is foreign.
structure Clear (file : Bytes) : Prop where
  first  : ∀ p ∈ tail file, maxReadBytes < file.length → p.1 = file.length - maxReadBytes →
    bound? p.2 = none
  others : ∀ p ∈ tail file, (maxReadBytes < file.length → p.1 ≠ file.length - maxReadBytes) →
    ¬Foreign p.2

section

variable {α β : Type} {x : Except Raised α} {f : α → Except Raised β} {p : Prop} [Decidable p]
variable {message : String}

-- All that is raised is caught.
def Rejects (x : Except Raised α) : Prop :=
  ∀ e, x = .error e → e.caught

omit [PythonJson]

theorem Rejects.bind (hx : Rejects x) (hf : ∀ a, Rejects (f a)) : Rejects (x >>= f) := by
  intro e h
  rcases Fallible.bind_error.mp h with h | ⟨a, -, h⟩
  · exact hx e h
  · exact hf a e h

theorem rejects_reject : Rejects (reject p message) := by
  intro e h
  unfold reject at h
  split at h
  · cases h
    rfl
  · contradiction

theorem rejects_checkFields {event : Fields} : Rejects (checkFields event) := by
  refine rejects_reject.bind fun _ => rejects_reject.bind fun _ => rejects_reject.bind fun _ =>
    rejects_reject.bind fun _ => ?_
  split
  · exact rejects_reject.bind fun _ => rejects_reject.bind fun _ => rejects_reject
  · intro e h
    cases h
    rfl

end

-- A line is an event, or is passed over, or is foreign and ends the loop.
inductive Outcome (line : Bytes) : Prop
  | event {v} : readEvent line = .ok v → bound? line = some v → ¬Foreign line → Outcome line
  | skipped {e} : readEvent line = .error e → e.caught = true → bound? line = none →
      ¬Foreign line → Outcome line
  | foreign {e} : readEvent line = .error e → e.caught = false → Foreign line → Outcome line

variable {line : Bytes} {text : Text} {v : Value}

theorem not_foreign (ht : Profile.decode line = some text)
    (hv : ∀ v, PythonJson.loads text = .ok v → ∃ event, v = .obj event)
    (hr : PythonJson.loads text ≠ .error .recursion) : ¬Foreign line := by
  intro h
  cases h
  case value t v ht' hl hne =>
    cases ht.symm.trans ht'
    have ⟨event, he⟩ := hv v hl
    exact hne event he
  case deep t ht' hl        =>
    cases ht.symm.trans ht'
    exact hr hl

theorem outcome_of_obj {event : Fields} (ht : Profile.decode line = some text)
    (hl : PythonJson.loads text = .ok (.obj event)) : Outcome line := by
  have hnf : ¬Foreign line := by
    refine not_foreign ht (fun v hv => ?_) (by simp [hl])
    exact ⟨event, Except.ok.inj (hv.symm.trans hl)⟩
  have hread : readEvent line = (do checkFields event; return .obj event) := by
    simp only [readEvent, loads, ht, hl]
    rfl
  have hbound : bound? line = if (checkFields event).isOk then some (.obj event) else none := by
    simp [bound?, ht, hl]
  cases hc : checkFields event
  case ok u    =>
    rw [hc] at hread hbound
    exact .event hread hbound hnf
  case error e =>
    rw [hc] at hread hbound
    exact .skipped hread (rejects_checkFields e hc) hbound hnf

theorem outcome (line : Bytes) : Outcome line := by
  cases ht : Profile.decode line
  case none      =>
    have hread : readEvent line = .error .unicodeDecodeError := by
      simp only [readEvent, loads, ht]
      rfl
    refine .skipped hread rfl (by simp [bound?, ht]) ?_
    rintro (⟨ht', -, -⟩ | ⟨ht', -⟩)
    all_goals exact nomatch ht.symm.trans ht'
  case some text =>
    cases hl : PythonJson.loads text
    case ok v    =>
      cases v
      case obj event => exact outcome_of_obj ht hl
      all_goals
        have hread : readEvent line = .error .attributeError := by
          simp only [readEvent, loads, ht, hl]
          rfl
        exact .foreign hread rfl (.value ht hl nofun)
    case error e =>
      have hbound : bound? line = none := by simp [bound?, ht, hl]
      have hread : readEvent line = .error (ofLoads e) := by
        simp only [readEvent, loads, ht, hl]
        rfl
      have hnf (hr : e ≠ .recursion) : ¬Foreign line := by
        refine not_foreign ht (fun v hv => ?_) fun h => hr (Except.error.inj (hl.symm.trans h))
        exact nomatch hl.symm.trans hv
      cases e
      case decode    => exact .skipped hread rfl hbound (hnf nofun)
      case value     => exact .skipped hread rfl hbound (hnf nofun)
      case recursion => exact .foreign hread rfl (.deep ht hl)

-- The loop gives the events unless it comes to a foreign line.
theorem collect_iff {lines : List Bytes} {es : List Value} :
    collect lines = .ok es ↔ (∀ line ∈ lines, ¬Foreign line) ∧ es = lines.filterMap bound? := by
  induction lines generalizing es
  case nil             => simp [collect, eq_comm]
  case cons line lines ih =>
    rw [List.forall_mem_cons, collect]
    rcases outcome line with ⟨hread, hbound, hnf⟩ | ⟨hread, hcaught, hbound, hnf⟩ |
      ⟨hread, hcaught, hf⟩
    · rw [List.filterMap_cons_some hbound, and_iff_right hnf]
      simp only [hread]
      cases hc : collect lines
      case ok es'  =>
        have ⟨hnone, hes⟩ := ih.mp hc
        rw [← hes]
        exact ⟨fun h => ⟨hnone, (Except.ok.inj h).symm⟩, fun h => congrArg Except.ok h.2.symm⟩
      case error e =>
        refine ⟨nofun, fun h => ?_⟩
        exact nomatch hc.symm.trans (ih.mpr ⟨h.1, rfl⟩)
    · rw [List.filterMap_cons_none hbound, and_iff_right hnf]
      simp only [hread, hcaught, if_true]
      exact ih
    · simp only [hread, hcaught]
      exact ⟨nofun, fun h => absurd hf h.1.1⟩

omit [PythonJson] in
theorem readLines_eq (file : Bytes) : readLines file = ((tail file).filter fun p =>
    maxReadBytes < file.length → p.1 ≠ file.length - maxReadBytes).map (·.2) := by
  by_cases h : maxReadBytes < file.length
  · have hplaced := Lines.filter_placed (s := 0x0A) (a := file.take (file.length - maxReadBytes))
      (b := file.drop (file.length - maxReadBytes)) (n := 0)
    rw [List.take_append_drop, List.length_take_of_le (Nat.sub_le ..), Nat.zero_add] at hplaced
    rw [readLines, if_pos h, Lines.split_skip, ← hplaced, tail, List.filter_filter]
    refine congrArg (List.map Prod.snd) (List.filter_congr fun p _ => ?_)
    simp only [h, forall_const, ← Bool.decide_and, decide_eq_decide]
    omega
  · have hk : file.length - maxReadBytes = 0 := by omega
    have hall : tail file = Lines.placed 0x0A file := by
      rw [tail, hk]
      exact List.filter_eq_self.mpr fun p _ => decide_eq_true (Nat.zero_le _)
    have hself : ((Lines.placed 0x0A file).filter fun p =>
        maxReadBytes < file.length → p.1 ≠ file.length - maxReadBytes) = Lines.placed 0x0A file :=
      List.filter_eq_self.mpr fun p _ => decide_eq_true fun h' => absurd h' h
    rw [hall, hself, Lines.placed, Lines.map_starts, readLines, if_neg h, hk]
    rfl

omit [PythonJson] in
-- What is left out of a list makes no difference if and only if nothing comes of it.
theorem filterMap_filter_iff {α β : Type} {l : List α} {g : α → Option β} {q : α → Bool} :
    l.filterMap g = (l.filter q).filterMap g ↔ ∀ a ∈ l, ¬q a → g a = none := by
  induction l
  case nil         => exact ⟨nofun, fun _ => rfl⟩
  case cons a l ih =>
    rw [List.forall_mem_cons]
    by_cases hq : q a
    · rw [List.filter_cons_of_pos hq, and_iff_right fun h => absurd hq h, ← ih]
      cases hg : g a
      case none   => rw [List.filterMap_cons_none hg, List.filterMap_cons_none hg]
      case some b =>
        rw [List.filterMap_cons_some hg, List.filterMap_cons_some hg]
        exact ⟨fun h => (List.cons.inj h).2, congrArg (b :: ·)⟩
    · rw [List.filter_cons_of_neg hq]
      cases hg : g a
      case none   => rw [List.filterMap_cons_none hg, and_iff_right fun _ => rfl, ih]
      case some b =>
        have hle := ((List.filter_sublist (p := q) (l := l)).filterMap g).length_le
        rw [List.filterMap_cons_some hg]
        refine ⟨fun h => ?_, fun h => nomatch h.1 hq⟩
        rw [← h, List.length_cons] at hle
        omega

-- The events of the last bytes are read if and only if these are clear.
theorem events_iff (file : Bytes) :
    events (some file) = .ok ((tail file).filterMap fun p => bound? p.2) ↔ Clear file := by
  rw [events, collect_iff, readLines_eq, List.filterMap_map]
  refine Iff.trans (and_congr Iff.rfl filterMap_filter_iff) ?_
  constructor
  · intro ⟨hothers, hfirst⟩
    constructor
    case first  =>
      intro p hp hlt hat
      exact hfirst p hp (by simp [hlt, hat])
    case others =>
      intro p hp hq
      exact hothers p.2 (List.mem_map_of_mem (List.mem_filter.mpr ⟨hp, decide_eq_true hq⟩))
  · intro h
    refine ⟨fun line hline => ?_, fun p hp hq => ?_⟩
    · obtain ⟨p, hp, rfl⟩ := List.mem_map.mp hline
      have ⟨hp, hq⟩ := List.mem_filter.mp hp
      exact h.others p hp (of_decide_eq_true hq)
    · have hq : ¬(maxReadBytes < file.length → p.1 ≠ file.length - maxReadBytes) := by simpa using hq
      rw [Classical.not_imp, not_not] at hq
      exact h.first p hp hq.1 hq.2

end RuntimeEvidence

-- A file with one line, which is a list.
namespace RuntimeEvidence.Sample

scoped instance : PythonJson where
  loads t := if t = "[]\n".points then .ok (.arr []) else .error .decode
  ordered t v h := by
    split at h
    all_goals cases h
    exact .arr nofun
  floatRepr := id
  isFinite _ := true
  floatEq t u := t = u
  floatEqInt _ _ := false

def file : Bytes :=
  [0x5B, 0x5D, 0x0A]

theorem not_events : events (some file) = .error .attributeError ∧
    ((tail file).filterMap fun p => bound? p.2) = [] := by
  decide +kernel

end RuntimeEvidence.Sample
