import ExtManager.Codec.Value

-- Reading a JSON text character by character. What readers do in different ways is a parameter.
namespace Scanner

def isSpace (c : Nat) : Bool :=
  c = 0x20 || c = 0x09 || c = 0x0A || c = 0x0D

def isDigit (c : Nat) : Bool :=
  '0'.toNat ≤ c && c ≤ '9'.toNat

def isLetter (c : Nat) : Bool :=
  ('a'.toNat ≤ c && c ≤ 'z'.toNat) || ('A'.toNat ≤ c && c ≤ 'Z'.toNat)

-- The characters that literals and numbers consist of.
def isBare (c : Nat) : Bool :=
  isDigit c || isLetter c || c = '-'.toNat || c = '+'.toNat || c = '.'.toNat

def hexDigit? (c : Nat) : Option Nat :=
  if isDigit c then some (c - '0'.toNat)
  else if 'a'.toNat ≤ c && c ≤ 'f'.toNat then some (c - 'a'.toNat + 10)
  else if 'A'.toNat ≤ c && c ≤ 'F'.toNat then some (c - 'A'.toNat + 10)
  else none

def escape? (c : Nat) : Option Nat :=
  if c = '"'.toNat || c = '\\'.toNat || c = '/'.toNat then some c
  else if c = 'b'.toNat then some 0x08
  else if c = 'f'.toNat then some 0x0C
  else if c = 'n'.toNat then some 0x0A
  else if c = 'r'.toNat then some 0x0D
  else if c = 't'.toNat then some 0x09
  else none

-- The longest number that a token starts with, and what follows it.
structure Number where
  whole    : Text
  fraction : Text
  exponent : Text
  rest     : Text

namespace Number

def isE (c : Nat) : Bool :=
  c = 'e'.toNat || c = 'E'.toNat

def whole? : Text → Option (Text × Text)
  | []     => none
  | c :: r =>
    if c = '0'.toNat then some ([c], r)
    else if isDigit c then some (c :: r.takeWhile isDigit, r.dropWhile isDigit)
    else none

def signed? : Text → Option (Text × Text)
  | []     => none
  | c :: r =>
    if c = '-'.toNat then (fun (w, r) => (c :: w, r)) <$> whole? r else whole? (c :: r)

-- A point or an `e` that no digit follows is not part of the number.
def split (mark : Text) (t : Text) : Text × Text :=
  match t.takeWhile isDigit with
  | []     => ([], mark ++ t)
  | digits => (mark ++ digits, t.dropWhile isDigit)

def fraction? : Text → Text × Text
  | []     => ([], [])
  | c :: r => if c = '.'.toNat then split [c] r else ([], c :: r)

def exponent? : Text → Text × Text
  | []         => ([], [])
  | [c]        => ([], [c])
  | c :: s :: r =>
    if isE c then
      if s = '+'.toNat || s = '-'.toNat then split [c, s] r else split [c] (s :: r)
    else
      ([], c :: s :: r)

def read? (token : Text) : Option Number := do
  let (whole, t) ← signed? token
  let (fraction, t) := fraction? t
  let (exponent, rest) := exponent? t
  some ⟨whole, fraction, exponent, rest⟩

def natural (digits : Text) : Nat :=
  digits.foldl (fun n c => n * 10 + (c - '0'.toNat)) 0

def value : Text → Int
  | []     => 0
  | c :: r => if c = '-'.toNat then -(natural r : Int) else natural (c :: r)

end Number

structure Dialect (ε : Type) where
  malformed : ε
  -- `NaN`, `Infinity` and `-Infinity`.
  constant  : ε
  number    : Number → Except ε Value
  text      : Text → Text
  -- A key has been read behind these fields, the last of them first.
  key       : Fields → Text → Except ε Unit
  object    : Fields → Except ε Fields
  -- A closing bracket behind the value, and what follows it, is not looked at.
  trailing  : Bool

inductive Frame
  | arr (items : List Value)
  | obj (fields : Fields) (key : Text)

-- What is expected next. Items, fields, tokens and texts are kept with the last one first. A text is
-- a key if it comes with the fields before it, and ends in a high surrogate that may still be
-- joined with a low one if it has one `pending`.
inductive Mode
  | value
  | first
  | key (fields : Fields) (close : Bool)
  | colon (fields : Fields) (key : Text)
  | item (items : List Value)
  | field (fields : Fields)
  | bare (token : Text)
  | text (role : Option Fields) (acc : Text) (pending : Option Nat)
  | escape (role : Option Fields) (acc : Text) (pending : Option Nat)
  | hex (role : Option Fields) (acc : Text) (pending : Option Nat) (left unit : Nat)
  | done (v : Value)
  | rest (v : Value)

structure Config where
  mode  : Mode
  stack : List Frame

def complete (v : Value) : List Frame → Config
  | []                      => ⟨.done v, []⟩
  | .arr items :: stack     => ⟨.item (v :: items), stack⟩
  | .obj fields key :: stack => ⟨.field ((key, v) :: fields), stack⟩

def flush (acc : Text) : Option Nat → Text
  | none      => acc
  | some unit => unit :: acc

variable {ε : Type} (d : Dialect ε)

def literal (token : Text) : Except ε Value :=
  if token = "null".points then .ok .null
  else if token = "true".points then .ok (.bool true)
  else if token = "false".points then .ok (.bool false)
  else if "NaN".points.isPrefixOf token || "Infinity".points.isPrefixOf token ||
      "-Infinity".points.isPrefixOf token then .error d.constant
  else match Number.read? token with
    | none   => .error d.malformed
    | some n => do
      let v ← d.number n
      if n.rest = [] then .ok v else .error d.malformed

def start (c : Nat) (stack : List Frame) : Except ε Config :=
  if c = '"'.toNat then .ok ⟨.text none [] none, stack⟩
  else if c = '['.toNat then .ok ⟨.first, stack⟩
  else if c = '{'.toNat then .ok ⟨.key [] true, stack⟩
  else if isBare c then .ok ⟨.bare [c], stack⟩
  else .error d.malformed

def endObject (fields : Fields) (stack : List Frame) : Except ε Config := do
  let fields ← d.object fields
  .ok (complete (.obj fields) stack)

def endText (role : Option Fields) (t : Text) (stack : List Frame) : Except ε Config :=
  match role with
  | none        => .ok (complete (.str t) stack)
  | some fields => do
    d.key fields t
    .ok ⟨.colon fields t, stack⟩

-- A value has been read.
def after (σ : Config) (c : Nat) : Except ε Config :=
  match σ.mode with
  | .item items   =>
    if c = ','.toNat then .ok ⟨.value, .arr items :: σ.stack⟩
    else if c = ']'.toNat then .ok (complete (.arr items.reverse) σ.stack)
    else .error d.malformed
  | .field fields =>
    if c = ','.toNat then .ok ⟨.key fields false, σ.stack⟩
    else if c = '}'.toNat then endObject d fields σ.stack
    else .error d.malformed
  | .done v       =>
    if d.trailing && (c = ']'.toNat || c = '}'.toNat) then .ok ⟨.rest v, σ.stack⟩
    else .error d.malformed
  | _             => .error d.malformed

def addUnit (role : Option Fields) (acc : Text) (pending : Option Nat) (unit : Nat) : Mode :=
  match pending with
  | none      =>
    if Unicode.isHigh unit then .text role acc (some unit) else .text role (unit :: acc) none
  | some high =>
    if Unicode.isLow unit then .text role (Unicode.joined high unit :: acc) none
    else if Unicode.isHigh unit then .text role (high :: acc) (some unit)
    else .text role (unit :: high :: acc) none

def step (σ : Config) (c : Nat) : Except ε Config :=
  match σ.mode with
  | .value                          => if isSpace c then .ok σ else start d c σ.stack
  | .first                          =>
    if isSpace c then .ok σ
    else if c = ']'.toNat then .ok (complete (.arr []) σ.stack)
    else start d c (.arr [] :: σ.stack)
  | .key fields close               =>
    if isSpace c then .ok σ
    else if c = '"'.toNat then .ok ⟨.text (some fields) [] none, σ.stack⟩
    else if close && c = '}'.toNat then endObject d fields σ.stack
    else .error d.malformed
  | .colon fields key               =>
    if isSpace c then .ok σ
    else if c = ':'.toNat then .ok ⟨.value, .obj fields key :: σ.stack⟩
    else .error d.malformed
  | .item _ | .field _ | .done _    => if isSpace c then .ok σ else after d σ c
  | .bare token                     =>
    if isBare c then .ok ⟨.bare (c :: token), σ.stack⟩
    else do
      let v ← literal d token.reverse
      let σ' := complete v σ.stack
      if isSpace c then .ok σ' else after d σ' c
  | .text role acc pending          =>
    if c = '"'.toNat then endText d role (d.text (flush acc pending).reverse) σ.stack
    else if c = '\\'.toNat then .ok ⟨.escape role acc pending, σ.stack⟩
    else if c < 0x20 then .error d.malformed
    else .ok ⟨.text role (c :: flush acc pending) none, σ.stack⟩
  | .escape role acc pending        =>
    if c = 'u'.toNat then .ok ⟨.hex role acc pending 4 0, σ.stack⟩
    else match escape? c with
      | none   => .error d.malformed
      | some p => .ok ⟨.text role (p :: flush acc pending) none, σ.stack⟩
  | .hex role acc pending left unit => match hexDigit? c with
    | none       => .error d.malformed
    | some digit =>
      let unit := unit * 16 + digit
      if 1 < left then .ok ⟨.hex role acc pending (left - 1) unit, σ.stack⟩
      else .ok ⟨addUnit role acc pending unit, σ.stack⟩
  | .rest _                         => if d.trailing then .ok σ else .error d.malformed

def finish (σ : Config) : Except ε Value :=
  match σ.mode, σ.stack with
  | .bare token, stack        => do
    let v ← literal d token.reverse
    if stack.isEmpty then .ok v else .error d.malformed
  | .done v, [] | .rest v, [] => .ok v
  | _, _                      => .error d.malformed

def run (σ : Config) : Text → Except ε Value
  | []     => finish d σ
  | c :: t => do
    let σ ← step d σ c
    run σ t

def read : Text → Except ε Value :=
  run d ⟨.value, []⟩

-- Every value satisfies `P` and every key `L`, with the fields before it.
def Fields.All (P : Value → Prop) (L : Fields → Text → Prop) : Fields → Prop
  | []               => True
  | (key, v) :: rest => L rest key ∧ P v ∧ All P L rest

def Frame.All (P : Value → Prop) (L : Fields → Text → Prop) : Frame → Prop
  | .arr items      => ∀ v ∈ items, P v
  | .obj fields key => L fields key ∧ Fields.All P L fields

def Mode.All (P : Value → Prop) (L : Fields → Text → Prop) : Mode → Prop
  | .value | .first | .bare _                            => True
  | .key fields _ | .field fields                        => Fields.All P L fields
  | .colon fields name                                   => L fields name ∧ Fields.All P L fields
  | .item items                                          => ∀ v ∈ items, P v
  | .text role _ _ | .escape role _ _ | .hex role _ _ _ _ => ∀ f ∈ role, Fields.All P L f
  | .done v | .rest v                                    => P v

structure Config.All (P : Value → Prop) (L : Fields → Text → Prop) (σ : Config) : Prop where
  mode  : σ.mode.All P L
  stack : ∀ f ∈ σ.stack, f.All P L

variable {d} {P : Value → Prop} {L : Fields → Text → Prop}

theorem complete_all {v : Value} {stack : List Frame} :
    (complete v stack).All P L ↔ P v ∧ ∀ f ∈ stack, f.All P L := by
  cases stack
  case nil => exact ⟨fun h => ⟨h.mode, h.stack⟩, fun h => ⟨h.left, h.right⟩⟩
  case cons frame stack =>
    cases frame
    case arr items =>
      constructor
      · intro ⟨hm, hs⟩
        have ⟨hv, hi⟩ := List.forall_mem_cons.mp hm
        exact ⟨hv, List.forall_mem_cons.mpr ⟨hi, hs⟩⟩
      · intro ⟨hv, hs⟩
        have ⟨hi, hs⟩ := List.forall_mem_cons.mp hs
        exact ⟨List.forall_mem_cons.mpr ⟨hv, hi⟩, hs⟩
    case obj fields key =>
      constructor
      · intro ⟨⟨hk, hv, hf⟩, hs⟩
        exact ⟨hv, List.forall_mem_cons.mpr ⟨⟨hk, hf⟩, hs⟩⟩
      · intro ⟨hv, hs⟩
        have ⟨⟨hk, hf⟩, hs⟩ := List.forall_mem_cons.mp hs
        exact ⟨⟨hk, hv, hf⟩, hs⟩

theorem addUnit_all {role : Option Fields} {acc : Text} {pending : Option Nat} {unit : Nat} :
    (addUnit role acc pending unit).All P L ↔ ∀ f ∈ role, Fields.All P L f := by
  unfold addUnit
  repeat' split
  all_goals rfl

-- What a reader makes has the properties.
structure Keeps (d : Dialect ε) (P : Value → Prop) (L : Fields → Text → Prop) : Prop where
  null   : P .null
  bool   : ∀ {b}, P (.bool b)
  number : ∀ {n v}, d.number n = .ok v → P v
  str    : ∀ {t}, P (.str (d.text t))
  arr    : ∀ {items}, (∀ v ∈ items, P v) → P (.arr items)
  key    : ∀ {f t}, d.key f (d.text t) = .ok () → L f (d.text t)
  obj    : ∀ {f r}, Fields.All P L f → d.object f = .ok r → P (.obj r)

-- A reader `e` that reads what has the properties in the same way.
structure Follows (d e : Dialect ε) (P : Value → Prop) (L : Fields → Text → Prop) : Prop where
  number   : ∀ {n v}, n.rest = [] → d.number n = .ok v → P v → e.number n = .ok v
  str      : ∀ {t}, P (.str (d.text t)) → e.text t = d.text t
  key      : ∀ {f t}, L f (d.text t) → e.text t = d.text t ∧ e.key f (d.text t) = .ok ()
  arr      : ∀ {items}, P (.arr items) → ∀ v ∈ items, P v
  obj      : ∀ {f r}, d.object f = .ok r → P (.obj r) → Fields.All P L f ∧ e.object f = .ok r
  trailing : d.trailing → e.trailing

theorem bind_eq_ok {α β : Type} {x : Except ε α} {f : α → Except ε β} {b : β} :
    x >>= f = .ok b ↔ ∃ a, x = .ok a ∧ f a = .ok b := by
  cases x
  case error => exact ⟨nofun, nofun⟩
  case ok a => exact ⟨fun h => ⟨a, rfl, h⟩, fun ⟨_, h, hf⟩ => Except.ok.inj h ▸ hf⟩

-- What a token can be.
theorem literal_cases {token : Text} {v : Value} (h : literal d token = .ok v) :
    (token = "null".points ∧ v = .null) ∨ (token = "true".points ∧ v = .bool true) ∨
      (token = "false".points ∧ v = .bool false) ∨
      ∃ n, Number.read? token = some n ∧ n.rest = [] ∧ d.number n = .ok v := by
  unfold literal at h
  split at h
  case isTrue ht => exact .inl ⟨ht, (Except.ok.inj h).symm⟩
  split at h
  case isTrue ht => exact .inr <| .inl ⟨ht, (Except.ok.inj h).symm⟩
  split at h
  case isTrue ht => exact .inr <| .inr <| .inl ⟨ht, (Except.ok.inj h).symm⟩
  split at h
  case isTrue => cases h
  split at h
  case h_1 => cases h
  case h_2 n hn =>
    have ⟨w, hw, h⟩ := bind_eq_ok.mp h
    split at h
    case isTrue hr => exact .inr <| .inr <| .inr ⟨n, hn, hr, Except.ok.inj h ▸ hw⟩
    case isFalse   => cases h

theorem literal_keeps (hd : Keeps d P L) {token : Text} {v : Value}
    (h : literal d token = .ok v) : P v := by
  obtain ⟨-, rfl⟩ | ⟨-, rfl⟩ | ⟨-, rfl⟩ | ⟨n, -, -, hn⟩ := literal_cases h
  · exact hd.null
  · exact hd.bool
  · exact hd.bool
  · exact hd.number hn

theorem literal_follows {e : Dialect ε} (hf : Follows d e P L) {token : Text} {v : Value}
    (h : literal d token = .ok v) (hv : P v) : literal e token = .ok v := by
  unfold literal at h ⊢
  split at h
  case isTrue ht => rwa [if_pos ht]
  case' isFalse ht => rw [if_neg ht]
  split at h
  case isTrue ht => rwa [if_pos ht]
  case' isFalse ht => rw [if_neg ht]
  split at h
  case isTrue ht => rwa [if_pos ht]
  case' isFalse ht => rw [if_neg ht]
  split at h
  case isTrue ht => cases h
  case' isFalse ht => rw [if_neg ht]
  split at h
  case h_1 => cases h
  case h_2 n hn =>
    have ⟨w, hw, h⟩ := bind_eq_ok.mp h
    split at h
    all_goals cases h
    case isTrue hr =>
      rw [hf.number hr hw hv]
      exact if_pos hr

theorem endObject_keeps (hd : Keeps d P L) {f : Fields} {stack : List Frame} {σ : Config}
    (h : endObject d f stack = .ok σ) (hf : Fields.All P L f) (hs : ∀ f ∈ stack, f.All P L) :
    σ.All P L := by
  have ⟨r, hr, h⟩ := bind_eq_ok.mp h
  cases h
  exact complete_all.mpr ⟨hd.obj hf hr, hs⟩

theorem endText_keeps (hd : Keeps d P L) {role : Option Fields} {t : Text} {stack : List Frame}
    {σ : Config} (h : endText d role (d.text t) stack = .ok σ)
    (hr : ∀ f ∈ role, Fields.All P L f) (hs : ∀ f ∈ stack, f.All P L) : σ.All P L := by
  cases role
  case none =>
    cases h
    exact complete_all.mpr ⟨hd.str, hs⟩
  case some f =>
    have ⟨_, hk, h⟩ := bind_eq_ok.mp h
    cases h
    exact ⟨⟨hd.key hk, hr f rfl⟩, hs⟩

theorem start_keeps {c : Nat} {stack : List Frame} {σ : Config} (h : start d c stack = .ok σ)
    (hs : ∀ f ∈ stack, f.All P L) : σ.All P L := by
  unfold start at h
  repeat' split at h
  all_goals cases h
  case _ => exact ⟨nofun, hs⟩
  all_goals exact ⟨trivial, hs⟩

theorem after_keeps (hd : Keeps d P L) {σ σ' : Config} {c : Nat} (h : after d σ c = .ok σ')
    (hσ : σ.All P L) : σ'.All P L := by
  have ⟨hm, hs⟩ := hσ
  unfold after at h
  split at h
  case h_1 items he =>
    rw [he] at hm
    repeat' split at h
    all_goals cases h
    case _ => exact ⟨trivial, List.forall_mem_cons.mpr ⟨hm, hs⟩⟩
    case _ => exact complete_all.mpr ⟨hd.arr fun v hv => hm v (List.mem_reverse.mp hv), hs⟩
  case h_2 fields he =>
    rw [he] at hm
    repeat' split at h
    case _ => cases h; exact ⟨hm, hs⟩
    case _ => exact endObject_keeps hd h hm hs
    case _ => cases h
  case h_3 v he =>
    rw [he] at hm
    split at h
    all_goals cases h
    exact ⟨hm, hs⟩
  case h_4 => cases h

theorem step_keeps (hd : Keeps d P L) {σ σ' : Config} {c : Nat} (h : step d σ c = .ok σ')
    (hσ : σ.All P L) : σ'.All P L := by
  have ⟨hm, hs⟩ := hσ
  obtain ⟨mode, stack⟩ := σ
  cases mode
  case value =>
    simp only [step] at h
    split at h
    case isTrue  => cases h; exact hσ
    case isFalse => exact start_keeps h hs
  case first =>
    simp only [step] at h
    repeat' split at h
    case _ => cases h; exact hσ
    case _ => cases h; exact complete_all.mpr ⟨hd.arr nofun, hs⟩
    case _ => exact start_keeps h (List.forall_mem_cons.mpr ⟨nofun, hs⟩)
  case key fields close =>
    simp only [step] at h
    repeat' split at h
    case _ => cases h; exact hσ
    case _ => cases h; exact ⟨fun f hf => Option.some.inj hf ▸ hm, hs⟩
    case _ => exact endObject_keeps hd h hm hs
    case _ => cases h
  case colon fields name =>
    simp only [step] at h
    repeat' split at h
    case _ => cases h; exact hσ
    case _ => cases h; exact ⟨trivial, List.forall_mem_cons.mpr ⟨hm, hs⟩⟩
    case _ => cases h
  case item | field | done =>
    simp only [step] at h
    split at h
    case isTrue  => cases h; exact hσ
    case isFalse => exact after_keeps hd h hσ
  case bare token =>
    simp only [step] at h
    split at h
    case isTrue  => cases h; exact ⟨trivial, hs⟩
    case isFalse =>
      have ⟨v, hv, h⟩ := bind_eq_ok.mp h
      have hc : (complete v stack).All P L := complete_all.mpr ⟨literal_keeps hd hv, hs⟩
      split at h
      case isTrue  => cases h; exact hc
      case isFalse => exact after_keeps hd h hc
  case text role acc pending =>
    simp only [step] at h
    repeat' split at h
    case _ => exact endText_keeps hd h hm hs
    case _ => cases h; exact ⟨hm, hs⟩
    case _ => cases h
    case _ => cases h; exact ⟨hm, hs⟩
  case escape role acc pending =>
    simp only [step] at h
    repeat' split at h
    all_goals cases h
    all_goals exact ⟨hm, hs⟩
  case hex role acc pending left unit =>
    simp only [step] at h
    repeat' split at h
    all_goals cases h
    case _ => exact ⟨hm, hs⟩
    case _ => exact ⟨addUnit_all.mpr hm, hs⟩
  case rest v =>
    simp only [step] at h
    split at h
    all_goals cases h
    exact hσ

theorem finish_keeps (hd : Keeps d P L) {σ : Config} {v : Value} (h : finish d σ = .ok v)
    (hσ : σ.All P L) : P v := by
  obtain ⟨mode, stack⟩ := σ
  cases mode
  case bare token =>
    have ⟨w, hw, h⟩ := bind_eq_ok.mp h
    split at h
    all_goals cases h
    exact literal_keeps hd hw
  case done | rest =>
    cases stack
    all_goals cases h
    exact hσ.mode
  all_goals cases h

theorem run_keeps (hd : Keeps d P L) {σ : Config} {t : Text} {v : Value}
    (h : run d σ t = .ok v) (hσ : σ.All P L) : P v := by
  induction t generalizing σ
  case nil => exact finish_keeps hd h hσ
  case cons c t ih =>
    have ⟨_, hs, h⟩ := bind_eq_ok.mp h
    exact ih h (step_keeps hd hs hσ)

theorem read_keeps (hd : Keeps d P L) {t : Text} {v : Value} (h : read d t = .ok v) : P v :=
  run_keeps hd h ⟨trivial, nofun⟩

section

variable {e : Dialect ε}

theorem endObject_follows (hf : Follows d e P L) {f : Fields} {stack : List Frame} {σ : Config}
    (h : endObject d f stack = .ok σ) (hσ : σ.All P L) :
    (Fields.All P L f ∧ ∀ f ∈ stack, f.All P L) ∧ endObject e f stack = .ok σ := by
  have ⟨r, hr, h⟩ := bind_eq_ok.mp h
  cases h
  have ⟨hv, hs⟩ := complete_all.mp hσ
  have ⟨hall, hr⟩ := hf.obj hr hv
  exact ⟨⟨hall, hs⟩, bind_eq_ok.mpr ⟨r, hr, rfl⟩⟩

theorem endText_follows (hf : Follows d e P L) {role : Option Fields} {t : Text}
    {stack : List Frame} {σ : Config} (h : endText d role (d.text t) stack = .ok σ)
    (hσ : σ.All P L) : ((∀ f ∈ role, Fields.All P L f) ∧ ∀ f ∈ stack, f.All P L) ∧
      endText e role (e.text t) stack = .ok σ := by
  cases role
  case none =>
    cases h
    have ⟨hv, hs⟩ := complete_all.mp hσ
    rw [hf.str hv]
    exact ⟨⟨nofun, hs⟩, rfl⟩
  case some f =>
    have ⟨_, _, h⟩ := bind_eq_ok.mp h
    cases h
    have ⟨⟨hl, hall⟩, hs⟩ := hσ
    have ⟨ht, hk⟩ := hf.key hl
    rw [ht]
    exact ⟨⟨fun _ h => Option.some.inj h ▸ hall, hs⟩, bind_eq_ok.mpr ⟨(), hk, rfl⟩⟩

theorem start_follows {c : Nat} {stack : List Frame} {σ : Config} (h : start d c stack = .ok σ) :
    σ.stack = stack ∧ start e c stack = .ok σ := by
  unfold start at h ⊢
  split at h
  case isTrue hc => rw [if_pos hc]; exact ⟨Except.ok.inj h ▸ rfl, h⟩
  case' isFalse hc => rw [if_neg hc]
  split at h
  case isTrue hc => rw [if_pos hc]; exact ⟨Except.ok.inj h ▸ rfl, h⟩
  case' isFalse hc => rw [if_neg hc]
  split at h
  case isTrue hc => rw [if_pos hc]; exact ⟨Except.ok.inj h ▸ rfl, h⟩
  case' isFalse hc => rw [if_neg hc]
  split at h
  case isTrue hc => rw [if_pos hc]; exact ⟨Except.ok.inj h ▸ rfl, h⟩
  case isFalse => cases h

theorem after_follows (hf : Follows d e P L) {σ σ' : Config} {c : Nat}
    (h : after d σ c = .ok σ') (hσ : σ'.All P L) : σ.All P L ∧ after e σ c = .ok σ' := by
  obtain ⟨mode, stack⟩ := σ
  cases mode
  case item items =>
    simp only [after] at h ⊢
    split at h
    case isTrue hc =>
      cases h
      rw [if_pos hc]
      have ⟨hi, hs⟩ := List.forall_mem_cons.mp hσ.stack
      exact ⟨⟨hi, hs⟩, rfl⟩
    case' isFalse hc => rw [if_neg hc]
    split at h
    case isTrue hc =>
      cases h
      rw [if_pos hc]
      have ⟨hv, hs⟩ := complete_all.mp hσ
      exact ⟨⟨fun v hm => hf.arr hv v (List.mem_reverse.mpr hm), hs⟩, rfl⟩
    case isFalse => cases h
  case field fields =>
    simp only [after] at h ⊢
    split at h
    case isTrue hc =>
      cases h
      rw [if_pos hc]
      exact ⟨⟨hσ.mode, hσ.stack⟩, rfl⟩
    case' isFalse hc => rw [if_neg hc]
    split at h
    case isTrue hc =>
      rw [if_pos hc]
      have ⟨⟨hall, hs⟩, h⟩ := endObject_follows hf h hσ
      exact ⟨⟨hall, hs⟩, h⟩
    case isFalse => cases h
  case done v =>
    simp only [after] at h ⊢
    split at h
    case isTrue hc =>
      cases h
      have ⟨ht, hc⟩ := (Bool.and_eq_true ..).mp hc
      rw [if_pos ((Bool.and_eq_true ..).mpr ⟨hf.trailing ht, hc⟩)]
      exact ⟨⟨hσ.mode, hσ.stack⟩, rfl⟩
    case isFalse => cases h
  all_goals cases h

theorem step_follows (hf : Follows d e P L) {σ σ' : Config} {c : Nat}
    (h : step d σ c = .ok σ') (hσ : σ'.All P L) : σ.All P L ∧ step e σ c = .ok σ' := by
  obtain ⟨mode, stack⟩ := σ
  cases mode
  case value =>
    simp only [step] at h ⊢
    split at h
    case isTrue  hc => cases h; exact ⟨hσ, if_pos hc⟩
    case isFalse hc =>
      rw [if_neg hc]
      have ⟨hs, h⟩ := start_follows (e := e) h
      exact ⟨⟨trivial, hs ▸ hσ.stack⟩, h⟩
  case first =>
    simp only [step] at h ⊢
    split at h
    case isTrue hc => cases h; exact ⟨hσ, if_pos hc⟩
    case' isFalse hc => rw [if_neg hc]
    split at h
    case isTrue hc => cases h; exact ⟨⟨trivial, (complete_all.mp hσ).right⟩, if_pos hc⟩
    case isFalse hc =>
      rw [if_neg hc]
      have ⟨hs, h⟩ := start_follows (e := e) h
      have ⟨_, hs⟩ := List.forall_mem_cons.mp (hs ▸ hσ.stack)
      exact ⟨⟨trivial, hs⟩, h⟩
  case key fields close =>
    simp only [step] at h ⊢
    split at h
    case isTrue hc => cases h; exact ⟨hσ, if_pos hc⟩
    case' isFalse hc => rw [if_neg hc]
    split at h
    case isTrue hc => cases h; exact ⟨⟨hσ.mode fields rfl, hσ.stack⟩, if_pos hc⟩
    case' isFalse hc => rw [if_neg hc]
    split at h
    case isTrue hc =>
      rw [if_pos hc]
      have ⟨⟨hall, hs⟩, h⟩ := endObject_follows hf h hσ
      exact ⟨⟨hall, hs⟩, h⟩
    case isFalse => cases h
  case colon fields name =>
    simp only [step] at h ⊢
    split at h
    case isTrue hc => cases h; exact ⟨hσ, if_pos hc⟩
    case' isFalse hc => rw [if_neg hc]
    split at h
    case isTrue hc =>
      cases h
      have ⟨hk, hs⟩ := List.forall_mem_cons.mp hσ.stack
      exact ⟨⟨hk, hs⟩, if_pos hc⟩
    case isFalse => cases h
  case item | field | done =>
    simp only [step] at h ⊢
    split at h
    case isTrue hc => cases h; exact ⟨hσ, if_pos hc⟩
    case isFalse hc =>
      rw [if_neg hc]
      exact after_follows hf h hσ
  case bare token =>
    simp only [step] at h ⊢
    split at h
    case isTrue hc => cases h; exact ⟨⟨trivial, hσ.stack⟩, if_pos hc⟩
    case isFalse hc =>
      rw [if_neg hc]
      have ⟨v, hv, h⟩ := bind_eq_ok.mp h
      have ⟨hc, h⟩ : (complete v stack).All P L ∧
          (if isSpace c then .ok (complete v stack) else after e (complete v stack) c) = .ok σ' := by
        split at h
        case isTrue hc  => cases h; exact ⟨hσ, if_pos hc⟩
        case isFalse hc =>
          rw [if_neg hc]
          exact after_follows hf h hσ
      have ⟨hp, hs⟩ := complete_all.mp hc
      exact ⟨⟨trivial, hs⟩, bind_eq_ok.mpr ⟨v, literal_follows hf hv hp, h⟩⟩
  case text role acc pending =>
    simp only [step] at h ⊢
    split at h
    case isTrue hc =>
      rw [if_pos hc]
      have ⟨⟨hr, hs⟩, h⟩ := endText_follows hf h hσ
      exact ⟨⟨hr, hs⟩, h⟩
    case' isFalse hc => rw [if_neg hc]
    split at h
    case isTrue hc => cases h; exact ⟨⟨hσ.mode, hσ.stack⟩, if_pos hc⟩
    case' isFalse hc => rw [if_neg hc]
    split at h
    case isTrue => cases h
    case isFalse hc => cases h; exact ⟨⟨hσ.mode, hσ.stack⟩, if_neg hc⟩
  case escape role acc pending =>
    simp only [step] at h ⊢
    split at h
    case isTrue hc => cases h; exact ⟨⟨hσ.mode, hσ.stack⟩, if_pos hc⟩
    case' isFalse hc => rw [if_neg hc]
    split at h
    case h_1 => cases h
    case h_2 => cases h; exact ⟨⟨hσ.mode, hσ.stack⟩, rfl⟩
  case hex role acc pending left unit =>
    simp only [step] at h ⊢
    split at h
    case h_1 => cases h
    split at h
    case isTrue hc => cases h; exact ⟨⟨hσ.mode, hσ.stack⟩, if_pos hc⟩
    case isFalse hc => cases h; exact ⟨⟨addUnit_all.mp hσ.mode, hσ.stack⟩, if_neg hc⟩
  case rest v =>
    simp only [step] at h ⊢
    split at h
    all_goals cases h
    case isTrue ht => exact ⟨hσ, if_pos (hf.trailing ht)⟩

theorem finish_follows (hf : Follows d e P L) {σ : Config} {v : Value} (h : finish d σ = .ok v)
    (hv : P v) : σ.All P L ∧ finish e σ = .ok v := by
  obtain ⟨mode, stack⟩ := σ
  cases mode
  case bare token =>
    have ⟨w, hw, h⟩ := bind_eq_ok.mp h
    split at h
    all_goals cases h
    case isTrue hs =>
      have hs' : stack = [] := List.isEmpty_iff.mp hs
      exact ⟨⟨trivial, hs' ▸ nofun⟩, bind_eq_ok.mpr ⟨v, literal_follows hf hw hv, if_pos hs⟩⟩
  case done | rest =>
    cases stack
    all_goals cases h
    exact ⟨⟨hv, nofun⟩, rfl⟩
  all_goals cases h

theorem run_follows (hf : Follows d e P L) {σ : Config} {t : Text} {v : Value}
    (h : run d σ t = .ok v) (hv : P v) : σ.All P L ∧ run e σ t = .ok v := by
  induction t generalizing σ
  case nil => exact finish_follows hf h hv
  case cons c t ih =>
    have ⟨_, hs, h⟩ := bind_eq_ok.mp h
    have ⟨hσ, h⟩ := ih h
    have ⟨hσ, hs⟩ := step_follows hf hs hσ
    exact ⟨hσ, bind_eq_ok.mpr ⟨_, hs, h⟩⟩

-- What is read as a value with the properties is read by the other reader as well.
theorem read_follows (hf : Follows d e P L) {t : Text} {v : Value} (h : read d t = .ok v)
    (hv : P v) : read e t = .ok v :=
  (run_follows hf h hv).right

end

end Scanner
