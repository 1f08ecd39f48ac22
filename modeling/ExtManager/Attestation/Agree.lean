import ExtManager.Attestation.Go
import ExtManager.Attestation.RoundTrip
import Mathlib.Data.List.TakeWhile

open Scanner (bind_eq_ok)

-- What both readers read in the same way: integers that are safe, and texts without surrogates.
inductive Value.Clean : Value → Prop
  | null : Clean null
  | bool {b} : Clean (bool b)
  | int {n} : -Profile.maxSafeInteger ≤ n → n ≤ Profile.maxSafeInteger → Clean (int n)
  | str {t} : Unicode.scalar t → Clean (str t)
  | arr {items} : (∀ v ∈ items, Clean v) → Clean (arr items)
  | obj {fields : Fields} : (∀ f ∈ fields, Unicode.scalar f.1) → (∀ f ∈ fields, Clean f.2) →
      Clean (obj fields)

namespace GoVerifier

open Profile

section

variable {v : Value} {items : List Value} {fields f : Fields} {t : Text} {b : Bytes}

theorem scalar_iff : Unicode.scalar t ↔ ∀ p ∈ t, Unicode.isSurrogate p = false := by
  simp [Unicode.scalar]

theorem validateItems_ok : validateItems items = .ok () ↔ ∀ v ∈ items, validateValues v = .ok () := by
  induction items
  case nil => exact ⟨fun _ => nofun, fun _ => rfl⟩
  case cons v items ih =>
    rw [validateItems, bind_eq_ok, List.forall_mem_cons, ← ih]
    exact ⟨fun ⟨_, h, h'⟩ => ⟨h, h'⟩, fun ⟨h, h'⟩ => ⟨(), h, h'⟩⟩

theorem validateFields_ok :
    validateFields fields = .ok () ↔ ∀ f ∈ fields, validateValues f.2 = .ok () := by
  induction fields
  case nil => exact ⟨fun _ => nofun, fun _ => rfl⟩
  case cons f fields ih =>
    rw [validateFields, bind_eq_ok, List.forall_mem_cons, ← ih]
    exact ⟨fun ⟨_, h, h'⟩ => ⟨h, h'⟩, fun ⟨h, h'⟩ => ⟨(), h, h'⟩⟩

theorem validate_of_clean (h : v.Clean) : validateValues v = .ok () := by
  induction h
  case null | bool => rfl
  case int h h'    => exact require_ok.mpr ⟨h, h'⟩
  case str h       => exact require_ok.mpr h
  case arr ih      => exact validateItems_ok.mpr ih
  case obj ih      => exact validateFields_ok.mpr ih

-- Reading in Go.
theorem replace_scalar (h : Unicode.scalar t) : reader.text t = t := by
  refine (List.map_congr_left fun p hp => ?_).trans (List.map_id t)
  simp [scalar_iff.mp h p hp]

theorem scalar_replace : Unicode.scalar (reader.text t) := by
  refine scalar_iff.mpr fun p hp => ?_
  have ⟨q, _, he⟩ := List.mem_map.mp hp
  split at he
  case isTrue  => exact he ▸ rfl
  case isFalse => exact he ▸ eq_false_of_ne_true ‹_›

-- A text without surrogates that is not a key of the fields before it.
def NewKey (f : Fields) (key : Text) : Prop :=
  Unicode.scalar key ∧ key ∉ f.keys

theorem all_iff {P : Value → Prop} : Scanner.Fields.All P NewKey f ↔
    f.keys.Nodup ∧ ∀ g ∈ f, Unicode.scalar g.1 ∧ P g.2 := by
  induction f
  case nil => simp [Scanner.Fields.All, Fields.keys]
  case cons g f ih =>
    have hk : Fields.keys (g :: f) = g.1 :: Fields.keys f := rfl
    rw [Scanner.Fields.All, ih, hk, List.nodup_cons, List.forall_mem_cons]
    constructor
    · rintro ⟨⟨hs, hn⟩, hp, hd, hall⟩
      exact ⟨⟨hn, hd⟩, ⟨hs, hp⟩, hall⟩
    · rintro ⟨⟨hn, hd⟩, ⟨hs, hp⟩, hall⟩
      exact ⟨⟨hs, hn⟩, hp, hd, hall⟩

-- What Python reads and is clean, Go reads as well.
theorem reader_follows : Scanner.Follows Profile.reader reader Value.Clean NewKey where
  number := by
    intro n v hr h hv
    simp only [Profile.reader] at h
    split at h
    case isTrue hi =>
      split at h
      all_goals cases h
      cases hv with | int hle hle' =>
      have hd : ¬dangling n := by simp [dangling, hr]
      exact require_bind.mpr ⟨hd, require_bind.mpr ⟨hi, require_bind.mpr ⟨⟨hle, hle'⟩, rfl⟩⟩⟩
    case isFalse =>
      cases h
      cases hv
  str h := by
    cases h with | str h =>
    exact replace_scalar h
  key h := ⟨replace_scalar h.left, require_ok.mpr h.right⟩
  arr h := by
    cases h with | arr h =>
    exact h
  obj := by
    intro f r hr hv
    obtain ⟨_, hn, hm, he⟩ := pairs_ok hr
    cases hv with | obj hkeys hall =>
    have hmem {g} (hg : g ∈ f) : g ∈ r := (hm g).mpr (List.mem_reverse.mpr hg)
    refine ⟨all_iff.mpr ⟨?_, fun g hg => ⟨hkeys g (hmem hg), hall g (hmem hg)⟩⟩, ?_⟩
    · rw [List.map_reverse] at hn
      exact List.nodup_reverse.mp hn
    · exact congrArg Except.ok he.symm
  trailing := nofun

theorem pairs_of_nodup {acc : Fields} (hn : (fields.map (·.1)).Nodup)
    (hd : ∀ g ∈ fields, g.1 ∉ acc.keys) : fields.foldlM addPair acc =
      .ok (fields.foldl (fun obj g => Fields.insert obj g.1 g.2) acc) := by
  induction fields generalizing acc
  case nil => rfl
  case cons g fields ih =>
    have ⟨hg, hd⟩ := List.forall_mem_cons.mp hd
    have ⟨hng, hn⟩ := List.nodup_cons.mp hn
    have ha : addPair acc g = .ok (acc.insert g.1 g.2) := require_bind.mpr ⟨hg, rfl⟩
    rw [List.foldlM_cons, ha]
    refine ih hn fun g' hm hk => ?_
    rcases List.mem_cons.mp (Fields.keys_insert.mem_iff.mp hk) with he | hk
    · exact hng (List.mem_map.mpr ⟨g', hm, he⟩)
    · exact hd g' hm hk

-- What Go reads is clean and in order.
theorem reader_keeps : Scanner.Keeps reader (fun v => v.Clean ∧ v.Ordered) NewKey where
  null  := ⟨.null, .null⟩
  bool  := ⟨.bool, .bool⟩
  str   := ⟨.str scalar_replace, .str⟩
  arr h := ⟨.arr fun v hv => (h v hv).left, .arr fun v hv => (h v hv).right⟩
  key h := ⟨scalar_replace, require_ok.mp h⟩
  number := by
    intro n v h
    have ⟨_, h⟩ := require_bind.mp h
    have ⟨_, h⟩ := require_bind.mp h
    have ⟨⟨hle, hle'⟩, h⟩ := require_bind.mp h
    cases h
    exact ⟨.int hle hle', .int⟩
  obj := by
    intro f r hf hr
    have ⟨hn, hall⟩ := all_iff.mp hf
    have hn' : (f.reverse.map (·.1)).Nodup := by
      rw [List.map_reverse]
      exact List.nodup_reverse.mpr hn
    have hp : pairs f.reverse = .ok r := (pairs_of_nodup hn' fun _ _ => List.not_mem_nil).trans hr
    have ⟨hs, _, hm, _⟩ := pairs_ok hp
    have hmem {g} (hg : g ∈ r) : Unicode.scalar g.1 ∧ g.2.Clean ∧ g.2.Ordered :=
      hall g (List.mem_reverse.mp ((hm g).mp hg))
    exact ⟨.obj (fun g hg => (hmem hg).left) fun g hg => (hmem hg).right.left,
      .obj hs fun g hg => (hmem hg).right.right⟩

end

-- Base64 in Go.
section

variable {t : Text} {b : Bytes}

theorem digit_range {n : Nat} (h : n < 64) : let p := Base64.digit n
    (('A'.toNat ≤ p ∧ p ≤ 'Z'.toNat) ∨ ('a'.toNat ≤ p ∧ p ≤ 'z'.toNat) ∨
      ('0'.toNat ≤ p ∧ p ≤ '9'.toNat) ∨ p = '_'.toNat ∨ p = '-'.toNat) ∧ p ≠ 0x0A ∧ p ≠ 0x0D := by
  have hall : ∀ n : Fin 64, let p := Base64.digit n.val
      (('A'.toNat ≤ p ∧ p ≤ 'Z'.toNat) ∨ ('a'.toNat ≤ p ∧ p ≤ 'z'.toNat) ∨
        ('0'.toNat ≤ p ∧ p ≤ '9'.toNat) ∨ p = '_'.toNat ∨ p = '-'.toNat) ∧
        p ≠ 0x0A ∧ p ≠ 0x0D := by decide
  exact hall ⟨n, h⟩

theorem byteLength_ascii (h : ∀ p ∈ t, p < 0x80) : Unicode.byteLength t = t.length := by
  induction t
  case nil => rfl
  case cons p t ih =>
    have ⟨hp, ht⟩ := List.forall_mem_cons.mp h
    have hw : Unicode.width p = 1 := if_pos hp
    rw [Unicode.byteLength, List.map_cons, List.sum_cons, hw, ← Unicode.byteLength, ih ht,
      List.length_cons, Nat.add_comm]

theorem decodeString_b64url : decodeString (b64url b) = some b := by
  have hf : (b64url b).filter (fun p => p ≠ 0x0A ∧ p ≠ 0x0D) = b64url b := by
    refine List.filter_eq_self.mpr fun p hp => ?_
    have ⟨n, hn, he⟩ := mem_b64url hp
    exact decide_eq_true (he ▸ (digit_range hn).right)
  rw [decodeString, hf]
  exact Base64.decode_encode

theorem decodeB64_iff : decodeB64 t = .ok b ↔ t = b64url b := by
  simp only [decodeB64, require_bind, orFail_bind, Except.ok.injEq]
  constructor
  · rintro ⟨_, _, _, _, he, rfl⟩
    exact he.symm
  · rintro rfl
    have hascii : ∀ p ∈ b64url b, p < 0x80 := by
      intro p hp
      obtain ⟨n, hn, he⟩ := mem_b64url hp
      exact he ▸ (digit_lt hn).left
    refine ⟨⟨fun h => ?_, byteLength_ascii hascii ▸ length_b64url⟩, fun p hp => ?_, b,
      decodeString_b64url, rfl, rfl⟩
    · obtain ⟨n, hn, he⟩ := mem_b64url h
      exact (digit_lt hn).right.left he.symm
    · obtain ⟨n, hn, he⟩ := mem_b64url hp
      exact he ▸ (digit_range hn).left

-- Every text is read as the bytes that it is written for, or refused, and every byte string has one
-- text that is read. Both readers take the same texts.
theorem segment_spelling :
    (∀ t : Text,
      (∃ b, t = b64url b ∧ ∀ b', b64urlDecode t = .ok b' ↔ b' = b) ∨
        (∀ b, t ≠ b64url b) ∧ ∃ code, b64urlDecode t = .error (.attestation code)) ∧
      (∀ (t : Text) (b : Bytes), b64urlDecode t = .ok b ↔ t = b64url b) ∧
      (∀ b : Bytes, b64urlDecode (b64url b) = .ok b) ∧
      ∀ (t : Text) (b : Bytes), decodeB64 t = .ok b ↔ b64urlDecode t = .ok b := by
  refine ⟨fun t => ?_, fun t b => b64urlDecode_iff, fun b => b64urlDecode_iff.mpr rfl, fun t b => ?_⟩
  · by_cases h : ∃ b, t = b64url b
    case pos =>
      obtain ⟨b, rfl⟩ := h
      refine .inl ⟨b, rfl, fun b' => ?_⟩
      rw [b64urlDecode_iff.mpr rfl, Except.ok.injEq, eq_comm]
    case neg => exact .inr ⟨not_exists.mp h, _, b64urlDecode_error (not_exists.mp h)⟩
  · exact decodeB64_iff.trans b64urlDecode_iff.symm

end

-- Outside of strings, what Python reads has no `N` and no `I`.
section

variable {t token : Text} {c : Nat}

def Plain (c : Nat) : Prop :=
  c ≠ 'N'.toNat ∧ c ≠ 'I'.toNat

instance : Decidable (Plain c) :=
  inferInstanceAs (Decidable (_ ∧ _))

theorem plain_of_digit (h : Scanner.isDigit c) : Plain c := by
  simp only [Scanner.isDigit, Bool.and_eq_true, decide_eq_true_eq] at h
  have : '9'.toNat < 'N'.toNat ∧ '9'.toNat < 'I'.toNat := by decide
  exact ⟨by omega, by omega⟩

theorem digits_plain (h : ∀ c ∈ t.dropWhile Scanner.isDigit, Plain c) : ∀ c ∈ t, Plain c := by
  intro c hc
  rw [← List.takeWhile_append_dropWhile (p := Scanner.isDigit) (l := t)] at hc
  rcases List.mem_append.mp hc with hc | hc
  · exact plain_of_digit (List.mem_takeWhile_imp hc)
  · exact h c hc

theorem whole?_plain {w r : Text} (h : Scanner.Number.whole? t = some (w, r))
    (hr : ∀ c ∈ r, Plain c) : ∀ c ∈ t, Plain c := by
  unfold Scanner.Number.whole? at h
  split at h
  case h_1 => cases h
  case h_2 c t =>
    split at h
    case isTrue hc =>
      cases h
      exact List.forall_mem_cons.mpr ⟨hc ▸ by decide, hr⟩
    split at h
    all_goals cases h
    case isFalse.isTrue hc =>
      exact List.forall_mem_cons.mpr ⟨plain_of_digit hc, digits_plain hr⟩

theorem signed?_plain {w r : Text} (h : Scanner.Number.signed? t = some (w, r))
    (hr : ∀ c ∈ r, Plain c) : ∀ c ∈ t, Plain c := by
  unfold Scanner.Number.signed? at h
  split at h
  case h_1 => cases h
  case h_2 c t =>
    split at h
    case isTrue hc =>
      have ⟨⟨w', r'⟩, hw, he⟩ := Option.map_eq_some_iff.mp h
      cases he
      exact List.forall_mem_cons.mpr ⟨hc ▸ by decide, whole?_plain hw hr⟩
    case isFalse => exact whole?_plain h hr

theorem split_plain {mark w r : Text} (h : Scanner.Number.split mark t = (w, r))
    (hr : ∀ c ∈ r, Plain c) : ∀ c ∈ t, Plain c := by
  unfold Scanner.Number.split at h
  split at h
  all_goals cases h
  case h_1 => exact fun c hc => hr c (List.mem_append_right _ hc)
  case h_2 => exact digits_plain hr

theorem fraction?_plain {w r : Text} (h : Scanner.Number.fraction? t = (w, r))
    (hr : ∀ c ∈ r, Plain c) : ∀ c ∈ t, Plain c := by
  unfold Scanner.Number.fraction? at h
  split at h
  case h_1 => exact nofun
  case h_2 c t =>
    split at h
    case isTrue hc  => exact List.forall_mem_cons.mpr ⟨hc ▸ by decide, split_plain h hr⟩
    case isFalse hc =>
      cases h
      exact hr

theorem plain_of_isE (h : Scanner.Number.isE c) : Plain c := by
  simp only [Scanner.Number.isE, Bool.or_eq_true, decide_eq_true_eq] at h
  rcases h with rfl | rfl <;> decide

theorem exponent?_plain {w r : Text} (h : Scanner.Number.exponent? t = (w, r))
    (hr : ∀ c ∈ r, Plain c) : ∀ c ∈ t, Plain c := by
  unfold Scanner.Number.exponent? at h
  split at h
  case h_1 => exact nofun
  case h_2 c =>
    cases h
    exact hr
  case h_3 c s t =>
    split at h
    case isTrue hc =>
      refine List.forall_mem_cons.mpr ⟨plain_of_isE hc, ?_⟩
      split at h
      case isTrue hs =>
        have hs : Plain s := by
          simp only [Bool.or_eq_true, decide_eq_true_eq] at hs
          rcases hs with rfl | rfl <;> decide
        exact List.forall_mem_cons.mpr ⟨hs, split_plain h hr⟩
      case isFalse => exact split_plain h hr
    case isFalse =>
      cases h
      exact hr

theorem read?_plain {n : Scanner.Number} (h : Scanner.Number.read? token = some n)
    (hr : n.rest = []) : ∀ c ∈ token, Plain c := by
  have ⟨⟨w, t₁⟩, hw, h⟩ := Option.bind_eq_some_iff.mp h
  cases h
  have hr : (Scanner.Number.exponent? (Scanner.Number.fraction? t₁).2).2 = [] := hr
  refine signed?_plain hw <| fraction?_plain rfl <| exponent?_plain rfl fun c hc => ?_
  exact absurd (hr ▸ hc) List.not_mem_nil

theorem literal_plain {v : Value} (h : Scanner.literal Profile.reader token = .ok v) :
    ∀ c ∈ token, Plain c := by
  obtain ⟨rfl, -⟩ | ⟨rfl, -⟩ | ⟨rfl, -⟩ | ⟨n, hn, hr, -⟩ := Scanner.literal_cases h
  · decide
  · decide
  · decide
  · exact read?_plain hn hr

-- How the two ways of finding the strings of a text go together.
def inString : Scanner.Mode → Bool
  | .text .. | .escape .. | .hex .. => true
  | _                               => false

def escaped : Scanner.Mode → Bool
  | .escape .. => true
  | _          => false

def plainToken : Scanner.Mode → Prop
  | .bare token => ∀ c ∈ token, Plain c
  | _           => True

-- A step outside of strings begins a string, or stays outside with a character that is none of the
-- two.
def StepsOutside (c : Nat) (mode : Scanner.Mode) : Prop :=
  escaped mode = false ∧ (c = '"'.toNat ∧ inString mode ∨
    c ≠ '"'.toNat ∧ inString mode = false ∧ Plain c)

theorem plain_of_isSpace (h : Scanner.isSpace c) : c ≠ '"'.toNat ∧ Plain c := by
  simp only [Scanner.isSpace, Bool.or_eq_true, decide_eq_true_eq] at h
  obtain ((rfl | rfl) | rfl) | rfl := h <;> decide

theorem complete_outside {v : Value} {stack : List Scanner.Frame} :
    inString (Scanner.complete v stack).mode = false ∧
      escaped (Scanner.complete v stack).mode = false := by
  rcases stack with _ | ⟨_ | _, _⟩ <;> exact ⟨rfl, rfl⟩

theorem endObject_outside {fields : Fields} {stack : List Scanner.Frame} {σ : Scanner.Config}
    (h : Scanner.endObject Profile.reader fields stack = .ok σ) :
    inString σ.mode = false ∧ escaped σ.mode = false := by
  have ⟨_, _, h⟩ := bind_eq_ok.mp h
  cases h
  exact complete_outside

theorem start_outside {stack : List Scanner.Frame} {σ : Scanner.Config}
    (h : Scanner.start Profile.reader c stack = .ok σ) (ht : plainToken σ.mode) :
    StepsOutside c σ.mode := by
  unfold Scanner.start at h
  split at h
  case isTrue hc =>
    cases h
    exact ⟨rfl, .inl ⟨hc, rfl⟩⟩
  case' isFalse hq => split at h
  case isTrue hc =>
    cases h
    exact ⟨rfl, .inr ⟨hq, rfl, hc ▸ by decide⟩⟩
  split at h
  case isTrue hc =>
    cases h
    exact ⟨rfl, .inr ⟨hq, rfl, hc ▸ by decide⟩⟩
  split at h
  all_goals cases h
  exact ⟨rfl, .inr ⟨hq, rfl, ht c (List.mem_singleton_self c)⟩⟩

theorem after_outside {σ σ' : Scanner.Config} (h : Scanner.after Profile.reader σ c = .ok σ') :
    StepsOutside c σ'.mode := by
  unfold Scanner.after at h
  split at h
  case h_1 =>
    split at h
    case isTrue hc =>
      cases h
      exact ⟨rfl, .inr (hc ▸ ⟨by decide, rfl, by decide⟩)⟩
    split at h
    all_goals cases h
    case isFalse.isTrue hc =>
      exact ⟨complete_outside.right, .inr (hc ▸ ⟨by decide, complete_outside.left, by decide⟩)⟩
  case h_2 =>
    split at h
    case isTrue hc =>
      cases h
      exact ⟨rfl, .inr (hc ▸ ⟨by decide, rfl, by decide⟩)⟩
    split at h
    case isTrue hc =>
      have ⟨hi, he⟩ := endObject_outside h
      exact ⟨he, .inr (hc ▸ ⟨by decide, hi, by decide⟩)⟩
    case isFalse => cases h
  case h_3 =>
    split at h
    case isTrue ht => cases ht
    case isFalse => cases h
  case h_4 => cases h

theorem step_outside {σ σ' : Scanner.Config} (hm : inString σ.mode = false)
    (h : Scanner.step Profile.reader σ c = .ok σ') (ht : plainToken σ'.mode) :
    StepsOutside c σ'.mode ∧ plainToken σ.mode := by
  obtain ⟨mode, stack⟩ := σ
  have hspace (hc : Scanner.isSpace c) (he : escaped mode = false) : StepsOutside c mode :=
    ⟨he, .inr ⟨(plain_of_isSpace hc).left, hm, (plain_of_isSpace hc).right⟩⟩
  cases mode
  case value =>
    simp only [Scanner.step] at h
    split at h
    case isTrue hc  => cases h; exact ⟨hspace hc rfl, trivial⟩
    case isFalse hc => exact ⟨start_outside h ht, trivial⟩
  case first =>
    simp only [Scanner.step] at h
    split at h
    case isTrue hc  => cases h; exact ⟨hspace hc rfl, trivial⟩
    split at h
    case isTrue hc  =>
      cases h
      obtain ⟨hi, he⟩ := @complete_outside (.arr []) stack
      exact ⟨⟨he, .inr (hc ▸ ⟨by decide, hi, by decide⟩)⟩, trivial⟩
    case isFalse hc => exact ⟨start_outside h ht, trivial⟩
  case key fields close =>
    simp only [Scanner.step] at h
    split at h
    case isTrue hc  => cases h; exact ⟨hspace hc rfl, trivial⟩
    split at h
    case isTrue hc  => cases h; exact ⟨⟨rfl, .inl ⟨hc, rfl⟩⟩, trivial⟩
    split at h
    case isTrue hc  =>
      have hc : c = '}'.toNat := of_decide_eq_true ((Bool.and_eq_true ..).mp hc).right
      obtain ⟨hi, he⟩ := endObject_outside h
      exact ⟨⟨he, .inr (hc ▸ ⟨by decide, hi, by decide⟩)⟩, trivial⟩
    case isFalse => cases h
  case colon fields name =>
    simp only [Scanner.step] at h
    split at h
    case isTrue hc  => cases h; exact ⟨hspace hc rfl, trivial⟩
    split at h
    all_goals cases h
    case isFalse.isTrue hc => exact ⟨⟨rfl, .inr (hc ▸ ⟨by decide, rfl, by decide⟩)⟩, trivial⟩
  case item | field | done =>
    simp only [Scanner.step] at h
    split at h
    case isTrue hc  => cases h; exact ⟨hspace hc rfl, trivial⟩
    case isFalse hc => exact ⟨after_outside h, trivial⟩
  case bare token =>
    simp only [Scanner.step] at h
    split at h
    case isTrue hc =>
      cases h
      obtain ⟨hp, htoken⟩ := List.forall_mem_cons.mp ht
      refine ⟨⟨rfl, .inr ⟨?_, rfl, hp⟩⟩, htoken⟩
      rintro rfl
      contradiction
    case isFalse =>
      obtain ⟨v, hv, h⟩ := bind_eq_ok.mp h
      refine ⟨?_, fun c hc => literal_plain hv c (List.mem_reverse.mpr hc)⟩
      split at h
      case isTrue hc =>
        cases h
        obtain ⟨hi, he⟩ := @complete_outside v stack
        exact ⟨he, .inr ⟨(plain_of_isSpace hc).left, hi, (plain_of_isSpace hc).right⟩⟩
      case isFalse => exact after_outside h
  case rest =>
    simp only [Scanner.step] at h
    split at h
    case isTrue ht => cases ht
    case isFalse   => cases h
  all_goals cases hm

theorem hexDigit?_quote {digit : Nat} (h : Scanner.hexDigit? c = some digit) :
    c ≠ '"'.toNat ∧ c ≠ '\\'.toNat := by
  constructor
  all_goals
    rintro rfl
    simp [Scanner.hexDigit?, Scanner.isDigit] at h

theorem addUnit_inString {role : Option Fields} {acc : Text} {pending : Option Nat} {unit : Nat} :
    inString (Scanner.addUnit role acc pending unit) ∧
      escaped (Scanner.addUnit role acc pending unit) = false ∧
      plainToken (Scanner.addUnit role acc pending unit) := by
  unfold Scanner.addUnit
  repeat' split
  all_goals exact ⟨rfl, rfl, trivial⟩

theorem endText_outside {role : Option Fields} {u : Text} {stack : List Scanner.Frame}
    {σ : Scanner.Config} (h : Scanner.endText Profile.reader role u stack = .ok σ) :
    inString σ.mode = false ∧ escaped σ.mode = false := by
  cases role
  case none =>
    cases h
    exact complete_outside
  case some =>
    have ⟨_, _, h⟩ := bind_eq_ok.mp h
    cases h
    exact ⟨rfl, rfl⟩

theorem outside_other (hq : c ≠ '"'.toNat) (hb : c ≠ '\\'.toNat) :
    outside true false (c :: t) = outside true false t := by
  rw [outside, if_pos rfl, if_neg Bool.false_ne_true, if_neg hb, if_neg hq]

theorem step_inside {σ σ' : Scanner.Config} (hm : inString σ.mode)
    (h : Scanner.step Profile.reader σ c = .ok σ') :
    outside true (escaped σ.mode) (c :: t) = outside (inString σ'.mode) (escaped σ'.mode) t := by
  obtain ⟨mode, stack⟩ := σ
  cases mode
  case text role acc pending =>
    simp only [Scanner.step] at h
    split at h
    case isTrue hc =>
      obtain ⟨hi, he⟩ := endText_outside h
      rw [hi, he, hc]
      rfl
    case' isFalse hq => split at h
    case isTrue hc =>
      cases h
      rw [hc]
      rfl
    case' isFalse hb => split at h
    all_goals cases h
    exact outside_other hq hb
  case escape role acc pending =>
    simp only [Scanner.step] at h
    split at h
    case isTrue =>
      cases h
      rfl
    case' isFalse => split at h
    all_goals cases h
    rfl
  case hex role acc pending left unit =>
    simp only [Scanner.step] at h
    split at h
    case h_1 => cases h
    case h_2 digit hd =>
      obtain ⟨hq, hb⟩ := hexDigit?_quote hd
      split at h
      all_goals cases h
      · exact outside_other hq hb
      · obtain ⟨hi, he, _⟩ := @addUnit_inString role acc pending (unit * 16 + digit)
        simp only [hi, he]
        exact outside_other hq hb
  all_goals cases hm

theorem outside_plain {σ : Scanner.Config} {v : Value}
    (h : Scanner.run Profile.reader σ t = .ok v) :
    plainToken σ.mode ∧ ∀ c ∈ outside (inString σ.mode) (escaped σ.mode) t, Plain c := by
  induction t generalizing σ
  case nil =>
    refine ⟨?_, nofun⟩
    obtain ⟨mode, stack⟩ := σ
    cases mode
    case bare =>
      have ⟨v, hv, _⟩ := bind_eq_ok.mp h
      exact fun c hc => literal_plain hv c (List.mem_reverse.mpr hc)
    all_goals trivial
  case cons c t ih =>
    have ⟨σ', hs, h⟩ := bind_eq_ok.mp h
    have ⟨htoken, hout⟩ := ih h
    cases hm : inString σ.mode
    case false =>
      have ⟨⟨he, hc⟩, ht⟩ := step_outside hm hs htoken
      refine ⟨ht, ?_⟩
      rw [outside, if_neg Bool.false_ne_true]
      rcases hc with ⟨hq, hi⟩ | ⟨hq, hi, hp⟩
      all_goals rw [hi, he] at hout
      · rwa [if_pos hq]
      · rw [if_neg hq]
        exact List.forall_mem_cons.mpr ⟨hp, hout⟩
    case true =>
      rw [step_inside hm hs]
      refine ⟨?_, hout⟩
      obtain ⟨mode, stack⟩ := σ
      cases mode
      case bare => cases hm
      all_goals trivial

theorem mem_of_contains {sub : Text} (hs : c ∈ sub) (h : contains sub t) : c ∈ t := by
  induction t
  case nil => exact absurd (List.isEmpty_iff.mp h ▸ hs) List.not_mem_nil
  case cons p t ih =>
    rcases (Bool.or_eq_true ..).mp h with h | h
    · exact (List.isPrefixOf_iff_prefix.mp h).subset hs
    · exact List.mem_cons_of_mem _ (ih h)

theorem not_containsNonFiniteToken {v : Value} (h : Scanner.read Profile.reader t = .ok v) :
    ¬containsNonFiniteToken t := by
  have ⟨_, hout⟩ := outside_plain h
  intro hc
  rcases (Bool.or_eq_true ..).mp hc with hc | hc
  · exact (hout _ (mem_of_contains (c := 'N'.toNat) (by decide) hc)).left rfl
  · exact (hout _ (mem_of_contains (c := 'I'.toNat) (by decide) hc)).right rfl

end

-- What is assumed of the two libraries for the canonical form.
structure JcsAgree [Jcs] [Transform] : Prop where
  lawful    : Jcs.Lawful
  -- The form of an object is a text in UTF-8 that begins with a brace and escapes control characters.
  encoding  : ∀ fields b, canonicalize fields = .ok b →
    (∃ t, Unicode.utf8 false b = some t) ∧ b.head? = some 0x7B ∧ 0 ∉ b
  -- One library leaves as it is what the other one writes.
  transform : ∀ fields b, (Value.obj fields).Ordered → canonicalize fields = .ok b →
    Transform.transform b = some b
  canonical : ∀ fields b, parseStrict b = .ok (.obj fields) → Transform.transform b = some b →
    Jcs.canonicalize (.obj fields) = some b

section

variable [Jcs] [Transform] {fields : Fields} {b : Bytes} {t : Text}

omit [Jcs] [Transform] in
theorem decode_of_utf8 (ht : Unicode.utf8 false b = some t) (hb : b.head? = some 0x7B)
    (h0 : 0 ∉ b) : decode b = some t := by
  have he : detectEncoding b = (.utf8, b) := by
    have ⟨r, hr⟩ := List.head?_eq_some_iff.mp hb
    subst hr
    have hne {x : UInt8} (hx : x ∈ 0x7B :: r) : x ≠ 0 := fun h => h0 (h ▸ hx)
    rcases r with _ | ⟨b₁, _ | ⟨b₂, _ | ⟨b₃, r⟩⟩⟩
    · rfl
    · have h₁ : b₁ ≠ 0 := hne (by simp)
      simp [detectEncoding, List.isPrefixOf, h₁]
    · simp [detectEncoding, List.isPrefixOf]
    · have h₁ : b₁ ≠ 0 := hne (by simp)
      simp [detectEncoding, List.isPrefixOf, h₁]
  rw [decode, he]
  exact Unicode.utf8_pass ht

theorem parseStrict_of_canonical (hj : JcsAgree) (ho : (Value.obj fields).Ordered)
    (hc : (Value.obj fields).Clean) (h : canonicalize fields = .ok b) :
    parseStrict b = .ok (.obj fields) := by
  have ⟨⟨t, ht⟩, hb, h0⟩ := hj.encoding fields b h
  have ⟨t', ht', hr⟩ := parseStrict_ok (hj.lawful fields b ho h)
  cases (decode_of_utf8 ht hb h0).symm.trans ht'
  refine orFail_bind.mpr ⟨t, ht, require_bind.mpr ⟨not_containsNonFiniteToken hr, ?_⟩⟩
  exact Scanner.read_follows reader_follows hr hc

theorem canonical_of_parseStrict (hj : JcsAgree) (h : parseStrict b = .ok (.obj fields))
    (ht : Transform.transform b = some b) :
    canonicalize fields = .ok b ∧ (Value.obj fields).Ordered ∧ (Value.obj fields).Clean := by
  have ⟨t, _, hr⟩ := orFail_bind.mp h
  have ⟨_, hr⟩ := require_bind.mp hr
  have ⟨hclean, hordered⟩ := Scanner.read_keeps reader_keeps hr
  refine ⟨bind_eq_ok.mpr ⟨(), validate_of_clean hclean, ?_⟩, hordered, hclean⟩
  exact orFail_ok.mpr (hj.canonical fields b h ht)

end

-- Statements in Go.
section

variable {t : Text} {texts : List Text} {v : Option Value} {n : Int} {fields value : Fields}
variable {s : AttestationStatement}

theorem validDigest_eq : validDigest = isDigest := by
  funext t
  rw [Bool.eq_iff_iff]
  simp only [validDigest, isDigest, Bool.and_eq_true, decide_eq_true_eq]
  have hlen (hp : "sha256:".points.isPrefixOf t)
      (hh : (t.drop 7).all fun p =>
        ('0'.toNat ≤ p && p ≤ '9'.toNat) || ('a'.toNat ≤ p && p ≤ 'f'.toNat)) :
      Unicode.byteLength t = 7 + (t.drop 7).length := by
    have ⟨r, hr⟩ := List.isPrefixOf_iff_prefix.mp hp
    have h7 : "sha256:".points.length = 7 := by decide
    have hdrop : t.drop 7 = r := by rw [← hr, ← h7, List.drop_left]
    rw [hdrop] at hh ⊢
    have hascii : ∀ p ∈ t, p < 0x80 := by
      intro p hm
      rcases List.mem_append.mp (hr ▸ hm) with hm | hm
      · exact (by decide : ∀ p ∈ "sha256:".points, p < 0x80) p hm
      · have hp := List.all_eq_true.mp hh p hm
        simp only [Bool.or_eq_true, Bool.and_eq_true, decide_eq_true_eq] at hp
        have : '9'.toNat < 0x80 ∧ 'f'.toNat < 0x80 := by decide
        omega
    rw [byteLength_ascii hascii, ← hr, List.length_append, h7]
  constructor
  · rintro ⟨⟨hl, hp⟩, hh⟩
    have := hlen hp hh
    exact ⟨⟨hp, by omega⟩, hh⟩
  · rintro ⟨⟨hp, hl⟩, hh⟩
    have := hlen hp hh
    exact ⟨⟨by omega, hp⟩, hh⟩

theorem exactKeys_iff {names : List Text} : exactKeys fields names ↔
    fields.length = names.length ∧ ∀ n ∈ names, n ∈ fields.keys := by
  simp only [exactKeys, Bool.and_eq_true, decide_eq_true_eq, List.all_eq_true]

theorem sameKeys_of_exactKeys {names : List Text} (hn : names.Nodup)
    (h : exactKeys fields names) : sameKeys fields names := by
  have ⟨hl, hm⟩ := exactKeys_iff.mp h
  have hsub : names ⊆ fields.keys := hm
  have hp : names.Perm fields.keys := by
    refine (List.subperm_of_subset hn hsub).perm_of_length_le ?_
    rw [Fields.keys, List.length_map, hl]
  exact sameKeys_iff.mpr fun n => hp.mem_iff.symm

theorem decodeText_eq (h : (text? v).isSome) : decodeText v = text? v := by
  have ⟨t, ht⟩ := Option.isSome_iff_exists.mp h
  rw [ht, text?_iff.mp ht]
  rfl

theorem decodeText_iff (ht : t ≠ []) : decodeText v = some t ↔ v = some (.str t) := by
  unfold decodeText
  split
  case h_1 => simp [ht.symm]
  case h_2 => simp [ht.symm]
  case h_3 => simp
  case h_4 h => exact ⟨nofun, fun he => absurd he (h t)⟩

theorem decodeInt64_eq (h : isSafe v) : decodeInt64 v = int? v := by
  unfold isSafe at h
  split at h
  case h_1      => cases h
  case h_2 n hn =>
    rw [hn, int?_iff.mp hn]
    rfl

theorem isSome_of_nonEmpty (h : nonEmpty v) : (text? v).isSome := by
  unfold nonEmpty at h
  split at h
  case h_1    => cases h
  case h_2 hn => simp [hn]

theorem mapM_decodeText {texts : List Text} :
    (texts.map .str).mapM (fun v => decodeText (some v)) = some texts := by
  induction texts
  case nil => rfl
  case cons t texts ih =>
    rw [List.map_cons, List.mapM_cons, ih]
    rfl

theorem decodeTexts_eq (h : texts? v = some texts) : decodeTexts v = texts? v := by
  rw [h, texts?_iff.mp h]
  exact mapM_decodeText

theorem decodeProcess_eq {process : Fields} (h : fields? v = some process)
    (hs : ∀ name ∈ ["host", "role", "start_identity"], nonEmpty (process.get? name.points))
    (hn : ∀ name ∈ ["ordinal", "epoch"], isSafe (process.get? name.points)) :
    decodeProcess v = fields? v >>= ProcessStatement.fromDict := by
  simp only [List.forall_mem_cons] at hs hn
  obtain ⟨hhost, hrole, hstart, -⟩ := hs
  obtain ⟨hordinal, hepoch, -⟩ := hn
  rw [h, fields?_iff.mp h]
  change decodeProcessFields process = ProcessStatement.fromDict process
  unfold decodeProcessFields ProcessStatement.fromDict
  rw [decodeText_eq (isSome_of_nonEmpty hhost), decodeText_eq (isSome_of_nonEmpty hrole),
    decodeText_eq (isSome_of_nonEmpty hstart), decodeInt64_eq hordinal, decodeInt64_eq hepoch]

theorem topFields_nodup : topFields.Nodup := by
  decide +kernel

theorem processFields_nodup : processFields.Nodup := by
  decide

theorem headerFields_nodup : headerFields.Nodup := by
  decide

theorem keys_nodup (h : (Value.obj fields).Ordered) : fields.keys.Nodup := by
  cases h with | obj hs _ =>
  exact (List.pairwise_map.mpr hs).imp ne_of_lt

theorem exactKeys_eq {names : List Text} (hf : fields.keys.Nodup) (hn : names.Nodup) :
    exactKeys fields names ↔ sameKeys fields names := by
  refine ⟨sameKeys_of_exactKeys hn, fun h => ?_⟩
  have hm := sameKeys_iff.mp h
  have hp : fields.keys.Perm names := (List.perm_ext_iff_of_nodup hf hn).mpr hm
  refine exactKeys_iff.mpr ⟨?_, fun n => (hm n).mpr⟩
  rw [← hp.length_eq, Fields.keys, List.length_map]

-- Both validate the same objects, and read the same statement from them.
theorem decodeStatement_eq
    (hstrings : ∀ name ∈ stringFields, nonEmpty (value.get? name))
    (htimes : ∀ name ∈ timeFields, isSafe (value.get? name))
    (hprocess : decodeProcess (value.get? "process".points) =
      fields? (value.get? "process".points) >>= ProcessStatement.fromDict)
    (htexts : texts? (value.get? "critical_claims".points) = some texts) :
    decodeStatement value = AttestationStatement.fromDict value := by
  simp only [stringFields, timeFields, List.map_cons, List.map_nil, List.forall_mem_cons]
    at hstrings htimes
  obtain ⟨h₁, h₂, h₃, h₄, h₅, h₆, h₇, h₈, h₉, h₁₀, h₁₁, h₁₂, h₁₃, -⟩ := hstrings
  obtain ⟨ht₁, ht₂, ht₃, -⟩ := htimes
  unfold decodeStatement AttestationStatement.fromDict
  rw [decodeText_eq (isSome_of_nonEmpty h₁), decodeText_eq (isSome_of_nonEmpty h₂),
    decodeText_eq (isSome_of_nonEmpty h₃), decodeText_eq (isSome_of_nonEmpty h₄),
    decodeText_eq (isSome_of_nonEmpty h₅), decodeText_eq (isSome_of_nonEmpty h₆),
    decodeText_eq (isSome_of_nonEmpty h₇), decodeText_eq (isSome_of_nonEmpty h₈),
    decodeText_eq (isSome_of_nonEmpty h₉), decodeText_eq (isSome_of_nonEmpty h₁₀),
    decodeText_eq (isSome_of_nonEmpty h₁₁), decodeText_eq (isSome_of_nonEmpty h₁₂),
    decodeText_eq (isSome_of_nonEmpty h₁₃), decodeInt64_eq ht₁, decodeInt64_eq ht₂,
    decodeInt64_eq ht₃, hprocess, decodeTexts_eq htexts]

theorem validateStatementMap_iff (ho : (Value.obj value).Ordered) :
    validateStatementMap value = .ok () ∧ decodeStatement value = some s ↔
      validateStatement value = .ok s := by
  have hordered {process : Fields} (h : fields? (value.get? "process".points) = some process) :
      process.keys.Nodup := by
    cases ho with | obj _ hd =>
    exact keys_nodup (hd _ (Fields.mem_of_get? (fields?_iff.mp h)))
  simp only [validateStatementMap, validateStatement, require_bind, orFail_bind, orFail_ok,
    require_ok, exactKeys_eq (keys_nodup ho) topFields_nodup, validDigest_eq]
  constructor
  · rintro ⟨⟨hk, hstrings, process, hprocess, hkp, hps, hsafe, hdigest, texts, htexts, hnodup⟩, hs⟩
    rw [exactKeys_eq (hordered hprocess) processFields_nodup] at hkp
    simp only [List.forall_mem_cons] at hsafe
    obtain ⟨hordinal, hepoch, hobserved, hissued, hexpires, -⟩ := hsafe
    have hpn : ∀ name ∈ ["ordinal", "epoch"], isSafe (process.get? name.points) := by
      simp [hordinal, hepoch]
    have htimes : ∀ name ∈ timeFields, isSafe (value.get? name) := by
      simp [timeFields, hobserved, hissued, hexpires]
    rw [decodeStatement_eq hstrings htimes (decodeProcess_eq hprocess hps hpn) htexts] at hs
    exact ⟨hk, process, hprocess, hkp, hstrings, hps, hpn, htimes, texts, htexts, hnodup, hdigest,
      hs⟩
  · rintro ⟨hk, process, hprocess, hkp, hstrings, hps, hpn, htimes, texts, htexts, hnodup, hdigest,
      hs⟩
    have hkp' := (exactKeys_eq (hordered hprocess) processFields_nodup).mpr hkp
    rw [← decodeStatement_eq hstrings htimes (decodeProcess_eq hprocess hps hpn) htexts] at hs
    simp only [timeFields, List.map_cons, List.map_nil, List.forall_mem_cons] at hpn htimes
    obtain ⟨hordinal, hepoch, -⟩ := hpn
    obtain ⟨hobserved, hissued, hexpires, -⟩ := htimes
    refine ⟨⟨hk, hstrings, process, hprocess, hkp', hps, ?_, hdigest, texts, htexts, hnodup⟩, hs⟩
    simp [hordinal, hepoch, hobserved, hissued, hexpires]

end

end GoVerifier
