import ExtManager.Codec.Canonical

-- The part of what encoders write that is printable.

namespace Dumps

variable {s : Style} {p q : Nat} {v : Value} {n : Int}

def Printable (p : Nat) : Prop :=
  0x20 ≤ p ∧ p < 0x7F

instance : Decidable (Printable p) :=
  inferInstanceAs (Decidable (_ ∧ _))

theorem printable_unicodeEscape (hp : p < 0x10000) : ∀ q ∈ unicodeEscape p, Printable q := by
  have hdigit (n : Nat) (hn : n < 16) : Printable (hexDigit n) := by
    have h0 : '0'.toNat = 48 ∧ 'a'.toNat = 97 := by decide
    unfold Printable hexDigit
    split <;> omega
  simp only [unicodeEscape, List.map_cons, List.map_nil, List.forall_mem_cons]
  refine ⟨by decide, by decide, hdigit _ ?_, hdigit _ ?_, hdigit _ ?_, hdigit _ ?_,
    List.forall_mem_nil _⟩
  all_goals omega

theorem printable_shortEscape : ∀ p < 93, ∀ c ∈ shortEscape? p, Printable c := by
  decide

-- What is written for a character is printable. There are no more characters.
theorem printable_escapeAscii (h : q ∈ escapeAscii p) (hq : q < 0x110000) : Printable q := by
  unfold escapeAscii at h
  split at h
  case h_1 c hc =>
    rcases List.mem_cons.mp h with rfl | h
    · decide
    · rw [List.mem_singleton.mp h]
      exact printable_shortEscape p (shortEscape?_lt hc) c hc
  case h_2 =>
    split at h
    case isTrue hp => rwa [List.mem_singleton.mp h]
    split at h
    case isTrue hp => exact printable_unicodeEscape hp q h
    split at h
    case isTrue hp =>
      rcases List.mem_append.mp h with h | h
      all_goals exact printable_unicodeEscape (by omega) q h
    case isFalse hp => exact absurd hq (List.mem_singleton.mp h ▸ hp)

theorem printable_decimal : ∀ q ∈ decimal n, Printable q := by
  have hdigit {q : Nat} (h : Scanner.isDigit q) : Printable q := by
    simp [Scanner.isDigit] at h
    unfold Printable
    omega
  unfold decimal
  split
  · exact List.forall_mem_cons.mpr ⟨by decide, fun q hq => hdigit (isDigit_of_mem q hq)⟩
  · exact fun q hq => hdigit (isDigit_of_mem q hq)

theorem mem_marks {t : Text} : .mark p ∈ marks t ↔ p ∈ t := by
  simp [marks]

theorem eq_of_mem_quoted {t : Text} (h : .mark p ∈ quoted t) : p = '"'.toNat := by
  simpa [quoted] using h

mutual

theorem printable_mark : (v : Value) → .mark p ∈ tokens v → Printable p
  | .null, h | .bool true, h | .bool false, h | .arr [], h | .obj [], h => by
    rw [tokens, mem_marks] at h
    revert p
    decide
  | .int _, h => by
    rw [tokens, mem_marks] at h
    exact printable_decimal p h
  | .float _, h => by simp [tokens] at h
  | .str _, h => by
    rw [tokens] at h
    rw [eq_of_mem_quoted h]
    decide
  | .arr (v :: vs), h => by
    simp only [tokens, List.cons_append, List.mem_cons, List.mem_append, Token.mark.injEq] at h
    rcases h with rfl | h | h
    · decide
    · exact printable_mark v h
    · exact printable_itemMark vs h
  | .obj ((key, v) :: rest), h => by
    simp only [tokens, List.cons_append, List.mem_cons, List.mem_append, Token.mark.injEq] at h
    rcases h with rfl | (h | rfl | h) | h
    · decide
    · rw [eq_of_mem_quoted h]
      decide
    · decide
    · exact printable_mark v h
    · exact printable_fieldMark rest h

theorem printable_itemMark : (vs : List Value) → .mark p ∈ itemTokens vs → Printable p
  | [], h => by
    simp only [itemTokens, List.mem_singleton, Token.mark.injEq] at h
    rw [h]
    decide
  | v :: vs, h => by
    simp only [itemTokens, List.cons_append, List.mem_cons, List.mem_append, Token.mark.injEq] at h
    rcases h with rfl | h | h
    · decide
    · exact printable_mark v h
    · exact printable_itemMark vs h

theorem printable_fieldMark : (fs : List (Text × Value)) → .mark p ∈ fieldTokens fs → Printable p
  | [], h => by
    simp only [fieldTokens, List.mem_singleton, Token.mark.injEq] at h
    rw [h]
    decide
  | (key, v) :: rest, h => by
    simp only [fieldTokens, List.cons_append, List.mem_cons, List.mem_append, Token.mark.injEq] at h
    rcases h with rfl | (h | rfl | h) | h
    · decide
    · rw [eq_of_mem_quoted h]
      decide
    · decide
    · exact printable_mark v h
    · exact printable_fieldMark rest h

end

-- A value without floats is written in printable characters.
theorem printable_value {float : Text → Text} (hv : ∀ t, .float t ∉ tokens v)
    (hq : q ∈ value (ascii float) v) (hlt : q < 0x110000) : Printable q := by
  rw [value_eq] at hq
  have ⟨x, hx, hq⟩ := List.mem_flatMap.mp hq
  cases x
  case mark p  => exact List.mem_singleton.mp hq ▸ printable_mark v hx
  case char p  => exact printable_escapeAscii hq hlt
  case float t => exact absurd hx (hv t)

theorem fields_getLast? {fs : List (Text × Value)} : (fields s fs).getLast? = some '\x7d'.toNat := by
  induction fs with
  | nil         => rw [fields]; rfl
  | cons f fs ih =>
    rw [fields, List.getLast?_append, ih]
    rfl

end Dumps

namespace Unicode

variable {t : Text} {b : Bytes}

theorem encode_ascii (h : ∀ p ∈ t, p < 0x80) : encode t = some (t.map .ofNat) := by
  induction t with
  | nil         => rfl
  | cons p t ih =>
    have ⟨hp, ht⟩ := List.forall_mem_cons.mp h
    rw [encode, encode?, if_pos hp, ih ht]
    rfl

theorem toNat_ofNat (h : ∀ p ∈ t, p < 0x80) : (t.map UInt8.ofNat).map UInt8.toNat = t := by
  rw [List.map_map]
  refine (List.map_congr_left fun p hp => ?_).trans (List.map_id t)
  have := h p hp
  simp only [Function.comp_apply, UInt8.toNat_ofNat', id_eq]
  omega

theorem utf8_append_ascii {pass : Bool} {r : Bytes} (h : ∀ x ∈ b, x.toNat < 0x80) :
    utf8 pass (b ++ r) = (b.map UInt8.toNat ++ ·) <$> utf8 pass r := by
  unfold utf8
  induction b with
  | nil         => exact (id_map _).symm
  | cons x b ih =>
    have ⟨hx, hb⟩ := List.forall_mem_cons.mp h
    rw [List.cons_append, utf8From, if_pos hx, ih hb]
    exact (comp_map ..).symm

theorem utf8_ascii {pass : Bool} (h : ∀ x ∈ b, x.toNat < 0x80) :
    utf8 pass b = some (b.map UInt8.toNat) := by
  have hb : utf8 pass (b ++ []) = _ := utf8_append_ascii h
  rw [List.append_nil] at hb
  exact hb.trans (congrArg some (List.append_nil _))

-- A character of one byte ends what stands before it.
theorem utf8From_append_cons {pass : Bool} {begun : Option Begun} {x : UInt8} {r : Bytes}
    (hx : x.toNat < 0x80) : utf8From pass begun (b ++ x :: r) =
      (utf8From pass begun b).bind fun t => (t ++ ·) <$> utf8 pass (x :: r) := by
  have hcons (o : Option Text) (p : Nat) :
      ((p :: ·) <$> o).bind (fun t => (t ++ ·) <$> utf8 pass (x :: r)) =
        (p :: ·) <$> o.bind fun t => (t ++ ·) <$> utf8 pass (x :: r) := by
    cases o
    case none   => rfl
    case some t => exact comp_map (t ++ ·) (p :: ·) (utf8 pass (x :: r))
  fun_induction utf8From pass begun b
  case case1             => exact (id_map (utf8 pass (x :: r))).symm
  case case2 c           =>
    have hc : isContinuation x = false := by
      simp only [isContinuation, decide_eq_false_iff_not]
      omega
    simp [utf8From, hc]
  case case3 h ih        => rw [List.cons_append, utf8From, if_pos h, ih, hcons]
  case case4 h₁ h₂ ih    => rw [List.cons_append, utf8From, if_neg h₁, if_pos h₂, ih]
  case case5 h₁ h₂ h₃ ih => rw [List.cons_append, utf8From, if_neg h₁, if_neg h₂, if_pos h₃, ih]
  case case6 h₁ h₂ h₃ h₄ ih =>
    rw [List.cons_append, utf8From, if_neg h₁, if_neg h₂, if_neg h₃, if_pos h₄, ih]
  case case7 h₁ h₂ h₃ h₄ =>
    rw [List.cons_append, utf8From, if_neg h₁, if_neg h₂, if_neg h₃, if_neg h₄]
    rfl
  case case8 h           =>
    rw [List.cons_append, utf8From, if_pos h]
    rfl
  case case9 h₁ h₂ ih    => rw [List.cons_append, utf8From, if_neg h₁, if_pos h₂, ih]
  case case10 h₁ h₂ h₃ ih =>
    rw [List.cons_append, utf8From, if_neg h₁, if_neg h₂, if_pos h₃, ih, hcons]
  case case11 h₁ h₂ h₃   =>
    rw [List.cons_append, utf8From, if_neg h₁, if_neg h₂, if_neg h₃]
    rfl

end Unicode
