import ExtManager.Attestation.Verify
import ExtManager.Codec.Ascii
import ExtManager.HostEvidence.Append

namespace Profile

-- Bytes of ASCII are read as they are.
theorem decode_ascii {b : Bytes} (h : ∀ x ∈ b, x.toNat ≠ 0 ∧ x.toNat < 0x80) :
    decode b = some (b.map UInt8.toNat) := by
  have hne {x : UInt8} (hx : x ∈ b) : x ≠ 0 ∧ x ≠ 0xFE ∧ x ≠ 0xFF ∧ x ≠ 0xEF := by
    have ⟨h0, hlt⟩ := h x hx
    refine ⟨?_, ?_, ?_, ?_⟩
    all_goals
      rintro rfl
      revert h0 hlt
      decide
  have he : detectEncoding b = (.utf8, b) := by
    rcases b with _ | ⟨b₀, _ | ⟨b₁, _ | ⟨b₂, _ | ⟨b₃, r⟩⟩⟩⟩
    · rfl
    all_goals
      have ⟨h₀, hfe, hff, hef⟩ := hne List.mem_cons_self
      simp [detectEncoding, List.isPrefixOf, h₀.symm, hfe.symm, hff.symm, hef.symm]
    · have h₁ := (hne (x := b₁) (by simp)).left
      simp [h₀, h₁]
    · have h₁ := (hne (x := b₁) (by simp)).left
      simp [h₀, h₁]
  rw [decode, he]
  exact Unicode.utf8_ascii fun x hx => (h x hx).right

end Profile

namespace HostEvidence

variable [Hashlib] [Decimal] {raw carry written rest : Bytes} {e : HostEvent}

def Unreadable (line : Bytes) : Prop :=
  ∀ e, parseHostEvent line ≠ .ok e

def LF : UInt8 :=
  0x0A

def Printable (b : Bytes) : Prop :=
  ∀ x ∈ b, Dumps.Printable x.toNat

omit [Hashlib] [Decimal] in
theorem decode_printable (h : Printable raw) : Profile.decode raw = some (raw.map UInt8.toNat) :=
  Profile.decode_ascii fun x hx => by
    have := h x hx
    unfold Dumps.Printable at this
    omega

theorem read_of_parse (hp : Printable raw) (h : parseHostEvent raw = .ok e) :
    ∃ v, Scanner.read Profile.reader (raw.map UInt8.toNat) = .ok v := by
  unfold parseHostEvent at h
  obtain ⟨_, h, -⟩ := Fallible.bind_ok.mp h
  replace h := Fallible.mapError_ok.mp h
  have ⟨t, ht, hr⟩ := Profile.parseStrict_ok h
  cases (decode_printable hp).symm.trans ht
  exact ⟨_, hr⟩

-- The bytes of a record as `append_event` writes it.
structure IsRecord (raw : Bytes) : Prop where
  printable : Printable raw
  record    : Scanner.Record Profile.reader (raw.map UInt8.toNat)

section Floats

-- No float is written for the value.
def Floatless (v : Value) : Prop :=
  ∀ t, ∀ x ∈ Dumps.tokens v, x ≠ .float t

omit [Hashlib] [Decimal]

variable {t : Text} {n : Int}

theorem mark_ne_float (p : Nat) : Dumps.Token.mark p ≠ .float t :=
  nofun

theorem char_ne_float (p : Nat) : Dumps.Token.char p ≠ .float t :=
  nofun

theorem floatless_null : Floatless .null :=
  fun _ => Dumps.every_marks mark_ne_float

theorem floatless_int : Floatless (.int n) :=
  fun _ => Dumps.every_int mark_ne_float

theorem floatless_str : Floatless (.str t) :=
  fun _ => (Dumps.every_str mark_ne_float).mpr fun p _ => char_ne_float p

theorem floatless_ofText {o : Option Text} : Floatless (ofText o) := by
  cases o
  case none => exact floatless_null
  case some => exact floatless_str

theorem floatless_ofNumber {o : Option Int} : Floatless (ofNumber o) := by
  cases o
  case none => exact floatless_null
  case some => exact floatless_int

theorem floatless_ofOccurrence {o : Option Occurrence} : Floatless (ofOccurrence o) := by
  rcases o with _ | _ | _
  · exact floatless_null
  · exact floatless_int
  · exact floatless_str

theorem floatless_obj {fields : Fields} (h : ∀ f ∈ fields, Floatless f.2) : Floatless (.obj fields) :=
  fun t => (Dumps.every_obj mark_ne_float).mpr fun f hf => ⟨fun p _ => char_ne_float p, h f hf t⟩

theorem HostEvent.floatless : Floatless (.obj e.fields) := by
  have hentry : Floatless (.obj e.entryPoint.fields) := by
    refine floatless_obj ?_
    simp only [EntryPoint.fields, List.forall_mem_cons]
    exact ⟨floatless_str, floatless_str, floatless_str, nofun⟩
  have hprocess : Floatless (.obj e.process.fields) := by
    refine floatless_obj (List.forall_mem_append.mpr ⟨List.forall_mem_map.mpr ?_, ?_⟩)
    · exact fun _ _ => floatless_str
    · simp only [List.forall_mem_cons]
      exact ⟨floatless_str, floatless_int, floatless_int, floatless_int, floatless_str,
        floatless_str, nofun⟩
  refine floatless_obj ?_
  simp only [HostEvent.fields, List.forall_mem_cons]
  exact ⟨floatless_null, floatless_str, floatless_ofText, floatless_int, floatless_ofText,
    floatless_ofText, hentry, floatless_str, floatless_str, floatless_str, floatless_ofNumber,
    floatless_ofText, floatless_str, floatless_int, floatless_ofOccurrence, floatless_ofText,
    floatless_null, hprocess, floatless_str, nofun⟩

end Floats

omit [Hashlib] [Decimal] in
theorem HostEvent.text_eq : ∃ r, Dumps.value (Dumps.ascii id) (.obj e.fields) =
    '\x7b'.toNat :: '"'.toNat :: 'a'.toNat :: r ++ Dumps.fields (Dumps.ascii id) e.fields.tail :=
  ⟨_, rfl⟩

theorem isRecord_of_canonicalEvent (h : canonicalEvent e = .ok raw) : IsRecord raw := by
  unfold canonicalEvent at h
  split at h
  case h_1 => cases h
  case h_2 raw' he =>
    obtain ⟨e', hp, h⟩ := Fallible.bind_ok.mp h
    cases h
    have hprint : ∀ p ∈ Dumps.value (Dumps.ascii id) (.obj e.fields), Dumps.Printable p :=
      fun p hp => Dumps.printable_value (fun t hm => HostEvent.floatless t _ hm rfl) hp
        (Unicode.encode_lt he p hp)
    have hascii : ∀ p ∈ Dumps.value (Dumps.ascii id) (.obj e.fields), p < 0x80 :=
      fun p hp => (hprint p hp).right.trans (by decide)
    have hraw := Option.some.inj (he.symm.trans (Unicode.encode_ascii hascii))
    have htext : raw.map UInt8.toNat = Dumps.value (Dumps.ascii id) (.obj e.fields) := by
      rw [hraw]
      exact Unicode.toNat_ofNat hascii
    have hpr : Printable raw := fun x hx => hprint _ (htext ▸ List.mem_map_of_mem hx)
    obtain ⟨r, hr⟩ := HostEvent.text_eq (e := e)
    refine ⟨hpr, ⟨read_of_parse hpr (Fallible.mapError_ok.mp hp), ?_, ?_⟩⟩
    · exact ⟨'a'.toNat, _, htext.trans hr, by decide⟩
    · rw [htext, hr, List.getLast?_append, Dumps.fields_getLast?]
      rintro _ ⟨⟩
      decide

section Lines

-- The start of a line that has been left inside of a record.
structure IsBroken (carry : Bytes) : Prop where
  printable : Printable carry
  broken    : Scanner.Broken Profile.reader (carry.map UInt8.toNat)
  ne_nil    : carry ≠ []

omit [Hashlib] [Decimal] in
theorem IsRecord.isBroken (h : IsRecord raw) (hp : written <+: raw) (hne : written ≠ []) :
    IsBroken written where
  printable := fun x hx => h.printable x (hp.subset hx)
  broken    := h.record.broken rfl (hp.map _) (by simpa using hne)
  ne_nil    := hne

omit [Hashlib] [Decimal] in
theorem Printable.append (h : Printable carry) (h' : Printable rest) : Printable (carry ++ rest) :=
  fun x hx => (List.mem_append.mp hx).elim (h x) (h' x)

omit [Hashlib] [Decimal] in
theorem IsBroken.append (hb : IsBroken carry) (h : IsRecord raw) (hp : written <+: raw)
    (hne : written ≠ []) : IsBroken (carry ++ written) where
  printable := hb.printable.append fun x hx => h.printable x (hp.subset hx)
  broken    := by
    rw [List.map_append]
    exact hb.broken.append h.record rfl (hp.map _) (by simpa using hne)
  ne_nil    := by simp [hb.ne_nil]

theorem IsBroken.unreadable (hb : IsBroken carry) (h : IsRecord raw) : Unreadable (carry ++ raw) := by
  intro e he
  have ⟨v, hv⟩ := read_of_parse (hb.printable.append h.printable) he
  rw [List.map_append] at hv
  exact hb.broken.unreadable h.record rfl hv

omit [Hashlib] [Decimal] in
theorem Printable.ne_end (h : Printable raw) {x : UInt8} (hx : x ∈ raw) : x ≠ 0x0A ∧ x ≠ 0x0D := by
  have := (h x hx).left
  constructor <;> rintro rfl <;> exact absurd this (by decide)

omit [Hashlib] [Decimal] in
theorem splitLines_cons {line : Bytes} {x : UInt8} (hx : x ≠ 0x0A ∧ x ≠ 0x0D) :
    splitLines line (x :: rest) = splitLines (x :: line) rest := by
  rw [splitLines.eq_3 _ _ _ fun _ h => absurd h hx.right]
  exact if_neg (by simp [hx])

omit [Hashlib] [Decimal] in
theorem splitLines_line (h : Printable raw) {line : Bytes} :
    splitLines line (raw ++ 0x0A :: rest) = (line.reverse ++ raw) :: splitLines [] rest := by
  induction raw generalizing line with
  | nil =>
    rw [List.nil_append, splitLines.eq_3 _ _ _ fun _ h => absurd h (by decide), if_pos (.inl rfl),
      List.append_nil]
  | cons x raw ih =>
    rw [List.cons_append, splitLines_cons (h.ne_end List.mem_cons_self),
      ih fun y hy => h y (List.mem_cons_of_mem _ hy)]
    simp

-- A record with what has been written of it and its end.
structure Fits (p : Bytes × Bytes) : Prop where
  record  : IsRecord p.1
  written : p.2 <+: p.1 ++ [0x0A]

def whole (p : Bytes × Bytes) : Bool :=
  p.2 = p.1 ++ [0x0A]

omit [Hashlib] [Decimal] in
theorem Fits.cases {p : Bytes × Bytes} (h : Fits p) :
    p.2 = [] ∨ whole p ∨ p.2 ≠ [] ∧ p.2 <+: p.1 ∧ whole p = false := by
  by_cases hn : p.2 = []
  case pos => exact .inl hn
  by_cases hw : whole p
  case pos => exact .inr (.inl hw)
  refine .inr (.inr ⟨hn, ?_, by simpa using hw⟩)
  rcases List.prefix_concat_iff.mp h.written with he | hp
  · exact absurd (decide_eq_true he) hw
  · exact hp

variable {ps : List (Bytes × Bytes)}

omit [Hashlib] [Decimal] in
-- Records that have been written as a whole, or not at all, are the lines.
theorem lines_of_whole (h : ∀ p ∈ ps, Fits p ∧ (p.2 = [] ∨ whole p)) :
    splitLines [] (ps.flatMap (·.2)) = (ps.filter whole).map (·.1) ∧
      (ps.flatMap (·.2) = [] ∨ (ps.flatMap (·.2)).getLast? = some 0x0A) := by
  induction ps with
  | nil => exact ⟨rfl, .inl rfl⟩
  | cons p ps ih =>
    have ⟨⟨hf, hp⟩, hps⟩ := List.forall_mem_cons.mp h
    have ⟨hl, hend⟩ := ih hps
    rw [List.flatMap_cons]
    rcases hp with hp | hp
    · have hw : whole p = false := by
        simp [whole, hp]
      rw [hp, List.nil_append, List.filter_cons_of_neg (by simp [hw])]
      exact ⟨hl, hend⟩
    · rw [List.filter_cons_of_pos hp, of_decide_eq_true hp, List.append_assoc]
      refine ⟨?_, .inr ?_⟩
      · rw [List.singleton_append, splitLines_line hf.record.printable, hl]
        rfl
      · rcases hend with hend | hend <;> simp [List.getLast?_cons, hend]

-- A record that has been left spoils its line, or the end of the journal.
theorem unreadable_of_torn (h : ∀ p ∈ ps, Fits p) (hc : carry = [] ∨ IsBroken carry)
    (ht : carry ≠ [] ∨ ∃ p ∈ ps, p.2 ≠ [] ∧ whole p = false) :
    carry ++ ps.flatMap (·.2) ≠ [] ∧ ((carry ++ ps.flatMap (·.2)).getLast? ≠ some 0x0A ∨
      ∃ line ∈ splitLines [] (carry ++ ps.flatMap (·.2)), Unreadable line) := by
  induction ps generalizing carry with
  | nil =>
    have hne : carry ≠ [] := ht.resolve_right (by simp)
    have hb := hc.resolve_left hne
    rw [List.flatMap_nil, List.append_nil]
    refine ⟨hne, .inl fun hl => ?_⟩
    exact (hb.printable.ne_end (List.mem_of_getLast? hl)).left rfl
  | cons p ps ih =>
    have ⟨hf, hps⟩ := List.forall_mem_cons.mp h
    rw [List.flatMap_cons, ← List.append_assoc]
    rcases hf.cases with hp | hp | ⟨hne, hp, _⟩
    · rw [hp, List.append_nil]
      refine ih hps hc (ht.imp_right fun ⟨q, hq, hq'⟩ => ?_)
      rcases List.mem_cons.mp hq with rfl | hq
      · exact absurd hp hq'.left
      · exact ⟨q, hq, hq'⟩
    · have hline : splitLines [] (carry ++ p.2 ++ ps.flatMap (·.2)) =
          (carry ++ p.1) :: splitLines [] (ps.flatMap (·.2)) := by
        have hpr : Printable (carry ++ p.1) := by
          rcases hc with rfl | hc
          · exact hf.record.printable
          · exact hc.printable.append hf.record.printable
        rw [of_decide_eq_true hp, ← List.append_assoc, List.append_assoc, List.singleton_append,
          splitLines_line hpr]
        rfl
      rw [hline]
      rcases hc with rfl | hc
      · -- the line is that of the record alone
        obtain ⟨q, hq, hq'⟩ := ht.resolve_left (by simp)
        have hq : q ∈ ps := by
          rcases List.mem_cons.mp hq with rfl | hq
          · exact absurd hp (by simp [hq'.right])
          · exact hq
        obtain ⟨hne, hbad⟩ := ih hps (.inl rfl) (.inr ⟨q, hq, hq'⟩)
        rw [List.nil_append] at hne hbad ⊢
        refine ⟨by simp [hne], hbad.imp (fun hl => ?_) fun ⟨line, hm, hu⟩ => ?_⟩
        · rwa [List.getLast?_append_of_ne_nil _ hne]
        · exact ⟨line, List.mem_cons_of_mem _ hm, hu⟩
      · refine ⟨by simp [hc.ne_nil], .inr ⟨_, List.mem_cons_self, hc.unreadable hf.record⟩⟩
    · have hb : IsBroken (carry ++ p.2) := by
        rcases hc with rfl | hc
        · exact hf.record.isBroken hp hne
        · exact hc.append hf.record hp hne
      exact ih hps (.inr hb) (.inl hb.ne_nil)

end Lines

end HostEvidence
