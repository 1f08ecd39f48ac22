import ExtManager.Attestation.Profile
import ExtManager.Codec.Fallible

namespace Profile

open Scanner (bind_eq_ok)

section

variable {α β : Type} {code : AttestationErrorCode}

theorem require_ok {p : Prop} [Decidable p] : require p code = .ok () ↔ p := by
  unfold require
  split
  case isTrue h  => exact ⟨fun _ => h, fun _ => rfl⟩
  case isFalse h => exact ⟨nofun, (absurd · h)⟩

theorem require_bind {p : Prop} [Decidable p] {k : Unit → Except Failure β} {b : β} :
    require p code >>= k = .ok b ↔ p ∧ k () = .ok b := by
  rw [bind_eq_ok]
  exact ⟨fun ⟨_, h, hk⟩ => ⟨require_ok.mp h, hk⟩, fun ⟨h, hk⟩ => ⟨(), require_ok.mpr h, hk⟩⟩

theorem orFail_ok {o : Option α} {a : α} : orFail code o = .ok a ↔ o = some a := by
  cases o
  case none   => exact ⟨nofun, nofun⟩
  case some b => exact ⟨fun h => Except.ok.inj h ▸ rfl, fun h => Option.some.inj h ▸ rfl⟩

theorem orFail_bind {o : Option α} {k : α → Except Failure β} {b : β} :
    orFail code o >>= k = .ok b ↔ ∃ a, o = some a ∧ k a = .ok b := by
  simp only [bind_eq_ok, orFail_ok]

theorem require_error {p : Prop} [Decidable p] {e : Failure} (h : require p code = .error e) :
    e = .attestation code := by
  unfold require at h
  split at h
  case isTrue  => cases h
  case isFalse => exact (Except.error.inj h).symm

theorem orFail_error {o : Option α} {e : Failure} (h : orFail code o = .error e) :
    e = .attestation code := by
  cases o
  case none   => exact (Except.error.inj h).symm
  case some a => cases h

end

section

variable {p : Nat} {b : Bytes} {t : Text}

theorem digit_lt {n : Nat} (h : n < 64) :
    Base64.digit n < 0x80 ∧ Base64.digit n ≠ '='.toNat ∧ Base64.digit n ≠ '.'.toNat := by
  have hall : ∀ n : Fin 64, Base64.digit n.val < 0x80 ∧ Base64.digit n.val ≠ '='.toNat ∧
      Base64.digit n.val ≠ '.'.toNat := by decide
  exact hall ⟨n, h⟩

theorem mem_b64url (h : p ∈ b64url b) : ∃ n < 64, p = Base64.digit n := by
  unfold b64url at h
  fun_induction Base64.encode b
  case case1 => cases h
  case case2 a =>
    have ha := a.toNat_lt
    rcases List.mem_cons.mp h with rfl | h
    · exact ⟨_, by omega, rfl⟩
    · exact ⟨_, by omega, List.mem_singleton.mp h⟩
  case case3 a b =>
    have ha := a.toNat_lt
    have hb := b.toNat_lt
    rcases List.mem_cons.mp h with rfl | h
    · exact ⟨_, by omega, rfl⟩
    rcases List.mem_cons.mp h with rfl | h
    · exact ⟨_, by omega, rfl⟩
    · exact ⟨_, by omega, List.mem_singleton.mp h⟩
  case case4 a b c r ih =>
    have ha := a.toNat_lt
    have hb := b.toNat_lt
    have hc := c.toNat_lt
    rcases List.mem_cons.mp h with rfl | h
    · exact ⟨_, by omega, rfl⟩
    rcases List.mem_cons.mp h with rfl | h
    · exact ⟨_, by omega, rfl⟩
    rcases List.mem_cons.mp h with rfl | h
    · exact ⟨_, by omega, rfl⟩
    rcases List.mem_cons.mp h with rfl | h
    · exact ⟨_, by omega, rfl⟩
    · exact ih h

theorem length_b64url : (b64url b).length % 4 ≠ 1 := by
  unfold b64url
  fun_induction Base64.encode b
  case case4 ih =>
    simp only [List.length_cons]
    omega
  all_goals simp

theorem dot_notMem_b64url : '.'.toNat ∉ b64url b := by
  intro h
  have ⟨n, hn, he⟩ := mem_b64url h
  exact (digit_lt hn).right.right he.symm

-- A segment has one spelling.
theorem b64urlDecode_iff : b64urlDecode t = .ok b ↔ t = b64url b := by
  simp only [b64urlDecode, require_bind, orFail_bind, Except.ok.injEq]
  constructor
  · rintro ⟨-, _, -, h, rfl⟩
    exact h.symm
  · rintro rfl
    refine ⟨⟨?_, fun h => ?_, length_b64url, ?_⟩, b, Base64.decode_encode, rfl, rfl⟩
    · refine List.all_eq_true.mpr fun p hp => ?_
      have ⟨n, hn, he⟩ := mem_b64url hp
      exact decide_eq_true (he ▸ (digit_lt hn).left)
    · have ⟨n, hn, he⟩ := mem_b64url h
      exact (digit_lt hn).right.left he.symm
    · refine List.all_eq_true.mpr fun p hp => ?_
      have ⟨n, hn, he⟩ := mem_b64url hp
      rw [he, Base64.value?_digit hn]
      rfl

-- What is no segment is refused, with one error.
theorem b64urlDecode_error (h : ∀ b, t ≠ b64url b) :
    b64urlDecode t = .error (.attestation .malformedJws) := by
  cases hd : b64urlDecode t
  case ok b    => exact absurd (b64urlDecode_iff.mp hd) (h b)
  case error e =>
    unfold b64urlDecode at hd
    rcases Fallible.bind_error.mp hd with he | ⟨_, _, hd⟩
    · exact congrArg _ (require_error he)
    rcases Fallible.bind_error.mp hd with he | ⟨_, _, hd⟩
    · exact congrArg _ (orFail_error he)
    rcases Fallible.bind_error.mp hd with he | ⟨_, _, ⟨⟩⟩
    exact congrArg _ (require_error he)

end

-- What is read has its keys in order.
section

variable {items result fields : Fields} {raw : Bytes}

theorem pairs_foldlM {acc : Fields} (h : acc.Sorted) (hr : items.foldlM addPair acc = .ok result) :
    result.Sorted ∧ (items.map (·.1)).Nodup ∧ (∀ f ∈ items, f.1 ∉ acc.keys) ∧
      (∀ f, f ∈ result ↔ f ∈ acc ∨ f ∈ items) ∧
      result = items.foldl (fun result f => Fields.insert result f.1 f.2) acc := by
  induction items generalizing acc
  case nil =>
    cases hr
    exact ⟨h, .nil, nofun, by simp, rfl⟩
  case cons item items ih =>
    rw [List.foldlM_cons] at hr
    have ⟨acc', hacc, hr⟩ := bind_eq_ok.mp hr
    have ⟨hk, hacc⟩ := require_bind.mp hacc
    cases hacc
    have ⟨hs, hn, hd, hm, he⟩ := ih (Fields.insert_sorted h hk) hr
    have hkeys {f} (hf : f ∈ items) : f.1 ≠ item.1 ∧ f.1 ∉ acc.keys :=
      not_or.mp fun h => hd f hf (Fields.keys_insert.mem_iff.mpr (List.mem_cons.mpr h))
    refine ⟨hs, List.nodup_cons.mpr ⟨fun hmem => ?_, hn⟩,
      List.forall_mem_cons.mpr ⟨hk, fun f hf => (hkeys hf).right⟩, fun f => ?_, he⟩
    · have ⟨f, hf, he⟩ := List.mem_map.mp hmem
      exact (hkeys hf).left he
    · rw [hm, Fields.mem_insert, List.mem_cons]
      tauto

theorem pairs_ok (h : pairs items = .ok result) :
    result.Sorted ∧ (items.map (·.1)).Nodup ∧ (∀ f, f ∈ result ↔ f ∈ items) ∧
      result = items.foldl (fun result f => Fields.insert result f.1 f.2) [] := by
  have ⟨hs, hn, _, hm, he⟩ := pairs_foldlM .nil h
  exact ⟨hs, hn, fun f => (hm f).trans (by simp), he⟩

theorem fields_ordered {f : Fields} (h : Scanner.Fields.All Value.Ordered (fun _ _ => True) f) :
    ∀ g ∈ f, g.2.Ordered := by
  induction f
  case nil => exact nofun
  case cons g f ih => exact List.forall_mem_cons.mpr ⟨h.2.1, ih h.2.2⟩

theorem reader_keeps : Scanner.Keeps reader Value.Ordered fun _ _ => True where
  null   := .null
  bool   := .bool
  str    := .str
  arr    := .arr
  key _  := trivial
  number := by
    intro n v h
    simp only [reader] at h
    repeat' split at h
    all_goals cases h
    · exact .int
    · exact .float
  obj    := by
    intro f r hf hr
    have ⟨hs, _, hm, _⟩ := pairs_ok hr
    exact .obj hs fun g hg => fields_ordered hf g (List.mem_reverse.mp ((hm g).mp hg))

theorem parseStrict_ok (h : parseStrict raw = .ok fields) :
    ∃ t, decode raw = some t ∧ Scanner.read reader t = .ok (.obj fields) := by
  have ⟨t, ht, h⟩ := orFail_bind.mp h
  have ⟨v, hv, h⟩ := bind_eq_ok.mp h
  split at h
  all_goals cases h
  exact ⟨t, ht, hv⟩

theorem parseStrict_ordered (h : parseStrict raw = .ok fields) : (Value.obj fields).Ordered :=
  have ⟨_, _, hv⟩ := parseStrict_ok h
  Scanner.read_keeps reader_keeps hv

end

section

variable {v : Option Value} {t : Text} {n : Int} {texts : List Text} {fields value : Fields}
variable {s : AttestationStatement} {p : ProcessStatement}

theorem text?_iff : text? v = some t ↔ v = some (.str t) := by
  unfold text?
  split
  case h_1 => simp
  case h_2 h => exact ⟨nofun, fun he => absurd he (h t)⟩

theorem int?_iff : int? v = some n ↔ v = some (.int n) := by
  unfold int?
  split
  case h_1 => simp
  case h_2 h => exact ⟨nofun, fun he => absurd he (h n)⟩

theorem fields?_iff : fields? v = some fields ↔ v = some (.obj fields) := by
  unfold fields?
  split
  case h_1 => simp
  case h_2 h => exact ⟨nofun, fun he => absurd he (h fields)⟩

theorem mapM_text?_iff {items : List Value} :
    (items.mapM fun v => text? (some v)) = some texts ↔ items = texts.map .str := by
  induction items generalizing texts
  case nil => cases texts <;> simp
  case cons v items ih =>
    rw [List.mapM_cons]
    cases texts
    case nil => simp [Option.bind_eq_some_iff]
    case cons t texts => simp [Option.bind_eq_some_iff, text?_iff, ih]

theorem texts?_iff : texts? v = some texts ↔ v = some (.arr (texts.map .str)) := by
  unfold texts?
  split
  case h_1 => simp [mapM_text?_iff]
  case h_2 h => exact ⟨nofun, fun he => absurd he (h _)⟩

theorem sameKeys_iff {names : List Text} :
    sameKeys fields names ↔ ∀ n, n ∈ fields.keys ↔ n ∈ names := by
  simp only [sameKeys, Bool.and_eq_true, List.all_eq_true, decide_eq_true_eq]
  exact ⟨fun ⟨h, h'⟩ n => ⟨h n, h' n⟩, fun h => ⟨fun n => (h n).mp, fun n => (h n).mpr⟩⟩

def processKeys : List Text :=
  ["epoch", "host", "ordinal", "role", "start_identity"].map (·.points)

def statementKeys : List Text :=
  ["artifact_digest", "challenge_nonce", "critical_claims", "event", "evidence_digest",
    "expires_at", "issued_at", "issuer", "kid", "launch_id", "obligation", "observed_at", "plan_id",
    "plugin_id", "process", "profile", "schema", "subject"].map (·.points)

theorem processKeys_sorted : processKeys.Pairwise (· < ·) := by
  decide

theorem statementKeys_sorted : statementKeys.Pairwise (· < ·) := by
  decide +kernel

theorem headerFields_sorted : headerFields.Pairwise (· < ·) := by
  decide

theorem mem_processKeys {n : Text} : n ∈ processFields ↔ n ∈ processKeys :=
  List.Perm.mem_iff (by decide)

theorem mem_statementKeys {n : Text} : n ∈ topFields ↔ n ∈ statementKeys :=
  List.Perm.mem_iff (by decide +kernel)

theorem ProcessStatement.toDict_sorted : p.toDict.Sorted :=
  List.pairwise_map.mp processKeys_sorted

theorem AttestationStatement.toDict_sorted : s.toDict.Sorted :=
  List.pairwise_map.mp statementKeys_sorted

theorem ProcessStatement.toDict_ordered : (Value.obj p.toDict).Ordered := by
  refine .obj toDict_sorted ?_
  simp only [toDict, List.forall_mem_cons]
  exact ⟨.int, .str, .int, .str, .str, nofun⟩

theorem AttestationStatement.toDict_ordered : (Value.obj s.toDict).Ordered := by
  have hc : (Value.arr (s.criticalClaims.map .str)).Ordered := .arr fun v hv => by
    have ⟨_, _, he⟩ := List.mem_map.mp hv
    exact he ▸ .str
  refine .obj toDict_sorted ?_
  simp only [toDict, List.forall_mem_cons]
  exact ⟨.str, .str, hc, .str, .str, .int, .int, .str, .str, .str, .str, .int, .str, .str,
    ProcessStatement.toDict_ordered, .str, .str, .str, nofun⟩

theorem protectedHeader_sorted : (protectedHeader t).Sorted :=
  List.pairwise_map.mp headerFields_sorted

theorem protectedHeader_ordered : (Value.obj (protectedHeader t)).Ordered := by
  refine .obj protectedHeader_sorted ?_
  simp only [protectedHeader, List.forall_mem_cons]
  exact ⟨.str, .arr (List.forall_mem_singleton.mpr .str), .str, .str, .str, nofun⟩

-- Fields that are read as a process or a statement are its fields.
theorem ProcessStatement.fromDict_iff (h : fields.Sorted) (hk : sameKeys fields processFields) :
    ProcessStatement.fromDict fields = some p ↔ fields = p.toDict := by
  constructor
  · intro hp
    simp only [fromDict, Option.bind_eq_bind, Option.bind_eq_some_iff, Option.some.injEq,
      text?_iff, int?_iff] at hp
    obtain ⟨host, hhost, role, hrole, ordinal, hordinal, start, hstart, epoch, hepoch, rfl⟩ := hp
    have hkeys : fields.keys = processKeys :=
      Fields.keys_eq h processKeys_sorted fun n => (sameKeys_iff.mp hk n).trans mem_processKeys
    refine Fields.ext h toDict_sorted hkeys ?_
    rw [hkeys]
    simp only [processKeys, List.map_cons, List.map_nil, List.forall_mem_cons]
    exact ⟨hepoch, hhost, hordinal, hrole, hstart, nofun⟩
  · rintro rfl
    rfl

theorem AttestationStatement.fromDict_toDict :
    AttestationStatement.fromDict s.toDict = some s := by
  have hc : texts? (s.toDict.get? "critical_claims".points) = some s.criticalClaims :=
    texts?_iff.mpr rfl
  unfold fromDict
  rw [hc]
  rfl

theorem AttestationStatement.toDict_of_fromDict (h : (Value.obj value).Ordered)
    (hk : sameKeys value topFields)
    (hp : ∀ process, fields? (value.get? "process".points) = some process →
      sameKeys process processFields)
    (hs : AttestationStatement.fromDict value = some s) : value = s.toDict := by
  have ⟨schema, hschema, hs⟩ := Option.bind_eq_some_iff.mp hs
  have ⟨profile, hprofile, hs⟩ := Option.bind_eq_some_iff.mp hs
  have ⟨issuer, hissuer, hs⟩ := Option.bind_eq_some_iff.mp hs
  have ⟨kid, hkid, hs⟩ := Option.bind_eq_some_iff.mp hs
  have ⟨subject, hsubject, hs⟩ := Option.bind_eq_some_iff.mp hs
  have ⟨plan, hplan, hs⟩ := Option.bind_eq_some_iff.mp hs
  have ⟨launch, hlaunch, hs⟩ := Option.bind_eq_some_iff.mp hs
  have ⟨plugin, hplugin, hs⟩ := Option.bind_eq_some_iff.mp hs
  have ⟨artifact, hartifact, hs⟩ := Option.bind_eq_some_iff.mp hs
  have ⟨process, hprocess, hs⟩ := Option.bind_eq_some_iff.mp hs
  have ⟨fields, hfields, hprocess⟩ := Option.bind_eq_some_iff.mp hprocess
  have ⟨obligation, hobligation, hs⟩ := Option.bind_eq_some_iff.mp hs
  have ⟨event, hevent, hs⟩ := Option.bind_eq_some_iff.mp hs
  have ⟨observed, hobserved, hs⟩ := Option.bind_eq_some_iff.mp hs
  have ⟨issued, hissued, hs⟩ := Option.bind_eq_some_iff.mp hs
  have ⟨expires, hexpires, hs⟩ := Option.bind_eq_some_iff.mp hs
  have ⟨nonce, hnonce, hs⟩ := Option.bind_eq_some_iff.mp hs
  have ⟨evidence, hevidence, hs⟩ := Option.bind_eq_some_iff.mp hs
  have ⟨critical, hcritical, hs⟩ := Option.bind_eq_some_iff.mp hs
  cases hs
  obtain ⟨hsorted, hdeep⟩ : value.Sorted ∧ ∀ f ∈ value, f.2.Ordered := by
    cases h with | obj hs hd => exact ⟨hs, hd⟩
  have hsame := hp fields hfields
  rw [fields?_iff] at hfields
  obtain ⟨hps, -⟩ : fields.Sorted ∧ ∀ f ∈ fields, f.2.Ordered := by
    cases hdeep _ (Fields.mem_of_get? hfields) with | obj hs hd => exact ⟨hs, hd⟩
  rw [(ProcessStatement.fromDict_iff hps hsame).mp hprocess] at hfields
  have hkeys : value.keys = statementKeys :=
    Fields.keys_eq hsorted statementKeys_sorted fun n =>
      (sameKeys_iff.mp hk n).trans mem_statementKeys
  refine Fields.ext hsorted toDict_sorted hkeys ?_
  rw [hkeys]
  simp only [statementKeys, List.map_cons, List.map_nil, List.forall_mem_cons]
  exact ⟨text?_iff.mp hartifact, text?_iff.mp hnonce, texts?_iff.mp hcritical, text?_iff.mp hevent,
    text?_iff.mp hevidence, int?_iff.mp hexpires, int?_iff.mp hissued, text?_iff.mp hissuer,
    text?_iff.mp hkid, text?_iff.mp hlaunch, text?_iff.mp hobligation, int?_iff.mp hobserved,
    text?_iff.mp hplan, text?_iff.mp hplugin, hfields, text?_iff.mp hprofile,
    text?_iff.mp hschema, text?_iff.mp hsubject, nofun⟩

theorem validateStatement_toDict (h : validateStatement value = .ok s)
    (ho : (Value.obj value).Ordered) : value = s.toDict := by
  simp only [validateStatement, require_bind, orFail_bind, orFail_ok] at h
  obtain ⟨hk, process, hprocess, hkp, -, -, -, -, _, -, -, -, hs⟩ := h
  refine AttestationStatement.toDict_of_fromDict ho hk (fun process' hp => ?_) hs
  cases hprocess.symm.trans hp
  exact hkp

theorem AttestationStatement.toDict_inj {s' : AttestationStatement} (h : s.toDict = s'.toDict) :
    s = s' :=
  Option.some.inj <| fromDict_toDict.symm.trans <| h ▸ fromDict_toDict

theorem header_eq (ho : (Value.obj fields).Ordered) (hk : sameKeys fields headerFields)
    (halg : fields.get? "alg".points = some (.str algorithm))
    (htyp : fields.get? "typ".points = some (.str type))
    (hcrit : fields.get? "crit".points = some (.arr [.str "ecpa_profile".points]))
    (hprofile : fields.get? "ecpa_profile".points = some (.str profile))
    (hkid : text? (fields.get? "kid".points) = some t) : fields = protectedHeader t := by
  have hs : fields.Sorted := by cases ho with | obj hs _ => exact hs
  have hkeys : fields.keys = headerFields :=
    Fields.keys_eq hs headerFields_sorted (sameKeys_iff.mp hk)
  refine Fields.ext hs protectedHeader_sorted hkeys ?_
  rw [hkeys]
  simp only [headerFields, List.map_cons, List.map_nil, List.forall_mem_cons]
  exact ⟨halg, hcrit, hprofile, text?_iff.mp hkid, htyp, nofun⟩

end

section

variable {store : TrustStore} {s : AttestationStatement} {entry : TrustEntry} {now : Int}

-- The key stands in the store for the issuer and speaks for the subject now.
structure TrustStore.Trusts (store : TrustStore) (entry : TrustEntry) (s : AttestationStatement)
    (now : Int) : Prop where
  find       : store.find? s.issuer s.kid = some entry
  authorizes : entry.authorizes s.subject now

theorem lookup_iff : store.lookup s.issuer s.kid s.subject now = .ok entry ↔
    store.Trusts entry s now := by
  simp only [TrustStore.lookup, orFail_bind, require_bind, Except.ok.injEq]
  constructor
  · rintro ⟨_, hf, ha, rfl⟩
    exact ⟨hf, ha⟩
  · exact fun ⟨hf, ha⟩ => ⟨entry, hf, ha, rfl⟩

theorem segments?_b64url {header signature : Bytes} :
    segments? (b64url header ++ '.'.toNat :: '.'.toNat :: b64url signature) =
      some (b64url header, b64url signature) := by
  have hi : b64url header ++ '.'.toNat :: '.'.toNat :: b64url signature =
      ['.'.toNat].intercalate [b64url header, [], b64url signature] := by simp [List.intercalate]
  have hdot : ∀ t ∈ [b64url header, [], b64url signature], '.'.toNat ∉ t := by
    refine List.forall_mem_cons.mpr ⟨dot_notMem_b64url, List.forall_mem_cons.mpr ⟨nofun, ?_⟩⟩
    exact List.forall_mem_singleton.mpr dot_notMem_b64url
  rw [segments?, hi, List.splitOn_intercalate _ hdot nofun]

theorem jws_of_segments? {jws header signature : Text}
    (h : segments? jws = some (header, signature)) :
    jws = header ++ '.'.toNat :: '.'.toNat :: signature := by
  unfold segments? at h
  split at h
  all_goals cases h
  case h_1 hs =>
    have hi : ['.'.toNat].intercalate (jws.splitOn '.'.toNat) = jws := List.intercalate_splitOn _
    rw [hs] at hi
    simpa [List.intercalate] using hi.symm

structure AttestationStatement.Timely (s : AttestationStatement)
    (now clockSkew maxTtl maxObservationAge : Int) : Prop where
  issued   : s.issuedAt ≤ now + clockSkew
  observed : s.observedAt ≤ now + clockSkew
  expires  : now - clockSkew ≤ s.expiresAt
  order    : s.observedAt ≤ s.issuedAt ∧ s.issuedAt ≤ s.expiresAt
  ttl      : s.expiresAt - s.issuedAt ≤ maxTtl
  age      : now - s.observedAt ≤ maxObservationAge + clockSkew

end

section

variable [Jcs]

-- The canonical form of an object is read as the object.
def Jcs.Lawful : Prop :=
  ∀ fields b, (Value.obj fields).Ordered → Profile.canonicalize fields = .ok b →
    parseStrict b = .ok fields

-- The envelope is the encoding of the statement with the signature.
structure SignedEnvelope.Encodes (e : SignedEnvelope) (s : AttestationStatement)
    (header signature : Bytes) : Prop where
  jws          : e.detachedJws = b64url header ++ '.'.toNat :: '.'.toNat :: b64url signature
  canonical    : canonicalize (protectedHeader s.kid) = .ok header ∧
    canonicalize s.toDict = .ok e.payload
  parses       : parseStrict header = .ok (protectedHeader s.kid) ∧
    parseStrict e.payload = .ok s.toDict
  statement    : validateStatement s.toDict = .ok s
  schema       : s.schema = schema
  profile      : s.profile = profile
  critical     : s.criticalClaims = []

variable [Ed25519] {e : SignedEnvelope} {store : TrustStore}
variable {now clockSkew maxTtl maxObservationAge : Int} {s : AttestationStatement}

omit [Ed25519] in
-- A canonical form is that of one statement.
theorem canonical_inj {s' : AttestationStatement} {b : Bytes} (hj : Jcs.Lawful)
    (h : canonicalize s.toDict = .ok b) (h' : canonicalize s'.toDict = .ok b) : s' = s := by
  have hp := hj _ _ AttestationStatement.toDict_ordered h
  have hp' := hj _ _ AttestationStatement.toDict_ordered h'
  exact AttestationStatement.toDict_inj (Except.ok.inj (hp'.symm.trans hp))

-- What `verify` accepts.
theorem verify_iff : verify e store now clockSkew maxTtl maxObservationAge = .ok s ↔
    ∃ header signature entry, e.Encodes s header signature ∧ store.Trusts entry s now ∧
      Ed25519.verify entry.publicKey.raw signature (signingInput (b64url header) e.payload) ∧
      s.Timely now clockSkew maxTtl maxObservationAge := by
  constructor
  · intro h
    have ⟨⟨header₀, signature₀⟩, hjws, h⟩ := orFail_bind.mp h
    have ⟨header, hheader, h⟩ := bind_eq_ok.mp h
    have ⟨fields, hfields, h⟩ := bind_eq_ok.mp h
    have ⟨hkeys, h⟩ := require_bind.mp h
    have ⟨canonical, hcanonical, h⟩ := bind_eq_ok.mp h
    have ⟨he, h⟩ := require_bind.mp h
    have ⟨halg, h⟩ := require_bind.mp h
    have ⟨htyp, h⟩ := require_bind.mp h
    have ⟨hcrit, h⟩ := require_bind.mp h
    have ⟨hprofile, h⟩ := require_bind.mp h
    have ⟨kid, hkid, h⟩ := orFail_bind.mp h
    have ⟨value, hvalue, h⟩ := bind_eq_ok.mp h
    have ⟨payload, hpayload, h⟩ := bind_eq_ok.mp h
    have ⟨hep, h⟩ := require_bind.mp h
    have ⟨statement, hstatement, h⟩ := bind_eq_ok.mp h
    have ⟨⟨hschema, hsprofile⟩, h⟩ := require_bind.mp h
    have ⟨hskid, h⟩ := require_bind.mp h
    have ⟨hcritical, h⟩ := require_bind.mp h
    have ⟨entry, hentry, h⟩ := bind_eq_ok.mp h
    have ⟨signature, hsignature, h⟩ := bind_eq_ok.mp h
    have ⟨hverify, h⟩ := require_bind.mp h
    have ⟨⟨hissued, hobserved⟩, h⟩ := require_bind.mp h
    have ⟨hexpires, h⟩ := require_bind.mp h
    have ⟨horder, h⟩ := require_bind.mp h
    have ⟨httl, h⟩ := require_bind.mp h
    have ⟨hage, h⟩ := require_bind.mp h
    cases h
    have hf := header_eq (parseStrict_ordered hfields) hkeys halg htyp hcrit hprofile hkid
    have hv := validateStatement_toDict hstatement (parseStrict_ordered hvalue)
    have hj := jws_of_segments? hjws
    subst he hep hf hv hskid
    cases b64urlDecode_iff.mp hheader
    cases b64urlDecode_iff.mp hsignature
    exact ⟨header, signature, entry, ⟨hj, ⟨hcanonical, hpayload⟩, ⟨hfields, hvalue⟩, hstatement,
      hschema, hsprofile, hcritical⟩, lookup_iff.mp hentry, hverify,
      ⟨hissued, hobserved, hexpires, horder, httl, hage⟩⟩
  · intro ⟨header, signature, entry, he, ht, hv, htime⟩
    have hkeys : sameKeys (protectedHeader s.kid) headerFields := sameKeys_iff.mpr fun _ => Iff.rfl
    refine orFail_bind.mpr ⟨_, he.jws ▸ segments?_b64url, ?_⟩
    refine bind_eq_ok.mpr ⟨header, b64urlDecode_iff.mpr rfl, ?_⟩
    refine bind_eq_ok.mpr ⟨_, he.parses.left, ?_⟩
    refine require_bind.mpr ⟨hkeys, ?_⟩
    refine bind_eq_ok.mpr ⟨_, he.canonical.left, ?_⟩
    refine require_bind.mpr ⟨rfl, require_bind.mpr ⟨rfl, require_bind.mpr ⟨rfl, ?_⟩⟩⟩
    refine require_bind.mpr ⟨rfl, require_bind.mpr ⟨rfl, orFail_bind.mpr ⟨s.kid, rfl, ?_⟩⟩⟩
    refine bind_eq_ok.mpr ⟨_, he.parses.right, bind_eq_ok.mpr ⟨_, he.canonical.right, ?_⟩⟩
    refine require_bind.mpr ⟨rfl, bind_eq_ok.mpr ⟨s, he.statement, ?_⟩⟩
    refine require_bind.mpr ⟨⟨he.schema, he.profile⟩, require_bind.mpr ⟨rfl, ?_⟩⟩
    refine require_bind.mpr ⟨he.critical, bind_eq_ok.mpr ⟨entry, lookup_iff.mpr ht, ?_⟩⟩
    refine bind_eq_ok.mpr ⟨signature, b64urlDecode_iff.mpr rfl, require_bind.mpr ⟨hv, ?_⟩⟩
    refine require_bind.mpr ⟨⟨htime.issued, htime.observed⟩, require_bind.mpr ⟨htime.expires, ?_⟩⟩
    refine require_bind.mpr ⟨htime.order, require_bind.mpr ⟨htime.ttl, ?_⟩⟩
    exact require_bind.mpr ⟨htime.age, rfl⟩

end

end Profile
