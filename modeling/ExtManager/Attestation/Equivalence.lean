import ExtManager.Attestation.Agree

open Scanner (bind_eq_ok)

namespace GoVerifier

open Profile

section

variable {v : Value} {fields : Fields} {t kid : Text} {n : Int} {s : AttestationStatement}

-- What is encoded is clean.
theorem str_clean (h : validateValues (.str t) = .ok ()) : (Value.str t).Clean :=
  .str (require_ok.mp h)

theorem int_clean (h : validateValues (.int n) = .ok ()) : (Value.int n).Clean :=
  have ⟨hl, hu⟩ := require_ok.mp h
  .int hl hu

theorem strs_clean {texts : List Text} (h : validateValues (.arr (texts.map .str)) = .ok ()) :
    (Value.arr (texts.map .str)).Clean := by
  refine .arr fun v hv => ?_
  have ⟨t, _, he⟩ := List.mem_map.mp hv
  exact he ▸ str_clean (he ▸ validateItems_ok.mp h v hv)

theorem scalar_keys (h : ∀ n ∈ fields.keys, Unicode.scalar n) : ∀ f ∈ fields, Unicode.scalar f.1 :=
  fun _ hf => h _ (List.mem_map_of_mem hf)

theorem processKeys_scalar : ∀ n ∈ processKeys, Unicode.scalar n := by
  decide

theorem statementKeys_scalar : ∀ n ∈ statementKeys, Unicode.scalar n := by
  decide +kernel

theorem headerFields_scalar : ∀ n ∈ headerFields, Unicode.scalar n := by
  decide

theorem process_clean {p : ProcessStatement} (h : validateValues (.obj p.toDict) = .ok ()) :
    (Value.obj p.toDict).Clean := by
  refine .obj (scalar_keys processKeys_scalar) ?_
  have h := validateFields_ok.mp h
  simp only [ProcessStatement.toDict, List.forall_mem_cons] at h ⊢
  obtain ⟨hepoch, hhost, hordinal, hrole, hstart, _⟩ := h
  exact ⟨int_clean hepoch, str_clean hhost, int_clean hordinal, str_clean hrole, str_clean hstart,
    List.forall_mem_nil _⟩

theorem statement_clean (h : validateValues (.obj s.toDict) = .ok ()) :
    (Value.obj s.toDict).Clean := by
  refine .obj (scalar_keys statementKeys_scalar) ?_
  have h := validateFields_ok.mp h
  simp only [AttestationStatement.toDict, List.forall_mem_cons] at h ⊢
  obtain ⟨h₁, h₂, h₃, h₄, h₅, h₆, h₇, h₈, h₉, h₁₀, h₁₁, h₁₂, h₁₃, h₁₄, h₁₅, h₁₆, h₁₇, h₁₈, _⟩ := h
  exact ⟨str_clean h₁, str_clean h₂, strs_clean h₃, str_clean h₄, str_clean h₅, int_clean h₆,
    int_clean h₇, str_clean h₈, str_clean h₉, str_clean h₁₀, str_clean h₁₁, int_clean h₁₂,
    str_clean h₁₃, str_clean h₁₄, process_clean h₁₅, str_clean h₁₆, str_clean h₁₇, str_clean h₁₈,
    List.forall_mem_nil _⟩

theorem header_clean (h : validateValues (.obj (protectedHeader kid)) = .ok ()) :
    (Value.obj (protectedHeader kid)).Clean := by
  refine .obj (scalar_keys headerFields_scalar) ?_
  have h := validateFields_ok.mp h
  simp only [protectedHeader, List.forall_mem_cons] at h ⊢
  obtain ⟨halg, hcrit, hprofile, hkid, htyp, _⟩ := h
  exact ⟨str_clean halg, @strs_clean ["ecpa_profile".points] hcrit, str_clean hprofile,
    str_clean hkid, str_clean htyp, List.forall_mem_nil _⟩

theorem clean_of_canonicalize [Jcs] {b : Bytes} (h : canonicalize fields = .ok b) :
    validateValues (.obj fields) = .ok () :=
  have ⟨(), hv, _⟩ := bind_eq_ok.mp h
  hv

theorem decodeHeader_protectedHeader : decodeHeader (protectedHeader kid) =
    some ⟨algorithm, kid, type, profile, ["ecpa_profile".points]⟩ :=
  rfl

theorem decodeHeader_iff {h : Header} : decodeHeader fields = some h ↔
    decodeText (fields.get? "alg".points) = some h.alg ∧
      decodeText (fields.get? "kid".points) = some h.kid ∧
      decodeText (fields.get? "typ".points) = some h.typ ∧
      decodeText (fields.get? "ecpa_profile".points) = some h.ecpaProfile ∧
      decodeTexts (fields.get? "crit".points) = some h.crit := by
  simp only [decodeHeader, Option.bind_eq_bind, Option.bind_eq_some_iff, Option.some.injEq]
  constructor
  · rintro ⟨alg, halg, kid, hkid, typ, htyp, profile, hprofile, crit, hcrit, rfl⟩
    exact ⟨halg, hkid, htyp, hprofile, hcrit⟩
  · exact fun ⟨halg, hkid, htyp, hprofile, hcrit⟩ =>
      ⟨_, halg, _, hkid, _, htyp, _, hprofile, _, hcrit, rfl⟩

theorem kid_ne_nil (h : validateStatement s.toDict = .ok s) : s.kid ≠ [] := by
  simp only [validateStatement, require_bind, orFail_bind] at h
  obtain ⟨-, -, -, -, hstrings, -⟩ := h
  exact of_decide_eq_true (hstrings "kid".points (by decide))

-- The times of a validated statement are safe integers.
theorem times_nonneg (h : validateStatement s.toDict = .ok s) : 0 ≤ s.observedAt ∧ 0 ≤ s.issuedAt ∧
    s.expiresAt ≤ maxSafeInteger := by
  simp only [validateStatement, require_bind, orFail_bind] at h
  obtain ⟨-, -, -, -, -, -, -, htimes, -⟩ := h
  simp only [timeFields, List.map_cons, List.map_nil, List.forall_mem_cons] at htimes
  obtain ⟨hobserved, hissued, hexpires, -⟩ := htimes
  exact ⟨(of_decide_eq_true hobserved).left, (of_decide_eq_true hissued).left,
    (of_decide_eq_true hexpires).right⟩

theorem sub_eq {a b : Int} (ha : a ≤ maxSafeInteger) (hb : 0 ≤ b) (h : b ≤ a) : sub a b = a - b := by
  unfold maxSafeInteger at ha
  exact Int.bmod_eq_of_le (by omega) (by omega)

end

-- Trust entries and keys.
section

variable {entries : List TrustEntry} {store : TrustStore} {issuer kid : Text}

-- A trust entry as a key of the vectors.
def KeyVector.of (e : TrustEntry) : KeyVector where
  issuer       := e.issuer
  kid          := e.kid
  publicKeyB64 := b64url e.publicKey.raw
  subjects     := e.subjects
  enabled      := e.enabled
  notBefore    := e.notBefore
  notAfter     := e.notAfter

def TrustEntry.name (e : TrustEntry) : Text :=
  keyName e.issuer e.kid

theorem loadKeys_eq {keys : Keys} : loadKeys (entries.map KeyVector.of) keys =
    some ((entries.map fun e => (TrustEntry.name e, KeyVector.of e)).reverse ++ keys) := by
  induction entries generalizing keys
  case nil => rfl
  case cons e entries ih =>
    have hd : decodeString (KeyVector.of e).publicKeyB64 = some e.publicKey.raw :=
      decodeString_b64url
    rw [List.map_cons, loadKeys, hd, Option.bind_eq_bind, Option.bind_some, if_pos e.publicKey.size,
      ih, List.map_cons, List.reverse_cons, List.append_assoc]
    rfl

theorem lookup_map {name : Text} : List.lookup name
    (entries.map fun e => (TrustEntry.name e, KeyVector.of e)) =
      (entries.find? fun e => TrustEntry.name e = name).map KeyVector.of := by
  induction entries
  case nil => rfl
  case cons e entries ih =>
    rw [List.map_cons, List.lookup_cons, List.find?_cons, ih]
    by_cases hn : TrustEntry.name e = name
    · rw [decide_eq_true hn, beq_iff_eq.mpr hn.symm]
      rfl
    · rw [decide_eq_false hn, beq_eq_false_iff_ne.mpr (Ne.symm hn)]

theorem entries_of_foldlM {start : TrustStore}
    (h : entries.foldlM TrustStore.add start = .ok store) :
    store.entries = entries.reverse ++ start.entries := by
  induction entries generalizing start
  case nil => exact Except.ok.inj h ▸ rfl
  case cons e entries ih =>
    have ⟨next, hn, h⟩ := bind_eq_ok.mp h
    unfold TrustStore.add at hn
    repeat' split at hn
    all_goals cases hn
    rw [ih h, List.reverse_cons, List.append_assoc]
    rfl

theorem entries_of_init (h : TrustStore.init entries = .ok store) :
    store.entries = entries.reverse :=
  (entries_of_foldlM h).trans (List.append_nil _)

-- The entry whose key is used for an issuer and kid: the last one of their joined name.
def keyFor? (store : TrustStore) (issuer kid : Text) : Option TrustEntry :=
  store.entries.find? fun e => TrustEntry.name e = keyName issuer kid

theorem lookup_loadKeys {keys : Keys} (hs : TrustStore.init entries = .ok store)
    (hk : loadKeys (entries.map KeyVector.of) [] = some keys) :
    keys.lookup (keyName issuer kid) = (keyFor? store issuer kid).map KeyVector.of := by
  cases loadKeys_eq.symm.trans hk
  rw [List.append_nil, ← List.map_reverse, ← entries_of_init hs]
  exact lookup_map

-- Without a NUL the two names of a key are read off the joined one.
theorem keyName_inj {issuer' kid' : Text} (hi : 0 ∉ issuer) (hi' : 0 ∉ issuer')
    (h : keyName issuer kid = keyName issuer' kid') : (issuer, kid) = (issuer', kid') := by
  induction issuer generalizing issuer'
  case nil =>
    rcases issuer' with _ | ⟨p, issuer'⟩
    · exact congrArg _ (List.cons.inj h).right
    · exact absurd (List.mem_cons.mpr (.inl (List.cons.inj h).left)) hi'
  case cons p issuer ih =>
    rcases issuer' with _ | ⟨p', issuer'⟩
    · exact absurd (List.mem_cons.mpr (.inl (List.cons.inj h).left.symm)) hi
    · have ⟨hp, h⟩ := List.cons.inj h
      have ht := ih (fun hm => hi (List.mem_cons_of_mem _ hm))
        (fun hm => hi' (List.mem_cons_of_mem _ hm)) h
      cases ht
      rw [hp]

end

section

variable [Jcs] [Transform] [Ed25519] {payload : Bytes} {jws : Text} {now : Int} {keys : Keys}
variable {s : AttestationStatement} {b : Option Binding}

-- What Go accepts.
theorem checkCase_iff (hj : JcsAgree) :
    checkCase ⟨b64url payload, jws, now, b⟩ keys = .ok s ↔
    ∃ header signature key raw, SignedEnvelope.Encodes ⟨payload, jws⟩ s header signature ∧
      keys.lookup (keyName s.issuer s.kid) = some key ∧
      (key.enabled ∧ s.subject ∈ key.subjects ∧ key.notBefore ≤ now ∧ now ≤ key.notAfter) ∧
      decodeString key.publicKeyB64 = some raw ∧
      Ed25519.verify raw signature (signingInput (b64url header) payload) ∧
      s.Timely now 0 defaultMaxTtl defaultMaxObservationAge := by
  constructor
  · intro h
    obtain ⟨payload', hp, h⟩ := orFail_bind.mp h
    cases decodeString_b64url.symm.trans hp
    obtain ⟨⟨header₀, signature₀⟩, hjws, h⟩ := orFail_bind.mp h
    obtain ⟨header, hheader, h⟩ := bind_eq_ok.mp h
    obtain ⟨headerValue, hfields, h⟩ := bind_eq_ok.mp h
    obtain ⟨fields, hmap, h⟩ := orFail_bind.mp h
    obtain ⟨hkeys, h⟩ := require_bind.mp h
    obtain ⟨hcrit, h⟩ := require_bind.mp h
    obtain ⟨hcanonical, h⟩ := require_bind.mp h
    obtain ⟨head, hhead, h⟩ := orFail_bind.mp h
    obtain ⟨halg, h⟩ := require_bind.mp h
    obtain ⟨htyp, h⟩ := require_bind.mp h
    obtain ⟨_, h⟩ := require_bind.mp h
    obtain ⟨hprofile, h⟩ := require_bind.mp h
    obtain ⟨payloadValue, hvalue, h⟩ := bind_eq_ok.mp h
    obtain ⟨value, hvmap, h⟩ := orFail_bind.mp h
    obtain ⟨canonical, htransform, h⟩ := orFail_bind.mp h
    obtain ⟨he, h⟩ := require_bind.mp h
    obtain ⟨⟨⟩, hvalid, h⟩ := bind_eq_ok.mp h
    obtain ⟨statement, hstatement, h⟩ := orFail_bind.mp h
    obtain ⟨⟨hsprofile, hschema⟩, h⟩ := require_bind.mp h
    obtain ⟨hkid, h⟩ := require_bind.mp h
    obtain ⟨hcritical, h⟩ := require_bind.mp h
    obtain ⟨key, hkey, h⟩ := orFail_bind.mp h
    obtain ⟨hauth, h⟩ := require_bind.mp h
    obtain ⟨signature, hsignature, h⟩ := bind_eq_ok.mp h
    obtain ⟨raw, hraw, h⟩ := orFail_bind.mp h
    obtain ⟨hverify, h⟩ := require_bind.mp h
    obtain ⟨⟨hissued, hobserved⟩, h⟩ := require_bind.mp h
    obtain ⟨hexpires, h⟩ := require_bind.mp h
    obtain ⟨⟨horder, httl, hage⟩, h⟩ := require_bind.mp h
    cases h
    cases fields?_iff.mp hmap
    cases fields?_iff.mp hvmap
    cases decodeB64_iff.mp hheader
    cases decodeB64_iff.mp hsignature
    subst he
    obtain ⟨hch, hoh, _⟩ := canonical_of_parseStrict hj hfields hcanonical
    obtain ⟨hcp, hop, _⟩ := canonical_of_parseStrict hj hvalue htransform
    have hvs := (validateStatementMap_iff hop).mp ⟨hvalid, hstatement⟩
    cases validateStatement_toDict hvs hop
    obtain ⟨dalg, dkid, dtyp, dprofile, _⟩ := decodeHeader_iff.mp hhead
    rw [halg, decodeText_iff (by decide)] at dalg
    rw [htyp, decodeText_iff (by decide)] at dtyp
    rw [hprofile, decodeText_iff (by decide)] at dprofile
    rw [← hkid, decodeText_iff (kid_ne_nil hvs)] at dkid
    have hsame := sameKeys_of_exactKeys headerFields_nodup hkeys
    cases header_eq hoh hsame dalg dtyp hcrit dprofile (text?_iff.mpr dkid)
    rw [← hkid] at hkey
    refine ⟨header, signature, key, raw, ⟨jws_of_segments? hjws, ⟨hch, hcp⟩,
      ⟨hj.lawful _ _ hoh hch, hj.lawful _ _ hop hcp⟩, hvs, hschema, hsprofile, hcritical⟩,
      hkey, hauth, hraw, hverify, ?_⟩
    obtain ⟨hobs, hiss, hexp⟩ := times_nonneg hvs
    rw [sub_eq hexp hiss horder.right] at httl
    rw [sub_eq (hexpires.trans hexp) hobs hobserved] at hage
    have hzero (n : Int) : n + 0 = n := Int.add_zero n
    exact {
      issued   := (hzero now).symm ▸ hissued
      observed := (hzero now).symm ▸ hobserved
      expires  := (Int.sub_zero now).symm ▸ hexpires
      order    := horder
      ttl      := httl
      age      := (hzero _).symm ▸ hage
    }
  · intro ⟨header, signature, key, raw, he, hkey, hauth, hraw, hverify, ht⟩
    have hvh := header_clean (clean_of_canonicalize he.canonical.left)
    have hvp := statement_clean (clean_of_canonicalize he.canonical.right)
    have hph := parseStrict_of_canonical hj protectedHeader_ordered hvh he.canonical.left
    have hpp := parseStrict_of_canonical hj AttestationStatement.toDict_ordered hvp
      he.canonical.right
    have hth := hj.transform _ _ protectedHeader_ordered he.canonical.left
    have htp := hj.transform _ _ AttestationStatement.toDict_ordered he.canonical.right
    obtain ⟨hvalid, hstatement⟩ :=
      (validateStatementMap_iff AttestationStatement.toDict_ordered).mpr he.statement
    have hkeys : exactKeys (protectedHeader s.kid) headerFields :=
      exactKeys_iff.mpr ⟨rfl, fun _ h => h⟩
    obtain ⟨hobs, hiss, hexp⟩ := times_nonneg he.statement
    obtain ⟨hissued, hobserved, hexpires, horder, httl, hage⟩ := ht
    simp only [Int.add_zero, Int.sub_zero] at hissued hobserved hexpires hage
    refine orFail_bind.mpr ⟨payload, decodeString_b64url, ?_⟩
    refine orFail_bind.mpr ⟨_, he.jws ▸ segments?_b64url, ?_⟩
    refine bind_eq_ok.mpr ⟨header, decodeB64_iff.mpr rfl, bind_eq_ok.mpr ⟨_, hph, ?_⟩⟩
    refine orFail_bind.mpr ⟨_, rfl, require_bind.mpr ⟨hkeys, require_bind.mpr ⟨rfl, ?_⟩⟩⟩
    refine require_bind.mpr ⟨hth, orFail_bind.mpr ⟨_, decodeHeader_protectedHeader, ?_⟩⟩
    refine require_bind.mpr ⟨rfl, require_bind.mpr ⟨rfl, require_bind.mpr ⟨rfl, ?_⟩⟩⟩
    refine require_bind.mpr ⟨rfl, bind_eq_ok.mpr ⟨_, hpp, orFail_bind.mpr ⟨_, rfl, ?_⟩⟩⟩
    refine orFail_bind.mpr ⟨payload, htp, require_bind.mpr ⟨rfl, ?_⟩⟩
    refine bind_eq_ok.mpr ⟨(), hvalid, orFail_bind.mpr ⟨s, hstatement, ?_⟩⟩
    refine require_bind.mpr ⟨⟨he.profile, he.schema⟩, require_bind.mpr ⟨rfl, ?_⟩⟩
    refine require_bind.mpr ⟨he.critical, orFail_bind.mpr ⟨key, hkey, ?_⟩⟩
    refine require_bind.mpr ⟨hauth, bind_eq_ok.mpr ⟨signature, decodeB64_iff.mpr rfl, ?_⟩⟩
    refine orFail_bind.mpr ⟨raw, hraw, require_bind.mpr ⟨hverify, ?_⟩⟩
    refine require_bind.mpr ⟨⟨hissued, hobserved⟩, require_bind.mpr ⟨hexpires, ?_⟩⟩
    refine require_bind.mpr ⟨⟨horder, ?_, ?_⟩, rfl⟩
    · exact (sub_eq hexp hiss horder.right).symm ▸ httl
    · exact (sub_eq (hexpires.trans hexp) hobs hobserved).symm ▸ hage

omit [Jcs] in
theorem verifyCase_ok {seen : List Text} :
    (verifyCase ⟨b64url payload, jws, now, none⟩ keys seen).1 = .ok ↔
      ∃ s, checkCase ⟨b64url payload, jws, now, none⟩ keys = .ok s := by
  unfold verifyCase
  split
  case h_1 h   => simp [h]
  case h_2 s h => simp [h]

-- The entry speaks for the statement and its key has signed the message.
def TrustEntry.Accepts (e : TrustEntry) (s : AttestationStatement) (now : Int)
    (message signature : Bytes) : Prop :=
  e.authorizes s.subject now ∧ Ed25519.verify e.publicKey.raw signature message

-- The entry that the joined name leads to accepts the envelope if and only if the entry of the
-- issuer and kid does.
def SameAnswer (e : SignedEnvelope) (store : TrustStore) (now : Int) : Prop :=
  ∀ s header signature, e.Encodes s header signature →
    s.Timely now 0 defaultMaxTtl defaultMaxObservationAge →
    let accepts (entry : TrustEntry) := TrustEntry.Accepts entry s now
      (signingInput (b64url header) e.payload) signature
    (∃ entry, keyFor? store s.issuer s.kid = some entry ∧ accepts entry) ↔
      ∃ entry, store.find? s.issuer s.kid = some entry ∧ accepts entry

variable {entries : List TrustEntry} {store : TrustStore}

omit [Jcs] [Transform] [Ed25519] in
theorem authorizes_iff {e : TrustEntry} {subject : Text} : e.authorizes subject now ↔
    e.enabled ∧ subject ∈ e.subjects ∧ e.notBefore ≤ now ∧ now ≤ e.notAfter := by
  simp [TrustEntry.authorizes, and_assoc]

theorem checkCase_iff' (hj : JcsAgree) (hs : TrustStore.init entries = .ok store)
    (hk : loadKeys (entries.map KeyVector.of) [] = some keys) :
    checkCase ⟨b64url payload, jws, now, b⟩ keys = .ok s ↔
    ∃ header signature, SignedEnvelope.Encodes ⟨payload, jws⟩ s header signature ∧
      s.Timely now 0 defaultMaxTtl defaultMaxObservationAge ∧
      ∃ entry, keyFor? store s.issuer s.kid = some entry ∧
        TrustEntry.Accepts entry s now (signingInput (b64url header) payload) signature := by
  rw [checkCase_iff hj, lookup_loadKeys hs hk]
  constructor
  · intro ⟨header, signature, key, raw, he, hkey, hauth, hraw, hverify, ht⟩
    have ⟨entry, hentry, hof⟩ := Option.map_eq_some_iff.mp hkey
    cases hof
    cases decodeString_b64url.symm.trans hraw
    exact ⟨header, signature, he, ht, entry, hentry, authorizes_iff.mpr hauth, hverify⟩
  · intro ⟨header, signature, he, ht, entry, hentry, hauth, hverify⟩
    exact ⟨header, signature, KeyVector.of entry, entry.publicKey.raw, he,
      hentry ▸ rfl, authorizes_iff.mp hauth, decodeString_b64url, hverify, ht⟩

omit [Transform] in
theorem verify_iff' : verify ⟨payload, jws⟩ store now = .ok s ↔
    ∃ header signature, SignedEnvelope.Encodes ⟨payload, jws⟩ s header signature ∧
      s.Timely now 0 defaultMaxTtl defaultMaxObservationAge ∧
      ∃ entry, store.find? s.issuer s.kid = some entry ∧
        TrustEntry.Accepts entry s now (signingInput (b64url header) payload) signature := by
  rw [verify_iff]
  constructor
  · exact fun ⟨header, signature, entry, he, hs, hv, ht⟩ =>
      ⟨header, signature, he, ht, entry, hs.find, hs.authorizes, hv⟩
  · exact fun ⟨header, signature, he, ht, entry, hf, ha, hv⟩ =>
      ⟨header, signature, entry, he, ⟨hf, ha⟩, hv, ht⟩

omit [Transform] [Ed25519] in
-- An envelope is the encoding of one statement.
theorem encodes_inj {e : SignedEnvelope} {s' : AttestationStatement}
    {header header' signature signature' : Bytes} (hj : Jcs.Lawful)
    (h : e.Encodes s header signature) (h' : e.Encodes s' header' signature') :
    s' = s ∧ header' = header ∧ signature' = signature := by
  cases canonical_inj hj h.canonical.right h'.canonical.right
  cases h.canonical.left.symm.trans h'.canonical.left
  have hp := segments?_b64url.symm.trans <| (congrArg segments? (h.jws.symm.trans h'.jws)).trans
    segments?_b64url
  have hs := congrArg Prod.snd (Option.some.inj hp)
  have hd := decodeString_b64url.symm.trans <| (congrArg decodeString hs).trans decodeString_b64url
  exact ⟨rfl, rfl, (Option.some.inj hd).symm⟩

-- Both verifiers accept the same envelopes, but where two issuers and kids are joined to one name.
theorem verifiers_agree_iff {seen : List Text} (hj : JcsAgree)
    (hs : TrustStore.init entries = .ok store)
    (hk : loadKeys (entries.map KeyVector.of) [] = some keys) :
    ((verifyCase ⟨b64url payload, jws, now, none⟩ keys seen).1 = .ok ↔
      ∃ s, verify ⟨payload, jws⟩ store now = .ok s) ↔ SameAnswer ⟨payload, jws⟩ store now := by
  simp only [verifyCase_ok, checkCase_iff' hj hs hk, verify_iff']
  constructor
  · intro h s header signature he ht
    constructor
    · intro ha
      have ⟨s', header', signature', he', _, ha'⟩ := h.mp ⟨s, header, signature, he, ht, ha⟩
      obtain ⟨rfl, rfl, rfl⟩ := encodes_inj hj.lawful he he'
      exact ha'
    · intro ha
      have ⟨s', header', signature', he', _, ha'⟩ := h.mpr ⟨s, header, signature, he, ht, ha⟩
      obtain ⟨rfl, rfl, rfl⟩ := encodes_inj hj.lawful he he'
      exact ha'
  · intro h
    exact exists_congr fun s => exists_congr fun header => exists_congr fun signature =>
      and_congr_right fun he => and_congr_right fun ht => h s header signature he ht

omit [Transform] in
-- It is so for every envelope where no name in the store has a NUL.
theorem sameAnswer_of_noNul {e : SignedEnvelope} (h : ∀ i ∈ store.entries, 0 ∉ i.issuer ∧ 0 ∉ i.kid) :
    SameAnswer e store now := by
  intro s header signature _ _
  have hf : keyFor? store s.issuer s.kid = store.find? s.issuer s.kid := by
    unfold keyFor? TrustStore.find?
    rw [← List.head?_filter, ← List.head?_filter]
    refine congrArg List.head? (List.filter_congr fun i hi => ?_)
    have ⟨hissuer, hkid⟩ := h i hi
    refine decide_eq_decide.mpr ⟨fun hn => ?_, fun hn => ?_⟩
    · have hc : (keyName i.issuer i.kid).count 0 = (keyName s.issuer s.kid).count 0 := congrArg _ hn
      simp only [keyName, List.count_append, List.count_cons_self,
        List.count_eq_zero_of_not_mem hissuer, List.count_eq_zero_of_not_mem hkid] at hc
      have h0 : 0 ∉ s.issuer := List.count_eq_zero.mp (by omega)
      exact keyName_inj hissuer h0 hn
    · have he := Prod.mk.inj hn
      exact congrArg₂ keyName he.left he.right
  rw [hf]

end

end GoVerifier

-- A statement whose issuer has a NUL, and the key of another issuer and kid with the same name.
namespace GoVerifier.Sample

open Profile Scanner

def statement : AttestationStatement :=
  { Profile.Sample.statement with issuer := "org".points ++ 0 :: "eu".points }

def header : Bytes :=
  Profile.Sample.header

-- The issuer is `org\u0000eu`.
def payload : Bytes :=
  Profile.Sample.payload.take 294 ++ [111, 114, 103, 92, 117, 48, 48, 48, 48, 101, 117] ++
    Profile.Sample.payload.drop 302

def signature : Bytes := [
  186, 58, 60, 58, 1, 147, 166, 195, 155, 221, 68, 57, 4, 140, 171, 115, 32, 242, 57, 175, 39,
  197, 155, 243, 19, 158, 70, 12, 96, 191, 222, 45, 252, 249, 176, 112, 3, 194, 215, 14, 131, 64,
  36, 188, 177, 209, 115, 14, 28, 100, 93, 139, 236, 102, 56, 233, 120, 176, 240, 142, 103, 226,
  67, 11]

def envelope : SignedEnvelope where
  payload     := payload
  detachedJws := b64url header ++ '.'.toNat :: '.'.toNat :: b64url signature

-- The canonical forms of two values.
scoped instance : Jcs where
  canonicalize v :=
    if v = .obj statement.toDict then some payload
    else if v = .obj (protectedHeader statement.kid) then some header
    else none

scoped instance : Transform where
  transform b := if b = payload ∨ b = header then some b else none

-- One key and its signature of one text.
scoped instance : Ed25519 where
  PrivateKey             := Unit
  publicKey _            := Profile.Sample.publicKey
  sign _ message         := if message = signingInput (b64url header) payload then signature else []
  verify key sig message := key = Profile.Sample.publicKey.raw &&
    sig = if message = signingInput (b64url header) payload then signature else []

def ownEntry : TrustEntry where
  issuer    := statement.issuer
  kid       := statement.kid
  publicKey := Profile.Sample.publicKey
  subjects  := [statement.subject]

def otherEntry : TrustEntry where
  issuer    := "org".points
  kid       := "eu".points ++ 0 :: "key-1".points
  publicKey := Profile.Sample.publicKey
  subjects  := [statement.subject]

def storeOf (e : TrustEntry) (h : e.valid) : TrustStore where
  entries := [e]
  valid   := List.forall_mem_singleton.mpr h
  nodup   := List.nodup_singleton _

theorem ownEntry_valid : ownEntry.valid := by
  decide

theorem otherEntry_valid : otherEntry.valid := by
  decide

theorem init_storeOf {e : TrustEntry} (h : e.valid) : TrustStore.init [e] = .ok (storeOf e h) := by
  simp [TrustStore.init, TrustStore.add, TrustStore.empty, h, storeOf]

-- What is to be computed of the two texts.
theorem computed :
    (validateValues (.obj statement.toDict) = .ok () ∧
      validateStatement statement.toDict = .ok statement) ∧
    (Profile.parseStrict payload = .ok statement.toDict ∧
      parseStrict payload = .ok (.obj statement.toDict)) ∧
    (Profile.parseStrict header = .ok (protectedHeader statement.kid) ∧
      parseStrict header = .ok (.obj (protectedHeader statement.kid))) ∧
    ((Unicode.utf8 false payload).isSome ∧ payload.head? = some 0x7B ∧ 0 ∉ payload) ∧
    ((Unicode.utf8 false header).isSome ∧ header.head? = some 0x7B ∧ 0 ∉ header) := by
  decide +kernel

theorem payload_canonical : canonicalize statement.toDict = .ok payload :=
  bind_eq_ok.mpr ⟨(), computed.1.1, orFail_ok.mpr (if_pos rfl)⟩

theorem header_canonical : canonicalize (protectedHeader statement.kid) = .ok header := by
  decide

theorem payload_parses : Profile.parseStrict payload = .ok statement.toDict ∧
    parseStrict payload = .ok (.obj statement.toDict) :=
  computed.2.1

theorem header_parses : Profile.parseStrict header = .ok (protectedHeader statement.kid) ∧
    parseStrict header = .ok (.obj (protectedHeader statement.kid)) :=
  computed.2.2.1

theorem canonical_cases {fields : Fields} {b : Bytes} (h : canonicalize fields = .ok b) :
    (fields = statement.toDict ∧ b = payload) ∨
      fields = protectedHeader statement.kid ∧ b = header := by
  have ⟨_, _, h⟩ := bind_eq_ok.mp h
  have h := orFail_ok.mp h
  simp only [Jcs.canonicalize] at h
  split at h
  case isTrue hv => exact .inl ⟨Value.obj.inj hv, (Option.some.inj h).symm⟩
  split at h
  case isTrue hv => exact .inr ⟨Value.obj.inj hv, (Option.some.inj h).symm⟩
  case isFalse   => cases h

theorem libraries_agree : JcsAgree where
  lawful fields b _ h := by
    rcases canonical_cases h with ⟨rfl, rfl⟩ | ⟨rfl, rfl⟩
    · exact payload_parses.left
    · exact header_parses.left
  encoding fields b h := by
    have ⟨hp, hh⟩ := computed.2.2.2
    rcases canonical_cases h with ⟨_, rfl⟩ | ⟨_, rfl⟩
    · exact ⟨Option.isSome_iff_exists.mp hp.left, hp.right⟩
    · exact ⟨Option.isSome_iff_exists.mp hh.left, hh.right⟩
  transform fields b _ h := by
    rcases canonical_cases h with ⟨_, rfl⟩ | ⟨_, rfl⟩
    · exact if_pos (.inl rfl)
    · exact if_pos (.inr rfl)
  canonical fields b hp ht := by
    simp only [Transform.transform] at ht
    split at ht
    case isFalse   => cases ht
    case isTrue hb =>
      rcases hb with rfl | rfl
      · cases payload_parses.right.symm.trans hp
        exact orFail_ok.mp (bind_eq_ok.mp payload_canonical).choose_spec.right
      · cases header_parses.right.symm.trans hp
        exact orFail_ok.mp (bind_eq_ok.mp header_canonical).choose_spec.right

theorem envelope_encodes : envelope.Encodes statement header signature where
  jws       := rfl
  canonical := ⟨header_canonical, payload_canonical⟩
  parses    := ⟨header_parses.left, payload_parses.left⟩
  statement := computed.1.2
  schema    := rfl
  profile   := rfl
  critical  := rfl

theorem statement_timely : statement.Timely 110 0 defaultMaxTtl defaultMaxObservationAge := by
  constructor <;> decide

theorem accepts {e : TrustEntry} (h : e.authorizes statement.subject 110)
    (hk : e.publicKey = Profile.Sample.publicKey) :
    TrustEntry.Accepts e statement 110 (signingInput (b64url header) payload) signature :=
  ⟨h, by simp [Ed25519.verify, hk]⟩

theorem ownEntry_accepts :
    TrustEntry.Accepts ownEntry statement 110 (signingInput (b64url header) payload) signature :=
  accepts (by decide) rfl

theorem otherEntry_accepts :
    TrustEntry.Accepts otherEntry statement 110 (signingInput (b64url header) payload) signature :=
  accepts (by decide) rfl

theorem otherEntry_found : keyFor? (storeOf otherEntry otherEntry_valid) statement.issuer
    statement.kid = some otherEntry := by
  decide

theorem otherEntry_notFound : (storeOf otherEntry otherEntry_valid).find? statement.issuer
    statement.kid = none := by
  decide

theorem ownEntry_found : keyFor? (storeOf ownEntry ownEntry_valid) statement.issuer
    statement.kid = some ownEntry ∧
      (storeOf ownEntry ownEntry_valid).find? statement.issuer statement.kid = some ownEntry := by
  decide

-- In Go the key of another issuer speaks for the statement, in Python its issuer is not known.
theorem verifiers_disagree : JcsAgree ∧
    TrustStore.init [otherEntry] = .ok (storeOf otherEntry otherEntry_valid) ∧
    ∃ keys, loadKeys [KeyVector.of otherEntry] [] = some keys ∧
      (verifyCase ⟨b64url payload, envelope.detachedJws, 110, none⟩ keys []).1 = .ok ∧
      ¬∃ s, verify envelope (storeOf otherEntry otherEntry_valid) 110 = .ok s := by
  refine ⟨libraries_agree, init_storeOf _, _, @loadKeys_eq [otherEntry] [], ?_, ?_⟩
  · refine verifyCase_ok.mpr ⟨statement, ?_⟩
    refine (checkCase_iff' libraries_agree (init_storeOf otherEntry_valid) loadKeys_eq).mpr ?_
    exact ⟨header, signature, envelope_encodes, statement_timely, otherEntry, otherEntry_found,
      otherEntry_accepts⟩
  · intro ⟨s, hs⟩
    have ⟨_, _, he, _, _, hf, _⟩ := verify_iff'.mp hs
    obtain ⟨rfl, _⟩ := encodes_inj libraries_agree.lawful envelope_encodes he
    cases otherEntry_notFound.symm.trans hf

-- With the key of the statement's own issuer they agree, and both accept.
theorem ownEntry_agrees : ∃ keys, loadKeys [KeyVector.of ownEntry] [] = some keys ∧
    ((verifyCase ⟨b64url payload, envelope.detachedJws, 110, none⟩ keys []).1 = .ok ↔
      ∃ s, verify envelope (storeOf ownEntry ownEntry_valid) 110 = .ok s) ∧
    verify envelope (storeOf ownEntry ownEntry_valid) 110 = .ok statement := by
  refine ⟨_, @loadKeys_eq [ownEntry] [], ?_, ?_⟩
  · refine (verifiers_agree_iff libraries_agree (init_storeOf ownEntry_valid) loadKeys_eq).mpr ?_
    intro s header' signature' he _
    obtain ⟨rfl, _⟩ := encodes_inj libraries_agree.lawful envelope_encodes he
    rw [ownEntry_found.left, ownEntry_found.right]
  · exact verify_iff'.mpr ⟨header, signature, envelope_encodes, statement_timely, ownEntry,
      ownEntry_found.right, ownEntry_accepts⟩

end GoVerifier.Sample
