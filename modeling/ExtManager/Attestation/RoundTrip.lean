import ExtManager.Attestation.Verify

namespace Profile

open Scanner (bind_eq_ok)

section

variable [Jcs] [Ed25519]

-- The public key of a private key accepts its signatures.
def Ed25519.Correct : Prop :=
  ∀ (key : Ed25519.PrivateKey) (message : Bytes),
    Ed25519.verify (Ed25519.publicKey key).raw (Ed25519.sign key message) message

variable {s : AttestationStatement} {key : Ed25519.PrivateKey} {e e' : SignedEnvelope}
variable {store : TrustStore} {entry : TrustEntry} {now clockSkew maxTtl maxObservationAge : Int}

-- What `sign` makes is the encoding of what it has signed.
theorem encodes_of_sign (hj : Jcs.Lawful) (hc : s.criticalClaims = []) (h : sign s key = .ok e) :
    ∃ header, e.Encodes s header (Ed25519.sign key (signingInput (b64url header) e.payload)) := by
  have ⟨⟨hschema, hprofile⟩, h⟩ := require_bind.mp h
  have ⟨s', hs, h⟩ := bind_eq_ok.mp h
  have ⟨payload, hpayload, h⟩ := bind_eq_ok.mp h
  have ⟨header, hheader, h⟩ := bind_eq_ok.mp h
  cases h
  have hs' := validateStatement_toDict hs AttestationStatement.toDict_ordered
  cases AttestationStatement.toDict_inj hs'
  exact ⟨header, rfl, ⟨hheader, hpayload⟩, ⟨hj _ _ protectedHeader_ordered hheader,
    hj _ _ AttestationStatement.toDict_ordered hpayload⟩, hs, hschema, hprofile, hc⟩

-- The segments and the payload of an accepted envelope are canonical, so that one statement has one
-- envelope but for the signature, and what has been signed for a key that the store trusts is
-- accepted as long as its times allow it.
theorem envelope_canonical (hj : Jcs.Lawful) (hk : Ed25519.Correct) :
    (∀ e store now clockSkew maxTtl maxObservationAge s,
      verify e store now clockSkew maxTtl maxObservationAge = .ok s →
      canonicalize s.toDict = .ok e.payload ∧
      ∃ parts header, segments? e.detachedJws = some parts ∧ b64urlDecode parts.1 = .ok header ∧
        canonicalize (protectedHeader s.kid) = .ok header) ∧
    (∀ e e' store store' now now' clockSkew clockSkew' maxTtl maxTtl' maxObservationAge
      maxObservationAge' s,
      verify e store now clockSkew maxTtl maxObservationAge = .ok s →
      verify e' store' now' clockSkew' maxTtl' maxObservationAge' = .ok s →
      e.payload = e'.payload ∧ ∃ start signature signature',
        e.detachedJws = start ++ b64url signature ∧ e'.detachedJws = start ++ b64url signature') ∧
    (∀ s key e store entry now clockSkew maxTtl maxObservationAge,
      s.criticalClaims = [] → sign s key = .ok e → store.Trusts entry s now →
      entry.publicKey = Ed25519.publicKey key →
      s.Timely now clockSkew maxTtl maxObservationAge →
      verify e store now clockSkew maxTtl maxObservationAge = .ok s) := by
  refine ⟨?_, ?_, ?_⟩
  · intro e store now clockSkew maxTtl maxObservationAge s h
    have ⟨header, signature, _, he, _⟩ := verify_iff.mp h
    exact ⟨he.canonical.right, _, header, he.jws ▸ segments?_b64url, b64urlDecode_iff.mpr rfl,
      he.canonical.left⟩
  · intro e e' _ _ _ _ _ _ _ _ _ _ s h h'
    have ⟨header, signature, _, he, _⟩ := verify_iff.mp h
    have ⟨header', signature', _, he', _⟩ := verify_iff.mp h'
    cases he.canonical.left.symm.trans he'.canonical.left
    refine ⟨Except.ok.inj (he.canonical.right.symm.trans he'.canonical.right),
      b64url header ++ ['.'.toNat, '.'.toNat], signature, signature', ?_, ?_⟩
    · simp [he.jws]
    · simp [he'.jws]
  · intro s key e store entry now clockSkew maxTtl maxObservationAge hc hs ht he htime
    have ⟨header, henc⟩ := encodes_of_sign hj hc hs
    exact verify_iff.mpr ⟨header, _, entry, henc, ht, he ▸ hk key _, htime⟩

end

end Profile

-- An envelope that is signed with a key.
namespace Profile.Sample

open Scanner (bind_eq_ok)

def statement : AttestationStatement where
  schema         := schema
  profile        := profile
  issuer         := "issuer-1".points
  kid            := "key-1".points
  subject        := "host-runtime".points
  planId         := "plan:sha256:e0e3b23d5a6d4c67c028b70a2bcb81f49ec1585f2f45ec9a0a5fac67f5401bea".points
  launchId       := "launch-1".points
  pluginId       :=
    "plugin:sha256:893e86ba882b0814f4385a2b1fe4f19b6dde4eae76eabd5aed60c56081fdbc04".points
  artifactDigest := "sha256:aaaaaaaaaaaaaaaaaaaaaaaaaaaaaaaaaaaaaaaaaaaaaaaaaaaaaaaaaaaaaaaa".points
  process        := ⟨"host-a".points, "worker".points, 0, "start-0".points, 1⟩
  obligation     := "workers-loaded".points
  event          := "loaded".points
  observedAt     := 90
  issuedAt       := 100
  expiresAt      := 160
  challengeNonce := "nonce-1".points
  evidenceDigest := "sha256:bbbbbbbbbbbbbbbbbbbbbbbbbbbbbbbbbbbbbbbbbbbbbbbbbbbbbbbbbbbbbbbb".points

def header : Bytes := [
  123, 34, 97, 108, 103, 34, 58, 34, 69, 100, 68, 83, 65, 34, 44, 34, 99, 114, 105, 116, 34, 58,
  91, 34, 101, 99, 112, 97, 95, 112, 114, 111, 102, 105, 108, 101, 34, 93, 44, 34, 101, 99, 112,
  97, 95, 112, 114, 111, 102, 105, 108, 101, 34, 58, 34, 101, 99, 112, 97, 45, 106, 99, 115, 45,
  106, 119, 115, 45, 101, 100, 100, 115, 97, 47, 48, 46, 49, 34, 44, 34, 107, 105, 100, 34, 58,
  34, 107, 101, 121, 45, 49, 34, 44, 34, 116, 121, 112, 34, 58, 34, 97, 112, 112, 108, 105, 99,
  97, 116, 105, 111, 110, 47, 101, 99, 112, 97, 45, 97, 116, 116, 101, 115, 116, 97, 116, 105,
  111, 110, 43, 106, 119, 115, 34, 125]

def payload : Bytes := [
  123, 34, 97, 114, 116, 105, 102, 97, 99, 116, 95, 100, 105, 103, 101, 115, 116, 34, 58, 34, 115,
  104, 97, 50, 53, 54, 58, 97, 97, 97, 97, 97, 97, 97, 97, 97, 97, 97, 97, 97, 97, 97, 97, 97, 97,
  97, 97, 97, 97, 97, 97, 97, 97, 97, 97, 97, 97, 97, 97, 97, 97, 97, 97, 97, 97, 97, 97, 97, 97,
  97, 97, 97, 97, 97, 97, 97, 97, 97, 97, 97, 97, 97, 97, 97, 97, 97, 97, 97, 97, 97, 97, 34, 44,
  34, 99, 104, 97, 108, 108, 101, 110, 103, 101, 95, 110, 111, 110, 99, 101, 34, 58, 34, 110, 111,
  110, 99, 101, 45, 49, 34, 44, 34, 99, 114, 105, 116, 105, 99, 97, 108, 95, 99, 108, 97, 105,
  109, 115, 34, 58, 91, 93, 44, 34, 101, 118, 101, 110, 116, 34, 58, 34, 108, 111, 97, 100, 101,
  100, 34, 44, 34, 101, 118, 105, 100, 101, 110, 99, 101, 95, 100, 105, 103, 101, 115, 116, 34,
  58, 34, 115, 104, 97, 50, 53, 54, 58, 98, 98, 98, 98, 98, 98, 98, 98, 98, 98, 98, 98, 98, 98,
  98, 98, 98, 98, 98, 98, 98, 98, 98, 98, 98, 98, 98, 98, 98, 98, 98, 98, 98, 98, 98, 98, 98, 98,
  98, 98, 98, 98, 98, 98, 98, 98, 98, 98, 98, 98, 98, 98, 98, 98, 98, 98, 98, 98, 98, 98, 98, 98,
  98, 98, 34, 44, 34, 101, 120, 112, 105, 114, 101, 115, 95, 97, 116, 34, 58, 49, 54, 48, 44, 34,
  105, 115, 115, 117, 101, 100, 95, 97, 116, 34, 58, 49, 48, 48, 44, 34, 105, 115, 115, 117, 101,
  114, 34, 58, 34, 105, 115, 115, 117, 101, 114, 45, 49, 34, 44, 34, 107, 105, 100, 34, 58, 34,
  107, 101, 121, 45, 49, 34, 44, 34, 108, 97, 117, 110, 99, 104, 95, 105, 100, 34, 58, 34, 108,
  97, 117, 110, 99, 104, 45, 49, 34, 44, 34, 111, 98, 108, 105, 103, 97, 116, 105, 111, 110, 34,
  58, 34, 119, 111, 114, 107, 101, 114, 115, 45, 108, 111, 97, 100, 101, 100, 34, 44, 34, 111, 98,
  115, 101, 114, 118, 101, 100, 95, 97, 116, 34, 58, 57, 48, 44, 34, 112, 108, 97, 110, 95, 105,
  100, 34, 58, 34, 112, 108, 97, 110, 58, 115, 104, 97, 50, 53, 54, 58, 101, 48, 101, 51, 98, 50,
  51, 100, 53, 97, 54, 100, 52, 99, 54, 55, 99, 48, 50, 56, 98, 55, 48, 97, 50, 98, 99, 98, 56,
  49, 102, 52, 57, 101, 99, 49, 53, 56, 53, 102, 50, 102, 52, 53, 101, 99, 57, 97, 48, 97, 53,
  102, 97, 99, 54, 55, 102, 53, 52, 48, 49, 98, 101, 97, 34, 44, 34, 112, 108, 117, 103, 105, 110,
  95, 105, 100, 34, 58, 34, 112, 108, 117, 103, 105, 110, 58, 115, 104, 97, 50, 53, 54, 58, 56,
  57, 51, 101, 56, 54, 98, 97, 56, 56, 50, 98, 48, 56, 49, 52, 102, 52, 51, 56, 53, 97, 50, 98,
  49, 102, 101, 52, 102, 49, 57, 98, 54, 100, 100, 101, 52, 101, 97, 101, 55, 54, 101, 97, 98,
  100, 53, 97, 101, 100, 54, 48, 99, 53, 54, 48, 56, 49, 102, 100, 98, 99, 48, 52, 34, 44, 34,
  112, 114, 111, 99, 101, 115, 115, 34, 58, 123, 34, 101, 112, 111, 99, 104, 34, 58, 49, 44, 34,
  104, 111, 115, 116, 34, 58, 34, 104, 111, 115, 116, 45, 97, 34, 44, 34, 111, 114, 100, 105, 110,
  97, 108, 34, 58, 48, 44, 34, 114, 111, 108, 101, 34, 58, 34, 119, 111, 114, 107, 101, 114, 34,
  44, 34, 115, 116, 97, 114, 116, 95, 105, 100, 101, 110, 116, 105, 116, 121, 34, 58, 34, 115,
  116, 97, 114, 116, 45, 48, 34, 125, 44, 34, 112, 114, 111, 102, 105, 108, 101, 34, 58, 34, 101,
  99, 112, 97, 45, 106, 99, 115, 45, 106, 119, 115, 45, 101, 100, 100, 115, 97, 47, 48, 46, 49,
  34, 44, 34, 115, 99, 104, 101, 109, 97, 34, 58, 34, 101, 99, 112, 97, 45, 97, 116, 116, 101,
  115, 116, 97, 116, 105, 111, 110, 45, 115, 116, 97, 116, 101, 109, 101, 110, 116, 47, 48, 46,
  49, 34, 44, 34, 115, 117, 98, 106, 101, 99, 116, 34, 58, 34, 104, 111, 115, 116, 45, 114, 117,
  110, 116, 105, 109, 101, 34, 125]

def publicKey : Ed25519PublicKey where
  raw  := [
    215, 90, 152, 1, 130, 177, 10, 183, 213, 75, 254, 211, 201, 100, 7, 58, 14, 225, 114, 243,
    218, 166, 35, 37, 175, 2, 26, 104, 247, 7, 81, 26]
  size := rfl

def signature : Bytes := [
  141, 224, 157, 146, 126, 68, 172, 194, 207, 40, 8, 81, 19, 194, 212, 247, 60, 104, 140, 127,
  187, 56, 224, 55, 61, 151, 82, 243, 77, 67, 138, 221, 113, 71, 228, 74, 226, 69, 201, 147, 121,
  48, 101, 76, 130, 250, 178, 215, 213, 67, 254, 214, 87, 221, 44, 65, 229, 45, 67, 237, 156, 55,
  156, 12]

-- The canonical forms of two values.
scoped instance : Jcs where
  canonicalize v :=
    if v = .obj statement.toDict then some payload
    else if v = .obj (protectedHeader statement.kid) then some header
    else none

-- One key and its signature of one text.
scoped instance : Ed25519 where
  PrivateKey          := Unit
  publicKey _         := publicKey
  sign _ message      := if message = signingInput (b64url header) payload then signature else []
  verify key sig message := key = publicKey.raw &&
    sig = if message = signingInput (b64url header) payload then signature else []

def envelope : SignedEnvelope where
  payload     := payload
  detachedJws := b64url header ++ '.'.toNat :: '.'.toNat :: b64url signature

def entry : TrustEntry where
  issuer    := statement.issuer
  kid       := statement.kid
  publicKey := publicKey
  subjects  := [statement.subject]

def store : TrustStore where
  entries := [entry]
  valid   := by decide +kernel
  nodup   := List.nodup_singleton _

-- What is to be computed of the two texts.
theorem computed : parseStrict payload = .ok statement.toDict ∧
    parseStrict header = .ok (protectedHeader statement.kid) ∧
    sign statement () = .ok envelope := by
  decide +kernel

theorem payload_parses : parseStrict payload = .ok statement.toDict :=
  computed.1

theorem header_parses : parseStrict header = .ok (protectedHeader statement.kid) :=
  computed.2.1

theorem jcs_lawful : Jcs.Lawful := by
  intro fields b _ h
  have ⟨_, _, h⟩ := bind_eq_ok.mp h
  have h := orFail_ok.mp h
  simp only [Jcs.canonicalize] at h
  split at h
  case isTrue hv => exact Value.obj.inj hv ▸ Option.some.inj h ▸ payload_parses
  split at h
  case isTrue hv => exact Value.obj.inj hv ▸ Option.some.inj h ▸ header_parses
  case isFalse   => cases h

theorem ed25519_correct : Ed25519.Correct :=
  fun _ _ => by simp [Ed25519.verify, Ed25519.publicKey, Ed25519.sign]

theorem sign_statement : sign statement () = .ok envelope :=
  computed.2.2

theorem store_trusts : store.Trusts entry statement 110 := by
  constructor <;> decide

theorem statement_timely : statement.Timely 110 0 defaultMaxTtl defaultMaxObservationAge := by
  constructor <;> decide

theorem envelope_accepted :
    sign statement () = .ok envelope ∧ verify envelope store 110 = .ok statement ∧
      canonicalize statement.toDict = .ok envelope.payload := by
  have ⟨hcanonical, _, hround⟩ := envelope_canonical jcs_lawful ed25519_correct
  have hverify := hround statement () envelope store entry 110 0 defaultMaxTtl
    defaultMaxObservationAge rfl sign_statement store_trusts rfl statement_timely
  exact ⟨sign_statement, hverify, (hcanonical _ _ _ _ _ _ _ hverify).left⟩

end Profile.Sample
