import ExtManager.Attestation.Profile

-- The verifier of the vectors, which is written in Go. Its outcomes are the codes of the profile.
namespace GoVerifier

open Profile

structure KeyVector where
  issuer       : Text
  kid          : Text
  publicKeyB64 : Text
  subjects     : List Text
  enabled      : Bool
  notBefore    : Int
  notAfter     : Int

structure Binding where
  planId         : Text
  launchId       : Text
  pluginId       : Text
  artifactDigest : Text
  challengeNonce : Text
  processEpoch   : Int

structure CaseVector where
  payloadB64  : Text
  detachedJws : Text
  now         : Int
  binding     : Option Binding

inductive Outcome
  | ok
  | replayedNonce
  | failed (failure : Failure)
  deriving DecidableEq

-- `base64.RawURLEncoding.DecodeString` passes over line ends.
def decodeString (value : Text) : Option Bytes :=
  Base64.decode (value.filter fun p => p ≠ 0x0A ∧ p ≠ 0x0D)

def decodeB64 (value : Text) : Except Failure Bytes := do
  require ('='.toNat ∉ value ∧ Unicode.byteLength value % 4 ≠ 1) .malformedJws
  require (∀ p ∈ value, ('A'.toNat ≤ p ∧ p ≤ 'Z'.toNat) ∨ ('a'.toNat ≤ p ∧ p ≤ 'z'.toNat) ∨
    ('0'.toNat ≤ p ∧ p ≤ '9'.toNat) ∨ p = '_'.toNat ∨ p = '-'.toNat) .malformedJws
  let raw ← orFail .malformedJws (decodeString value)
  require (Base64.encode raw = value) .malformedJws
  .ok raw

-- What stands outside of strings.
def outside (inString escaped : Bool) : Text → Text
  | []     => []
  | c :: t =>
    if inString then
      if escaped then outside true false t
      else if c = '\\'.toNat then outside true true t
      else if c = '"'.toNat then outside false false t
      else outside true false t
    else if c = '"'.toNat then outside true false t
    else c :: outside false false t

def contains (sub : Text) : Text → Bool
  | []     => sub.isEmpty
  | c :: t => sub.isPrefixOf (c :: t) || contains sub t

def containsNonFiniteToken (t : Text) : Bool :=
  contains "NaN".points (outside false false t) ||
    contains "Infinity".points (outside false false t)

-- A number ends where a fraction or an exponent has begun without a digit.
def dangling (n : Scanner.Number) : Bool :=
  match n.rest with
  | []     => false
  | c :: _ => (c = '.'.toNat && n.fraction = [] && n.exponent = []) ||
    (Scanner.Number.isE c && n.exponent = [])

def replacement : Nat :=
  0xFFFD

def reader : Scanner.Dialect Failure where
  malformed      := .attestation .malformedJson
  constant       := .attestation .malformedJson
  number n       := do
    require (¬dangling n) .malformedJson
    require (n.fraction = [] ∧ n.exponent = []) .unsupportedValue
    let i := Scanner.Number.value n.whole
    require (-maxSafeInteger ≤ i ∧ i ≤ maxSafeInteger) .unsupportedValue
    .ok (.int i)
  text t         := t.map fun p => if Unicode.isSurrogate p then replacement else p
  key fields key := require (key ∉ fields.keys) .duplicateKey
  object fields  := .ok (fields.reverse.foldl (fun obj f => Fields.insert obj f.1 f.2) [])
  trailing       := true

def parseStrict (raw : Bytes) : Except Failure Value := do
  let text ← orFail .malformedJson (Unicode.utf8 false raw)
  require (¬containsNonFiniteToken text) .unsupportedValue
  Scanner.read reader text

def exactKeys (value : Fields) (names : List Text) : Bool :=
  value.length = names.length && names.all (· ∈ value.keys)

def validDigest (text : Text) : Bool :=
  Unicode.byteLength text = 71 && "sha256:".points.isPrefixOf text &&
    (text.drop 7).all fun p =>
      ('0'.toNat ≤ p && p ≤ '9'.toNat) || ('a'.toNat ≤ p && p ≤ 'f'.toNat)

def validateStatementMap (value : Fields) : Except Failure Unit := do
  require (exactKeys value topFields) .invalidStatement
  require (∀ name ∈ stringFields, nonEmpty (value.get? name)) .invalidStatement
  let process ← orFail .invalidStatement (fields? (value.get? "process".points))
  require (exactKeys process processFields) .invalidStatement
  require (∀ name ∈ ["host", "role", "start_identity"], nonEmpty (process.get? name.points))
    .invalidStatement
  require (∀ item ∈ [process.get? "ordinal".points, process.get? "epoch".points,
    value.get? "observed_at".points, value.get? "issued_at".points,
    value.get? "expires_at".points], isSafe item) .invalidStatement
  require (∀ name ∈ ["artifact_digest", "evidence_digest"],
    (text? (value.get? name.points)).any validDigest) .invalidStatement
  let claims ← orFail .invalidStatement (texts? (value.get? "critical_claims".points))
  require claims.Nodup .invalidStatement

-- Decoding into the field of a struct. `null`, as a missing key, leaves the field as it is.
section

def decodeText : Option Value → Option Text
  | none | some .null => some []
  | some (.str t)     => some t
  | _                 => none

def decodeInt64 : Option Value → Option Int
  | none | some .null => some 0
  | some (.int n)     => some n
  | _                 => none

def decodeTexts : Option Value → Option (List Text)
  | none | some .null => some []
  | some (.arr items) => items.mapM fun v => decodeText (some v)
  | _                 => none

def decodeProcessFields (fields : Fields) : Option ProcessStatement := do
  some {
    host          := ← decodeText (fields.get? "host".points)
    role          := ← decodeText (fields.get? "role".points)
    ordinal       := ← decodeInt64 (fields.get? "ordinal".points)
    startIdentity := ← decodeText (fields.get? "start_identity".points)
    epoch         := ← decodeInt64 (fields.get? "epoch".points)
  }

def decodeProcess : Option Value → Option ProcessStatement
  | none | some .null  => some ⟨[], [], 0, [], 0⟩
  | some (.obj fields) => decodeProcessFields fields
  | _                  => none

structure Header where
  alg         : Text
  kid         : Text
  typ         : Text
  ecpaProfile : Text
  crit        : List Text

def decodeHeader (value : Fields) : Option Header := do
  some {
    alg         := ← decodeText (value.get? "alg".points)
    kid         := ← decodeText (value.get? "kid".points)
    typ         := ← decodeText (value.get? "typ".points)
    ecpaProfile := ← decodeText (value.get? "ecpa_profile".points)
    crit        := ← decodeTexts (value.get? "crit".points)
  }

-- The struct has the fields of the statement.
def decodeStatement (value : Fields) : Option AttestationStatement := do
  some {
    schema         := ← decodeText (value.get? "schema".points)
    profile        := ← decodeText (value.get? "profile".points)
    issuer         := ← decodeText (value.get? "issuer".points)
    kid            := ← decodeText (value.get? "kid".points)
    subject        := ← decodeText (value.get? "subject".points)
    planId         := ← decodeText (value.get? "plan_id".points)
    launchId       := ← decodeText (value.get? "launch_id".points)
    pluginId       := ← decodeText (value.get? "plugin_id".points)
    artifactDigest := ← decodeText (value.get? "artifact_digest".points)
    process        := ← decodeProcess (value.get? "process".points)
    obligation     := ← decodeText (value.get? "obligation".points)
    event          := ← decodeText (value.get? "event".points)
    observedAt     := ← decodeInt64 (value.get? "observed_at".points)
    issuedAt       := ← decodeInt64 (value.get? "issued_at".points)
    expiresAt      := ← decodeInt64 (value.get? "expires_at".points)
    challengeNonce := ← decodeText (value.get? "challenge_nonce".points)
    evidenceDigest := ← decodeText (value.get? "evidence_digest".points)
    criticalClaims := ← decodeTexts (value.get? "critical_claims".points)
  }

end

-- `jcs.Transform`, `none` where it fails.
class Transform where
  transform : Bytes → Option Bytes

-- The difference of two 64-bit integers.
def sub (a b : Int) : Int :=
  (a - b).bmod (2 ^ 64)

-- The keys by issuer and kid, which are joined to one name.
abbrev Keys :=
  List (Text × KeyVector)

def keyName (issuer kid : Text) : Text :=
  issuer ++ 0 :: kid

-- The keys that `run` reads; a later one takes the place of an earlier one of the same name.
def loadKeys : List KeyVector → Keys → Option Keys
  | [], keys            => some keys
  | item :: items, keys => do
    let raw ← decodeString item.publicKeyB64
    if raw.length = 32 then loadKeys items ((keyName item.issuer item.kid, item) :: keys) else none

section

variable [Transform] [Ed25519]

-- `verifyCase` up to the comparison with the binding.
def checkCase (c : CaseVector) (keys : Keys) : Except Failure AttestationStatement := do
  let payload ← orFail .malformedJson (decodeString c.payloadB64)
  let parts ← orFail .malformedJws (segments? c.detachedJws)
  let headerRaw ← decodeB64 parts.1
  let headerValue ← parseStrict headerRaw
  let headerMap ← orFail .unknownCriticalHeader (fields? (some headerValue))
  require (exactKeys headerMap headerFields) .unknownCriticalHeader
  require (headerMap.get? "crit".points = some (.arr [.str "ecpa_profile".points]))
    .unknownCriticalHeader
  require (Transform.transform headerRaw = some headerRaw) .malformedJws
  let h ← orFail .malformedJws (decodeHeader headerMap)
  require (h.alg = algorithm) .wrongAlgorithm
  require (h.typ = type) .wrongType
  require (h.crit = ["ecpa_profile".points]) .unknownCriticalHeader
  require (h.ecpaProfile = profile) .wrongProfile
  let payloadValue ← parseStrict payload
  let payloadMap ← orFail .invalidStatement (fields? (some payloadValue))
  let canonical ← orFail .unsupportedValue (Transform.transform payload)
  require (canonical = payload) .noncanonicalPayload
  validateStatementMap payloadMap
  let s ← orFail .invalidStatement (decodeStatement payloadMap)
  require (s.profile = profile ∧ s.schema = schema) .wrongProfile
  require (s.kid = h.kid) .keyMismatch
  require (s.criticalClaims = []) .unknownCriticalClaim
  let key ← orFail .unknownKey (keys.lookup (keyName s.issuer h.kid))
  require (key.enabled ∧ s.subject ∈ key.subjects ∧ key.notBefore ≤ c.now ∧ c.now ≤ key.notAfter)
    .trustPolicy
  let sig ← decodeB64 parts.2
  let publicKey ← orFail .unknownKey (decodeString key.publicKeyB64)
  require (Ed25519.verify publicKey sig (signingInput parts.1 payload)) .invalidSignature
  require (s.issuedAt ≤ c.now ∧ s.observedAt ≤ c.now) .notYetValid
  require (c.now ≤ s.expiresAt) .expired
  require ((s.observedAt ≤ s.issuedAt ∧ s.issuedAt ≤ s.expiresAt) ∧
    sub s.expiresAt s.issuedAt ≤ 300 ∧ sub c.now s.observedAt ≤ 300) .invalidTime
  .ok s

def Binding.holds (b : Binding) (s : AttestationStatement) : Prop :=
  s.planId = b.planId ∧ s.launchId = b.launchId ∧ s.pluginId = b.pluginId ∧
    s.artifactDigest = b.artifactDigest ∧ s.process.epoch = b.processEpoch ∧
    s.challengeNonce = b.challengeNonce

instance (b : Binding) (s : AttestationStatement) : Decidable (b.holds s) :=
  inferInstanceAs (Decidable (_ ∧ _))

-- The outcome, and the nonces that have been seen.
def verifyCase (c : CaseVector) (keys : Keys) (seen : List Text) : Outcome × List Text :=
  match checkCase c keys with
  | .error failure => (.failed failure, seen)
  | .ok s          => match c.binding with
    | none   => (.ok, seen)
    | some b =>
      if ¬b.holds s then (.failed (.attestation .bindingMismatch), seen)
      else if s.challengeNonce ∈ seen then (.replayedNonce, seen)
      else (.ok, s.challengeNonce :: seen)

end

end GoVerifier
