import ExtManager.Codec.Base64
import ExtManager.Codec.Scanner
import ExtManager.Contract.Basic

namespace Profile

inductive AttestationErrorCode
  | malformedJson
  | duplicateKey
  | unsupportedValue
  | noncanonicalPayload
  | malformedJws
  | wrongAlgorithm
  | wrongType
  | wrongProfile
  | unknownCriticalHeader
  | unknownCriticalClaim
  | unknownKey
  | keyMismatch
  | invalidSignature
  | notYetValid
  | expired
  | bindingMismatch
  | invalidStatement
  | invalidTime
  | trustPolicy
  | trustStoreConfig
  deriving DecidableEq, Repr

def AttestationErrorCode.value : AttestationErrorCode → String
  | malformedJson         => "ATTESTATION_MALFORMED_JSON"
  | duplicateKey          => "ATTESTATION_DUPLICATE_KEY"
  | unsupportedValue      => "ATTESTATION_UNSUPPORTED_VALUE"
  | noncanonicalPayload   => "ATTESTATION_NONCANONICAL_PAYLOAD"
  | malformedJws          => "ATTESTATION_MALFORMED_JWS"
  | wrongAlgorithm        => "ATTESTATION_WRONG_ALGORITHM"
  | wrongType             => "ATTESTATION_WRONG_TYPE"
  | wrongProfile          => "ATTESTATION_WRONG_PROFILE"
  | unknownCriticalHeader => "ATTESTATION_UNKNOWN_CRITICAL_HEADER"
  | unknownCriticalClaim  => "ATTESTATION_UNKNOWN_CRITICAL_CLAIM"
  | unknownKey            => "ATTESTATION_UNKNOWN_KEY"
  | keyMismatch           => "ATTESTATION_KEY_MISMATCH"
  | invalidSignature      => "ATTESTATION_INVALID_SIGNATURE"
  | notYetValid           => "ATTESTATION_NOT_YET_VALID"
  | expired               => "ATTESTATION_EXPIRED"
  | bindingMismatch       => "ATTESTATION_BINDING_MISMATCH"
  | invalidStatement      => "ATTESTATION_INVALID_STATEMENT"
  | invalidTime           => "ATTESTATION_INVALID_TIME"
  | trustPolicy           => "ATTESTATION_TRUST_POLICY"
  | trustStoreConfig      => "ATTESTATION_TRUST_STORE_CONFIG"

-- `AttestationError`, or the plain `ValueError` of `int` for a number with too many digits.
inductive Failure
  | attestation (code : AttestationErrorCode)
  | value
  deriving DecidableEq, Repr

def fail {α : Type} (code : AttestationErrorCode) : Except Failure α :=
  .error (.attestation code)

def require (p : Prop) [Decidable p] (code : AttestationErrorCode) : Except Failure Unit :=
  if p then .ok () else fail code

def orFail {α : Type} (code : AttestationErrorCode) : Option α → Except Failure α
  | none   => fail code
  | some a => .ok a

def type : Text :=
  "application/ecpa-attestation+jws".points

def algorithm : Text :=
  "EdDSA".points

def schema : Text :=
  "ecpa-attestation-statement/0.1".points

def profile : Text :=
  "ecpa-jcs-jws-eddsa/0.1".points

def maxSafeInteger : Int :=
  2 ^ 53 - 1

def defaultMaxTtl : Int :=
  300

def defaultMaxObservationAge : Int :=
  300

def b64url (value : Bytes) : Text :=
  Base64.encode value

def b64urlDecode (value : Text) : Except Failure Bytes := do
  require (value.all (· < 0x80) ∧ '='.toNat ∉ value ∧ value.length % 4 ≠ 1 ∧
    value.all fun p => (Base64.value? p).isSome) .malformedJws
  let decoded ← orFail .malformedJws (Base64.decode value)
  require (b64url decoded = value) .malformedJws
  .ok decoded

-- `json.loads` of bytes.
section

inductive Encoding
  | utf8
  | utf16 (e : Unicode.Endian)
  | utf32 (e : Unicode.Endian)

-- The encoding, and the bytes behind the mark of their order.
def detectEncoding (b : Bytes) : Encoding × Bytes :=
  if [0x00, 0x00, 0xFE, 0xFF].isPrefixOf b then (.utf32 .big, b.drop 4)
  else if [0xFF, 0xFE, 0x00, 0x00].isPrefixOf b then (.utf32 .little, b.drop 4)
  else if [0xFE, 0xFF].isPrefixOf b then (.utf16 .big, b.drop 2)
  else if [0xFF, 0xFE].isPrefixOf b then (.utf16 .little, b.drop 2)
  else if [0xEF, 0xBB, 0xBF].isPrefixOf b then (.utf8, b.drop 3)
  else match b with
    | b₀ :: b₁ :: b₂ :: b₃ :: _ =>
      if b₀ = 0 then (if b₁ = 0 then .utf32 .big else .utf16 .big, b)
      else if b₁ = 0 then (if b₂ = 0 ∧ b₃ = 0 then .utf32 .little else .utf16 .little, b)
      else (.utf8, b)
    | [b₀, b₁]                  =>
      if b₀ = 0 then (.utf16 .big, b) else if b₁ = 0 then (.utf16 .little, b) else (.utf8, b)
    | _                         => (.utf8, b)

def decode (raw : Bytes) : Option Text :=
  match detectEncoding raw with
  | (.utf8, b)    => Unicode.utf8 true b
  | (.utf16 e, b) => Unicode.utf16 e b
  | (.utf32 e, b) => Unicode.utf32 e b

def addPair (result : Fields) (item : Text × Value) : Except Failure Fields := do
  require (item.1 ∉ result.keys) .duplicateKey
  .ok (result.insert item.1 item.2)

def pairs (items : Fields) : Except Failure Fields :=
  items.foldlM addPair []

-- The number of digits from which on `int` refuses a text.
def maxStrDigits : Nat :=
  4300

def reader : Scanner.Dialect Failure where
  malformed       := .attestation .malformedJson
  constant        := .attestation .unsupportedValue
  number n        :=
    if n.fraction = [] ∧ n.exponent = [] then
      if maxStrDigits < (n.whole.filter Scanner.isDigit).length then .error .value
      else .ok (.int (Scanner.Number.value n.whole))
    else
      .ok (.float (n.whole ++ n.fraction ++ n.exponent))
  text t          := t
  key _ _         := .ok ()
  object fields   := pairs fields.reverse
  trailing        := false

def parseStrict (raw : Bytes) : Except Failure Fields := do
  let text ← orFail .malformedJson (decode raw)
  match ← Scanner.read reader text with
  | .obj fields => .ok fields
  | _           => fail .malformedJson

end

mutual

def validateValues : Value → Except Failure Unit
  | .str t            => require (Unicode.scalar t) .unsupportedValue
  | .null | .bool _   => .ok ()
  | .float _          => fail .unsupportedValue
  | .int n            => require (-maxSafeInteger ≤ n ∧ n ≤ maxSafeInteger) .unsupportedValue
  | .obj fields       => validateFields fields
  | .arr items        => validateItems items

def validateItems : List Value → Except Failure Unit
  | []      => .ok ()
  | v :: vs => do
    validateValues v
    validateItems vs

def validateFields : List (Text × Value) → Except Failure Unit
  | []           => .ok ()
  | (_, v) :: fs => do
    validateValues v
    validateFields fs

end

-- `jcs.canonicalize`, `none` where it raises.
class Jcs where
  canonicalize : Value → Option Bytes

structure Ed25519PublicKey where
  raw  : Bytes
  size : raw.length = 32
  deriving DecidableEq

class Ed25519 where
  PrivateKey : Type
  publicKey  : PrivateKey → Ed25519PublicKey
  sign       : PrivateKey → Bytes → Bytes
  verify     : Bytes → Bytes → Bytes → Bool

structure SignedEnvelope where
  payload     : Bytes
  detachedJws : Text
  deriving DecidableEq

structure TrustEntry where
  issuer    : Text
  kid       : Text
  publicKey : Ed25519PublicKey
  subjects  : List Text
  notBefore : Int := 0
  notAfter  : Int := maxSafeInteger
  enabled   : Bool := true
  deriving DecidableEq

namespace TrustEntry

def identity (e : TrustEntry) : Text × Text :=
  (e.issuer, e.kid)

def valid (e : TrustEntry) : Bool :=
  e.issuer ≠ [] && e.kid ≠ [] && e.subjects ≠ [] && e.subjects.all (· ≠ []) && 0 ≤ e.notBefore &&
    e.notBefore ≤ e.notAfter

-- The entry speaks for the subject now.
def authorizes (e : TrustEntry) (subject : Text) (now : Int) : Bool :=
  e.enabled && subject ∈ e.subjects && e.notBefore ≤ now && now ≤ e.notAfter

end TrustEntry

structure TrustStore where
  entries : List TrustEntry
  valid   : ∀ e ∈ entries, e.valid
  nodup   : (entries.map (·.identity)).Nodup

namespace TrustStore

def empty : TrustStore where
  entries := []
  valid   := nofun
  nodup   := .nil

def add (store : TrustStore) (item : TrustEntry) : Except Failure TrustStore :=
  if hv : item.valid then
    if hn : item.identity ∈ store.entries.map (·.identity) then
      fail .trustStoreConfig
    else .ok {
      entries := item :: store.entries
      valid   := List.forall_mem_cons.mpr ⟨hv, store.valid⟩
      nodup   := List.nodup_cons.mpr ⟨hn, store.nodup⟩
    }
  else
    fail .trustStoreConfig

def init (entries : List TrustEntry) : Except Failure TrustStore :=
  entries.foldlM add empty

def find? (store : TrustStore) (issuer kid : Text) : Option TrustEntry :=
  store.entries.find? fun e => e.identity = (issuer, kid)

def lookup (store : TrustStore) (issuer kid subject : Text) (now : Int) :
    Except Failure TrustEntry := do
  let entry ← orFail .unknownKey (store.find? issuer kid)
  require (entry.authorizes subject now) .trustPolicy
  .ok entry

end TrustStore

structure ProcessStatement where
  host          : Text
  role          : Text
  ordinal       : Int
  startIdentity : Text
  epoch         : Int
  deriving DecidableEq

structure AttestationStatement where
  schema         : Text
  profile        : Text
  issuer         : Text
  kid            : Text
  subject        : Text
  planId         : Text
  launchId       : Text
  pluginId       : Text
  artifactDigest : Text
  process        : ProcessStatement
  obligation     : Text
  event          : Text
  observedAt     : Int
  issuedAt       : Int
  expiresAt      : Int
  challengeNonce : Text
  evidenceDigest : Text
  criticalClaims : List Text := []
  deriving DecidableEq

def ProcessStatement.toDict (p : ProcessStatement) : Fields :=
  [("epoch".points, .int p.epoch), ("host".points, .str p.host),
    ("ordinal".points, .int p.ordinal), ("role".points, .str p.role),
    ("start_identity".points, .str p.startIdentity)]

def AttestationStatement.toDict (s : AttestationStatement) : Fields :=
  [("artifact_digest".points, .str s.artifactDigest),
    ("challenge_nonce".points, .str s.challengeNonce),
    ("critical_claims".points, .arr (s.criticalClaims.map .str)),
    ("event".points, .str s.event), ("evidence_digest".points, .str s.evidenceDigest),
    ("expires_at".points, .int s.expiresAt), ("issued_at".points, .int s.issuedAt),
    ("issuer".points, .str s.issuer), ("kid".points, .str s.kid),
    ("launch_id".points, .str s.launchId), ("obligation".points, .str s.obligation),
    ("observed_at".points, .int s.observedAt), ("plan_id".points, .str s.planId),
    ("plugin_id".points, .str s.pluginId), ("process".points, .obj s.process.toDict),
    ("profile".points, .str s.profile), ("schema".points, .str s.schema),
    ("subject".points, .str s.subject)]

-- The names of a statement's texts.
def stringFields : List Text :=
  ["schema", "profile", "issuer", "kid", "subject", "plan_id", "launch_id", "plugin_id",
    "artifact_digest", "obligation", "event", "challenge_nonce", "evidence_digest"].map (·.points)

def timeFields : List Text :=
  ["observed_at", "issued_at", "expires_at"].map (·.points)

def topFields : List Text :=
  stringFields ++ timeFields ++ ["process".points, "critical_claims".points]

def processFields : List Text :=
  ["host", "role", "ordinal", "start_identity", "epoch"].map (·.points)

-- `set(value) == set(names)`.
def sameKeys (value : Fields) (names : List Text) : Bool :=
  value.keys.all (· ∈ names) && names.all (· ∈ value.keys)

def text? : Option Value → Option Text
  | some (.str t) => some t
  | _             => none

def int? : Option Value → Option Int
  | some (.int n) => some n
  | _             => none

def nonEmpty (v : Option Value) : Bool :=
  match text? v with
  | none   => false
  | some t => t ≠ []

def isSafe (v : Option Value) : Bool :=
  match int? v with
  | none   => false
  | some n => 0 ≤ n ∧ n ≤ maxSafeInteger

-- `sha256:` and 64 digits.
def isDigest (t : Text) : Bool :=
  "sha256:".points.isPrefixOf t && (t.drop 7).length = 64 &&
    (t.drop 7).all fun p =>
      ('0'.toNat ≤ p && p ≤ '9'.toNat) || ('a'.toNat ≤ p && p ≤ 'f'.toNat)

def ProcessStatement.fromDict (p : Fields) : Option ProcessStatement := do
  some {
    host          := ← text? (p.get? "host".points)
    role          := ← text? (p.get? "role".points)
    ordinal       := ← int? (p.get? "ordinal".points)
    startIdentity := ← text? (p.get? "start_identity".points)
    epoch         := ← int? (p.get? "epoch".points)
  }

def texts? : Option Value → Option (List Text)
  | some (.arr items) => items.mapM fun v => text? (some v)
  | _                 => none

def fields? : Option Value → Option Fields
  | some (.obj fields) => some fields
  | _                  => none

def AttestationStatement.fromDict (value : Fields) : Option AttestationStatement := do
  some {
    schema         := ← text? (value.get? "schema".points)
    profile        := ← text? (value.get? "profile".points)
    issuer         := ← text? (value.get? "issuer".points)
    kid            := ← text? (value.get? "kid".points)
    subject        := ← text? (value.get? "subject".points)
    planId         := ← text? (value.get? "plan_id".points)
    launchId       := ← text? (value.get? "launch_id".points)
    pluginId       := ← text? (value.get? "plugin_id".points)
    artifactDigest := ← text? (value.get? "artifact_digest".points)
    process        := ← fields? (value.get? "process".points) >>= ProcessStatement.fromDict
    obligation     := ← text? (value.get? "obligation".points)
    event          := ← text? (value.get? "event".points)
    observedAt     := ← int? (value.get? "observed_at".points)
    issuedAt       := ← int? (value.get? "issued_at".points)
    expiresAt      := ← int? (value.get? "expires_at".points)
    challengeNonce := ← text? (value.get? "challenge_nonce".points)
    evidenceDigest := ← text? (value.get? "evidence_digest".points)
    criticalClaims := ← texts? (value.get? "critical_claims".points)
  }

def validateStatement (value : Fields) : Except Failure AttestationStatement := do
  require (sameKeys value topFields) .invalidStatement
  let process ← orFail .invalidStatement (fields? (value.get? "process".points))
  require (sameKeys process processFields) .invalidStatement
  require (∀ name ∈ stringFields, nonEmpty (value.get? name)) .invalidStatement
  require (∀ name ∈ ["host", "role", "start_identity"], nonEmpty (process.get? name.points))
    .invalidStatement
  require (∀ name ∈ ["ordinal", "epoch"], isSafe (process.get? name.points)) .invalidStatement
  require (∀ name ∈ timeFields, isSafe (value.get? name)) .invalidStatement
  let critical ← orFail .invalidStatement (texts? (value.get? "critical_claims".points))
  require critical.Nodup .invalidStatement
  require (∀ name ∈ ["artifact_digest", "evidence_digest"],
    (text? (value.get? name.points)).any isDigest) .invalidStatement
  orFail .invalidStatement (AttestationStatement.fromDict value)

def protectedHeader (kid : Text) : Fields :=
  [("alg".points, .str algorithm), ("crit".points, .arr [.str "ecpa_profile".points]),
    ("ecpa_profile".points, .str profile), ("kid".points, .str kid), ("typ".points, .str type)]

def headerFields : List Text :=
  ["alg", "crit", "ecpa_profile", "kid", "typ"].map (·.points)

-- `encode("ascii")` of a text that has only such characters.
def ascii (t : Text) : Bytes :=
  t.map .ofNat

def signingInput (header : Text) (payload : Bytes) : Bytes :=
  ascii (header ++ '.'.toNat :: b64url payload)

-- The first and the last of three segments with nothing in the middle one.
def segments? (jws : Text) : Option (Text × Text) :=
  match jws.splitOn '.'.toNat with
  | [header, [], signature] => some (header, signature)
  | _                       => none

section

variable [Jcs]

def canonicalize (value : Fields) : Except Failure Bytes := do
  validateValues (.obj value)
  orFail .unsupportedValue (Jcs.canonicalize (.obj value))

variable [Ed25519]

def sign (statement : AttestationStatement) (key : Ed25519.PrivateKey) :
    Except Failure SignedEnvelope := do
  require (statement.schema = schema ∧ statement.profile = profile) .wrongProfile
  let value := statement.toDict
  let _ ← validateStatement value
  let payload ← canonicalize value
  let header ← canonicalize (protectedHeader statement.kid)
  let encodedHeader := b64url header
  let signature := b64url (Ed25519.sign key (signingInput encodedHeader payload))
  .ok ⟨payload, encodedHeader ++ '.'.toNat :: '.'.toNat :: signature⟩

def verify (envelope : SignedEnvelope) (trustStore : TrustStore) (now : Int)
    (clockSkew : Int := 0) (maxTtl : Int := defaultMaxTtl)
    (maxObservationAge : Int := defaultMaxObservationAge) :
    Except Failure AttestationStatement := do
  let parts ← orFail .malformedJws (segments? envelope.detachedJws)
  let headerRaw ← b64urlDecode parts.1
  let header ← parseStrict headerRaw
  require (sameKeys header headerFields) .unknownCriticalHeader
  let canonicalHeader ← canonicalize header
  require (headerRaw = canonicalHeader) .malformedJws
  require (header.get? "alg".points = some (.str algorithm)) .wrongAlgorithm
  require (header.get? "typ".points = some (.str type)) .wrongType
  require (header.get? "crit".points = some (.arr [.str "ecpa_profile".points]))
    .unknownCriticalHeader
  require (header.get? "ecpa_profile".points = some (.str profile)) .wrongProfile
  let kid ← orFail .unknownKey (text? (header.get? "kid".points))
  let payloadValue ← parseStrict envelope.payload
  let canonicalPayload ← canonicalize payloadValue
  require (envelope.payload = canonicalPayload) .noncanonicalPayload
  let statement ← validateStatement payloadValue
  require (statement.schema = schema ∧ statement.profile = profile) .wrongProfile
  require (statement.kid = kid) .keyMismatch
  require (statement.criticalClaims = []) .unknownCriticalClaim
  let entry ← trustStore.lookup statement.issuer kid statement.subject now
  let signature ← b64urlDecode parts.2
  require (Ed25519.verify entry.publicKey.raw signature (signingInput parts.1 envelope.payload))
    .invalidSignature
  require (statement.issuedAt ≤ now + clockSkew ∧ statement.observedAt ≤ now + clockSkew)
    .notYetValid
  require (now - clockSkew ≤ statement.expiresAt) .expired
  require (statement.observedAt ≤ statement.issuedAt ∧ statement.issuedAt ≤ statement.expiresAt)
    .invalidTime
  require (statement.expiresAt - statement.issuedAt ≤ maxTtl) .invalidTime
  require (now - statement.observedAt ≤ maxObservationAge + clockSkew) .invalidTime
  .ok statement

end

end Profile
