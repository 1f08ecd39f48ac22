import ExtManager.Contract.Json

-- The hexadecimal SHA-256 digests of a JSON value's two encodings: `canonical_bytes` writes
-- non-ASCII characters as they are, the gate's `_json` escapes them.
class Sha256 where
  canonical : Json → String
  ascii     : Json → String

inductive State
  | intent
  | resolved
  | planned
  | preparing
  | prepared
  | launching
  | observing
  | commitReady
  | effective
  | degraded
  | reconcile
  | rollback
  | rolledBack
  | failedSafe
  | safetyUnknown
  deriving DecidableEq, Repr

def State.value : State → String
  | intent        => "Intent"
  | resolved      => "Resolved"
  | planned       => "Planned"
  | preparing     => "Preparing"
  | prepared      => "Prepared"
  | launching     => "Launching"
  | observing     => "Observing"
  | commitReady   => "CommitReady"
  | effective     => "Effective"
  | degraded      => "Degraded"
  | reconcile     => "Reconcile"
  | rollback      => "Rollback"
  | rolledBack    => "RolledBack"
  | failedSafe    => "FailedSafe"
  | safetyUnknown => "SafetyUnknown"

inductive ErrorCode
  | unknownResource
  | ambiguousResource
  | resourceConflict
  | incompatibleHost
  | missingProcessEvidence
  | staleEvidence
  | replayedNonce
  | casMismatch
  | externalLeaseInvalid
  | authorityViolation
  | invalidTransition
  | rollbackFailed
  deriving DecidableEq, Repr

def ErrorCode.value : ErrorCode → String
  | unknownResource        => "UNKNOWN_RESOURCE"
  | ambiguousResource      => "AMBIGUOUS_RESOURCE"
  | resourceConflict       => "RESOURCE_CONFLICT"
  | incompatibleHost       => "INCOMPATIBLE_HOST"
  | missingProcessEvidence => "MISSING_PROCESS_EVIDENCE"
  | staleEvidence          => "STALE_EVIDENCE"
  | replayedNonce          => "REPLAYED_NONCE"
  | casMismatch            => "CAS_MISMATCH"
  | externalLeaseInvalid   => "EXTERNAL_LEASE_INVALID"
  | authorityViolation     => "AUTHORITY_VIOLATION"
  | invalidTransition      => "INVALID_TRANSITION"
  | rollbackFailed         => "ROLLBACK_FAILED"

-- The exceptions that the coordinator, the gate and their adapters raise. `other` stands for what
-- the language and the adapters raise on their own (`KeyError`, `TypeError`, `sqlite3` errors).
inductive Exc
  | contract (code : ErrorCode) (detail : String)
  | gate (message : String)
  | injectedCrash (point : String)
  | runtime (message : String)
  | integrity (message : String)
  | other (message : String)
  deriving DecidableEq, Repr

-- `str(exc)`.
def Exc.str : Exc → String
  | contract code detail => code.value ++ ": " ++ detail
  | gate m | injectedCrash m | runtime m | integrity m | other m => m

-- `str.lower`, which follows the Unicode tables.
class Lower where
  lower : String → String

def canonicalUri [Lower] (value kind : String) : Except Exc String :=
  if ¬value.startsWith ("urn:ecpa:" ++ kind ++ ":") ∨ Lower.lower value ≠ value ∨
      ' ' ∈ value.toList then
    .error (.contract .unknownResource value)
  else
    .ok value

section

variable [Sha256]

def contentId (tag : String) (value : Json) : String :=
  tag ++ ":sha256:" ++ Sha256.canonical value

structure PluginIdentity where
  «namespace»    : String
  name           : String
  version        : String
  artifactSha256 : String
  deriving DecidableEq

def PluginIdentity.asdict (p : PluginIdentity) : Json :=
  .obj [("artifact_sha256", .str p.artifactSha256), ("name", .str p.name),
    ("namespace", .str p.namespace), ("version", .str p.version)]

def PluginIdentity.id (p : PluginIdentity) : String :=
  contentId "plugin" p.asdict

structure HostCompatibility where
  runtime  : String
  version  : String
  provider : String
  abi      : String
  deriving DecidableEq

def HostCompatibility.asdict (h : HostCompatibility) : Json :=
  .obj [("abi", .str h.abi), ("provider", .str h.provider), ("runtime", .str h.runtime),
    ("version", .str h.version)]

structure ProcessIdentity where
  host    : String
  role    : String
  ordinal : Int
  startId : String
  epoch   : Int
  deriving DecidableEq

def ProcessIdentity.key (p : ProcessIdentity) : String :=
  p.host ++ "/" ++ p.role ++ "/" ++ toString p.ordinal ++ "/" ++ p.startId ++ "/" ++
    toString p.epoch

def ProcessIdentity.asdict (p : ProcessIdentity) : Json :=
  .obj [("epoch", .int p.epoch), ("host", .str p.host), ("ordinal", .int p.ordinal),
    ("role", .str p.role), ("start_id", .str p.startId)]

structure ResourceClaim where
  uri   : String
  owner : String
  mode  : String := "exclusive"
  deriving DecidableEq

def ResourceClaim.asdict (c : ResourceClaim) : Json :=
  .obj [("mode", .str c.mode), ("owner", .str c.owner), ("uri", .str c.uri)]

structure EvidenceObligation where
  obligationId     : String
  role             : String
  event            : String
  requiredOrdinals : List Int
  deriving DecidableEq

def EvidenceObligation.asdict (o : EvidenceObligation) : Json :=
  .obj [("event", .str o.event), ("obligation_id", .str o.obligationId),
    ("required_ordinals", .arr (o.requiredOrdinals.map .int)), ("role", .str o.role)]

structure Attestation where
  planId         : String
  launchId       : String
  process        : ProcessIdentity
  obligationId   : String
  event          : String
  nonce          : String
  issuedAt       : Int
  expiresAt      : Int
  artifactId     : String
  authority      : String := "host-runtime"
  issuer         : String := ""
  kid            : String := ""
  observedAt     : Int := 0
  evidenceDigest : String := ""
  artifactDigest : String := ""
  deriving DecidableEq

def Attestation.asdict (a : Attestation) : Json :=
  .obj [("artifact_digest", .str a.artifactDigest), ("artifact_id", .str a.artifactId),
    ("authority", .str a.authority), ("event", .str a.event),
    ("evidence_digest", .str a.evidenceDigest), ("expires_at", .int a.expiresAt),
    ("issued_at", .int a.issuedAt), ("issuer", .str a.issuer), ("kid", .str a.kid),
    ("launch_id", .str a.launchId), ("nonce", .str a.nonce),
    ("obligation_id", .str a.obligationId), ("observed_at", .int a.observedAt),
    ("plan_id", .str a.planId), ("process", a.process.asdict)]

structure PredecessorSnapshot where
  generation     : Int
  planId         : Option String
  renderedInputs : Json
  deriving DecidableEq

def PredecessorSnapshot.asdict (p : PredecessorSnapshot) : Json :=
  .obj [("generation", .int p.generation), ("plan_id", .ofOption .str p.planId),
    ("rendered_inputs", p.renderedInputs)]

structure Plan where
  plugins        : List PluginIdentity
  host           : HostCompatibility
  claims         : List ResourceClaim
  obligations    : List EvidenceObligation
  predecessor    : PredecessorSnapshot
  fallbackProven : Bool := false
  deriving DecidableEq

def Plan.asdict (p : Plan) : Json :=
  .obj [("claims", .arr (p.claims.map (·.asdict))), ("fallback_proven", .bool p.fallbackProven),
    ("host", p.host.asdict), ("obligations", .arr (p.obligations.map (·.asdict))),
    ("plugins", .arr (p.plugins.map (·.asdict))), ("predecessor", p.predecessor.asdict)]

def Plan.planId (p : Plan) : String :=
  contentId "plan" p.asdict

end
