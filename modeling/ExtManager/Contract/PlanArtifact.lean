import ExtManager.Codec.Text
import ExtManager.Contract.Basic
import Mathlib.Data.List.Dedup
import Mathlib.Data.List.Sort

-- `json.loads`, and `json.dumps` with sorted keys, short separators and no escapes for what is not
-- ASCII, in UTF-8; `none` where they raise. A value that has no such bytes, because of a surrogate,
-- or that is not finite is no `Json`: nothing that `canonical_bytes` writes is read as one.
class JsonModule where
  loads : Bytes → Option Json
  dumps : Json → Option Bytes

def canonicalBytes [JsonModule] (value : Json) : Option Bytes :=
  JsonModule.dumps value

namespace PlanArtifact

def schema : String :=
  "ecpa-execution-plan/v1"

-- A `PlanArtifactError`, or what `canonical_uri` raises.
inductive Failure
  | artifact (message : String)
  | raised (exc : Exc)
  deriving DecidableEq

section

variable [Sha256]

def artifactValue (plan : Plan) : Json :=
  .obj [("plan", plan.asdict), ("plan_id", .str plan.planId), ("schema", .str schema)]

variable [JsonModule]

def artifactBytes (plan : Plan) : Option Bytes :=
  (canonicalBytes (artifactValue plan)).map (· ++ [0x0A])

end

def require (p : Prop) [Decidable p] (message : String) : Except Failure Unit :=
  if p then .ok () else .error (.artifact message)

-- `set(value) == fields`.
def sameKeys (value : List (String × Json)) (fields : List String) : Bool :=
  value.all (fun f => f.1 ∈ fields) && fields.all fun name => name ∈ value.map (·.1)

def exactFields (value : Option Json) (fields : List String) (context : String) :
    Except Failure (List (String × Json)) :=
  match value with
  | some (.obj f) => do
    require (sameKeys f fields) (context ++ " fields do not match the schema")
    .ok f
  | _             => .error (.artifact (context ++ " fields do not match the schema"))

-- `str.isspace` of one character.
def isSpace (c : Char) : Bool :=
  let p := c.toNat
  (9 ≤ p && p ≤ 13) || (28 ≤ p && p ≤ 32) || p = 0x85 || p = 0xA0 || p = 0x1680 ||
    (0x2000 ≤ p && p ≤ 0x200A) || p = 0x2028 || p = 0x2029 || p = 0x202F || p = 0x205F || p = 0x3000

def isWord (s : String) : Bool :=
  s ≠ "" && !s.toList.any isSpace

def string (value : Option Json) (context : String) : Except Failure String :=
  match value with
  | some (.str s) => do
    require (isWord s) (context ++ " must be a non-empty string without whitespace")
    .ok s
  | _             =>
    .error (.artifact (context ++ " must be a non-empty string without whitespace"))

def integer (value : Option Json) (context : String) : Except Failure Int :=
  match value with
  | some (.int n) => do
    require (0 ≤ n) (context ++ " must be a non-negative integer")
    .ok n
  | _             => .error (.artifact (context ++ " must be a non-negative integer"))

def isDigest (s : String) : Bool :=
  s.length = 64 && s.toList.all (· ∈ "0123456789abcdef".toList)

def sha256 (value : Option Json) (context : String) : Except Failure String := do
  let digest ← string value context
  require (isDigest digest) (context ++ " must be a lowercase SHA-256 digest")
  .ok digest

def array (value : Option Json) (message : String) : Except Failure (List Json) :=
  match value with
  | some (.arr items) => .ok items
  | _                 => .error (.artifact message)

-- `for index, item in enumerate(items)` from an index on.
def parseItems {α : Type} (parse : Nat → Json → Except Failure α) :
    Nat → List Json → Except Failure (List α)
  | _, []                 => .ok []
  | index, item :: items => do
    let a ← parse index item
    let as ← parseItems parse (index + 1) items
    .ok (a :: as)

def parsePlugin (index : Nat) (item : Json) : Except Failure PluginIdentity := do
  let plugin ← exactFields (some item) ["namespace", "name", "version", "artifact_sha256"]
    ("plugin " ++ toString index)
  .ok {
    «namespace»    := ← string (plugin.lookup "namespace") "plugin namespace"
    name           := ← string (plugin.lookup "name") "plugin name"
    version        := ← string (plugin.lookup "version") "plugin version"
    artifactSha256 := ← sha256 (plugin.lookup "artifact_sha256") "plugin artifact digest"
  }

def parseHost (value : Option Json) : Except Failure HostCompatibility := do
  let host ← exactFields value ["runtime", "version", "provider", "abi"] "host"
  .ok {
    runtime  := ← string (host.lookup "runtime") "host runtime"
    version  := ← string (host.lookup "version") "host version"
    provider := ← string (host.lookup "provider") "host provider"
    abi      := ← string (host.lookup "abi") "host abi"
  }

-- `re.fullmatch(r"urn:ecpa:resource:[a-z0-9._-]+", uri)`.
def isResource (uri : String) : Bool :=
  let start := "urn:ecpa:resource:".toList
  let rest := uri.toList.drop start.length
  start.isPrefixOf uri.toList && rest ≠ [] && rest.all fun c =>
    ('a' ≤ c && c ≤ 'z') || ('0' ≤ c && c ≤ '9') || c = '.' || c = '_' || c = '-'

def parseClaim [Lower] (index : Nat) (item : Json) : Except Failure ResourceClaim := do
  let claim ← exactFields (some item) ["uri", "owner", "mode"] ("claim " ++ toString index)
  let uri ← string (claim.lookup "uri") "claim URI"
  let _ ← (canonicalUri uri "resource").mapError .raised
  require (isResource uri) "claim URI does not match the resource profile"
  let mode ← string (claim.lookup "mode") "claim mode"
  require (mode ∈ ["exclusive", "shared-read"]) "claim mode is unsupported"
  .ok {
    uri   := uri
    owner := ← string (claim.lookup "owner") "claim owner"
    mode  := mode
  }

-- `tuple(sorted(set(ordinals)))`.
def sortedSet (ordinals : List Int) : List Int :=
  ordinals.dedup.insertionSort (· ≤ ·)

def parseObligation (index : Nat) (item : Json) : Except Failure EvidenceObligation := do
  let obligation ← exactFields (some item) ["obligation_id", "role", "event", "required_ordinals"]
    ("obligation " ++ toString index)
  let ordinals ← array (obligation.lookup "required_ordinals")
    "evidence obligation requires target ordinals"
  require (ordinals ≠ []) "evidence obligation requires target ordinals"
  let parsedOrdinals ← ordinals.mapM fun ordinal => integer (some ordinal) "required ordinal"
  require (sortedSet parsedOrdinals = parsedOrdinals) "required ordinals must be unique and sorted"
  .ok {
    obligationId     := ← string (obligation.lookup "obligation_id") "obligation id"
    role             := ← string (obligation.lookup "role") "obligation role"
    event            := ← string (obligation.lookup "event") "obligation event"
    requiredOrdinals := parsedOrdinals
  }

-- The id of the predecessor's plan, which may be `None`.
def predecessorPlanId : Option Json → Except Failure (Option String)
  | some .null => .ok none
  | value      => do
    let planId ← string value "predecessor plan id"
    .ok (some planId)

def object (value : Option Json) (message : String) : Except Failure Json :=
  match value with
  | some (.obj fields) => .ok (.obj fields)
  | _                  => .error (.artifact message)

def boolean (value : Option Json) (message : String) : Except Failure Bool :=
  match value with
  | some (.bool b) => .ok b
  | _              => .error (.artifact message)

def load [JsonModule] (raw : Bytes) : Except Failure Json :=
  match JsonModule.loads raw with
  | none   => .error (.artifact "execution plan is not valid UTF-8 JSON")
  | some v => .ok v

variable [JsonModule] [Lower] [Sha256]

def parsePlan (value : Option Json) : Except Failure Plan := do
  let body ← exactFields value
    ["plugins", "host", "claims", "obligations", "predecessor", "fallback_proven"] "plan"
  let items ← array (body.lookup "plugins") "execution plan requires at least one plugin"
  require (items ≠ []) "execution plan requires at least one plugin"
  let plugins ← parseItems parsePlugin 0 items
  require (plugins.map (·.id)).Nodup "execution plan contains duplicate plugins"
  let host ← parseHost (body.lookup "host")
  let items ← array (body.lookup "claims") "plan claims must be an array"
  let claims ← parseItems parseClaim 0 items
  require (claims.map (·.uri)).Nodup "execution plan contains duplicate resource claims"
  let items ← array (body.lookup "obligations") "execution plan requires evidence obligations"
  require (items ≠ []) "execution plan requires evidence obligations"
  let obligations ← parseItems parseObligation 0 items
  require (obligations.map (·.obligationId)).Nodup "execution plan contains duplicate obligations"
  let predecessor ← exactFields (body.lookup "predecessor")
    ["generation", "plan_id", "rendered_inputs"] "predecessor"
  let planId ← predecessorPlanId (predecessor.lookup "plan_id")
  let renderedInputs ← object (predecessor.lookup "rendered_inputs")
    "predecessor rendered inputs must be an object"
  let fallbackProven ← boolean (body.lookup "fallback_proven") "fallback_proven must be boolean"
  let generation ← integer (predecessor.lookup "generation") "predecessor generation"
  .ok ⟨plugins, host, claims, obligations, ⟨generation, planId, renderedInputs⟩, fallbackProven⟩

def parsePlanArtifact (raw : Bytes) : Except Failure Plan := do
  let value ← load raw
  let envelope ← exactFields (some value) ["schema", "plan_id", "plan"] "artifact"
  require (some raw = (canonicalBytes (.obj envelope)).map (· ++ [0x0A]))
    "execution plan artifact is not canonical"
  require (envelope.lookup "schema" = some (.str schema)) "unsupported execution plan schema"
  let plan ← parsePlan (envelope.lookup "plan")
  require (envelope.lookup "plan_id" = some (.str plan.planId))
    "execution plan id does not match its content"
  .ok plan

end PlanArtifact

-- The coordinator's `_plan_from_json`. It checks no types: a value of another type than the plan's
-- has no plan here.
namespace Coordinator

def str? : Option Json → Option String
  | some (.str s) => some s
  | _             => none

def int? : Option Json → Option Int
  | some (.int n) => some n
  | _             => none

def items? : Option Json → Option (List Json)
  | some (.arr items) => some items
  | _                 => none

-- The fields that are passed on by name.
def fields? (value : Json) (names : List String) : Option (List (String × Json)) :=
  match value with
  | .obj fields => if PlanArtifact.sameKeys fields names then some fields else none
  | _           => none

def pluginFromJson (item : Json) : Option PluginIdentity := do
  let item ← fields? item ["namespace", "name", "version", "artifact_sha256"]
  some {
    «namespace»    := ← str? (item.lookup "namespace")
    name           := ← str? (item.lookup "name")
    version        := ← str? (item.lookup "version")
    artifactSha256 := ← str? (item.lookup "artifact_sha256")
  }

def hostFromJson (value : Json) : Option HostCompatibility := do
  let value ← fields? value ["runtime", "version", "provider", "abi"]
  some {
    runtime  := ← str? (value.lookup "runtime")
    version  := ← str? (value.lookup "version")
    provider := ← str? (value.lookup "provider")
    abi      := ← str? (value.lookup "abi")
  }

-- `mode` has a default.
def claimFromJson (item : Json) : Option ResourceClaim := do
  match fields? item ["uri", "owner"] with
  | some item => some { uri := ← str? (item.lookup "uri"), owner := ← str? (item.lookup "owner") }
  | none      =>
    let item ← fields? item ["uri", "owner", "mode"]
    some {
      uri   := ← str? (item.lookup "uri")
      owner := ← str? (item.lookup "owner")
      mode  := ← str? (item.lookup "mode")
    }

def obligationFromJson (item : Json) : Option EvidenceObligation := do
  some {
    obligationId     := ← str? (item.get? "obligation_id")
    role             := ← str? (item.get? "role")
    event            := ← str? (item.get? "event")
    requiredOrdinals := ← (← items? (item.get? "required_ordinals")).mapM fun n => int? (some n)
  }

def predecessorFromJson (value : Json) : Option PredecessorSnapshot := do
  let value ← fields? value ["generation", "plan_id", "rendered_inputs"]
  some {
    generation     := ← int? (value.lookup "generation")
    planId         := ← match value.lookup "plan_id" with
      | some .null => some none
      | planId     => (str? planId).map some
    renderedInputs := ← value.lookup "rendered_inputs"
  }

def planFromValue (value : Json) : Option Plan := do
  some {
    plugins        := ← (← items? (value.get? "plugins")).mapM pluginFromJson
    host           := ← value.get? "host" >>= hostFromJson
    claims         := ← (← items? (value.get? "claims")).mapM claimFromJson
    obligations    := ← (← items? (value.get? "obligations")).mapM obligationFromJson
    predecessor    := ← value.get? "predecessor" >>= predecessorFromJson
    fallbackProven := ← match value.get? "fallback_proven" with
      | none           => some false
      | some (.bool b) => some b
      | some _         => none
  }

def planFromJson [JsonModule] (raw : Bytes) : Option Plan :=
  JsonModule.loads raw >>= planFromValue

end Coordinator
