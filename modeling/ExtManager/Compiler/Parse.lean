import ExtManager.Compiler.Basic
import Mathlib.Data.Prod.Lex

namespace Compiler

section

def at' (location : Text) (index : Nat) : Text :=
  location ++ "[".points ++ Text.ofNat index ++ "]".points

def sub (location : Text) (field : String) : Text :=
  location ++ ".".points ++ field.points

-- `value[key]`.
def item (fields : Fields) (key : String) : Result Value :=
  orElse .keyError (fields.get? key.points)

-- `isinstance(value, dict)`, with a condition on its fields.
def dict (value : Value) (p : Fields → Prop) [DecidablePred p] (message : Text) : Result Fields :=
  match value with
    | .obj fields => do
      require (p fields) .invalidContract message
      return fields
    | _           => fail .invalidContract message

def object (value : Value) (location : Text) (names : List String) : Result Fields :=
  dict value (Value.HasFields · names) <| location ++ " requires exactly ".points ++
    Text.listRepr ((names.map String.points).insertionSort (· ≤ ·))

def string (value : Value) (location : Text) : Result Text :=
  match value with
    | .str t => do
      require (t ≠ [] ∧ t.strip = t) .invalidContract <|
        location ++ " must be a non-empty trimmed string".points
      return t
    | _      => fail .invalidContract <| location ++ " must be a non-empty trimmed string".points

-- `^[a-z0-9]+(?:[.-][a-z0-9]+)+$`: runs of letters and digits, with one dot or hyphen between two
-- of them. `open'` tells whether the current run has begun, `more` whether it is not the first one.
def isIdentifierFrom (open' more : Bool) : Text → Bool
  | []     => open' && more
  | p :: t =>
    if (0x61 ≤ p && p ≤ 0x7A) || (0x30 ≤ p && p ≤ 0x39) then isIdentifierFrom true more t
    else if (p = 0x2E || p = 0x2D) && open' then isIdentifierFrom false true t
    else false

def isIdentifier (t : Text) : Bool :=
  isIdentifierFrom false false t

def identifier (value : Value) (location : Text) : Result Text := do
  let result ← string value location
  require (isIdentifier result) .invalidContract <|
    location ++ " is not a canonical ECPA identifier".points
  return result

def array (value : Value) (message : Text) : Result (List Value) :=
  match value with
    | .arr items => .ok items
    | _          => fail .invalidContract message

-- The array, and `f` of its items with their indices.
def mapItems {α : Type} (items : List Value) (f : Value → Nat → Result α) : Result (List α) :=
  items.zipIdx.mapM fun (raw, index) => f raw index

def stringArray (value : Value) (location : Text) : Result (List Text) := do
  let items ← array value <| location ++ " must be an array".points
  let result ← items.mapM fun item => string item (location ++ "[]".points)
  require result.Nodup .invalidContract <| location ++ " contains duplicates".points
  return result.insertionSort (· ≤ ·)

-- `sorted(items, key=key)`.
def sortedBy {α κ : Type} [LinearOrder κ] (key : α → κ) (items : List α) : List α :=
  items.insertionSort fun a b => key a ≤ key b

section Versions

variable [Packaging]

def publicVersion (value : Value) (location : Text) : Result Text := do
  let raw ← string value location
  match Packaging.version? raw with
    | none        => fail .invalidContract <| location ++ " is not a PEP 440 version".points
    | some parsed => do
      require (Packaging.isLocal parsed = false) .invalidContract <|
        location ++ " must not contain a PEP 440 local version label".points
      return Packaging.versionStr parsed

def removeSuffix (t ending : Text) : Text :=
  if ending.isSuffixOf t then t.take (t.length - ending.length) else t

def publicSpecifier (value : Value) (location : Text) : Result Text := do
  let raw ← string value location
  match Packaging.specifiers? raw with
    | none        => fail .invalidContract <| location ++ " is not a PEP 440 specifier set".points
    | some parsed => do
      (Packaging.versions parsed).forM fun version =>
        match Packaging.version? (removeSuffix version ".*".points) with
          | none           =>
            fail .invalidContract <| location ++ " is not a PEP 440 specifier set".points
          | some candidate => require (Packaging.isLocal candidate = false) .invalidContract <|
            location ++ " must not contain a PEP 440 local version label".points
      return Packaging.specifiersStr parsed

-- A range, or a version.
def capabilityVersion (value : Value) (location : Text) (requirements : Bool) : Result Text :=
  if requirements then publicSpecifier value location else publicVersion value location

def capabilities (value : Value) (location : Text) (requirements : Bool) :
    Result (List Capability) := do
  let items ← array value <| location ++ " must be an array".points
  let result ← mapItems items fun raw index => do
    let fields ← object raw (at' location index) ["name", "version"]
    let name ← identifier (← item fields "name") (sub (at' location index) "name")
    let version ← string (← item fields "version") (sub (at' location index) "version")
    let version ← capabilityVersion (.str version) (sub (at' location index) "version") requirements
    return (⟨name, version⟩ : Capability)
  require (result.map Capability.name).Nodup .invalidContract <|
    location ++ " contains duplicate capability names".points
  return sortedBy Capability.name result

end Versions

def authorityGrants (value : Value) (location : Text) (authorityKind : Text) :
    Result (List AuthorityGrant) := do
  let items ← array value <| location ++ " must be an array".points
  let grants ← mapItems items fun raw index => do
    let here := at' location index
    let fields ← object raw here ["role", "event", "capability_direction", "capability"]
    let role ← string (← item fields "role") (sub here "role")
    let event ← string (← item fields "event") (sub here "event")
    require (event ∈ EVENTS) .invalidContract <| sub here "event is unsupported"
    require (¬(event ∈ ["loaded".points, "invoked".points] ∧ authorityKind ≠ "runtime".points))
      .authorityViolation <|
        here ++ " cannot claim ".points ++ event ++ " outside runtime authority".points
    let direction ← string (← item fields "capability_direction") (sub here "capability_direction")
    require (direction ∈ CAPABILITY_DIRECTIONS) .invalidContract <|
      sub here "capability_direction is unsupported"
    let capability ← identifier (← item fields "capability") (sub here "capability")
    return (⟨role, event, direction, capability⟩ : AuthorityGrant)
  require grants.Nodup .invalidContract <| location ++ " contains duplicates".points
  return sortedBy (fun g => [g.role, g.event, g.capabilityDirection, g.capability]) grants

end

section Taxonomy

def taxonomyResource (raw : Value) (index : Nat) : Result TaxonomyResource := do
  let here := at' "taxonomy.resources".points index
  let resource ← object raw here ["canonical", "aliases", "allowed_modes", "description"]
  let canonical ← identifier (← item resource "canonical") (sub here "canonical")
  let aliases ← stringArray (← item resource "aliases") (sub here "aliases")
  aliases.zipIdx.forM fun (name, aliasIndex) => do
    let _ ← identifier (.str name) (at' (sub here "aliases") aliasIndex)
  let allowedModes ← stringArray (← item resource "allowed_modes") (sub here "allowed_modes")
  require (allowedModes ≠ [] ∧ ∀ m ∈ allowedModes, m ∈ RESOURCE_MODES) .invalidContract <|
    sub here "allowed_modes is unsupported"
  let _ ← string (← item resource "description") (sub here "description")
  return ⟨canonical, aliases, allowedModes⟩

-- `parse_contract_taxonomy`.
def parseContractTaxonomy (payload : Value) : Result ContractTaxonomy := do
  let fields ← object payload "taxonomy".points
    ["schema", "scope", "decision_precedence", "capabilities", "resources"]
  let schema ← string (← item fields "schema") "taxonomy.schema".points
  require (schema = "ecpa-contract-taxonomy/0.1-draft".points) .invalidContract
    "taxonomy.schema is unsupported".points
  let scope ← string (← item fields "scope") "taxonomy.scope".points
  require (scope = TAXONOMY_SCOPE) .invalidContract "taxonomy.scope is unsupported".points
  let rawPrecedence ← array (← item fields "decision_precedence")
    "taxonomy.decision_precedence must be an array".points
  let precedence ← rawPrecedence.mapM fun value =>
    string value "taxonomy.decision_precedence[]".points
  require (precedence = TAXONOMY_DECISION_PRECEDENCE) .invalidContract
    "taxonomy.decision_precedence is unsupported".points
  let rawCapabilities ← array (← item fields "capabilities")
    "taxonomy.capabilities must be a non-empty array".points
  require (rawCapabilities ≠ []) .invalidContract
    "taxonomy.capabilities must be a non-empty array".points
  let capabilities ← mapItems rawCapabilities fun raw index => do
    let here := at' "taxonomy.capabilities".points index
    let capability ← object raw here ["name", "description"]
    let name ← identifier (← item capability "name") (sub here "name")
    let _ ← string (← item capability "description") (sub here "description")
    return name
  require capabilities.Nodup .invalidContract "taxonomy.capabilities contains duplicate names".points
  let rawResources ← array (← item fields "resources")
    "taxonomy.resources must be a non-empty array".points
  require (rawResources ≠ []) .invalidContract "taxonomy.resources must be a non-empty array".points
  let resources ← mapItems rawResources taxonomyResource
  if h : (resources.flatMap TaxonomyResource.names).Nodup then
    return {
      schema             := schema
      scope              := scope
      decisionPrecedence := precedence
      capabilities       := capabilities.insertionSort (· ≤ ·)
      resources          := sortedBy TaxonomyResource.canonical resources
      unique             :=
        ((List.perm_insertionSort _ resources).flatMap_right _).nodup_iff.mpr h
    }
  else
    fail .invalidContract "taxonomy resource canonical names and aliases must be globally unique".points

end Taxonomy

section Contract

def contractResource (raw : Value) (index : Nat) : Result ContractResource := do
  let here := at' "resources".points index
  let fields ← dict raw (fun fields => Value.HasFields fields ["name", "mode"] ∨
    Value.HasFields fields ["name", "mode", "mediator"]) <|
      here ++ " requires name/mode and optional mediator".points
  let name ← identifier (← item fields "name") (sub here "name")
  let mode ← string (← item fields "mode") (sub here "mode")
  let mediator := (fields.get? "mediator".points).getD .null
  require (mode ∈ RESOURCE_MODES) .invalidContract <| sub here "mode is unsupported"
  if mode = "mediated".points then do
    let mediator ← identifier mediator (sub here "mediator")
    return ⟨name, mode, some mediator⟩
  else do
    require (mediator = .null) .invalidContract <|
      here ++ " cannot declare a mediator for ".points ++ mode
    return ⟨name, mode, none⟩

def contractResources (value : Value) : Result (List ContractResource) := do
  let items ← array value "resources must be an array".points
  let resources ← mapItems items contractResource
  require (resources.map ContractResource.name).Nodup .invalidContract
    "resources contains duplicate resource names".points
  return resources

-- The names that a contract declares in a direction.
def declared (provides requires : List Capability) (direction : Text) : List Text :=
  (if direction = "provides".points then provides else requires).map Capability.name

-- The quorum of a completion, where it is one.
def quorumOf (completion : Text) (fields : Fields) (here : Text) : Result (Option Int) :=
  if completion = "quorum".points then
    match fields.get? "quorum".points with
      | some (.int n) => do
        require (1 ≤ n) .invalidContract <| sub here "quorum must be a positive integer"
        return some n
      | _             => fail .invalidContract <| sub here "quorum must be a positive integer"
  else .ok none

def processObligation (provides requires : List Capability) (raw : Value) (index : Nat) :
    Result ProcessObligationContract := do
  let here := at' "process_obligations".points index
  let rawFields ← dict raw (fun _ => True) <| here ++ " must be an object".points
  let completion ← string ((rawFields.get? "completion".points).getD .null) (sub here "completion")
  let required :=
    ["role", "event", "completion", "authority", "capability_direction", "capability"]
  let fields ← object raw here <|
    if completion = "quorum".points then required ++ ["quorum"] else required
  let role ← string (← item fields "role") (sub here "role")
  let event ← string (← item fields "event") (sub here "event")
  require (event ∈ EVENTS ∧ completion ∈ COMPLETION_MODES) .invalidContract <|
    here ++ " has unsupported semantics".points
  let authorityKind ← string (← item fields "authority") (sub here "authority")
  require (authorityKind ∈ AUTHORITY_KINDS) .invalidContract <| sub here "authority is unsupported"
  require (¬(event ∈ ["loaded".points, "invoked".points] ∧ authorityKind ≠ "runtime".points))
    .authorityViolation <| here ++ " ".points ++ event ++ " must use runtime authority".points
  let direction ← string (← item fields "capability_direction") (sub here "capability_direction")
  require (direction ∈ CAPABILITY_DIRECTIONS) .invalidContract <|
    sub here "capability_direction is unsupported"
  let capability ← identifier (← item fields "capability") (sub here "capability")
  require (capability ∈ declared provides requires direction) .authorityViolation <|
    here ++ " references an undeclared capability".points
  let quorum ← quorumOf completion fields here
  return ⟨role, event, completion, authorityKind, direction, capability, quorum⟩

def ProcessObligationContract.key (o : ProcessObligationContract) : List Text :=
  [o.role, o.event, o.capabilityDirection, o.capability]

def processObligations (provides requires : List Capability) (value : Value) :
    Result (List ProcessObligationContract) := do
  let message := "process_obligations must be a non-empty array".points
  let items ← array value message
  require (items ≠ []) .invalidContract message
  let obligations ← mapItems items (processObligation provides requires)
  require (obligations.map ProcessObligationContract.key).Nodup .invalidContract <|
    "process_obligations contains duplicate ".points ++ "role/event/direction/capability keys".points
  return obligations

def authorityContract (value : Value) : Result AuthorityContract := do
  let authority ← object value "authority".points ["provider", "runtime", "external"]
  let provider ← authorityGrants (← item authority "provider") "authority.provider".points
    "provider".points
  let runtime ← authorityGrants (← item authority "runtime") "authority.runtime".points
    "runtime".points
  let external ← authorityGrants (← item authority "external") "authority.external".points
    "external".points
  return ⟨provider, runtime, external⟩

-- Grants of capabilities that are not declared.
def checkGrants (provides requires : List Capability) (authority : AuthorityContract) : Result Unit :=
  ["external".points, "provider".points, "runtime".points].forM fun kind =>
    (authority.grants kind).forM fun grant =>
      require (grant.capability ∈ declared provides requires grant.capabilityDirection)
        .authorityViolation <| "authority.".points ++ kind ++ " grant references an undeclared ".points ++
          grant.capabilityDirection ++ " capability ".points ++ grant.capability

def deprecated (payload : Fields) : Result Unit :=
  match payload.get? "deprecated".points with
    | none       => .ok ()
    | some value => do
      let fields ← object value "deprecated".points ["since", "replacement"]
      let _ ← string (← item fields "since") "deprecated.since".points
      let _ ← identifier (← item fields "replacement") "deprecated.replacement".points
      return ()

def rollbackContract (fields : Fields) : Result RollbackContract := do
  let managerOwned ← stringArray (← item fields "manager_owned") "rollback.manager_owned".points
  let externalOperatorOwned ← stringArray (← item fields "external_operator_owned")
    "rollback.external_operator_owned".points
  return ⟨managerOwned, externalOperatorOwned⟩

variable [Packaging] [ContentId]

def CONTRACT_FIELDS : List String :=
  ["schema", "id", "version", "host", "capabilities", "resources", "process_obligations", "rollback",
    "authority"]

-- `parse_contract`.
def parseContract (payload : Value) : Result ExtensionContract := do
  let fields ← dict payload (fun fields => Value.HasFields fields CONTRACT_FIELDS ∨
    Value.HasFields fields (CONTRACT_FIELDS ++ ["deprecated"]))
      "contract fields do not match ecpa-manifest/0.1-draft".points
  require (fields.get? "schema".points = some (.str "ecpa-manifest/0.1-draft".points))
    .invalidContract "unsupported contract schema".points
  let extensionId ← identifier (← item fields "id") "id".points
  let version ← publicVersion (← item fields "version") "version".points
  let host ← object (← item fields "host") "host".points ["runtime", "version"]
  let hostRuntime ← string (← item host "runtime") "host.runtime".points
  let hostRange ← publicSpecifier (← item host "version") "host.version".points
  let both ← object (← item fields "capabilities") "capabilities".points ["provides", "requires"]
  let provides ← capabilities (← item both "provides") "capabilities.provides".points false
  let requires ← capabilities (← item both "requires") "capabilities.requires".points true
  let resources ← contractResources (← item fields "resources")
  let obligations ← processObligations provides requires (← item fields "process_obligations")
  let rollback ← object (← item fields "rollback") "rollback".points
    ["manager_owned", "external_operator_owned"]
  let _ ← object (← item fields "authority") "authority".points ["provider", "runtime", "external"]
  deprecated fields
  let authority ← authorityContract (← item fields "authority")
  checkGrants provides requires authority
  let manifestSha256 ← orElse .unicodeEncode (ContentId.manifest payload)
  let rollback ← rollbackContract rollback
  return {
    extensionId        := extensionId
    version            := version
    manifestSha256     := manifestSha256
    hostRuntime        := hostRuntime
    hostVersionRange   := hostRange
    provides           := provides
    requires           := requires
    resources          := sortedBy ContractResource.name resources
    processObligations := sortedBy (fun o => toLex ([o.role, o.event, o.completion, o.authority,
      o.capabilityDirection, o.capability], o.quorum.getD 0)) obligations
    rollback           := rollback
    authority          := authority
  }

end Contract

end Compiler
