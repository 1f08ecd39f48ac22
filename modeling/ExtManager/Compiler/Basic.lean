import ExtManager.Codec.Python

namespace Compiler

inductive PlanningErrorCode
  | invalidContract
  | duplicatePlugin
  | incompatibleHost
  | missingCapability
  | incompatibleCapability
  | ambiguousCapability
  | dependencyCycle
  | resourceConflict
  | authorityViolation
  | unknownResource
  | invalidResourceMode
  deriving DecidableEq, Repr

def PlanningErrorCode.value : PlanningErrorCode → String
  | invalidContract        => "INVALID_CONTRACT"
  | duplicatePlugin        => "DUPLICATE_PLUGIN"
  | incompatibleHost       => "INCOMPATIBLE_HOST"
  | missingCapability      => "MISSING_CAPABILITY"
  | incompatibleCapability => "INCOMPATIBLE_CAPABILITY"
  | ambiguousCapability    => "AMBIGUOUS_CAPABILITY"
  | dependencyCycle        => "DEPENDENCY_CYCLE"
  | resourceConflict       => "RESOURCE_CONFLICT"
  | authorityViolation     => "AUTHORITY_VIOLATION"
  | unknownResource        => "UNKNOWN_RESOURCE"
  | invalidResourceMode    => "INVALID_RESOURCE_MODE"

-- `ContractPlanningError`, or what the code does not catch: a version or a range that `packaging`
-- does not read, a missing key of a dictionary, an empty `next`, a string that has no encoding.
inductive Failure
  | planning (code : PlanningErrorCode) (detail : Text)
  | invalidVersion
  | invalidSpecifier
  | keyError
  | stopIteration
  | unicodeEncode
  deriving DecidableEq, Repr

abbrev Result (α : Type) : Type :=
  Except Failure α

def fail {α : Type} (code : PlanningErrorCode) (detail : Text) : Result α :=
  .error (.planning code detail)

def require (p : Prop) [Decidable p] (code : PlanningErrorCode) (detail : Text) : Result Unit :=
  if p then .ok () else fail code detail

def orElse {α : Type} (e : Failure) : Option α → Result α
  | some a => .ok a
  | none   => .error e

def RESOURCE_MODES : List Text :=
  ["exclusive".points, "shared-read".points, "mediated".points]

def COMPLETION_MODES : List Text :=
  ["all".points, "quorum".points, "optional".points]

def EVENTS : List Text :=
  ["loaded".points, "invoked".points, "health-observed".points]

def AUTHORITY_KINDS : List Text :=
  ["provider".points, "runtime".points, "external".points]

def CAPABILITY_DIRECTIONS : List Text :=
  ["provides".points, "requires".points]

def TAXONOMY_DECISION_PRECEDENCE : List Text :=
  ["unknown-resource".points, "invalid-mode".points, "capability-cardinality".points,
    "resource-mode".points, "mediator-consistency".points, "mediator-presence".points]

def TAXONOMY_SCOPE : Text :=
  "vLLM-HUST-static-contract-study".points

structure Capability where
  name : Text
  version : Text
  deriving DecidableEq

structure ContractResource where
  name : Text
  mode : Text
  mediator : Option Text
  deriving DecidableEq

structure TaxonomyResource where
  canonical : Text
  aliases : List Text
  allowedModes : List Text
  deriving DecidableEq

def TaxonomyResource.names (r : TaxonomyResource) : List Text :=
  r.canonical :: r.aliases

-- Canonical names and aliases are unique, as the parser of a taxonomy makes sure.
structure ContractTaxonomy where
  schema : Text
  scope : Text
  decisionPrecedence : List Text
  capabilities : List Text
  resources : List TaxonomyResource
  unique : (resources.flatMap TaxonomyResource.names).Nodup

structure ProcessObligationContract where
  role : Text
  event : Text
  completion : Text
  authority : Text
  capabilityDirection : Text
  capability : Text
  quorum : Option Int
  deriving DecidableEq

structure RollbackContract where
  managerOwned : List Text
  externalOperatorOwned : List Text
  deriving DecidableEq

structure AuthorityGrant where
  role : Text
  event : Text
  capabilityDirection : Text
  capability : Text
  deriving DecidableEq

structure AuthorityContract where
  provider : List AuthorityGrant
  runtime : List AuthorityGrant
  external : List AuthorityGrant
  deriving DecidableEq

-- `getattr(authority, kind)` for one of the three kinds.
def AuthorityContract.grants (a : AuthorityContract) (kind : Text) : List AuthorityGrant :=
  if kind = "provider".points then a.provider
  else if kind = "runtime".points then a.runtime
  else a.external

structure ExtensionContract where
  extensionId : Text
  version : Text
  manifestSha256 : Text
  hostRuntime : Text
  hostVersionRange : Text
  provides : List Capability
  requires : List Capability
  resources : List ContractResource
  processObligations : List ProcessObligationContract
  rollback : RollbackContract
  authority : AuthorityContract
  deriving DecidableEq

structure CapabilityBinding where
  capability : Text
  requiredRange : Text
  consumer : Text
  provider : Text
  providedVersion : Text
  deriving DecidableEq

structure ResourceOwnership where
  resource : Text
  mode : Text
  owners : List Text
  mediator : Option Text
  deriving DecidableEq

structure ObligationBinding where
  extensionId : Text
  role : Text
  event : Text
  completion : Text
  authority : Text
  capabilityDirection : Text
  capability : Text
  capabilityProvider : Text
  quorum : Option Int
  deriving DecidableEq

structure ContractPlan where
  hostRuntime : Text
  hostVersion : Text
  orderedContracts : List ExtensionContract
  capabilityBindings : List CapabilityBinding
  resourceOwnership : List ResourceOwnership
  obligationBindings : List ObligationBinding
  deriving DecidableEq

-- The digests of the values that the compiler writes out: of a payload, and of a plan. A value with
-- a string that has no encoding has none.
class ContentId where
  manifest : Value → Option Text
  plan : ContractPlan → Option Text

def ContractPlan.planId [ContentId] (p : ContractPlan) : Option Text :=
  ContentId.plan p

end Compiler
