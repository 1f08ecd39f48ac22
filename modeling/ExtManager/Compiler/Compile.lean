import ExtManager.Compiler.Parse
import ExtManager.Order.Kahn

namespace Compiler

section Capabilities

variable [Packaging]

-- `Version(version) in SpecifierSet(range)`.
def inRange (version range : Text) : Result Bool := do
  let v ← orElse .invalidVersion (Packaging.version? version)
  let s ← orElse .invalidSpecifier (Packaging.specifiers? range)
  return Packaging.contains s v

-- `providers.get(name, [])`.
def providers (contracts : List ExtensionContract) (name : Text) :
    List (ExtensionContract × Capability) :=
  contracts.flatMap fun contract => (contract.provides.filter (·.name = name)).map (contract, ·)

-- The candidates with a version in the range.
def compatible (range : Text) : List (ExtensionContract × Capability) →
    Result (List (ExtensionContract × Capability))
  | []      => return []
  | c :: cs => do
    let b ← inRange c.2.version range
    let rest ← compatible range cs
    return if b then c :: rest else rest

-- One iteration over the requirements of a consumer.
def resolveRequirement (contracts : List ExtensionContract) (consumer : ExtensionContract)
    (requirement : Capability) : Result CapabilityBinding := do
  let candidates := providers contracts requirement.name
  match ← compatible requirement.version candidates with
    | []                    =>
      fail (if candidates ≠ [] then .incompatibleCapability else .missingCapability) <|
        consumer.extensionId ++ " requires ".points ++ requirement.name ++ requirement.version
    | [(provider, provision)] => return {
        capability      := requirement.name
        requiredRange   := requirement.version
        consumer        := consumer.extensionId
        provider        := provider.extensionId
        providedVersion := provision.version
      }
    | several               =>
      fail .ambiguousCapability <| consumer.extensionId ++ " requirement ".points ++
        requirement.name ++ " matches ".points ++
        Text.listRepr ((several.map (·.1.extensionId)).insertionSort (· ≤ ·))

-- `_resolve_capabilities`, with the bindings as they are found.
def resolveCapabilities (contracts : List ExtensionContract) : Result (List CapabilityBinding) := do
  let bindings ← contracts.mapM fun consumer =>
    consumer.requires.mapM (resolveRequirement contracts consumer)
  return bindings.flatten

end Capabilities

-- The other contracts that a contract depends on.
def dependencies (bindings : List CapabilityBinding) (consumer : Text) : Finset Text :=
  ((bindings.filter (·.consumer = consumer)).map (·.provider)).toFinset.erase consumer

-- `by_id[extension_id]`.
def byId (contracts : List ExtensionContract) (extensionId : Text) : Result ExtensionContract :=
  orElse .keyError <| contracts.reverse.find? (·.extensionId = extensionId)

def ids (contracts : List ExtensionContract) : List Text :=
  contracts.map ExtensionContract.extensionId

-- `_order_contracts`.
def orderContracts (contracts : List ExtensionContract) (bindings : List CapabilityBinding) :
    Result (List ExtensionContract) := do
  let st := Kahn.order (dependencies bindings) (ids contracts)
  require (st.ordered.length = contracts.length) .dependencyCycle <|
    "capability dependency cycle includes ".points ++
      Text.listRepr (((ids contracts).filter (st.indegree · ≠ 0)).insertionSort (· ≤ ·))
  st.ordered.mapM (byId contracts)

section Resources

-- The claims of one resource, with who claims it.
structure Summary where
  resource : Text
  claims : List (Text × ContractResource)

namespace Summary

def owners (s : Summary) : List Text :=
  (s.claims.map (·.1)).insertionSort (· ≤ ·)

def modes (s : Summary) : Finset Text :=
  (s.claims.map (·.2.mode)).toFinset

def mediators (s : Summary) : Finset (Option Text) :=
  (s.claims.map (·.2.mediator)).toFinset

-- `next(iter(mediators))`, of a set with one element.
def mediator (s : Summary) : Option Text :=
  s.claims.head?.bind (·.2.mediator)

def SharedRead (s : Summary) : Prop :=
  s.modes = {"shared-read".points}

def Mediated (s : Summary) : Prop :=
  s.modes = {"mediated".points}

instance (s : Summary) : Decidable s.SharedRead :=
  inferInstanceAs (Decidable (_ = _))

instance (s : Summary) : Decidable s.Mediated :=
  inferInstanceAs (Decidable (_ = _))

-- The three conditions of errors, in the order in which they are looked for.
def ModeError (s : Summary) : Prop :=
  ¬s.owners.Nodup ∨ (1 < s.claims.length ∧ ¬(s.SharedRead ∨ s.Mediated))

def ConsistencyError (s : Summary) : Prop :=
  s.Mediated ∧ s.mediators.card ≠ 1

def PresenceError (s : Summary) : Prop :=
  s.Mediated ∧ s.mediator ∉ s.owners.map some

instance : DecidablePred ModeError :=
  fun s => inferInstanceAs (Decidable (¬s.owners.Nodup ∨
    (1 < s.claims.length ∧ ¬(s.SharedRead ∨ s.Mediated))))

instance : DecidablePred ConsistencyError :=
  fun s => inferInstanceAs (Decidable (s.Mediated ∧ s.mediators.card ≠ 1))

instance : DecidablePred PresenceError :=
  fun s => inferInstanceAs (Decidable (s.Mediated ∧ s.mediator ∉ s.owners.map some))

def ownership (s : Summary) : ResourceOwnership :=
  if s.Mediated then ⟨s.resource, "mediated".points, s.owners, s.mediator⟩
  else match s.claims with
    | [(_, claim)] => ⟨s.resource, claim.mode, s.owners, claim.mediator⟩
    | _            => ⟨s.resource, "shared-read".points, s.owners, none⟩

end Summary

def claimsOf (contracts : List ExtensionContract) (name : Text) : List (Text × ContractResource) :=
  contracts.flatMap fun contract =>
    (contract.resources.filter (·.name = name)).map (contract.extensionId, ·)

def claimedNames (contracts : List ExtensionContract) : List Text :=
  contracts.flatMap fun contract => contract.resources.map ContractResource.name

def summaries (contracts : List ExtensionContract) : List Summary :=
  ((claimedNames contracts).dedup.insertionSort (· ≤ ·)).map fun name =>
    ⟨name, claimsOf contracts name⟩

-- `'mediator'`, or `None`.
def reprMediator : Option Text → Text
  | some m => "'".points ++ m ++ "'".points
  | none   => "None".points

-- Raises for the first summary with an error.
def refuseFirst (p : Summary → Prop) [DecidablePred p] (code : PlanningErrorCode)
    (detail : Summary → Text) (all : List Summary) : Result Unit :=
  match all.find? p with
    | some s => fail code (detail s)
    | none   => .ok ()

-- `_resolve_resources`.
def resolveResources (contracts : List ExtensionContract) : Result (List ResourceOwnership) := do
  let all := summaries contracts
  refuseFirst Summary.ModeError .resourceConflict (fun s => s.resource ++
    " has incompatible or duplicate claims from ".points ++ Text.listRepr s.owners) all
  refuseFirst Summary.ConsistencyError .resourceConflict (fun s => s.resource ++
    " has inconsistent mediators from ".points ++ Text.listRepr s.owners) all
  refuseFirst Summary.PresenceError .authorityViolation (fun s => s.resource ++
    " mediator ".points ++ reprMediator s.mediator ++ " has no selected ownership claim".points) all
  return all.map Summary.ownership

end Resources

section Taxonomy

-- `lookup.get(name)`.
def ContractTaxonomy.rule? (t : ContractTaxonomy) (name : Text) : Option TaxonomyResource :=
  t.resources.find? (name ∈ ·.names)

-- The claims without a rule.
def unknown (t : ContractTaxonomy) (contracts : List ExtensionContract) : List (List Text) :=
  contracts.flatMap fun contract =>
    (contract.resources.filter fun claim => t.rule? claim.name = none).map fun claim =>
      [contract.extensionId, claim.name]

-- The claims with a mode that their rule does not allow.
def invalidModes (t : ContractTaxonomy) (contracts : List ExtensionContract) :
    List (List Text) :=
  contracts.flatMap fun contract => contract.resources.filterMap fun claim =>
    (t.rule? claim.name).bind fun rule =>
      if claim.mode ∉ rule.allowedModes then some [contract.extensionId, rule.canonical, claim.mode]
      else none

def normalizeResource (t : ContractTaxonomy) (claim : ContractResource) : Result ContractResource := do
  let rule ← orElse .keyError (t.rule? claim.name)
  return { claim with name := rule.canonical }

def normalizeContract (t : ContractTaxonomy) (contract : ExtensionContract) :
    Result ExtensionContract := do
  let resources ← contract.resources.mapM (normalizeResource t)
  return { contract with resources := sortedBy ContractResource.name resources }

-- Raises for the least of the claims that are wrong.
def refuseLeast (code : PlanningErrorCode) (detail : List Text → Text) (claims : List (List Text)) :
    Result Unit :=
  match claims.insertionSort (· ≤ ·) with
    | []         => .ok ()
    | first :: _ => fail code (detail first)

def unknownDetail (claim : List Text) : Text :=
  claim.getD 0 [] ++ " claims unknown resource ".points ++ claim.getD 1 []

def modeDetail (t : ContractTaxonomy) (claim : List Text) : Text :=
  claim.getD 0 [] ++ " claims ".points ++ claim.getD 1 [] ++ " as ".points ++ claim.getD 2 [] ++
    "; allowed modes are ".points ++
    Text.listRepr (((t.rule? (claim.getD 1 [])).map (·.allowedModes)).getD [])

-- `_normalize_taxonomy_resources`.
def normalizeTaxonomyResources (t : ContractTaxonomy) (contracts : List ExtensionContract) :
    Result (List ExtensionContract) := do
  refuseLeast .unknownResource unknownDetail (unknown t contracts)
  refuseLeast .invalidResourceMode (modeDetail t) (invalidModes t contracts)
  contracts.mapM (normalizeContract t)

end Taxonomy

section Obligations

-- The grant that an obligation needs.
def ProcessObligationContract.expected (o : ProcessObligationContract) : AuthorityGrant where
  role                := o.role
  event               := o.event
  capabilityDirection := o.capabilityDirection
  capability          := o.capability

-- `_validate_obligation_authority`.
def validateObligationAuthority (contracts : List ExtensionContract) : Result Unit :=
  contracts.forM fun contract => contract.processObligations.forM fun o =>
    require (o.expected ∈ contract.authority.grants o.authority) .authorityViolation <|
      contract.extensionId ++ " obligation ".points ++ o.role ++ "/".points ++ o.event ++ "/".points ++
        o.capabilityDirection ++ "/".points ++ o.capability ++ " has no matching ".points ++
        o.authority ++ " authority grant".points

-- `requirement_providers[(extension_id, capability)]`.
def requirementProvider (bindings : List CapabilityBinding) (extensionId capability : Text) :
    Result Text := do
  let binding ← orElse .keyError <| bindings.reverse.find? fun b =>
    b.consumer = extensionId ∧ b.capability = capability
  return binding.provider

-- Who provides the capability of an obligation.
def capabilityProvider (bindings : List CapabilityBinding) (contract : ExtensionContract)
    (o : ProcessObligationContract) : Result Text :=
  if o.capabilityDirection = "requires".points then
    requirementProvider bindings contract.extensionId o.capability
  else .ok contract.extensionId

def bindObligation (bindings : List CapabilityBinding) (contract : ExtensionContract)
    (o : ProcessObligationContract) : Result ObligationBinding := do
  let provider ← capabilityProvider bindings contract o
  return {
    extensionId         := contract.extensionId
    role                := o.role
    event               := o.event
    completion          := o.completion
    authority           := o.authority
    capabilityDirection := o.capabilityDirection
    capability          := o.capability
    capabilityProvider  := provider
    quorum              := o.quorum
  }

-- `_bind_obligations`.
def bindObligations (contracts : List ExtensionContract) (bindings : List CapabilityBinding) :
    Result (List ObligationBinding) := do
  let result ← contracts.mapM fun contract =>
    contract.processObligations.mapM (bindObligation bindings contract)
  return sortedBy (fun b => [b.extensionId, b.role, b.event, b.capabilityDirection, b.capability])
    result.flatten

end Obligations

variable [Packaging]

-- The contracts in the order of their identifiers, with the canonical names of their resources.
def normalize (taxonomy : Option ContractTaxonomy) (contracts : List ExtensionContract) :
    Result (List ExtensionContract) :=
  let sorted := sortedBy ExtensionContract.extensionId contracts
  match taxonomy with
    | some t => normalizeTaxonomyResources t sorted
    | none   => .ok sorted

def checkHost (runtime : Text) (version : Packaging.Version) (contract : ExtensionContract) :
    Result Unit := do
  let detail := contract.extensionId ++ " requires ".points ++ contract.hostRuntime ++
    contract.hostVersionRange
  require (contract.hostRuntime = runtime) .incompatibleHost detail
  let range ← orElse .invalidSpecifier (Packaging.specifiers? contract.hostVersionRange)
  require (Packaging.contains range version) .incompatibleHost detail

-- What is left to do with contracts that have been admitted and normalized.
def planNormalized (runtime : Text) (version : Packaging.Version)
    (contracts : List ExtensionContract) : Result ContractPlan := do
  validateObligationAuthority contracts
  let bindings ← resolveCapabilities contracts
  let ordered ← orderContracts contracts bindings
  let resources ← resolveResources contracts
  let bindings := sortedBy (fun b => [b.consumer, b.capability]) bindings
  let obligations ← bindObligations contracts bindings
  return {
    hostRuntime        := runtime
    hostVersion        := Packaging.versionStr version
    orderedContracts   := ordered
    capabilityBindings := bindings
    resourceOwnership  := resources
    obligationBindings := obligations
  }

-- `compile_contracts`.
def compileContracts (contracts : List ExtensionContract) (hostRuntime hostVersion : Text)
    (resourceTaxonomy : Option ContractTaxonomy) : Result ContractPlan := do
  require (contracts ≠ []) .invalidContract "at least one contract is required".points
  let runtime ← string (.str hostRuntime) "host_runtime".points
  let versionText ← publicVersion (.str hostVersion) "host_version".points
  let version ← orElse .invalidVersion (Packaging.version? versionText)
  require (ids contracts).Nodup .duplicatePlugin "extension ids must be unique".points
  contracts.forM (checkHost runtime version)
  let normalized ← normalize resourceTaxonomy contracts
  planNormalized runtime version normalized

end Compiler
