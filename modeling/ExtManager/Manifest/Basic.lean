import Mathlib.Data.List.Dedup
import Mathlib.Data.List.Sort
import ExtManager.Codec.Python

-- The strings of a set in their order.
def sortedSet (ts : List Text) : List Text :=
  ts.dedup.insertionSort (· ≤ ·)

theorem mem_sortedSet {t : Text} {ts : List Text} : t ∈ sortedSet ts ↔ t ∈ ts := by
  rw [sortedSet, (List.perm_insertionSort _ _).mem_iff, List.mem_dedup]

theorem nodup_sortedSet {ts : List Text} : (sortedSet ts).Nodup :=
  (List.perm_insertionSort _ _).nodup_iff.mpr (List.nodup_dedup ts)

-- Looking for an array or an object in a set is a `TypeError`.
def Value.hashable : Value → Bool
  | .arr _ | .obj _ => false
  | _               => true

-- `str.isalnum` of a character.
class Alphanumeric where
  isAlnum : Nat → Bool

namespace Manifest

-- `[A-Za-z_]`
def isNameStart (p : Nat) : Bool :=
  (0x41 ≤ p && p ≤ 0x5A) || (0x61 ≤ p && p ≤ 0x7A) || p = 0x5F

section Names

variable [Alphanumeric]

-- `[A-Za-z_]\w*`
def isName : Text → Bool
  | p :: t => isNameStart p && t.all fun q => Alphanumeric.isAlnum q || q = 0x5F
  | []     => false

-- `[A-Za-z_]\w*(?:\.[A-Za-z_]\w*)*`
def isModulePath (t : Text) : Bool :=
  (t.splitOn '.'.toNat).all isName

-- Two of them with a colon between.
def isImplementation (t : Text) : Bool :=
  match t.dropWhile (· ≠ ':'.toNat) with
  | _ :: object => isModulePath (t.takeWhile (· ≠ ':'.toNat)) && isModulePath object
  | []          => false

end Names

structure ActivationEntryPoint where
  group : Text
  name  : Text
  deriving DecidableEq

structure BundleActivation where
  entryPoints      : List ActivationEntryPoint
  environment      : List (Text × Text)
  additionalConfig : Fields
  deriving DecidableEq

def BundleActivation.empty : BundleActivation where
  entryPoints      := []
  environment      := []
  additionalConfig := []

structure BundleComponent where
  componentId       : Text
  contracts         : List Text
  executionPlanes   : List Text
  isolation         : Text
  implementationRef : Text
  permissions       : List Text
  deriving DecidableEq

structure HostSpec where
  provider     : Text
  name         : Text
  versionRange : Text
  apiRange     : Option Text
  deriving DecidableEq

structure RuntimeSpec where
  type         : Text
  processScope : Text
  isolation    : Text
  deriving DecidableEq

structure ProtocolSpec where
  name         : Text
  versionRange : Option Text
  deriving DecidableEq

structure ImplementationCarrier where
  type       : Text
  attributes : Fields
  deriving DecidableEq

structure RequiredService where
  serviceId      : Text
  protocol       : Text
  versionRange   : Option Text
  endpointConfig : Text
  optional       : Bool
  deriving DecidableEq

structure RequiredExtension where
  extensionId  : Text
  versionRange : Text
  deriving DecidableEq

inductive ClaimMode
  | exclusive
  | shared
  deriving DecidableEq

structure ResourceClaim where
  resource : Text
  scope    : Text
  mode     : ClaimMode
  deriving DecidableEq

structure BundleManifest where
  bundleId           : Text
  bundleVersion      : Text
  hostApiRange       : Text
  components         : List BundleComponent
  activation         : BundleActivation
  schemaVersion      : Text
  kind               : Text
  host               : HostSpec
  runtime            : RuntimeSpec
  lifecycleOwner     : Text
  protocols          : List ProtocolSpec
  implementation     : List ImplementationCarrier
  requiresServices   : List RequiredService
  requiresExtensions : List RequiredExtension
  resourceClaims     : List ResourceClaim
  deriving DecidableEq

-- An entry point of a distribution, without the distribution.
structure PublishedEntryPoint where
  group : Text
  name  : Text
  value : Text
  deriving DecidableEq

structure InstalledBundle where
  bundleId            : Text
  distributionName    : Text
  distributionVersion : Option Text
  manifestPath        : Text
  manifest            : BundleManifest
  entryPoints         : List PublishedEntryPoint
  deriving DecidableEq

def inactiveStatuses : List Text :=
  ["import_only".points, "legacy_unregistered".points]

namespace ImplementationCarrier

-- `dict(attributes).get("status")`
def status (carrier : ImplementationCarrier) : Value :=
  (Fields.get? carrier.attributes "status".points).getD .null

def isActive (carrier : ImplementationCarrier) : Bool :=
  carrier.status = .str "active".points ∨
    carrier.status = .null ∧ carrier.type ≠ "python_module".points

-- `str(status)` of a status that declares the carrier to be inactive.
def inactive? (carrier : ImplementationCarrier) : Option Text :=
  match carrier.status with
  | .str t => if t ∈ inactiveStatuses then some t else none
  | _      => none

end ImplementationCarrier

inductive TypeError
  | unhashable
  deriving DecidableEq

-- Why an extension cannot be enabled.
def activationBlocker (manifest : BundleManifest) : Except TypeError (Option Text) :=
  if manifest.implementation.all (·.status.hashable) then
    let declaredInactive := manifest.implementation.filterMap (·.inactive?)
    .ok <| if declaredInactive ≠ [] ∧ ¬manifest.implementation.any (·.isActive) then
      some <| "extension is descriptor-only and cannot be enabled (implementation status: ".points ++
        ", ".points.intercalate (sortedSet declaredInactive) ++ ")".points
    else none
  else .error .unhashable

end Manifest
