import ExtManager.Codec.Fallible
import ExtManager.Manifest.Parse

-- What a manifest that has been read looks like.
namespace Manifest

open Fallible

-- A string with more than white space in it.
def IsWord (t : Text) : Prop :=
  t.strip ≠ []

instance (t : Text) : Decidable (IsWord t) :=
  inferInstanceAs (Decidable (_ ≠ _))

-- A dictionary as `json.loads` makes it.
def IsDict (fields : Fields) : Prop :=
  fields.Sorted ∧ ∀ f ∈ fields, f.2.Ordered

structure ActivationEntryPoint.Valid (e : ActivationEntryPoint) : Prop where
  group : IsWord e.group
  name  : IsWord e.name

structure BundleActivation.Valid (a : BundleActivation) : Prop where
  entryPoints      : ∀ e ∈ a.entryPoints, e.Valid
  environment      : a.environment.Pairwise (·.1 < ·.1)
  additionalConfig : IsDict a.additionalConfig

structure BundleComponent.Valid [Alphanumeric] (c : BundleComponent) : Prop where
  componentId       : IsWord c.componentId ∧ isIdentifier c.componentId
  contracts         : c.contracts.Nodup ∧ c.contracts ≠ [] ∧
    ∀ contract ∈ c.contracts, "vllm.".points.isPrefixOf contract
  executionPlanes   : c.executionPlanes.Nodup ∧ ∀ p ∈ c.executionPlanes, p ∈ PLANES
  isolation         : c.isolation ∈ ISOLATIONS
  implementationRef : IsWord c.implementationRef ∧ isImplementation c.implementationRef
  permissions       : c.permissions.Nodup ∧ ∀ p ∈ c.permissions, p ∈ PERMISSIONS

structure RuntimeSpec.Valid (r : RuntimeSpec) : Prop where
  type         : r.type ∈ RUNTIMES
  processScope : IsWord r.processScope
  isolation    : IsWord r.isolation

structure ResourceClaim.Valid (c : ResourceClaim) : Prop where
  resource : IsWord c.resource ∧ isResource c.resource
  scope    : IsWord c.scope ∧ isResource c.scope

-- A module of Python has these attributes and no others.
structure IsModule [Alphanumeric] (attributes : Fields) : Prop where
  fields : Value.HasFields attributes ["module", "object", "status"]
  module : ∃ t, attributes.get? "module".points = some (.str t) ∧ IsWord t ∧ isModulePath t
  object : ∃ t, attributes.get? "object".points = some (.str t) ∧ IsWord t ∧ isName t
  status : ∃ t, attributes.get? "status".points = some (.str t) ∧ t ∈ STATUSES

structure ImplementationCarrier.Valid [Alphanumeric] (c : ImplementationCarrier) : Prop where
  type       : c.type ∈ CARRIERS
  attributes : IsDict c.attributes ∧ c.attributes ≠ [] ∧ "type".points ∉ c.attributes.keys
  module     : c.type = "python_module".points → IsModule c.attributes

section Versions

variable [Packaging]

def IsRange (t : Text) : Prop :=
  IsWord t ∧ (Packaging.specifiers? t).isSome

structure HostSpec.Valid (h : HostSpec) : Prop where
  provider     : IsWord h.provider ∧ isIdentifier h.provider
  name         : IsWord h.name
  versionRange : IsRange h.versionRange
  apiRange     : ∀ t, h.apiRange = some t → IsRange t

structure ProtocolSpec.Valid (p : ProtocolSpec) : Prop where
  name         : IsWord p.name
  versionRange : ∀ t, p.versionRange = some t → IsRange t

structure RequiredService.Valid (s : RequiredService) : Prop where
  serviceId      : IsWord s.serviceId
  protocol       : IsWord s.protocol
  versionRange   : ∀ t, s.versionRange = some t → IsRange t
  endpointConfig : IsWord s.endpointConfig

structure RequiredExtension.Valid (d : RequiredExtension) : Prop where
  extensionId  : IsWord d.extensionId ∧ isIdentifier d.extensionId
  versionRange : IsRange d.versionRange

end Versions

namespace BundleManifest

variable [Packaging] [Alphanumeric]

-- What is particular to a manifest of the first schema.
structure Legacy (m : BundleManifest) : Prop where
  schemaVersion : m.schemaVersion = "1.0".points
  hostApiRange  : IsWord m.hostApiRange ∧ hostApi? m.hostApiRange = some true
  components    : m.components ≠ []
  kind          : m.kind = "legacy_vllm_bundle".points
  host          : m.host = ⟨"vllm".points, "vllm".points, ">=0".points, some ">=1,<2".points⟩
  runtime       : m.runtime = ⟨"python".points, "vllm_processes".points, "trusted_in_process".points⟩
  owner         : m.lifecycleOwner = "vllm".points
  nothing       : m.protocols = [] ∧ m.implementation = [] ∧ m.requiresServices = [] ∧
    m.requiresExtensions = [] ∧ m.resourceClaims = []

-- What is particular to a manifest of an experimental schema.
structure Experimental (m : BundleManifest) : Prop where
  schemaVersion      : m.schemaVersion ∈ experimentalSchemas
  hostApiRange       : m.hostApiRange = ">=0".points
  components         : m.components ≠ [] → hostApi? ">=1,<2".points = some true
  kind               : m.kind ∈ KINDS
  host               : m.host.Valid
  runtime            : m.runtime.Valid
  lifecycleOwner     : m.lifecycleOwner ∈ LIFECYCLE_OWNERS
  protocols          : ∀ p ∈ m.protocols, p.Valid
  implementation     : m.implementation ≠ [] ∧ ∀ c ∈ m.implementation, c.Valid
  requiresServices   : ∀ s ∈ m.requiresServices, s.Valid
  requiresExtensions : (∀ d ∈ m.requiresExtensions, d.Valid) ∧
    (m.requiresExtensions.map (·.extensionId)).Nodup
  resourceClaims     : (∀ c ∈ m.resourceClaims, c.Valid) ∧ m.resourceClaims.Nodup
  older              : m.schemaVersion = "0.2-experimental".points →
    m.requiresExtensions = [] ∧ m.resourceClaims = []

structure Valid (m : BundleManifest) : Prop where
  bundleId      : IsWord m.bundleId ∧ isIdentifier m.bundleId
  bundleVersion : IsWord m.bundleVersion ∧ (Packaging.version? m.bundleVersion).isSome
  components    : (∀ c ∈ m.components, c.Valid) ∧ (m.components.map (·.componentId)).Nodup
  activation    : m.activation.Valid
  schema        : m.Legacy ∨ m.Experimental

end BundleManifest

section Checks

variable {p : Prop} [Decidable p] {message location t : Text} {value : Value} {fields : Fields}
variable {ts allowed : List Text} {u : Unit}

theorem require_ok : require p message = .ok u ↔ p := by
  rw [require]
  split
  case isTrue h  => exact ⟨fun _ => h, fun _ => rfl⟩
  case isFalse h => exact ⟨fun he => (by cases he), fun hp => absurd hp h⟩

theorem require_seq {α : Type} {k : Unit → Result α} {a : α} :
    (require p message >>= k) = .ok a ↔ p ∧ k () = .ok a := by
  rw [bind_ok]
  constructor
  · rintro ⟨_, h, hk⟩
    exact ⟨require_ok.mp h, hk⟩
  · rintro ⟨h, hk⟩
    exact ⟨(), require_ok.mpr h, hk⟩

theorem item_ok {key : String} : item fields key = .ok value ↔ fields.get? key.points = some value := by
  rw [item]
  split
  case h_1 v h => exact ⟨fun he => h.trans (congrArg some (Except.ok.inj he)), fun he => by
    cases h.symm.trans he
    rfl⟩
  case h_2 h   => exact ⟨fun he => (by cases he), fun he => by cases h.symm.trans he⟩

-- What is made of a field, and what becomes of it.
theorem item_seq {α β : Type} {key : String} {f : Value → Result α} {k : α → Result β} {b : β} :
    (item fields key >>= fun value => f value >>= k) = .ok b ↔
      ∃ value a, fields.get? key.points = some value ∧ f value = .ok a ∧ k a = .ok b := by
  simp only [bind_ok, item_ok]
  constructor
  · rintro ⟨value, hg, a, hf, hk⟩
    exact ⟨value, a, hg, hf, hk⟩
  · rintro ⟨value, a, hg, hf, hk⟩
    exact ⟨value, hg, a, hf, hk⟩

theorem object_ok : object value location = .ok fields ↔ value = .obj fields := by
  cases value
  case obj => exact ⟨fun h => by cases h; rfl, fun h => by cases h; rfl⟩
  all_goals
    constructor <;> intro h <;> cases h

theorem string_ok : string value location = .ok t ↔ value = .str t ∧ IsWord t := by
  cases value
  case str s =>
    refine require_seq.trans ⟨?_, ?_⟩
    · rintro ⟨hw, h⟩
      cases h
      exact ⟨rfl, hw⟩
    · rintro ⟨h, hw⟩
      cases h
      exact ⟨hw, rfl⟩
  all_goals
    constructor
    · intro h
      cases h
    · rintro ⟨h, -⟩
      cases h

theorem text_ok : text message value = .ok t ↔ value = .str t := by
  cases value
  case str => exact ⟨fun h => by cases h; rfl, fun h => by cases h; rfl⟩
  all_goals
    constructor <;> intro h <;> cases h

theorem strings_ok : strings value location = .ok ts ↔ value = .arr (ts.map .str) ∧ ts.Nodup := by
  cases value
  case arr items =>
    have hitems {result : List Text} : items.mapM
        (text (location ++ " must be an array of strings".points)) = .ok result ↔
          items = result.map .str := by
      rw [mapM_ok]
      simp only [text_ok]
      rw [← List.forall₂_eq_eq_eq, List.forall₂_map_right_iff]
    refine bind_ok.trans ⟨?_, ?_⟩
    · rintro ⟨result, hr, h⟩
      obtain ⟨hn, h⟩ := require_seq.mp h
      cases h
      exact ⟨congrArg Value.arr (hitems.mp hr), hn⟩
    · rintro ⟨h, hn⟩
      exact ⟨ts, hitems.mpr (Value.arr.inj h), require_seq.mpr ⟨hn, rfl⟩⟩
  all_goals
    constructor
    · intro h
      cases h
    · rintro ⟨h, -⟩
      cases h

-- Nothing is left of a list without what is allowed.
theorem filter_eq_nil : ts.filter (· ∉ allowed) = [] ↔ ∀ t ∈ ts, t ∈ allowed := by
  rw [List.filter_eq_nil_iff]
  exact forall₂_congr fun t _ => (decide_eq_true_iff.not).trans not_not

theorem nothing_ok : nothing (ts.filter (· ∉ allowed)) message = .ok u ↔ ∀ t ∈ ts, t ∈ allowed := by
  rw [nothing, ← filter_eq_nil]
  split
  case isTrue h  => exact ⟨fun _ => h, fun _ => rfl⟩
  case isFalse h => exact ⟨fun he => (by cases he), fun ht => absurd ht h⟩

theorem known_ok : known ts allowed location = .ok u ↔ ∀ t ∈ ts, t ∈ allowed :=
  nothing_ok

theorem known_one : known [t] allowed location = .ok u ↔ t ∈ allowed :=
  known_ok.trans List.forall_mem_singleton

theorem array_ok {items : List Value} : array value message = .ok items ↔ value = .arr items := by
  cases value
  case arr => exact ⟨fun h => by cases h; rfl, fun h => by cases h; rfl⟩
  all_goals
    constructor <;> intro h <;> cases h

theorem exactly_ok {names : List String} : exactly value location names message = .ok fields ↔
    value = .obj fields ∧ Value.HasFields fields names := by
  refine bind_ok.trans ⟨?_, ?_⟩
  · rintro ⟨fields', ho, h⟩
    obtain ⟨hf, h⟩ := require_seq.mp h
    cases h
    exact ⟨object_ok.mp ho, hf⟩
  · rintro ⟨h, hf⟩
    exact ⟨fields, object_ok.mpr h, require_seq.mpr ⟨hf, rfl⟩⟩

theorem between_ok {required optional : List String} :
    between value location required optional = .ok fields ↔ value = .obj fields ∧
      (∀ k ∈ fields.keys, k ∈ (required ++ optional).map String.points) ∧
      ∀ n ∈ required, n.points ∈ fields.keys := by
  refine bind_ok.trans ⟨?_, ?_⟩
  · rintro ⟨fields', ho, h⟩
    dsimp only at h
    split at h
    case isTrue hf =>
      cases h
      exact ⟨object_ok.mp ho, filter_eq_nil.mp hf.left,
        List.forall_mem_map.mp (filter_eq_nil.mp hf.right)⟩
    case isFalse   => cases h
  · rintro ⟨h, hu, hm⟩
    exact ⟨fields, object_ok.mpr h,
      if_pos ⟨filter_eq_nil.mpr hu, filter_eq_nil.mpr (List.forall_mem_map.mpr hm)⟩⟩

end Checks

section Ranges

variable [Packaging] {location t : Text} {value : Value}

theorem hostApiRange_ok : hostApiRange value = .ok t ↔
    value = .str t ∧ IsWord t ∧ hostApi? t = some true := by
  refine bind_ok.trans ⟨?_, ?_⟩
  · rintro ⟨t', hs, h⟩
    obtain ⟨hs, hw⟩ := string_ok.mp hs
    split at h
    case h_3 ht =>
      cases h
      exact ⟨hs, hw, ht⟩
    all_goals cases h
  · rintro ⟨hs, hw, ht⟩
    refine ⟨t, string_ok.mpr ⟨hs, hw⟩, ?_⟩
    rw [ht]
    rfl

theorem version_ok : version value location = .ok t ↔
    value = .str t ∧ IsWord t ∧ (Packaging.version? t).isSome := by
  refine bind_ok.trans ⟨?_, ?_⟩
  · rintro ⟨t', hs, h⟩
    obtain ⟨hv, h⟩ := require_seq.mp h
    cases h
    obtain ⟨hs, hw⟩ := string_ok.mp hs
    exact ⟨hs, hw, hv⟩
  · rintro ⟨hs, hw, hv⟩
    exact ⟨t, string_ok.mpr ⟨hs, hw⟩, require_seq.mpr ⟨hv, rfl⟩⟩

theorem specifier_ok : specifier value location = .ok t ↔ value = .str t ∧ IsRange t := by
  refine bind_ok.trans ⟨?_, ?_⟩
  · rintro ⟨t', hs, h⟩
    obtain ⟨hv, h⟩ := require_seq.mp h
    cases h
    obtain ⟨hs, hw⟩ := string_ok.mp hs
    exact ⟨hs, hw, hv⟩
  · rintro ⟨hs, hw, hv⟩
    exact ⟨t, string_ok.mpr ⟨hs, hw⟩, require_seq.mpr ⟨hv, rfl⟩⟩

-- A range that may be missing.
def optionalValue (o : Option Text) : Value :=
  o.elim .null .str

theorem optionalSpecifier_ok {o : Option Text} : optionalSpecifier value location = .ok o ↔
    value = optionalValue o ∧ ∀ t, o = some t → IsRange t := by
  have hsome (hn : value ≠ .null) : optionalSpecifier value location = .ok o ↔
      ∃ t, specifier value location = .ok t ∧ o = some t := by
    rw [optionalSpecifier]
    · cases specifier value location
      case ok    => simp [Functor.map, Except.map, eq_comm]
      case error => simp [Functor.map, Except.map]
    · exact hn
  by_cases hn : value = .null
  case pos =>
    cases hn
    constructor
    · intro h
      cases h
      exact ⟨rfl, fun _ he => by cases he⟩
    · rintro ⟨h, -⟩
      cases o
      · rfl
      · cases h
  case neg =>
    rw [hsome hn]
    constructor
    · rintro ⟨t, hs, rfl⟩
      obtain ⟨hv, hr⟩ := specifier_ok.mp hs
      exact ⟨hv, fun t' he => Option.some.inj he ▸ hr⟩
    · rintro ⟨hv, hr⟩
      cases o
      case none   => exact absurd hv hn
      case some t => exact ⟨t, specifier_ok.mpr ⟨hv, hr t rfl⟩, rfl⟩

end Ranges

end Manifest
