import ExtManager.Manager.Enabled

open Manifest (InstalledBundle RequiredExtension)

namespace Manager

variable {bundles : List InstalledBundle} {x y : Text} {b : InstalledBundle}

-- One of the bundles requires an extension.
def Needs (bundles : List InstalledBundle) (x y : Text) : Prop :=
  ∃ b ∈ bundles, b.bundleId = x ∧ y ∈ dependencyIds b.manifest

-- The bundles are all that is installed.
def Inventory.only (bundles : List InstalledBundle) : Inventory where
  find? name := bundles.find? (·.bundleId = name)
  bundleId name b h := by simpa using List.find?_some h

theorem Inventory.find?_only (hn : (bundles.map (·.bundleId)).Nodup) :
    (Inventory.only bundles).find? x = some b ↔ b ∈ bundles ∧ b.bundleId = x := by
  constructor
  · intro h
    exact ⟨List.mem_of_find?_eq_some h, (Inventory.only bundles).bundleId _ _ h⟩
  · rintro ⟨hb, rfl⟩
    unfold only
    dsimp only
    cases hf : bundles.find? (·.bundleId = b.bundleId)
    case none   => simpa using List.find?_eq_none.mp hf b hb
    case some c =>
      have hc : c.bundleId = b.bundleId := by simpa using List.find?_some hf
      rw [List.inj_on_of_nodup_map hn (List.mem_of_find?_eq_some hf) hb hc]

theorem selected_only (hn : (bundles.map (·.bundleId)).Nodup) :
    Selected (Inventory.only bundles) (bundles.map (·.bundleId)) bundles := by
  refine List.forall₂_map_left_iff.mpr (List.forall₂_same.mpr fun b hb => ?_)
  exact (Inventory.find?_only hn).mpr ⟨hb, rfl⟩

theorem requires_only (hn : (bundles.map (·.bundleId)).Nodup) :
    Requires (Inventory.only bundles) = Needs bundles := by
  funext x y
  simp only [Requires, Needs, Inventory.find?_only hn, and_assoc]

def Cyclic (bundles : List InstalledBundle) : Prop :=
  ∃ x, Relation.TransGen (Needs bundles) x x

theorem cyclic_iff : Cyclic bundles ↔
    ∃ x ∈ bundles.map (·.bundleId), Relation.TransGen (Needs bundles) x x := by
  refine ⟨fun ⟨x, hx⟩ => ?_, fun ⟨x, _, hx⟩ => ⟨x, hx⟩⟩
  have ⟨_, ⟨b, hb, he, _⟩, _⟩ := Relation.TransGen.head'_iff.mp hx
  exact ⟨x, List.mem_map.mpr ⟨b, hb, he⟩, hx⟩

-- A bundle requires an extension that is not there.
def Missing (bundles : List InstalledBundle) : Prop :=
  ∃ b ∈ bundles, ∃ d ∈ b.manifest.requiresExtensions, ∀ r ∈ bundles, r.bundleId ≠ d.extensionId

variable [Packaging]

-- A bundle requires an extension that is there with a version outside of its range.
def OutOfRange (bundles : List InstalledBundle) : Prop :=
  ∃ b ∈ bundles, ∃ d ∈ b.manifest.requiresExtensions, ∃ r ∈ bundles,
    r.bundleId = d.extensionId ∧ inRange r.manifest.bundleVersion d.versionRange ≠ .ok true

theorem closed_iff (hn : (bundles.map (·.bundleId)).Nodup) :
    (∀ x ∈ bundles.map (·.bundleId), ∀ b, (Inventory.only bundles).find? x = some b →
      ∀ d ∈ b.manifest.requiresExtensions, d.extensionId ∈ bundles.map (·.bundleId) ∧
        ∃ r, (Inventory.only bundles).find? d.extensionId = some r ∧
          inRange r.manifest.bundleVersion d.versionRange = .ok true) ↔
      ¬Missing bundles ∧ ¬OutOfRange bundles := by
  rw [← (selected_only hn).forall]
  simp only [Inventory.find?_only hn]
  constructor
  · intro h
    refine ⟨fun ⟨b, hb, d, hd, hno⟩ => ?_, fun ⟨b, hb, d, hd, r, hr, he, hrange⟩ => ?_⟩
    · have ⟨_, r, ⟨hr, he⟩, _⟩ := h b hb d hd
      exact hno r hr he
    · have ⟨_, r', ⟨hr', he'⟩, hrange'⟩ := h b hb d hd
      rw [List.inj_on_of_nodup_map hn hr hr' (he.trans he'.symm)] at hrange
      exact hrange hrange'
  · intro ⟨hmissing, hrange⟩ b hb d hd
    have hr : ∃ r ∈ bundles, r.bundleId = d.extensionId := by
      by_contra hno
      exact hmissing ⟨b, hb, d, hd, fun r hr he => hno ⟨r, hr, he⟩⟩
    have ⟨r, hr, he⟩ := hr
    refine ⟨List.mem_map.mpr ⟨r, hr, he⟩, r, ⟨hr, he⟩, ?_⟩
    by_contra hno
    exact hrange ⟨b, hb, d, hd, r, hr, he, hno⟩

theorem validated_iff (hn : (bundles.map (·.bundleId)).Nodup) :
    validateExtensionDependencies bundles = .ok () ↔
      ¬Missing bundles ∧ ¬OutOfRange bundles ∧ ¬Cyclic bundles := by
  rw [validateExtensionDependencies_iff (selected_only hn) hn, requires_only hn, closed_iff hn,
    cyclic_iff, and_assoc]
  simp only [not_exists, not_and]

theorem checkDependency_raises {selected : Dict Text InstalledBundle} {bundleId : Text}
    {d : RequiredExtension} :
    Fallible.Raises (· ≠ .search .fuel) (checkDependency selected bundleId d) := by
  unfold checkDependency
  split
  case h_1 => exact .error nofun
  case h_2 r _ =>
    refine .bind ?_ fun satisfied _ => ?_
    · unfold inRange
      split
      case h_1 => exact .ok
      case h_2 => exact .error nofun
    · split
      case isTrue  => exact .ok
      case isFalse => exact .error nofun

-- The search comes to its end, as a bundle stands on its path only once.
theorem validateExtensionDependencies_fuel :
    Fallible.Raises (· ≠ .search .fuel) (validateExtensionDependencies bundles) := by
  unfold validateExtensionDependencies
  refine .bind (.forM fun b _ => .forM fun d _ => checkDependency_raises) fun _ _ => ?_
  let edges := Dict.ofList (bundles.map fun bundle => (bundle.bundleId, dependencyIds bundle.manifest))
  have hkeys (x : Text) (hx : (edges.get? x).getD [] ≠ []) : x ∈ edges.keys.insertionSort (· ≤ ·) := by
    rw [(List.perm_insertionSort _ _).mem_iff, Dict.mem_keys_iff]
    cases hg : edges.get? x
    case none    => simp [hg] at hx
    case some ds => exact ⟨ds, rfl⟩
  refine .bind (.mapError ((Dfs.visitAll_fuel hkeys).mono fun f hf he => hf ?_)) fun _ _ => .ok
  cases he
  rfl

-- The validation comes to its end, and raises exactly if something is missing, out of range or in a
-- cycle.
theorem validateExtensionDependencies_raises (bundles : List InstalledBundle)
    (hn : (bundles.map (·.bundleId)).Nodup) :
    validateExtensionDependencies bundles ≠ .error (.search .fuel) ∧
      ((∃ e, validateExtensionDependencies bundles = .error e) ↔
        Missing bundles ∨ OutOfRange bundles ∨ Cyclic bundles) := by
  refine ⟨fun h => validateExtensionDependencies_fuel _ h rfl, ?_⟩
  have hok := validated_iff hn
  cases hv : validateExtensionDependencies bundles
  case ok      =>
    have ⟨hm, hr, hc⟩ := hok.mp hv
    exact iff_of_false nofun (not_or.mpr ⟨hm, not_or.mpr ⟨hr, hc⟩⟩)
  case error e =>
    rw [hv] at hok
    refine iff_of_true ⟨e, rfl⟩ ?_
    by_contra h
    have ⟨hm, h⟩ := not_or.mp h
    cases hok.mpr ⟨hm, not_or.mp h⟩

end Manager

namespace Manager.Sample

-- The versions "1.0" and "2.0" and the range ">=1".
scoped instance : Packaging where
  Version         := Nat
  SpecifierSet    := Nat
  version? t      := [("1.0".points, 1), ("2.0".points, 2)].lookup t
  versionStr v    := if v = 1 then "1.0".points else "2.0".points
  isLocal _       := false
  specifiers? t   := [(">=1".points, 1)].lookup t
  specifiersStr _ := ">=1".points
  versions _      := ["1".points]
  contains s v    := s ≤ v

def manifest (bundleId : Text) (requires : List RequiredExtension) : Manifest.BundleManifest where
  bundleId
  bundleVersion      := "2.0".points
  hostApiRange       := ">=1".points
  components         := []
  activation         := .empty
  schemaVersion      := "0.3".points
  kind               := "execution_provider".points
  host               := ⟨"vllm".points, "vllm".points, ">=1".points, none⟩
  runtime            := ⟨"python".points, "host_process".points, "trusted_in_process".points⟩
  lifecycleOwner     := "vllm".points
  protocols          := []
  implementation     := []
  requiresServices   := []
  requiresExtensions := requires
  resourceClaims     := []

def bundle (bundleId : Text) (requires : List RequiredExtension) : InstalledBundle where
  bundleId
  distributionName    := "demo".points
  distributionVersion := none
  manifestPath        := "manifest.json".points
  manifest            := manifest bundleId requires
  entryPoints         := []

-- Two bundles that require each other.
def first : InstalledBundle :=
  bundle "a".points [⟨"b".points, ">=1".points⟩]

def second : InstalledBundle :=
  bundle "b".points [⟨"a".points, ">=1".points⟩]

theorem raises_of_cycle : ∃ e, validateExtensionDependencies [first, second] = .error e := by
  have hn : ([first, second].map (·.bundleId)).Nodup := by decide
  refine (validateExtensionDependencies_raises [first, second] hn).right.mpr (.inr (.inr ?_))
  exact ⟨"a".points, .head ⟨first, by decide, rfl, by decide⟩
    (.single ⟨second, by decide, rfl, by decide⟩)⟩

end Manager.Sample
