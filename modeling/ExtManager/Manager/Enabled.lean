import Mathlib.Data.Set.Pairwise.List
import ExtManager.Manager.Basic

open Manifest (BundleManifest InstalledBundle RequiredExtension activationBlocker)

namespace Manager

variable (inventory : Inventory)

-- An installed extension needs the other one.
def Requires (x y : Text) : Prop :=
  ∃ b, inventory.find? x = some b ∧ y ∈ dependencyIds b.manifest

-- What holds of the extensions that are enabled.
structure Sound [Packaging] (enabled : Set Text) : Prop where
  installed : ∀ x ∈ enabled, ∃ b, inventory.find? x = some b
  closed    : ∀ x ∈ enabled, ∀ b, inventory.find? x = some b → ∀ d ∈ b.manifest.requiresExtensions,
    d.extensionId ∈ enabled ∧ ∃ r, inventory.find? d.extensionId = some r ∧
      inRange r.manifest.bundleVersion d.versionRange = .ok true
  acyclic   : ∀ x ∈ enabled, ¬Relation.TransGen (Requires inventory) x x
  owners    : ∀ x ∈ enabled, ∀ y ∈ enabled, ∀ b c, inventory.find? x = some b →
    inventory.find? y = some c → ownsProcessTree b → ownsProcessTree c → x = y
  own       : ∀ x ∈ enabled, ∀ b, inventory.find? x = some b →
    b.manifest.resourceClaims.Pairwise Provider.Compatible
  shared    : ∀ x ∈ enabled, ∀ y ∈ enabled, x ≠ y → ∀ b c, inventory.find? x = some b →
    inventory.find? y = some c → ∀ r ∈ b.manifest.resourceClaims, ∀ s ∈ c.manifest.resourceClaims,
      Provider.Compatible r s
  unblocked : ∀ x ∈ enabled, ∀ b, inventory.find? x = some b →
    activationBlocker b.manifest = .ok none

-- The bundles of these names.
abbrev Selected (names : List Text) (bundles : List InstalledBundle) : Prop :=
  List.Forall₂ (fun x b => inventory.find? x = some b) names bundles

variable {inventory}

section Selected

variable {names : List Text} {bundles : List InstalledBundle} {x : Text} {b : InstalledBundle}

theorem discoverBundles_ok :
    discoverBundles inventory names = .ok bundles ↔ Selected inventory names bundles := by
  unfold discoverBundles
  induction names generalizing bundles with
  | nil =>
    rw [List.filter_nil, if_pos rfl]
    exact ⟨fun h => by cases h; exact .nil, fun h => by cases h; rfl⟩
  | cons x names ih =>
    cases hx : inventory.find? x
    case none =>
      dsimp only
      rw [List.filter_cons_of_pos (by simp [hx]), if_neg (List.cons_ne_nil _ _)]
      exact ⟨nofun, fun h => by cases h; simp_all⟩
    case some b =>
      dsimp only at ih ⊢
      rw [List.filter_cons_of_neg (by simp [hx]), List.filterMap_cons_some hx]
      constructor
      · intro h
        split at h
        case isTrue hm =>
          cases h
          exact .cons hx (ih.mp (if_pos hm))
        case isFalse => cases h
      · intro h
        cases h
        case cons c bundles hc h =>
          cases hx.symm.trans hc
          have hrest := ih.mpr h
          split at hrest
          case isTrue hm =>
            rw [if_pos hm, Except.ok.inj hrest]
          case isFalse => cases hrest

theorem exists_selected :
    (∃ bundles, Selected inventory names bundles) ↔ ∀ x ∈ names, ∃ b, inventory.find? x = some b := by
  induction names with
  | nil => exact ⟨fun _ => nofun, fun _ => ⟨[], .nil⟩⟩
  | cons x names ih =>
    rw [List.forall_mem_cons, ← ih]
    constructor
    · rintro ⟨_, _ | ⟨hb, h⟩⟩
      exact ⟨⟨_, hb⟩, _, h⟩
    · rintro ⟨⟨b, hb⟩, bundles, h⟩
      exact ⟨b :: bundles, .cons hb h⟩

theorem Selected.ids (h : Selected inventory names bundles) : bundles.map (·.bundleId) = names := by
  induction h with
  | nil => rfl
  | cons hx _ ih => rw [List.map_cons, ih, inventory.bundleId _ _ hx]

theorem Selected.mem_iff (h : Selected inventory names bundles) :
    b ∈ bundles ↔ ∃ x ∈ names, inventory.find? x = some b := by
  induction h with
  | nil => simp
  | @cons y c _ _ hy _ ih => simp [ih, hy, eq_comm]

theorem Selected.find (h : Selected inventory names bundles) (hb : b ∈ bundles) :
    b.bundleId ∈ names ∧ inventory.find? b.bundleId = some b := by
  have ⟨x, hx, hf⟩ := h.mem_iff.mp hb
  rw [inventory.bundleId _ _ hf]
  exact ⟨hx, hf⟩

theorem Selected.forall (h : Selected inventory names bundles) {P : InstalledBundle → Prop} :
    (∀ b ∈ bundles, P b) ↔ ∀ x ∈ names, ∀ b, inventory.find? x = some b → P b := by
  simp only [h.mem_iff]
  exact ⟨fun hp x hx b hb => hp b ⟨x, hx, hb⟩, fun hp b ⟨x, hx, hb⟩ => hp x hx b hb⟩

-- A dictionary of the bundles by their names.
theorem Selected.get? {β : Type} {f : InstalledBundle → β} {v : β}
    (h : Selected inventory names bundles) (hn : names.Nodup) :
    (Dict.ofList (bundles.map fun b => (b.bundleId, f b))).get? x = some v ↔
      x ∈ names ∧ ∃ b, inventory.find? x = some b ∧ f b = v := by
  have hkeys : ((bundles.map fun b => (b.bundleId, f b)).map (·.1)).Nodup := by
    rw [List.map_map]
    exact h.ids.symm ▸ hn
  rw [← Dict.mem_items_iff, Dict.items_ofList hkeys, List.mem_map]
  constructor
  · rintro ⟨b, hb, he⟩
    cases he
    have ⟨hx, hf⟩ := h.find hb
    exact ⟨hx, b, hf, rfl⟩
  · rintro ⟨hx, b, hb, rfl⟩
    exact ⟨b, h.mem_iff.mpr ⟨x, hx, hb⟩, by rw [inventory.bundleId _ _ hb]⟩

end Selected

section Checks

variable [Packaging] {names : List Text} {bundles : List InstalledBundle}

theorem checkDependency_ok {selected : Dict Text InstalledBundle} {bundleId : Text}
    {d : RequiredExtension} : checkDependency selected bundleId d = .ok () ↔
      ∃ r, selected.get? d.extensionId = some r ∧
        inRange r.manifest.bundleVersion d.versionRange = .ok true := by
  unfold checkDependency
  cases selected.get? d.extensionId
  case none   => exact ⟨nofun, fun ⟨_, h, _⟩ => nomatch h⟩
  case some r =>
    dsimp only
    rw [Fallible.bind_ok]
    constructor
    · rintro ⟨satisfied, hs, h⟩
      cases satisfied
      · cases h
      · exact ⟨r, rfl, hs⟩
    · rintro ⟨_, ⟨⟩, h⟩
      exact ⟨true, h, rfl⟩

theorem validateExtensionDependencies_iff (h : Selected inventory names bundles) (hn : names.Nodup) :
    validateExtensionDependencies bundles = .ok () ↔
      (∀ x ∈ names, ∀ b, inventory.find? x = some b → ∀ d ∈ b.manifest.requiresExtensions,
        d.extensionId ∈ names ∧ ∃ r, inventory.find? d.extensionId = some r ∧
          inRange r.manifest.bundleVersion d.versionRange = .ok true) ∧
      ∀ x ∈ names, ¬Relation.TransGen (Requires inventory) x x := by
  have hget {β : Type} (f : InstalledBundle → β) {x : Text} {v : β} :=
    @Selected.get? inventory names bundles x β f v h hn
  have hclosed : (bundles.forM fun bundle => bundle.manifest.requiresExtensions.forM
      (checkDependency (Dict.ofList (bundles.map fun b => (b.bundleId, b))) bundle.bundleId)) = .ok () ↔
      ∀ x ∈ names, ∀ b, inventory.find? x = some b → ∀ d ∈ b.manifest.requiresExtensions,
        d.extensionId ∈ names ∧ ∃ r, inventory.find? d.extensionId = some r ∧
          inRange r.manifest.bundleVersion d.versionRange = .ok true := by
    rw [Fallible.forM_ok, ← h.forall]
    refine forall₂_congr fun b _ => Fallible.forM_ok.trans <| forall₂_congr fun d _ => ?_
    rw [checkDependency_ok]
    constructor
    · rintro ⟨r, hr, hrange⟩
      obtain ⟨hm, c, hf, rfl⟩ := (hget fun b => b).mp hr
      exact ⟨hm, c, hf, hrange⟩
    · rintro ⟨hm, r, hf, hrange⟩
      exact ⟨r, (hget fun b => b).mpr ⟨hm, r, hf, rfl⟩, hrange⟩
  let edges := fun x =>
    ((Dict.ofList (bundles.map fun b => (b.bundleId, dependencyIds b.manifest))).get? x).getD []
  have hedge {x y : Text} : y ∈ edges x ↔ x ∈ names ∧ Requires inventory x y := by
    unfold edges
    cases hx : (Dict.ofList (bundles.map fun b => (b.bundleId, dependencyIds b.manifest))).get? x
    case none    =>
      refine ⟨nofun, fun ⟨hm, b, hb, _⟩ => ?_⟩
      rw [(hget fun b => dependencyIds b.manifest).mpr ⟨hm, b, hb, rfl⟩] at hx
      cases hx
    case some ds =>
      obtain ⟨hm, b, hb, rfl⟩ := (hget fun b => dependencyIds b.manifest).mp hx
      refine ⟨fun hy => ⟨hm, b, hb, hy⟩, fun ⟨_, c, hc, hy⟩ => ?_⟩
      cases hb.symm.trans hc
      exact hy
  have hkeys {x : Text} :
      x ∈ (Dict.ofList (bundles.map fun b => (b.bundleId, dependencyIds b.manifest))).keys.insertionSort
        (· ≤ ·) ↔ x ∈ names := by
    rw [(List.perm_insertionSort _ _).mem_iff, Dict.mem_keys_iff]
    constructor
    · exact fun ⟨_, hv⟩ => ((hget _).mp hv).left
    · intro hx
      rw [← h.ids] at hx
      obtain ⟨b, hb, he⟩ := List.mem_map.mp hx
      obtain ⟨hm, hf⟩ := h.find hb
      exact ⟨_, (hget _).mpr ⟨h.ids ▸ hx, b, he ▸ hf, rfl⟩⟩
  have hsearch := @Dfs.visitAll_iff Text _ edges _ fun x hx => by
    obtain ⟨y, hy⟩ := List.exists_mem_of_ne_nil _ hx
    exact hkeys.mpr (hedge.mp hy).left
  unfold validateExtensionDependencies
  simp only [Fallible.bind_ok]
  constructor
  · rintro ⟨⟨⟩, hc, order, ho, -⟩
    have hc := hclosed.mp hc
    have ha := hsearch.mp ⟨order, Fallible.mapError_ok.mp ho⟩
    refine ⟨hc, fun x hx hcycle => ha x (hkeys.mpr hx) ?_⟩
    -- A closed set has its cycles within it.
    have hwithin {y : Text} (hy : Relation.TransGen (Requires inventory) x y) :
        y ∈ names ∧ Relation.TransGen (Dfs.Edge edges) x y := by
      have hstep {y z : Text} (hy : y ∈ names) (hyz : Requires inventory y z) : z ∈ names := by
        obtain ⟨b, hb, hz⟩ := hyz
        obtain ⟨d, hd, rfl⟩ := List.mem_map.mp hz
        exact (hc y hy b hb d hd).left
      induction hy with
      | single hyz => exact ⟨hstep hx hyz, .single (hedge.mpr ⟨hx, hyz⟩)⟩
      | tail _ hyz ih => exact ⟨hstep ih.left hyz, ih.right.tail (hedge.mpr ⟨ih.left, hyz⟩)⟩
    exact (hwithin hcycle).right
  · rintro ⟨hc, ha⟩
    obtain ⟨order, ho⟩ := hsearch.mpr fun x hx hcycle =>
      ha x (hkeys.mp hx) (Relation.TransGen.mono (fun _ _ hyz => (hedge.mp hyz).right) _ _ hcycle)
    exact ⟨(), hclosed.mpr hc, order, Fallible.mapError_ok.mpr ho, trivial⟩

omit [Packaging] in
theorem length_le_one_iff {l : List Text} (h : l.Nodup) :
    l.length ≤ 1 ↔ ∀ x ∈ l, ∀ y ∈ l, x = y := by
  match l, h with
  | [], _           => simp
  | [x], _          => simp
  | x :: y :: l, h  =>
    refine ⟨fun hl => absurd hl (by simp), fun he => ?_⟩
    have hne : x ≠ y := fun he => (List.nodup_cons.mp h).left (he ▸ List.mem_cons_self)
    exact absurd (he x (by simp) y (by simp)) hne

omit [Packaging] in
theorem validateProcessOwnership_iff (h : Selected inventory names bundles) (hn : names.Nodup) :
    validateProcessOwnership bundles = .ok () ↔
      ∀ x ∈ names, ∀ y ∈ names, ∀ b c, inventory.find? x = some b → inventory.find? y = some c →
        ownsProcessTree b → ownsProcessTree c → x = y := by
  have howner {x : Text} : x ∈ (bundles.filter ownsProcessTree).map (·.bundleId) ↔
      x ∈ names ∧ ∃ b, inventory.find? x = some b ∧ ownsProcessTree b := by
    rw [List.mem_map]
    constructor
    · rintro ⟨b, hb, rfl⟩
      have ⟨hb, ho⟩ := List.mem_filter.mp hb
      have ⟨hx, hf⟩ := h.find hb
      exact ⟨hx, b, hf, ho⟩
    · rintro ⟨hx, b, hb, ho⟩
      exact ⟨b, List.mem_filter.mpr ⟨h.mem_iff.mpr ⟨x, hx, hb⟩, ho⟩, inventory.bundleId _ _ hb⟩
  have hnodup : ((bundles.filter ownsProcessTree).map (·.bundleId)).Nodup :=
    (h.ids ▸ hn).sublist (List.filter_sublist.map _)
  have hone : validateProcessOwnership bundles = .ok () ↔
      ((bundles.filter ownsProcessTree).map (·.bundleId)).length ≤ 1 := by
    unfold validateProcessOwnership
    dsimp only
    split
    case isTrue hlt  => exact ⟨nofun, fun hle => absurd hle (by omega)⟩
    case isFalse hlt => exact ⟨fun _ => by omega, fun _ => rfl⟩
  rw [hone, length_le_one_iff hnodup]
  simp only [howner]
  exact ⟨fun hall x hx y hy b c hb hc ho ho' => hall x ⟨hx, b, hb, ho⟩ y ⟨hy, c, hc, ho'⟩,
    fun hall x ⟨hx, b, hb, ho⟩ y ⟨hy, c, hc, ho'⟩ => hall x hx y hy b c hb hc ho ho'⟩

omit [Packaging] in
theorem validateResourceOwnership_iff [PythonJson] (h : Selected inventory names bundles)
    (hn : names.Nodup) : validateResourceOwnership bundles = .ok () ↔
      (∀ x ∈ names, ∀ b, inventory.find? x = some b →
        b.manifest.resourceClaims.Pairwise Provider.Compatible) ∧
      ∀ x ∈ names, ∀ y ∈ names, x ≠ y → ∀ b c, inventory.find? x = some b →
        inventory.find? y = some c → ∀ r ∈ b.manifest.resourceClaims,
          ∀ s ∈ c.manifest.resourceClaims, Provider.Compatible r s := by
  have hclaims : validateResourceOwnership bundles = .ok () ↔
      (bundles.flatMap (·.manifest.resourceClaims)).Pairwise Provider.Compatible := by
    have hkeys (bundles : List InstalledBundle) :
        (bundles.map resourcePlan).foldlM Provider.claimKeys .empty = .ok .empty := by
      induction bundles with
      | nil => rfl
      | cons b bundles ih => exact ih
    have hplans : (bundles.map resourcePlan).flatMap (·.resourceClaims) =
        bundles.flatMap (·.manifest.resourceClaims) := List.flatMap_map ..
    rw [validateResourceOwnership, Fallible.mapError_ok, ← hplans, ← Provider.claimResources_iff]
    unfold Provider.rejectConflictingPlans
    simp only [Fallible.bind_ok, hkeys]
    exact ⟨fun ⟨r, hr, _⟩ => ⟨r, hr⟩, fun ⟨r, hr⟩ => ⟨r, hr, _, rfl, trivial⟩⟩
  have hnodup : bundles.Nodup := List.Nodup.of_map _ (h.ids.symm ▸ hn)
  have hsymm : Std.Symm fun b c : InstalledBundle => ∀ r ∈ b.manifest.resourceClaims,
      ∀ s ∈ c.manifest.resourceClaims, Provider.Compatible r s :=
    ⟨fun _ _ hp s hs r hr => (hp r hr s hs).symm⟩
  rw [hclaims, List.pairwise_flatMap, h.forall, ← hnodup.pairwise_coe]
  refine and_congr_right fun _ => ⟨fun hp x hx y hy hne b c hb hc => ?_, fun hp b hb c hc hne => ?_⟩
  · refine hp (h.mem_iff.mpr ⟨x, hx, hb⟩) (h.mem_iff.mpr ⟨y, hy, hc⟩) fun he => hne ?_
    rw [← inventory.bundleId _ _ hb, ← inventory.bundleId _ _ hc, he]
  · have ⟨hx, hf⟩ := h.find hb
    have ⟨hy, hg⟩ := h.find hc
    refine hp _ hx _ hy (fun he => hne ?_) b c hf hg
    rw [he, hg] at hf
    exact (Option.some.inj hf).symm

omit [Packaging] in
theorem requireUnblocked_ok {b : InstalledBundle} :
    requireUnblocked b = .ok () ↔ activationBlocker b.manifest = .ok none := by
  unfold requireUnblocked
  split
  case h_1 h   => simp [h]
  case h_2 h   => simp [h]
  case h_3 h   => simp [h]

-- The static checks accept what is sound, and nothing else.
theorem sound_iff [PythonJson] (hn : names.Nodup) : Sound inventory {x | x ∈ names} ↔
    ∃ bundles, discoverBundles inventory names = .ok bundles ∧
      validateExtensionDependencies bundles = .ok () ∧ validateProcessOwnership bundles = .ok () ∧
      bundles.forM requireUnblocked = .ok () ∧ validateResourceOwnership bundles = .ok () := by
  constructor
  · intro h
    have ⟨bundles, hs⟩ := exists_selected.mpr h.installed
    refine ⟨bundles, discoverBundles_ok.mpr hs, (validateExtensionDependencies_iff hs hn).mpr
      ⟨h.closed, h.acyclic⟩, (validateProcessOwnership_iff hs hn).mpr h.owners, ?_,
      (validateResourceOwnership_iff hs hn).mpr ⟨h.own, h.shared⟩⟩
    exact Fallible.forM_ok.mpr fun b hb => requireUnblocked_ok.mpr (hs.forall.mpr h.unblocked b hb)
  · rintro ⟨bundles, hd, hdeps, howners, hblocked, hresources⟩
    have hs := discoverBundles_ok.mp hd
    have ⟨hclosed, hacyclic⟩ := (validateExtensionDependencies_iff hs hn).mp hdeps
    have ⟨hown, hshared⟩ := (validateResourceOwnership_iff hs hn).mp hresources
    exact ⟨exists_selected.mp ⟨bundles, hs⟩, hclosed, hacyclic,
      (validateProcessOwnership_iff hs hn).mp howners, hown, hshared,
      hs.forall.mp fun b hb => requireUnblocked_ok.mp (Fallible.forM_ok.mp hblocked b hb)⟩

end Checks

section Commands

variable {config config' : UserConfig} {x : Text} {e : ExtensionConfig}

namespace UserConfig

theorem mem_enabled : x ∈ config.enabled ↔ ∃ e, config.extensions.get? x = some e ∧ e.enabled := by
  rw [enabled, List.mem_map]
  constructor
  · rintro ⟨⟨y, e⟩, hm, rfl⟩
    have ⟨hm, he⟩ := List.mem_filter.mp hm
    exact ⟨e, Dict.mem_items_iff.mp hm, he⟩
  · rintro ⟨e, hg, he⟩
    exact ⟨(x, e), List.mem_filter.mpr ⟨Dict.mem_items_iff.mpr hg, he⟩, rfl⟩

theorem nodup_enabled : config.enabled.Nodup :=
  config.extensions.nodup.sublist (List.filter_sublist.map _)

theorem mem_enabled_saved : x ∈ config.saved.enabled ↔ x ∈ config.enabled := by
  have hp : config.saved.extensions.items.Perm config.extensions.items :=
    List.perm_insertionSort _ _
  rw [mem_enabled, mem_enabled, Dict.get?_of_perm hp]

theorem mem_enabled_withExtension {y : Text} :
    y ∈ (config.withExtension x e).enabled ↔
      y = x ∧ e.enabled ∨ y ≠ x ∧ y ∈ config.enabled := by
  rw [mem_enabled, mem_enabled, withExtension, Dict.get?_set]
  split
  case isTrue hy  => simp [hy]
  case isFalse hy => simp [hy]

theorem mem_enabled_withoutExtension {y : Text} :
    y ∈ (config.withoutExtension x).enabled ↔ y ∈ config.enabled ∧ y ≠ x := by
  have hget (e : ExtensionConfig) : (config.extensions.erase x).get? y = some e ↔
      config.extensions.get? y = some e ∧ y ≠ x := by
    rw [← Dict.mem_items_iff, ← Dict.mem_items_iff, Dict.mem_items_erase]
  rw [mem_enabled, mem_enabled, withoutExtension]
  simp only [hget]
  tauto

-- An extension is enabled as its configuration tells.
theorem enabled_extension : (config.extension x).enabled ↔ x ∈ config.enabled := by
  rw [mem_enabled, extension]
  cases config.extensions.get? x <;> simp

end UserConfig

variable [Packaging] {enabled : Set Text}

-- What nothing else needs can go.
theorem Sound.remove (h : Sound inventory enabled)
    (hr : ∀ y ∈ enabled, y ≠ x → ¬Requires inventory y x) : Sound inventory (enabled \ {x}) where
  installed y hy         := h.installed y hy.left
  closed y hy b hb d hd  := by
    have ⟨hm, hrange⟩ := h.closed y hy.left b hb d hd
    exact ⟨⟨hm, fun he => hr y hy.left hy.right ⟨b, hb, List.mem_map.mpr ⟨d, hd, he⟩⟩⟩, hrange⟩
  acyclic y hy           := h.acyclic y hy.left
  owners y hy z hz       := h.owners y hy.left z hz.left
  own y hy               := h.own y hy.left
  shared y hy z hz       := h.shared y hy.left z hz.left
  unblocked y hy         := h.unblocked y hy.left

variable [PythonJson] {bundleId : Text}

theorem enable_sound (h : Sound inventory {x | x ∈ config.enabled})
    (hc : enable inventory config bundleId = .ok config') :
    Sound inventory {x | x ∈ config'.enabled} := by
  have ⟨found, hfound, hc⟩ := Fallible.bind_ok.mp hc
  have ⟨_, hblocked, hc⟩ := Fallible.bind_ok.mp hc
  have ⟨bundles, hd, hc⟩ := Fallible.bind_ok.mp hc
  have ⟨_, hdeps, hc⟩ := Fallible.bind_ok.mp hc
  have ⟨_, howners, hc⟩ := Fallible.bind_ok.mp hc
  have ⟨_, hresources, hc⟩ := Fallible.bind_ok.mp hc
  cases hc
  have hmem : {x | x ∈ (config.withExtension bundleId
      ⟨true, (config.extension bundleId).configuration⟩).enabled} =
        {x | x ∈ sortedSet (bundleId :: config.enabled)} := by
    ext y
    simp only [Set.mem_ofPred_eq, UserConfig.mem_enabled_withExtension, mem_sortedSet, List.mem_cons]
    tauto
  have hs := discoverBundles_ok.mp hd
  have hfound := discoverBundles_ok.mp hfound
  have hall : ∀ b ∈ bundles, activationBlocker b.manifest = .ok none := by
    rw [hs.forall]
    intro x hx b hb
    rcases List.mem_cons.mp (mem_sortedSet.mp hx) with rfl | hx
    · have hm : b ∈ found := hfound.mem_iff.mpr ⟨x, List.mem_singleton_self x, hb⟩
      exact requireUnblocked_ok.mp (Fallible.forM_ok.mp hblocked b hm)
    · exact h.unblocked x hx b hb
  rw [hmem]
  exact (sound_iff nodup_sortedSet).mpr ⟨bundles, hd, hdeps, howners,
    Fallible.forM_ok.mpr fun b hb => requireUnblocked_ok.mpr (hall b hb), hresources⟩

omit [PythonJson] in
theorem disable_sound (h : Sound inventory {x | x ∈ config.enabled})
    (hc : disable inventory config bundleId = .ok config') :
    Sound inventory {x | x ∈ config'.enabled} := by
  have ⟨bundles, hd, hc⟩ := Fallible.bind_ok.mp hc
  have ⟨_, hremoval, hc⟩ := Fallible.bind_ok.mp hc
  cases hc
  have hs := discoverBundles_ok.mp hd
  have hmem : {x | x ∈ (config.withExtension bundleId
      ⟨false, (config.extension bundleId).configuration⟩).enabled} =
        {x | x ∈ config.enabled} \ {bundleId} := by
    ext y
    simp only [Set.mem_ofPred_eq, UserConfig.mem_enabled_withExtension, Set.mem_sdiff,
      Set.mem_singleton_iff, Bool.false_eq_true, and_false, false_or]
    exact and_comm
  rw [hmem]
  refine h.remove fun y hy hne ⟨b, hb, hr⟩ => ?_
  unfold validateDependencyRemoval at hremoval
  dsimp only at hremoval
  split at hremoval
  case isTrue hnone =>
    have hm : b ∈ bundles := hs.mem_iff.mpr ⟨y, hy, hb⟩
    have hb' := List.filter_eq_nil_iff.mp hnone b hm
    exact hb' (by simp [inventory.bundleId _ _ hb, hne, hr])
  case isFalse => cases hremoval

omit [Packaging] [PythonJson] in
theorem forget_enabled (hc : forget inventory config bundleId = .ok config') :
    {x | x ∈ config'.enabled} = {x | x ∈ config.enabled} := by
  unfold forget at hc
  split at hc
  case h_1 => cases hc
  case h_2 stored hstored =>
    split at hc
    case isTrue => cases hc
    case isFalse he =>
      have ⟨_, _, hc⟩ := Fallible.bind_ok.mp hc
      have ⟨_, _, hc⟩ := Fallible.bind_ok.mp hc
      cases hc
      ext y
      rw [Set.mem_ofPred_eq, UserConfig.mem_enabled_withoutExtension]
      refine and_iff_left_of_imp fun hy hyx => ?_
      have ⟨e, hg, hen⟩ := UserConfig.mem_enabled.mp hy
      rw [hyx, hstored] at hg
      cases hg
      exact he hen

omit [Packaging] [PythonJson] in
theorem configure_enabled {file : Option Value}
    (hc : configure inventory config bundleId file = .ok config') :
    {x | x ∈ config'.enabled} = {x | x ∈ config.enabled} := by
  have ⟨_, _, hc⟩ := Fallible.bind_ok.mp hc
  split at hc
  case h_1 =>
    cases hc
    ext y
    rw [Set.mem_ofPred_eq, UserConfig.mem_enabled_withExtension, UserConfig.enabled_extension,
      Set.mem_ofPred_eq]
    constructor
    · rintro (⟨rfl, hy⟩ | ⟨-, hy⟩) <;> exact hy
    · intro hy
      by_cases he : y = bundleId
      · exact .inl ⟨he, he ▸ hy⟩
      · exact .inr ⟨he, hy⟩
  case h_2 => cases hc

theorem next_sound {command : Command} (h : Sound inventory {x | x ∈ config.enabled}) :
    Sound inventory {x | x ∈ (next inventory config command).enabled} := by
  unfold next
  split
  case h_1 config' hc =>
    simp only [UserConfig.mem_enabled_saved]
    cases command
    case enable    => exact enable_sound h hc
    case disable   => exact disable_sound h hc
    case forget    => exact forget_enabled hc ▸ h
    case configure => exact configure_enabled hc ▸ h
  case h_2 => exact h

omit [PythonJson] in
theorem empty_sound : Sound inventory {x | x ∈ UserConfig.empty.enabled} := by
  have hnone : ∀ x, x ∉ UserConfig.empty.enabled := fun _ => List.not_mem_nil
  exact ⟨fun x hx => absurd hx (hnone x), fun x hx => absurd hx (hnone x),
    fun x hx => absurd hx (hnone x), fun x hx => absurd hx (hnone x), fun x hx => absurd hx (hnone x),
    fun x hx => absurd hx (hnone x), fun x hx => absurd hx (hnone x)⟩

theorem foldl_sound {commands : List Command} (h : Sound inventory {x | x ∈ config.enabled}) :
    Sound inventory {x | x ∈ (commands.foldl (next inventory) config).enabled} := by
  induction commands generalizing config with
  | nil => exact h
  | cons command commands ih => exact ih (next_sound h)

-- Whatever the commands, the enabled extensions are sound, and the checks of a run accept them.
theorem run_sound (inventory : Inventory) (commands : List Command) :
    Sound inventory {x | x ∈ (run inventory commands).enabled} ∧
      staticChecks inventory (run inventory commands) = .ok () := by
  have h := @foldl_sound inventory .empty _ _ commands empty_sound
  refine ⟨h, ?_⟩
  have ⟨bundles, hd, hdeps, howners, hblocked, hresources⟩ := (sound_iff UserConfig.nodup_enabled).mp h
  exact Fallible.bind_ok.mpr ⟨bundles, hd, Fallible.bind_ok.mpr ⟨(), hdeps, Fallible.bind_ok.mpr
    ⟨(), howners, Fallible.bind_ok.mpr ⟨(), hblocked, hresources⟩⟩⟩⟩

end Commands

end Manager
