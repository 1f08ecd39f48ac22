import ExtManager.Codec.Fallible
import ExtManager.Compiler.Compile

namespace Compiler

open Fallible

section

variable {p : Prop} [Decidable p] {code : PlanningErrorCode} {detail location : Text} {value : Value}
variable {t : Text} {u : Unit}

theorem require_ok : require p code detail = .ok u ↔ p := by
  unfold require
  split
  case isTrue h  => exact ⟨fun _ => h, fun _ => rfl⟩
  case isFalse h => exact ⟨nofun, fun hp => absurd hp h⟩

theorem require_seq {α : Type} {k : Unit → Result α} {a : α} :
    (require p code detail >>= k) = .ok a ↔ p ∧ k () = .ok a := by
  rw [bind_ok]
  exact ⟨fun ⟨_, h, hk⟩ => ⟨require_ok.mp h, hk⟩, fun ⟨h, hk⟩ => ⟨(), require_ok.mpr h, hk⟩⟩

theorem orElse_ok {α : Type} {e : Failure} {o : Option α} {a : α} : orElse e o = .ok a ↔ o = some a := by
  cases o
  case none   => exact ⟨nofun, nofun⟩
  case some b => exact ⟨fun h => by cases h; rfl, fun h => by cases h; rfl⟩

theorem string_ok : string value location = .ok t ↔ value = .str t ∧ t ≠ [] ∧ t.strip = t := by
  unfold string
  split
  case h_1 s =>
    rw [require_seq]
    constructor
    · rintro ⟨hs, h⟩
      cases h
      exact ⟨rfl, hs⟩
    · rintro ⟨h, hs⟩
      cases h
      exact ⟨hs, rfl⟩
  case h_2 h => exact ⟨nofun, fun ⟨hv, _⟩ => absurd hv (h t)⟩

theorem mapItems_ok {α : Type} {items : List Value} {f : Value → Nat → Result α} {as : List α}
    (h : mapItems items f = .ok as) : ∀ a ∈ as, ∃ raw index, f raw index = .ok a := by
  intro a ha
  have ⟨⟨raw, index⟩, _, hf⟩ := source_of_mapM h a ha
  exact ⟨raw, index, hf⟩

theorem mem_sortedBy {α κ : Type} [LinearOrder κ] {key : α → κ} {items : List α} {a : α} :
    a ∈ sortedBy key items ↔ a ∈ items :=
  (List.perm_insertionSort _ items).mem_iff

theorem sortedBy_perm {α κ : Type} [LinearOrder κ] (key : α → κ) (items : List α) :
    (sortedBy key items).Perm items :=
  List.perm_insertionSort _ items

end

section Versions

variable [Packaging] {value : Value} {location t : Text}

theorem publicVersion_ok (h : publicVersion value location = .ok t) :
    ∃ v, Packaging.isLocal v = false ∧ t = Packaging.versionStr v := by
  obtain ⟨raw, -, h⟩ := bind_ok.mp h
  split at h
  case h_1     => exact nomatch h
  case h_2 v _ =>
    have ⟨hl, h⟩ := require_seq.mp h
    cases h
    exact ⟨v, hl, rfl⟩

theorem publicSpecifier_ok (h : publicSpecifier value location = .ok t) :
    ∃ s, t = Packaging.specifiersStr s := by
  obtain ⟨raw, -, h⟩ := bind_ok.mp h
  split at h
  case h_1     => exact nomatch h
  case h_2 s _ =>
    obtain ⟨_, -, h⟩ := bind_ok.mp h
    cases h
    exact ⟨s, rfl⟩

theorem capabilities_ok {requirements : Bool} {cs : List Capability}
    (h : capabilities value location requirements = .ok cs) : (cs.map Capability.name).Nodup ∧
      ∀ c ∈ cs, if requirements = true then ∃ s, c.version = Packaging.specifiersStr s
        else ∃ v, c.version = Packaging.versionStr v := by
  obtain ⟨items, -, h⟩ := bind_ok.mp h
  obtain ⟨result, hr, h⟩ := bind_ok.mp h
  have ⟨hn, h⟩ := require_seq.mp h
  cases h
  refine ⟨((sortedBy_perm _ result).map _).nodup_iff.mpr hn, fun c hc => ?_⟩
  obtain ⟨raw, index, h⟩ := mapItems_ok hr c (mem_sortedBy.mp hc)
  iterate 5 obtain ⟨_, -, h⟩ := bind_ok.mp h
  obtain ⟨version, hv, h⟩ := bind_ok.mp h
  cases h
  cases requirements
  case true  => exact publicSpecifier_ok hv
  case false =>
    have ⟨v, _, hv⟩ := publicVersion_ok hv
    exact ⟨v, hv⟩

end Versions

theorem contractResource_ok {raw : Value} {index : Nat} {r : ContractResource}
    (h : contractResource raw index = .ok r) :
    r.mode ∈ RESOURCE_MODES ∧ (r.mediator.isSome ↔ r.mode = "mediated".points) := by
  iterate 4 obtain ⟨_, -, h⟩ := bind_ok.mp h
  obtain ⟨mode, -, h⟩ := bind_ok.mp h
  have ⟨hm, h⟩ := require_seq.mp h
  split at h
  case isTrue he  =>
    obtain ⟨_, -, h⟩ := bind_ok.mp h
    cases h
    exact ⟨hm, by simp [he]⟩
  case isFalse he =>
    obtain ⟨-, h⟩ := require_seq.mp h
    cases h
    exact ⟨hm, by simp [he]⟩

theorem contractResources_ok {value : Value} {rs : List ContractResource}
    (h : contractResources value = .ok rs) : ∀ r ∈ rs,
      r.mode ∈ RESOURCE_MODES ∧ (r.mediator.isSome ↔ r.mode = "mediated".points) := by
  obtain ⟨_, -, h⟩ := bind_ok.mp h
  obtain ⟨resources, hr, h⟩ := bind_ok.mp h
  obtain ⟨-, h⟩ := require_seq.mp h
  cases h
  intro r hm
  have ⟨raw, index, h⟩ := mapItems_ok hr r hm
  exact contractResource_ok h

theorem processObligation_ok {provides requires : List Capability} {raw : Value} {index : Nat}
    {o : ProcessObligationContract} (h : processObligation provides requires raw index = .ok o) :
    o.capability ∈ declared provides requires o.capabilityDirection := by
  iterate 7 obtain ⟨_, -, h⟩ := bind_ok.mp h
  obtain ⟨-, h⟩ := require_seq.mp h
  iterate 2 obtain ⟨_, -, h⟩ := bind_ok.mp h
  obtain ⟨-, h⟩ := require_seq.mp h
  obtain ⟨-, h⟩ := require_seq.mp h
  iterate 2 obtain ⟨_, -, h⟩ := bind_ok.mp h
  obtain ⟨-, h⟩ := require_seq.mp h
  iterate 2 obtain ⟨_, -, h⟩ := bind_ok.mp h
  have ⟨hd, h⟩ := require_seq.mp h
  obtain ⟨_, -, h⟩ := bind_ok.mp h
  cases h
  exact hd

theorem processObligations_ok {provides requires : List Capability} {value : Value}
    {os : List ProcessObligationContract} (h : processObligations provides requires value = .ok os) :
    ∀ o ∈ os, o.capability ∈ declared provides requires o.capabilityDirection := by
  obtain ⟨_, -, h⟩ := bind_ok.mp h
  obtain ⟨-, h⟩ := require_seq.mp h
  obtain ⟨obligations, ho, h⟩ := bind_ok.mp h
  obtain ⟨-, h⟩ := require_seq.mp h
  cases h
  intro o hm
  have ⟨raw, index, h⟩ := mapItems_ok ho o hm
  exact processObligation_ok h

-- What every contract that has been parsed comes with.
structure WellFormed [Packaging] (c : ExtensionContract) : Prop where
  host : ∃ s, c.hostVersionRange = Packaging.specifiersStr s
  provides : ∀ p ∈ c.provides, ∃ v, p.version = Packaging.versionStr v
  requires : ∀ q ∈ c.requires, ∃ s, q.version = Packaging.specifiersStr s
  provided : (c.provides.map Capability.name).Nodup
  required : (c.requires.map Capability.name).Nodup
  obligations : ∀ o ∈ c.processObligations,
    o.capability ∈ declared c.provides c.requires o.capabilityDirection
  resources : ∀ r ∈ c.resources,
    r.mode ∈ RESOURCE_MODES ∧ (r.mediator.isSome ↔ r.mode = "mediated".points)

theorem parseContract_ok [Packaging] [ContentId] {payload : Value} {c : ExtensionContract}
    (h : parseContract payload = .ok c) : WellFormed c := by
  obtain ⟨_, -, h⟩ := bind_ok.mp h
  obtain ⟨-, h⟩ := require_seq.mp h
  iterate 9 obtain ⟨_, -, h⟩ := bind_ok.mp h
  obtain ⟨range, hrange, h⟩ := bind_ok.mp h
  iterate 3 obtain ⟨_, -, h⟩ := bind_ok.mp h
  obtain ⟨provides, hp, h⟩ := bind_ok.mp h
  obtain ⟨_, -, h⟩ := bind_ok.mp h
  obtain ⟨requires, hq, h⟩ := bind_ok.mp h
  obtain ⟨_, -, h⟩ := bind_ok.mp h
  obtain ⟨resources, hr, h⟩ := bind_ok.mp h
  obtain ⟨_, -, h⟩ := bind_ok.mp h
  obtain ⟨obligations, ho, h⟩ := bind_ok.mp h
  iterate 10 obtain ⟨_, -, h⟩ := bind_ok.mp h
  cases h
  have hp := capabilities_ok hp
  have hq := capabilities_ok hq
  exact {
    host        := publicSpecifier_ok hrange
    provides    := hp.right
    requires    := hq.right
    provided    := hp.left
    required    := hq.left
    obligations := fun o hm => processObligations_ok ho o (mem_sortedBy.mp hm)
    resources   := fun r hm => contractResources_ok hr r (mem_sortedBy.mp hm)
  }

end Compiler
