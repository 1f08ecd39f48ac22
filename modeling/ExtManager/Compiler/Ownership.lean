import ExtManager.Compiler.Invariance

namespace Compiler

open Fallible

section Specification

-- A claim on a resource: who makes it, in which mode, and by whom it is mediated.
structure Stake where
  owner : Text
  mode : Text
  mediator : Option Text

-- The claims on a canonical resource, under whatever names.
def stakes (t : ContractTaxonomy) (contracts : List ExtensionContract) (n : Text) : List Stake :=
  contracts.flatMap fun c =>
    (c.resources.filter fun r => (t.rule? r.name).map (·.canonical) = some n).map fun r =>
      ⟨c.extensionId, r.mode, r.mediator⟩

-- Some contract claims it twice, or several claim it that are not all shared readers or all
-- mediated, or its mediated claims name different mediators.
def Conflicting (l : List Stake) : Prop :=
  ¬(l.map Stake.owner).Nodup ∨
    (1 < l.length ∧ ¬(∀ x ∈ l, x.mode = "shared-read".points) ∧ ¬∀ x ∈ l, x.mode = "mediated".points) ∨
    ∃ x ∈ l, ∃ y ∈ l, x.mode = "mediated".points ∧ y.mode = "mediated".points ∧ x.mediator ≠ y.mediator

-- Some mediated claim names a mediator that makes no claim.
def Unmediated (l : List Stake) : Prop :=
  ∃ x ∈ l, x.mode = "mediated".points ∧ ∀ m ∈ x.mediator, m ∉ l.map Stake.owner

section

variable (t : ContractTaxonomy) (contracts : List ExtensionContract)

def UnknownResource : Prop :=
  ∃ c ∈ contracts, ∃ r ∈ c.resources, ∀ rule ∈ t.resources, r.name ∉ rule.names

def InvalidMode : Prop :=
  ∃ c ∈ contracts, ∃ r ∈ c.resources, ∃ rule ∈ t.resources, r.name ∈ rule.names ∧
    r.mode ∉ rule.allowedModes

def ResourceConflict : Prop :=
  ∃ n, Conflicting (stakes t contracts n)

def MissingMediator : Prop :=
  ∃ n, Unmediated (stakes t contracts n)

end

def FailsWith {α : Type} (code : PlanningErrorCode) (r : Result α) : Prop :=
  ∃ detail, r = .error (.planning code detail)

end Specification

namespace Summary

variable {s : Summary} {x y : Text × ContractResource} {a : Text}

def stakes (s : Summary) : List Stake :=
  s.claims.map fun x => ⟨x.1, x.2.mode, x.2.mediator⟩

theorem modes_eq (h : s.claims ≠ []) : s.modes = {a} ↔ ∀ x ∈ s.stakes, x.mode = a := by
  obtain ⟨x, hx⟩ := List.exists_mem_of_ne_nil _ h
  simp only [modes, stakes, Finset.eq_singleton_iff_nonempty_unique_mem, List.mem_toFinset,
    List.mem_map, forall_exists_index, and_imp, forall_apply_eq_imp_iff₂]
  exact ⟨And.right, fun hall => ⟨⟨x.2.mode, List.mem_toFinset.mpr <| List.mem_map_of_mem hx⟩, hall⟩⟩

theorem owners_perm : s.owners.Perm (s.stakes.map Stake.owner) := by
  have h : s.stakes.map Stake.owner = s.claims.map (·.1) := by simp [stakes]
  exact h ▸ List.perm_insertionSort ..

theorem modeError_iff (h : s.claims ≠ []) : s.ModeError ↔ ¬(s.stakes.map Stake.owner).Nodup ∨
    (1 < s.stakes.length ∧ ¬(∀ x ∈ s.stakes, x.mode = "shared-read".points) ∧
      ¬∀ x ∈ s.stakes, x.mode = "mediated".points) := by
  have hl : s.claims.length = s.stakes.length := by simp [stakes]
  rw [ModeError, SharedRead, Mediated, modes_eq h, modes_eq h, owners_perm.nodup_iff, hl, not_or]

-- Two claims that differ are several, which are shared readers or mediated.
theorem mediated_of_not_modeError (h : ¬s.ModeError) {x : Stake} (hx : x ∈ s.stakes)
    (hm : x.mode = "mediated".points) : s.Mediated := by
  have hne : s.claims ≠ [] := fun he => by simp [stakes, he] at hx
  rw [modeError_iff hne, not_or, not_and, ← not_or, not_not] at h
  refine (modes_eq hne).mpr ?_
  by_cases hl : 1 < s.stakes.length
  case pos =>
    refine (not_not.mp <| h.right hl).resolve_left fun hs => ?_
    exact absurd (hm.symm.trans (hs x hx)) (by decide)
  case neg =>
    obtain ⟨y, hy⟩ := List.length_eq_one_iff.mp <| le_antisymm (not_lt.mp hl) (List.length_pos_of_mem hx)
    rw [hy, List.mem_singleton] at hx
    simpa [hy, ← hx] using hm

theorem mem_mediators {m : Option Text} : m ∈ s.mediators ↔ ∃ x ∈ s.stakes, x.mediator = m := by
  simp [mediators, stakes]

theorem consistencyError_iff (h : ¬s.ModeError) : s.ConsistencyError ↔ ∃ x ∈ s.stakes, ∃ y ∈ s.stakes,
    x.mode = "mediated".points ∧ y.mode = "mediated".points ∧ x.mediator ≠ y.mediator := by
  constructor
  · rintro ⟨hm, hc⟩
    have hne : s.claims ≠ [] := by
      intro he
      simp [Mediated, modes, he] at hm
    have hall := (modes_eq hne).mp hm
    obtain ⟨z, hz⟩ := List.exists_mem_of_ne_nil _ hne
    have hpos : 0 < s.mediators.card :=
      Finset.card_pos.mpr ⟨z.2.mediator, List.mem_toFinset.mpr <| List.mem_map_of_mem hz⟩
    obtain ⟨a, ha, b, hb, hab⟩ := Finset.one_lt_card.mp (by omega : 1 < s.mediators.card)
    obtain ⟨x, hx, rfl⟩ := mem_mediators.mp ha
    obtain ⟨y, hy, rfl⟩ := mem_mediators.mp hb
    exact ⟨x, hx, y, hy, hall x hx, hall y hy, hab⟩
  · rintro ⟨x, hx, y, hy, hm, -, hne⟩
    refine ⟨mediated_of_not_modeError h hx hm, fun hc => hne ?_⟩
    obtain ⟨a, ha⟩ := Finset.card_eq_one.mp hc
    have hxa := Finset.mem_singleton.mp <| ha ▸ mem_mediators.mpr ⟨x, hx, rfl⟩
    have hya := Finset.mem_singleton.mp <| ha ▸ mem_mediators.mpr ⟨y, hy, rfl⟩
    exact hxa.trans hya.symm

theorem presenceError_iff (h : ¬s.ModeError) (hc : ¬s.ConsistencyError) :
    s.PresenceError ↔ Unmediated s.stakes := by
  have hown (m : Option Text) : m ∉ s.owners.map some ↔ ∀ a ∈ m, a ∉ s.stakes.map Stake.owner := by
    cases m
    case none   => simp
    case some a => simp [owners_perm.mem_iff]
  constructor
  · rintro ⟨hm, hp⟩
    match hs : s.claims with
    | []      => simp [Mediated, modes, hs] at hm
    | x :: xs =>
      have hx : (⟨x.1, x.2.mode, x.2.mediator⟩ : Stake) ∈ s.stakes := by simp [stakes, hs]
      refine ⟨_, hx, (modes_eq (by simp [hs])).mp hm _ hx, ?_⟩
      exact (hown _).mp <| by simpa [mediator, hs] using hp
  · rintro ⟨x, hx, hm, hp⟩
    have hmed := mediated_of_not_modeError h hx hm
    refine ⟨hmed, (hown _).mpr ?_⟩
    match hs : s.claims with
    | []      => simp [stakes, hs] at hx
    | y :: ys =>
      have hy : (⟨y.1, y.2.mode, y.2.mediator⟩ : Stake) ∈ s.stakes := by simp [stakes, hs]
      have he : x.mediator = y.2.mediator := by
        by_contra hne
        have hym := (modes_eq (by simp [hs])).mp hmed _ hy
        exact hc <| (consistencyError_iff h).mpr ⟨x, hx, _, hy, hm, hym, hne⟩
      simpa [mediator, hs, ← he] using hp

end Summary

section Claims

variable {t : ContractTaxonomy} {n : Text} {c c' : ExtensionContract}
variable {contracts contracts' ns : List ExtensionContract}

-- The claims of a normalized contract on a resource are its claims on it under any name.
theorem claims_perm (h : normalizeContract t c = .ok c') :
    ((c'.resources.filter (·.name = n)).map fun r => (⟨c'.extensionId, r.mode, r.mediator⟩ : Stake)).Perm
      (stakes t [c] n) := by
  obtain ⟨rs, hrs, hc⟩ := bind_ok.mp h
  cases hc
  refine (((sortedBy_perm _ rs).filter _).map _).trans (.of_eq ?_)
  replace hrs := mapM_ok.mp hrs
  clear h
  rw [stakes, List.flatMap_singleton]
  generalize c.resources = claims at hrs
  induction hrs with
  | nil                          => rfl
  | @cons r r' claims rs hr _ ih =>
    obtain ⟨rule, hrule, rfl⟩ := normalizeResource_ok.mp hr
    by_cases hn : rule.canonical = n
    case pos => simpa [List.filter_cons, hrule, hn] using ih
    case neg => simpa [List.filter_cons, hrule, hn] using ih

def toStake (x : Text × ContractResource) : Stake :=
  ⟨x.1, x.2.mode, x.2.mediator⟩

theorem claimsOf_perm (h : contracts.mapM (normalizeContract t) = .ok ns) :
    ((claimsOf ns n).map toStake).Perm (stakes t contracts n) := by
  replace h := mapM_ok.mp h
  induction h with
  | nil                     => exact .refl _
  | @cons c c' cs ns h _ ih =>
    have hc : ((claimsOf [c'] n).map toStake).Perm (stakes t [c] n) := by
      simpa [claimsOf, toStake, Function.comp_def] using claims_perm h
    simpa [claimsOf, stakes] using hc.append ih

theorem stakes_perm (h : contracts.Perm contracts') : (stakes t contracts n).Perm (stakes t contracts' n) :=
  h.flatMap_right _

theorem Conflicting.perm {l l' : List Stake} (hp : l.Perm l') (h : Conflicting l) : Conflicting l' := by
  unfold Conflicting at h ⊢
  simpa only [(hp.map _).nodup_iff, hp.length_eq, hp.mem_iff] using h

theorem Unmediated.perm {l l' : List Stake} (hp : l.Perm l') (h : Unmediated l) : Unmediated l' := by
  unfold Unmediated at h ⊢
  simpa only [(hp.map _).mem_iff, hp.mem_iff] using h

end Claims

section Failing

variable {α β : Type} {code : PlanningErrorCode}

theorem FailsWith.bind {x : Result α} {f : α → Result β} (h : FailsWith code x) :
    FailsWith code (x >>= f) := by
  obtain ⟨d, rfl⟩ := h
  exact ⟨d, rfl⟩

theorem FailsWith.after {x : Result α} {f : α → Result β} {a : α} (h : x = .ok a)
    (hf : FailsWith code (f a)) : FailsWith code (x >>= f) := by
  rw [h]
  exact hf

theorem failsWith_of_not_ok {x : Result α} (h : Raises (fun e => ∃ d, e = .planning code d) x)
    (hno : ∀ a, x ≠ .ok a) : FailsWith code x := by
  cases x
  case ok a    => exact absurd rfl (hno a)
  case error e =>
    obtain ⟨d, rfl⟩ := h e rfl
    exact ⟨d, rfl⟩

theorem refuseFirst_fails {p : Summary → Prop} [DecidablePred p] {detail : Summary → Text}
    {all : List Summary} (h : ∃ s ∈ all, p s) : FailsWith code (refuseFirst p code detail all) := by
  refine failsWith_of_not_ok ?_ fun _ ha => ?_
  · unfold refuseFirst
    split
    case h_1 => exact .error ⟨_, rfl⟩
    case h_2 => exact .ok
  · obtain ⟨s, hs, hp⟩ := h
    exact refuseFirst_ok.mp ha s hs hp

theorem refuseLeast_fails {detail : List Text → Text} {claims : List (List Text)} (h : claims ≠ []) :
    FailsWith code (refuseLeast code detail claims) := by
  refine failsWith_of_not_ok ?_ fun _ ha => h (refuseLeast_ok.mp ha)
  unfold refuseLeast
  split
  case h_1 => exact .ok
  case h_2 => exact .error ⟨_, rfl⟩

end Failing

section Resources

variable {ns : List ExtensionContract} {s : Summary} {rs : List ResourceOwnership}

theorem mem_claimedNames {n : Text} : n ∈ claimedNames ns ↔ claimsOf ns n ≠ [] := by
  simp only [claimedNames, claimsOf, List.mem_flatMap, List.mem_map, ne_eq, List.flatMap_eq_nil_iff,
    List.map_eq_nil_iff, List.filter_eq_nil_iff, decide_eq_true_eq]
  push Not
  rfl

theorem mem_summaries : s ∈ summaries ns ↔ s.claims ≠ [] ∧ s.claims = claimsOf ns s.resource := by
  obtain ⟨n, claims⟩ := s
  have hm : n ∈ (claimedNames ns).dedup.insertionSort (· ≤ ·) ↔ claimsOf ns n ≠ [] := by
    rw [(List.perm_insertionSort ..).mem_iff, List.mem_dedup, mem_claimedNames]
  rw [summaries, List.mem_map]
  constructor
  · rintro ⟨_, h, he⟩
    cases he
    exact ⟨hm.mp h, rfl⟩
  · rintro ⟨hne, he⟩
    exact ⟨n, hm.mpr (he ▸ hne), he ▸ rfl⟩

theorem conflicting_iff (h : s.claims ≠ []) :
    Conflicting s.stakes ↔ s.ModeError ∨ s.ConsistencyError := by
  by_cases hm : s.ModeError
  case pos =>
    refine ⟨fun _ => .inl hm, fun _ => ?_⟩
    exact ((Summary.modeError_iff h).mp hm).elim .inl fun h => .inr (.inl h)
  case neg =>
    have hno := not_or.mp <| (Summary.modeError_iff h).not.mp hm
    rw [Conflicting, Summary.consistencyError_iff hm]
    exact ⟨fun h => .inr <| (h.resolve_left hno.left).resolve_left hno.right,
      fun h => .inr <| .inr <| h.resolve_left hm⟩

theorem resolveResources_conflict (h : ∃ s ∈ summaries ns, s.ModeError ∨ s.ConsistencyError) :
    FailsWith .resourceConflict (resolveResources ns) := by
  obtain ⟨s, hs, he⟩ := h
  by_cases hm : ∃ s ∈ summaries ns, s.ModeError
  case pos => exact (refuseFirst_fails hm).bind
  case neg =>
    have hno : ∀ s ∈ summaries ns, ¬s.ModeError := fun s hs hm' => hm ⟨s, hs, hm'⟩
    have hc : ∃ s ∈ summaries ns, s.ConsistencyError := ⟨s, hs, he.resolve_left (hno s hs)⟩
    exact .after (a := ()) (refuseFirst_ok.mpr hno) (refuseFirst_fails hc).bind

theorem resolveResources_presence (h : ∀ s ∈ summaries ns, ¬s.ModeError ∧ ¬s.ConsistencyError)
    (hp : ∃ s ∈ summaries ns, s.PresenceError) :
    FailsWith .authorityViolation (resolveResources ns) := by
  refine .after (a := ()) (refuseFirst_ok.mpr fun s hs => (h s hs).left) ?_
  refine .after (a := ()) (refuseFirst_ok.mpr fun s hs => (h s hs).right) ?_
  exact (refuseFirst_fails hp).bind

theorem resolveResources_ok : resolveResources ns = .ok rs ↔
    (∀ s ∈ summaries ns, ¬s.ModeError ∧ ¬s.ConsistencyError) ∧
      (∀ s ∈ summaries ns, ¬s.PresenceError) ∧ rs = (summaries ns).map Summary.ownership := by
  unfold resolveResources
  simp only [bind_ok, refuseFirst_ok, forall₂_and]
  constructor
  · rintro ⟨_, hm, _, hc, _, hp, h⟩
    cases h
    exact ⟨⟨hm, hc⟩, hp, rfl⟩
  · rintro ⟨⟨hm, hc⟩, hp, rfl⟩
    exact ⟨(), hm, (), hc, (), hp, rfl⟩

namespace Summary

@[simp] theorem ownership_resource : s.ownership.resource = s.resource := by
  unfold ownership
  split
  case isTrue  => rfl
  case isFalse => split <;> rfl

@[simp] theorem ownership_owners : s.ownership.owners = s.owners := by
  unfold ownership
  split
  case isTrue  => rfl
  case isFalse => split <;> rfl

-- A resource that is claimed in exclusion has one owner.
theorem ownership_exclusive (h : ¬s.ModeError) {x : Stake} (hx : x ∈ s.stakes)
    (hm : x.mode = "exclusive".points) : s.ownership.mode = x.mode ∧ s.ownership.owners = [x.owner] := by
  have hne : s.claims ≠ [] := fun he => by simp [stakes, he] at hx
  have hno := not_or.mp <| (modeError_iff hne).not.mp h
  have hs : ¬∀ y ∈ s.stakes, y.mode = "shared-read".points :=
    fun hs => absurd (hm.symm.trans (hs x hx)) (by decide)
  have hmed : ¬∀ y ∈ s.stakes, y.mode = "mediated".points :=
    fun hs => absurd (hm.symm.trans (hs x hx)) (by decide)
  have hl : s.stakes.length = 1 := by
    have := List.length_pos_of_mem hx
    have : ¬1 < s.stakes.length := fun hl => hno.right ⟨hl, hs, hmed⟩
    omega
  obtain ⟨y, hy⟩ := List.length_eq_one_iff.mp (by simpa [stakes] using hl : s.claims.length = 1)
  have hxy : x = ⟨y.1, y.2.mode, y.2.mediator⟩ := by simpa [stakes, hy] using hx
  have hnm : ¬s.Mediated := (modes_eq hne).not.mpr hmed
  rw [ownership_owners, ownership, if_neg hnm]
  simp [hy, hxy, owners]

end Summary

section

variable {t : ContractTaxonomy} {contracts : List ExtensionContract}

theorem unknown_iff : unknown t contracts = [] ↔ ¬UnknownResource t contracts := by
  rw [unknown_eq_nil, UnknownResource]
  push Not
  refine forall₂_congr fun c _ => forall₂_congr fun r _ => ?_
  rw [ContractTaxonomy.rule?, ne_eq, List.find?_eq_none]
  simp

theorem invalidModes_iff : invalidModes t contracts = [] ↔ ¬InvalidMode t contracts := by
  rw [invalidModes_eq_nil, InvalidMode]
  push Not
  refine forall₂_congr fun c _ => forall₂_congr fun r _ => ?_
  simp only [rule?_iff, and_imp]

-- The summaries of the normalized contracts are the claims on the resources.
structure Summarizes (t : ContractTaxonomy) (contracts ns : List ExtensionContract) : Prop where
  stakes : ∀ s ∈ summaries ns, s.stakes.Perm (stakes t contracts s.resource)
  target : ∀ n x, x ∈ Compiler.stakes t contracts n → ∃ s ∈ summaries ns, s.resource = n

theorem summarizes_of_normalize {sorted : List ExtensionContract} (hp : sorted.Perm contracts)
    (h : sorted.mapM (normalizeContract t) = .ok ns) : Summarizes t contracts ns where
  stakes s hs := by
    have he : s.stakes = (claimsOf ns s.resource).map toStake :=
      congrArg (List.map toStake) (mem_summaries.mp hs).right
    rw [he]
    exact (claimsOf_perm h).trans (stakes_perm hp)
  target n x hx := by
    refine ⟨⟨n, claimsOf ns n⟩, mem_summaries.mpr ⟨fun he => ?_, rfl⟩, rfl⟩
    have hm := ((claimsOf_perm h).trans (stakes_perm hp)).symm.subset hx
    rw [show claimsOf ns n = [] from he] at hm
    exact nomatch hm

namespace Summarizes

variable (h : Summarizes t contracts ns)

include h

theorem conflict_iff : ResourceConflict t contracts ↔
    ∃ s ∈ summaries ns, s.ModeError ∨ s.ConsistencyError := by
  constructor
  · rintro ⟨n, hc⟩
    have hne : Compiler.stakes t contracts n ≠ [] := by
      intro he
      rw [he] at hc
      simp [Conflicting] at hc
    obtain ⟨x, hx⟩ := List.exists_mem_of_ne_nil _ hne
    obtain ⟨s, hs, rfl⟩ := h.target n x hx
    exact ⟨s, hs, (conflicting_iff (mem_summaries.mp hs).left).mp <| hc.perm (h.stakes s hs).symm⟩
  · rintro ⟨s, hs, he⟩
    exact ⟨s.resource, ((conflicting_iff (mem_summaries.mp hs).left).mpr he).perm (h.stakes s hs)⟩

theorem missing_iff (hno : ∀ s ∈ summaries ns, ¬s.ModeError ∧ ¬s.ConsistencyError) :
    MissingMediator t contracts ↔ ∃ s ∈ summaries ns, s.PresenceError := by
  constructor
  · rintro ⟨n, hu⟩
    obtain ⟨x, hx, -⟩ := id hu
    obtain ⟨s, hs, rfl⟩ := h.target n x hx
    have ⟨hm, hc⟩ := hno s hs
    exact ⟨s, hs, (Summary.presenceError_iff hm hc).mpr <| hu.perm (h.stakes s hs).symm⟩
  · rintro ⟨s, hs, hp⟩
    have ⟨hm, hc⟩ := hno s hs
    exact ⟨s.resource, ((Summary.presenceError_iff hm hc).mp hp).perm (h.stakes s hs)⟩

theorem owners (hno : ∀ s ∈ summaries ns, ¬s.ModeError ∧ ¬s.ConsistencyError) {n : Text} {x : Stake}
    (hx : x ∈ Compiler.stakes t contracts n) : ∃ o ∈ (summaries ns).map Summary.ownership,
      o.resource = n ∧ o.owners.Perm ((Compiler.stakes t contracts n).map Stake.owner) ∧
      (x.mode = "exclusive".points → o.mode = x.mode ∧ o.owners = [x.owner]) := by
  obtain ⟨s, hs, rfl⟩ := h.target n x hx
  refine ⟨s.ownership, List.mem_map_of_mem hs, Summary.ownership_resource, ?_, ?_⟩
  · rw [Summary.ownership_owners]
    exact Summary.owners_perm.trans ((h.stakes s hs).map _)
  · exact Summary.ownership_exclusive (hno s hs).left ((h.stakes s hs).symm.subset hx)

end Summarizes

end

end Resources

end Compiler
