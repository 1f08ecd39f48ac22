import Mathlib.Data.List.Chain
import ExtManager.Codec.Canonical
import ExtManager.Codec.Dict
import ExtManager.Codec.Fallible
import ExtManager.Manifest.Basic

open Manifest (ClaimMode)

namespace Provider

structure PlanAction where
  operation      : Text
  target         : Text
  lifecycleOwner : Text
  mutating       : Bool
  details        : Fields

-- The generated configuration stands in the order in which it was generated.
structure ProviderPlan where
  extensionId     : Text
  provider        : Text
  actions         : List PlanAction
  generatedConfig : Fields
  warnings        : List Text
  resourceClaims  : List Manifest.ResourceClaim

-- What two plans cannot have both.
inductive Conflict
  | resource (previous : Text × ClaimMode) (extensionId : Text) (claim : Manifest.ResourceClaim)
  | config (previous extensionId provider key : Text)
  deriving DecidableEq

-- What has been claimed, by scope and resource: by whom, and how.
abbrev Resources :=
  Dict (Text × Text) (Text × ClaimMode)

def claimResource (extensionId : Text) (resources : Resources) (claim : Manifest.ResourceClaim) :
    Except Conflict Resources :=
  match resources.get? (claim.scope, claim.resource) with
  | some previous =>
    if previous.2 = .exclusive ∨ claim.mode = .exclusive then
      .error (.resource previous extensionId claim)
    else .ok (resources.set (claim.scope, claim.resource) (extensionId, claim.mode))
  | none          => .ok (resources.set (claim.scope, claim.resource) (extensionId, claim.mode))

def claimResources (resources : Resources) (plan : ProviderPlan) : Except Conflict Resources :=
  plan.resourceClaims.foldlM (claimResource plan.extensionId) resources

variable [PythonJson]

-- What has been generated, by provider and key: for whom.
abbrev Claims :=
  Dict (Text × Text) (Text × Value)

def claimKey (extensionId provider : Text) (claims : Claims) (item : Text × Value) :
    Except Conflict Claims :=
  match claims.get? (provider, item.1) with
  | some previous =>
    if previous.2.same item.2 then .ok (claims.set (provider, item.1) (extensionId, item.2))
    else .error (.config previous.1 extensionId provider item.1)
  | none          => .ok (claims.set (provider, item.1) (extensionId, item.2))

def claimKeys (claims : Claims) (plan : ProviderPlan) : Except Conflict Claims :=
  plan.generatedConfig.foldlM (claimKey plan.extensionId plan.provider) claims

def rejectConflictingPlans (plans : List ProviderPlan) : Except Conflict Unit := do
  let _ ← plans.foldlM claimResources .empty
  let _ ← plans.foldlM claimKeys .empty
  .ok ()

-- The claims on a resource are compatible if none of them is exclusive.
def Compatible (c d : Manifest.ResourceClaim) : Prop :=
  c.scope = d.scope → c.resource = d.resource → c.mode = .shared ∧ d.mode = .shared

section Resources

omit [PythonJson]

variable {extensionId : Text} {c d : Manifest.ResourceClaim} {done : List Manifest.ResourceClaim}
  {resources resources' : Resources} {items : List (Text × Manifest.ResourceClaim)}

theorem Compatible.symm (h : Compatible c d) : Compatible d c :=
  fun hs hr => (h hs.symm hr.symm).symm

-- What the claims so far have left behind.
structure Recorded (done : List Manifest.ResourceClaim) (resources : Resources) : Prop where
  claimed : ∀ c ∈ done, ∃ v, resources.get? (c.scope, c.resource) = some v ∧ c.mode = v.2
  known   : ∀ k v, resources.get? k = some v → ∃ c ∈ done, (c.scope, c.resource) = k ∧ c.mode = v.2

theorem Recorded.set (h : Recorded done resources)
    (hc : ∀ d ∈ done, d.scope = c.scope → d.resource = c.resource → d.mode = c.mode) :
    Recorded (done ++ [c]) (resources.set (c.scope, c.resource) (extensionId, c.mode)) where
  claimed := by
    refine List.forall_mem_append.mpr ⟨fun d hd => ?_, List.forall_mem_singleton.mpr ?_⟩
    case refine_2 => exact ⟨_, Dict.get?_set.trans (if_pos rfl), rfl⟩
    rw [Dict.get?_set]
    split
    case isTrue he  =>
      obtain ⟨hs, hr⟩ := Prod.mk.inj he
      exact ⟨_, rfl, hc d hd hs hr⟩
    case isFalse    => exact h.claimed d hd
  known k v hv := by
    rw [Dict.get?_set] at hv
    split at hv
    case isTrue hk =>
      cases hv
      exact ⟨c, by simp, hk.symm, rfl⟩
    case isFalse   =>
      obtain ⟨d, hd, hm⟩ := h.known k v hv
      exact ⟨d, List.mem_append_left _ hd, hm⟩

theorem claimResource_ok (h : Recorded done resources)
    (hr : claimResource extensionId resources c = .ok resources') :
    Recorded (done ++ [c]) resources' ∧ ∀ d ∈ done, Compatible d c := by
  unfold claimResource at hr
  split at hr
  case h_1 previous hp =>
    split at hr
    case isTrue => cases hr
    case isFalse hm =>
      cases hr
      have hshared {m : ClaimMode} (hm : m ≠ .exclusive) : m = .shared := by
        cases m
        · exact absurd rfl hm
        · rfl
      have ⟨hprev, hmode⟩ := not_or.mp hm
      have hall : ∀ d ∈ done, d.scope = c.scope → d.resource = c.resource → d.mode = .shared := by
        intro d hd hs hres
        have ⟨v, hv, hdv⟩ := h.claimed d hd
        rw [hs, hres, hp] at hv
        cases hv
        exact hdv.trans (hshared hprev)
      refine ⟨h.set fun d hd hs hres => (hall d hd hs hres).trans (hshared hmode).symm, ?_⟩
      exact fun d hd hs hres => ⟨hall d hd hs hres, hshared hmode⟩
  case h_2 hp =>
    cases hr
    have hnone : ∀ d ∈ done, d.scope = c.scope → d.resource ≠ c.resource := by
      intro d hd hs hres
      have ⟨v, hv, _⟩ := h.claimed d hd
      rw [hs, hres, hp] at hv
      cases hv
    exact ⟨h.set fun d hd hs hres => absurd hres (hnone d hd hs),
      fun d hd hs hres => absurd hres (hnone d hd hs)⟩

theorem claimResource_total (h : Recorded done resources) (hc : ∀ d ∈ done, Compatible d c) :
    ∃ resources', claimResource extensionId resources c = .ok resources' := by
  unfold claimResource
  split
  case h_1 previous hp =>
    have ⟨d, hd, hk, hm⟩ := h.known _ _ hp
    obtain ⟨hs, hr⟩ := Prod.mk.inj hk
    have ⟨hshared, hmode⟩ := hc d hd hs hr
    have hne : ¬(previous.2 = .exclusive ∨ c.mode = .exclusive) := by
      rw [← hm, hshared, hmode]
      decide
    exact ⟨_, if_neg hne⟩
  case h_2 => exact ⟨_, rfl⟩

theorem claims_iff (h : Recorded done resources) :
    (∃ r, items.foldlM (fun r x => claimResource x.1 r x.2) resources = .ok r) ↔
      (items.map (·.2)).Pairwise Compatible ∧ ∀ d ∈ done, ∀ x ∈ items, Compatible d x.2 := by
  induction items generalizing done resources with
  | nil => exact ⟨fun _ => ⟨.nil, fun _ _ => nofun⟩, fun _ => ⟨_, rfl⟩⟩
  | cons x items ih =>
    rw [List.foldlM_cons, List.map_cons, List.pairwise_cons]
    constructor
    · rintro ⟨r, hr⟩
      have ⟨resources', hx, hr⟩ := Fallible.bind_ok.mp hr
      have ⟨h', hd⟩ := claimResource_ok h hx
      have ⟨hp, hall⟩ := (ih h').mp ⟨r, hr⟩
      refine ⟨⟨List.forall_mem_map.mpr fun y hy => hall x.2 (by simp) y hy, hp⟩,
        fun d hm => List.forall_mem_cons.mpr ⟨hd d hm, fun y hy => ?_⟩⟩
      exact hall d (List.mem_append_left _ hm) y hy
    · rintro ⟨⟨hx, hp⟩, hall⟩
      have hdone (d) (hd : d ∈ done) := List.forall_mem_cons.mp (hall d hd)
      have ⟨resources', hr⟩ := @claimResource_total x.1 x.2 done resources h fun d hd =>
        (hdone d hd).left
      have ⟨h', _⟩ := claimResource_ok h hr
      have hrest : ∀ d ∈ done ++ [x.2], ∀ y ∈ items, Compatible d y.2 := by
        refine List.forall_mem_append.mpr ⟨fun d hd => (hdone d hd).right, ?_⟩
        exact List.forall_mem_singleton.mpr fun y hy => hx _ (List.mem_map_of_mem hy)
      have ⟨r, hr'⟩ := (ih h').mpr ⟨hp, hrest⟩
      exact ⟨r, Fallible.bind_ok.mpr ⟨resources', hr, hr'⟩⟩

theorem claimResources_eq {plans : List ProviderPlan} : plans.foldlM claimResources resources =
    (plans.flatMap fun plan => plan.resourceClaims.map (plan.extensionId, ·)).foldlM
      (fun r x => claimResource x.1 r x.2) resources := by
  induction plans generalizing resources with
  | nil => rfl
  | cons plan plans ih =>
    rw [List.foldlM_cons, List.flatMap_cons, List.foldlM_append, List.foldlM_map]
    exact congrArg _ (funext fun _ => ih)

-- Plans are compatible iff all of their claims are.
theorem claimResources_iff {plans : List ProviderPlan} :
    (∃ r, plans.foldlM claimResources .empty = .ok r) ↔
      (plans.flatMap (·.resourceClaims)).Pairwise Compatible := by
  have hempty : Recorded [] .empty := ⟨nofun, fun _ _ h => nomatch h⟩
  have hmap : (plans.flatMap fun plan => plan.resourceClaims.map (plan.extensionId, ·)).map (·.2) =
      plans.flatMap (·.resourceClaims) := by
    simp [List.map_flatMap, Function.comp_def]
  rw [claimResources_eq, claims_iff hempty, hmap]
  exact and_iff_left fun _ => nofun

end Resources

section Keys

variable {claims claims' : Claims} {items : List (Text × Text × Text × Value)}
  {extensionId provider : Text} {item : Text × Value}

-- What an extension generates under a key, if the item is one of that key.
def at? (k : Text × Text) (x : Text × Text × Text × Value) : Option Value :=
  if (x.2.1, x.2.2.1) = k then some x.2.2.2 else none

theorem claimKey_ok : claimKey extensionId provider claims item = .ok claims' ↔
    (∀ previous, claims.get? (provider, item.1) = some previous → previous.2.same item.2) ∧
      claims' = claims.set (provider, item.1) (extensionId, item.2) := by
  unfold claimKey
  split
  case h_1 previous hp =>
    simp only [hp, Option.some.injEq, forall_eq']
    split
    case isTrue h  => simp only [h, true_and, Except.ok.injEq, eq_comm]
    case isFalse h => simp [h]
  case h_2 hp => simp only [hp, reduceCtorEq, false_implies, implies_true, true_and, Except.ok.injEq, eq_comm]

-- Each value is compared with the one before it under its key.
theorem claims_chain :
    (∃ r, items.foldlM (fun c x => claimKey x.1 x.2.1 c x.2.2) claims = .ok r) ↔
      ∀ k, (((claims.get? k).map (·.2)).toList ++ items.filterMap (at? k)).IsChain (·.same ·) := by
  induction items generalizing claims with
  | nil =>
    refine ⟨fun _ k => ?_, fun _ => ⟨_, rfl⟩⟩
    cases claims.get? k <;> simp
  | cons x items ih =>
    have hrest (k : Text × Text) :
        ((((claims.set (x.2.1, x.2.2.1) (x.1, x.2.2.2)).get? k).map (·.2)).toList ++
          items.filterMap (at? k)).IsChain (·.same ·) ↔
        if k = (x.2.1, x.2.2.1) then (x.2.2.2 :: items.filterMap (at? k)).IsChain (·.same ·)
        else (((claims.get? k).map (·.2)).toList ++ items.filterMap (at? k)).IsChain (·.same ·) := by
      rw [Dict.get?_set]
      split <;> rfl
    have hcons (k : Text × Text) : (x :: items).filterMap (at? k) =
        if k = (x.2.1, x.2.2.1) then x.2.2.2 :: items.filterMap (at? k)
        else items.filterMap (at? k) := by
      rw [List.filterMap_cons, at?]
      by_cases hk : k = (x.2.1, x.2.2.1)
      · rw [if_pos hk.symm, if_pos hk]
      · rw [if_neg (Ne.symm hk), if_neg hk]
    rw [List.foldlM_cons]
    constructor
    · rintro ⟨r, hr⟩ k
      obtain ⟨claims', hx, hr⟩ := Fallible.bind_ok.mp hr
      obtain ⟨hp, rfl⟩ := claimKey_ok.mp hx
      have hk := (hrest k).mp (ih.mp ⟨r, hr⟩ k)
      rw [hcons]
      split at hk
      case isTrue he =>
        rw [if_pos he]
        cases hg : claims.get? k
        case none          => exact hk
        case some previous => exact .cons_cons (hp previous (he ▸ hg)) hk
      case isFalse he => rwa [if_neg he]
    · intro h
      have hp : ∀ previous, claims.get? (x.2.1, x.2.2.1) = some previous →
          previous.2.same x.2.2.2 := by
        intro previous hg
        have hk := h (x.2.1, x.2.2.1)
        rw [hcons, if_pos rfl, hg] at hk
        exact (List.isChain_cons_cons.mp hk).left
      have hall : ∀ k, ((((claims.set (x.2.1, x.2.2.1) (x.1, x.2.2.2)).get? k).map (·.2)).toList ++
          items.filterMap (at? k)).IsChain (·.same ·) := by
        intro k
        have hk := h k
        rw [hcons] at hk
        refine (hrest k).mpr ?_
        split
        case isTrue he =>
          rw [if_pos he] at hk
          exact hk.right_of_append
        case isFalse he => rwa [if_neg he] at hk
      obtain ⟨r, hr⟩ := ih.mpr hall
      exact ⟨r, Fallible.bind_ok.mpr ⟨_, claimKey_ok.mpr ⟨hp, rfl⟩, hr⟩⟩

theorem claimKeys_eq {plans : List ProviderPlan} : plans.foldlM claimKeys claims =
    (plans.flatMap fun plan => plan.generatedConfig.map fun item =>
      (plan.extensionId, plan.provider, item)).foldlM (fun c x => claimKey x.1 x.2.1 c x.2.2) claims := by
  induction plans generalizing claims with
  | nil => rfl
  | cons plan plans ih =>
    rw [List.foldlM_cons, List.flatMap_cons, List.foldlM_append, List.foldlM_map]
    exact congrArg _ (funext fun _ => ih)

omit [PythonJson] in
theorem values_eq {fields : Fields} {key : Text} (h : (fields.map (·.1)).Nodup) :
    fields.filterMap (fun item => if item.1 = key then some item.2 else none) =
      (Fields.get? fields key).toList := by
  induction fields with
  | nil => rfl
  | cons item fields ih =>
    have ⟨hx, h⟩ := List.nodup_cons.mp h
    rw [List.filterMap_cons, Fields.get?, List.lookup_cons]
    by_cases hk : item.1 = key
    · have hnone : fields.filterMap (fun item => if item.1 = key then some item.2 else none) = [] := by
        refine List.filterMap_eq_nil_iff.mpr fun item' hm => if_neg fun he => hx ?_
        exact List.mem_map.mpr ⟨item', hm, he.trans hk.symm⟩
      simp [hk, hnone]
    · rw [if_neg hk, beq_eq_false_iff_ne.mpr (Ne.symm hk)]
      exact ih h

-- Plans of one provider do not conflict iff what they generate under a key is the same from one of
-- them to the next, for every key.
theorem claimKeys_iff {plans : List ProviderPlan} {provider : Text}
    (hp : ∀ plan ∈ plans, plan.provider = provider)
    (hk : ∀ plan ∈ plans, (plan.generatedConfig.map (·.1)).Nodup) :
    (∃ r, plans.foldlM claimKeys .empty = .ok r) ↔
      ∀ key, (plans.filterMap fun plan => Fields.get? plan.generatedConfig key).IsChain (·.same ·) := by
  have hvalues (p key : Text) : (plans.flatMap fun plan => plan.generatedConfig.map fun item =>
      (plan.extensionId, plan.provider, item)).filterMap (at? (p, key)) =
        if p = provider then plans.filterMap fun plan => Fields.get? plan.generatedConfig key else [] := by
    induction plans with
    | nil => simp
    | cons plan plans ih =>
      have ⟨hp, hps⟩ := List.forall_mem_cons.mp hp
      have ⟨hk, hks⟩ := List.forall_mem_cons.mp hk
      rw [List.flatMap_cons, List.filterMap_append, ih hps hks, List.filterMap_map, List.filterMap_cons]
      have hplan : plan.generatedConfig.filterMap
          (at? (p, key) ∘ fun item => (plan.extensionId, plan.provider, item)) =
            if p = provider then (Fields.get? plan.generatedConfig key).toList else [] := by
        split
        case isTrue he  =>
          rw [← values_eq hk]
          simp [at?, hp, he]
        case isFalse he =>
          refine List.filterMap_eq_nil_iff.mpr fun item _ => if_neg fun h => he ?_
          exact hp ▸ (Prod.mk.inj h).left.symm
      rw [hplan]
      split
      case isTrue  => cases Fields.get? plan.generatedConfig key <;> rfl
      case isFalse => rfl
  rw [claimKeys_eq, claims_chain]
  constructor
  · intro h key
    have h := h (provider, key)
    rw [hvalues, if_pos rfl] at h
    exact h
  · rintro h ⟨p, key⟩
    rw [hvalues]
    split
    case isTrue  => exact h key
    case isFalse => exact .nil

end Keys

end Provider
