import ExtManager.Compiler.Parsed

namespace Compiler

open Fallible

-- The errors that the compiler raises itself.
def Planning (e : Failure) : Prop :=
  ∃ code detail, e = .planning code detail

section Sorting

variable {α κ : Type} [LinearOrder κ] {key : α → κ} {l l' : List α}

theorem sortedBy_pairwise : (sortedBy key l).Pairwise (key · ≤ key ·) := by
  have : Std.Total fun a b : α => key a ≤ key b := ⟨fun a b => le_total (key a) (key b)⟩
  have : IsTrans α fun a b => key a ≤ key b := ⟨fun _ _ _ h h' => h.trans h'⟩
  exact List.pairwise_insertionSort _ l

theorem sortedBy_of_pairwise (h : l.Pairwise (key · ≤ key ·)) : sortedBy key l = l :=
  List.Pairwise.insertionSort_eq h

-- With different keys there is one sorted list.
theorem sortedBy_eq (hp : l.Perm l') (hn : (l.map key).Nodup) (hs : l'.Pairwise (key · ≤ key ·)) :
    sortedBy key l = l' := by
  have hp := (sortedBy_perm key l).trans hp
  have hn : ((sortedBy key l).map key).Nodup := ((sortedBy_perm key l).map key).nodup_iff.mpr hn
  refine hp.eq_of_pairwise (fun a b ha hb h h' => ?_) sortedBy_pairwise hs
  exact List.inj_on_of_nodup_map hn ha (hp.symm.subset hb) (le_antisymm h h')

end Sorting

section Raises

variable {p : Prop} [Decidable p] {code : PlanningErrorCode} {detail : Text}

theorem require_raises : Raises Planning (require p code detail) := by
  unfold require
  split
  case isTrue  => exact .ok
  case isFalse => exact .error ⟨_, _, rfl⟩

theorem refuseFirst_raises {p : Summary → Prop} [DecidablePred p] {detail : Summary → Text}
    {all : List Summary} : Raises Planning (refuseFirst p code detail all) := by
  unfold refuseFirst
  split
  case h_1 => exact .error ⟨_, _, rfl⟩
  case h_2 => exact .ok

theorem refuseLeast_raises {detail : List Text → Text} {claims : List (List Text)} :
    Raises Planning (refuseLeast code detail claims) := by
  unfold refuseLeast
  split
  case h_1 => exact .ok
  case h_2 => exact .error ⟨_, _, rfl⟩

theorem refuseFirst_ok {p : Summary → Prop} [DecidablePred p] {detail : Summary → Text}
    {all : List Summary} {u : Unit} :
    refuseFirst p code detail all = .ok u ↔ ∀ s ∈ all, ¬p s := by
  unfold refuseFirst
  split
  case h_1 s h =>
    exact ⟨nofun, fun hn => absurd (by simpa using List.find?_some h) (hn s <| List.mem_of_find?_eq_some h)⟩
  case h_2 h   => exact ⟨fun _ => by simpa using h, fun _ => rfl⟩

theorem refuseLeast_ok {detail : List Text → Text} {claims : List (List Text)} {u : Unit} :
    refuseLeast code detail claims = .ok u ↔ claims = [] := by
  have hl := (List.perm_insertionSort (· ≤ ·) claims).length_eq
  unfold refuseLeast
  split
  case h_1 h   => exact ⟨fun _ => List.length_eq_zero_iff.mp (by simp [← hl, h]), fun _ => rfl⟩
  case h_2 h   => exact ⟨nofun, fun hc => by simp [hc] at h⟩

end Raises

theorem find?_of_mem {α : Type} {p : α → Prop} [DecidablePred p] {l : List α} {a : α} (ha : a ∈ l)
    (hp : p a) : ∃ b, l.find? p = some b ∧ b ∈ l ∧ p b := by
  obtain ⟨b, hb⟩ := Option.isSome_iff_exists.mp <|
    List.find?_isSome (p := fun b => decide (p b)).mpr ⟨a, ha, decide_eq_true hp⟩
  exact ⟨b, hb, List.mem_of_find?_eq_some hb, by simpa using List.find?_some hb⟩

section Identifiers

variable {contracts : List ExtensionContract} {c : ExtensionContract} {x : Text}
variable {p : Failure → Prop}

theorem byId_ok (h : byId contracts x = .ok c) : c ∈ contracts ∧ c.extensionId = x := by
  have h := orElse_ok.mp h
  exact ⟨List.mem_reverse.mp <| List.mem_of_find?_eq_some h, by simpa using List.find?_some h⟩

theorem byId_raises (h : x ∈ ids contracts) : Raises p (byId contracts x) := by
  obtain ⟨c, hc, rfl⟩ := List.mem_map.mp h
  obtain ⟨c', hf, -⟩ := find?_of_mem (p := fun c' : ExtensionContract => c'.extensionId = c.extensionId)
    (List.mem_reverse.mpr hc) rfl
  exact fun e he => nomatch (orElse_ok.mpr hf).symm.trans he

end Identifiers

section Order

variable {contracts ordered : List ExtensionContract} {bindings : List CapabilityBinding}

theorem orderContracts_raises (hn : (ids contracts).Nodup) :
    Raises Planning (orderContracts contracts bindings) :=
  require_raises.bind fun _ _ => .mapM fun _ hx => byId_raises (Kahn.order_subset hn hx)

theorem orderContracts_ids (h : orderContracts contracts bindings = .ok ordered) :
    ids ordered = (Kahn.order (dependencies bindings) (ids contracts)).ordered := by
  have ⟨_, h⟩ := require_seq.mp h
  have hm := map_of_mapM (g := id) (fun _ _ h => (byId_ok h).right) h
  rwa [List.map_id] at hm

-- The order has every contract once.
theorem orderContracts_perm (hn : (ids contracts).Nodup)
    (h : orderContracts contracts bindings = .ok ordered) : ordered.Perm contracts := by
  have hm := orderContracts_ids h
  have ⟨hl, h⟩ := require_seq.mp h
  have hs : ordered ⊆ contracts := fun c hc =>
    have ⟨_, _, hb⟩ := source_of_mapM h c hc
    (byId_ok hb).left
  have hno : ordered.Nodup := .of_map _ <| hm ▸ Kahn.order_nodup hn
  have hlen : ordered.length = contracts.length := by
    rw [← hl, ← hm, ids, List.length_map]
  exact (List.subperm_of_subset hno hs).perm_of_length_le hlen.ge

end Order

section Capabilities

variable [LawfulPackaging] {contracts : List ExtensionContract} {c : ExtensionContract}

theorem inRange_ok {version range : Text} (hv : ∃ v, version = Packaging.versionStr v)
    (hr : ∃ s, range = Packaging.specifiersStr s) : ∃ b, inRange version range = .ok b := by
  obtain ⟨v, rfl⟩ := hv
  obtain ⟨s, rfl⟩ := hr
  simp only [inRange, LawfulPackaging.version?_str, LawfulPackaging.specifiers?_str]
  exact ⟨_, rfl⟩

omit [LawfulPackaging] in
theorem mem_providers {name : Text} {x : ExtensionContract × Capability} :
    x ∈ providers contracts name ↔ x.1 ∈ contracts ∧ x.2 ∈ x.1.provides ∧ x.2.name = name := by
  obtain ⟨c, p⟩ := x
  simp only [providers, List.mem_flatMap, List.mem_map, List.mem_filter, decide_eq_true_eq,
    Prod.mk.injEq]
  constructor
  · rintro ⟨c, hc, p, hp, rfl, rfl⟩
    exact ⟨hc, hp⟩
  · rintro ⟨hc, hp⟩
    exact ⟨c, hc, p, hp, rfl, rfl⟩

-- Whether a version is in a range.
def fits (version range : Text) : Bool :=
  match inRange version range with
    | .ok b    => b
    | .error _ => false

theorem compatible_eq {range : Text} {cs : List (ExtensionContract × Capability)}
    (h : ∀ c ∈ cs, ∃ b, inRange c.2.version range = .ok b) :
    compatible range cs = .ok (cs.filter fun c => fits c.2.version range) := by
  induction cs with
  | nil          => rfl
  | cons c cs ih =>
    have ⟨⟨b, hb⟩, hcs⟩ := List.forall_mem_cons.mp h
    have hf : fits c.2.version range = b := by simp [fits, hb]
    simp only [compatible, ih hcs, hb, List.filter_cons, hf]
    cases b <;> rfl

-- The providers of a requirement with a version in its range.
def candidates (contracts : List ExtensionContract) (q : Capability) :
    List (ExtensionContract × Capability) :=
  (providers contracts q.name).filter fun c => fits c.2.version q.version

theorem compatible_providers {q : Capability} (h : ∀ c ∈ contracts, WellFormed c)
    (hq : ∃ s, q.version = Packaging.specifiersStr s) :
    compatible q.version (providers contracts q.name) = .ok (candidates contracts q) := by
  refine compatible_eq fun x hx => inRange_ok ?_ hq
  have ⟨hc, hp, _⟩ := mem_providers.mp hx
  exact (h _ hc).provides _ hp

variable {q : Capability} {b : CapabilityBinding} {bindings : List CapabilityBinding}

theorem resolveRequirement_raises (h : ∀ c ∈ contracts, WellFormed c)
    (hq : ∃ s, q.version = Packaging.specifiersStr s) :
    Raises Planning (resolveRequirement contracts c q) := by
  unfold resolveRequirement
  simp only [compatible_providers h hq]
  refine .bind (x := .ok _) .ok fun found _ => ?_
  split
  case h_1 => exact .error ⟨_, _, rfl⟩
  case h_2 => exact .ok
  case h_3 => exact .error ⟨_, _, rfl⟩

theorem resolveRequirement_ok (h : ∀ c ∈ contracts, WellFormed c)
    (hq : ∃ s, q.version = Packaging.specifiersStr s)
    (hb : resolveRequirement contracts c q = .ok b) :
    (∃ x, candidates contracts q = [x] ∧ b.provider = x.1.extensionId) ∧
      b.consumer = c.extensionId ∧ b.capability = q.name := by
  unfold resolveRequirement at hb
  simp only [compatible_providers h hq] at hb
  obtain ⟨found, hf, hb⟩ := bind_ok.mp hb
  cases hf
  split at hb
  case h_1      => exact nomatch hb
  case h_2 he   =>
    cases hb
    exact ⟨⟨_, he, rfl⟩, rfl, rfl⟩
  case h_3      => exact nomatch hb

theorem resolveCapabilities_raises (h : ∀ c ∈ contracts, WellFormed c) :
    Raises Planning (resolveCapabilities contracts) := by
  refine .bind (.mapM fun c hc => .mapM fun q hq => ?_) fun _ _ => .ok
  exact resolveRequirement_raises h ((h c hc).requires q hq)

theorem source_of_resolve (h : ∀ c ∈ contracts, WellFormed c)
    (hb : resolveCapabilities contracts = .ok bindings) (hm : b ∈ bindings) :
    ∃ c ∈ contracts, ∃ q ∈ c.requires, ∃ x, candidates contracts q = [x] ∧
      b.provider = x.1.extensionId ∧ b.consumer = c.extensionId := by
  obtain ⟨found, hf, hb⟩ := bind_ok.mp hb
  cases hb
  obtain ⟨bs, hbs, hm⟩ := List.mem_flatten.mp hm
  obtain ⟨c, hc, hf⟩ := source_of_mapM hf bs hbs
  obtain ⟨q, hq, hr⟩ := source_of_mapM hf b hm
  obtain ⟨⟨x, hx, hp⟩, hcons, -⟩ := resolveRequirement_ok h ((h c hc).requires q hq) hr
  exact ⟨c, hc, q, hq, x, hx, hp, hcons⟩

-- Every requirement of every contract is bound.
theorem bound_of_resolve (h : ∀ c ∈ contracts, WellFormed c)
    (hb : resolveCapabilities contracts = .ok bindings) (hc : c ∈ contracts) (hq : q ∈ c.requires) :
    ∃ b ∈ bindings, b.consumer = c.extensionId ∧ b.capability = q.name := by
  obtain ⟨found, hf, hb⟩ := bind_ok.mp hb
  cases hb
  obtain ⟨bs, hbs, hf⟩ := target_of_mapM hf c hc
  obtain ⟨b, hb, hr⟩ := target_of_mapM hf q hq
  refine ⟨b, List.mem_flatten.mpr ⟨bs, hbs, hb⟩, ?_⟩
  exact (resolveRequirement_ok h ((h c hc).requires q hq) hr).right

end Capabilities

section Obligations

variable {contracts : List ExtensionContract} {bindings : List CapabilityBinding}
variable {p : Failure → Prop}

theorem requirementProvider_raises {x y : Text}
    (h : ∃ b ∈ bindings, b.consumer = x ∧ b.capability = y) :
    Raises p (requirementProvider bindings x y) := by
  obtain ⟨b, hb, hx⟩ := h
  obtain ⟨b', hf, -⟩ := find?_of_mem
    (p := fun b : CapabilityBinding => b.consumer = x ∧ b.capability = y) (List.mem_reverse.mpr hb) hx
  have he : requirementProvider bindings x y = .ok b'.provider :=
    bind_ok.mpr ⟨b', orElse_ok.mpr hf, rfl⟩
  exact fun e h => nomatch he.symm.trans h

theorem bindObligations_raises (h : ∀ c ∈ contracts, ∀ o ∈ c.processObligations,
      o.capabilityDirection = "requires".points →
      ∃ b ∈ bindings, b.consumer = c.extensionId ∧ b.capability = o.capability) :
    Raises p (bindObligations contracts bindings) := by
  refine .bind (.mapM fun c hc => .mapM fun o ho => .bind ?_ fun _ _ => .ok) fun _ _ => .ok
  unfold capabilityProvider
  split
  case isTrue hd => exact requirementProvider_raises <| h c hc o ho hd
  case isFalse   => exact .ok

end Obligations

theorem validateObligationAuthority_raises {contracts : List ExtensionContract} :
    Raises Planning (validateObligationAuthority contracts) :=
  .forM fun _ _ => .forM fun _ _ => require_raises

theorem resolveResources_raises {contracts : List ExtensionContract} :
    Raises Planning (resolveResources contracts) :=
  refuseFirst_raises.bind fun _ _ => refuseFirst_raises.bind fun _ _ =>
    refuseFirst_raises.bind fun _ _ => .ok

section Plan

variable [LawfulPackaging] {contracts : List ExtensionContract}

-- Where the requirements are bound, so are the obligations.
theorem bindObligations_resolved {bindings : List CapabilityBinding} {p : Failure → Prop}
    (h : ∀ c ∈ contracts, WellFormed c) (hb : resolveCapabilities contracts = .ok bindings) :
    Raises p (bindObligations contracts (sortedBy (fun b => [b.consumer, b.capability]) bindings)) := by
  refine bindObligations_raises fun c hc o ho hd => ?_
  have hcap := (h c hc).obligations o ho
  rw [declared, if_neg (by rw [hd]; decide)] at hcap
  obtain ⟨q, hq, he⟩ := List.mem_map.mp hcap
  obtain ⟨b, hm, hx⟩ := bound_of_resolve h hb hc hq
  exact ⟨b, mem_sortedBy.mpr hm, he ▸ hx⟩

theorem planNormalized_raises {runtime : Text} {version : Packaging.Version}
    (h : ∀ c ∈ contracts, WellFormed c) (hn : (ids contracts).Nodup) :
    Raises Planning (planNormalized runtime version contracts) := by
  refine validateObligationAuthority_raises.bind fun _ _ => ?_
  refine (resolveCapabilities_raises h).bind fun bindings hb => ?_
  refine (orderContracts_raises hn).bind fun _ _ => resolveResources_raises.bind fun _ _ => ?_
  exact .bind (bindObligations_resolved h hb) fun _ _ => .ok

end Plan

section Taxonomy

variable {t : ContractTaxonomy} {x : Text} {rule : TaxonomyResource}

theorem rule?_iff : t.rule? x = some rule ↔ rule ∈ t.resources ∧ x ∈ rule.names := by
  have unique : ∀ r ∈ t.resources, ∀ r' ∈ t.resources, x ∈ r.names → x ∈ r'.names → r = r' := by
    intro r hr r' hr' hx hx'
    by_contra hne
    have : Std.Symm (Function.onFun List.Disjoint TaxonomyResource.names) := ⟨fun _ _ h => h.symm⟩
    exact (List.nodup_flatMap.mp t.unique).right.forall hr hr' hne hx hx'
  constructor
  · intro h
    exact ⟨List.mem_of_find?_eq_some h, by simpa using List.find?_some h⟩
  · rintro ⟨hr, hx⟩
    obtain ⟨r, hf, hm, hxr⟩ := find?_of_mem (p := fun r : TaxonomyResource => x ∈ r.names) hr hx
    exact unique r hm rule hr hxr hx ▸ hf

theorem rule?_canonical (h : t.rule? x = some rule) : t.rule? rule.canonical = some rule :=
  rule?_iff.mpr ⟨(rule?_iff.mp h).left, List.mem_cons_self ..⟩

end Taxonomy

end Compiler
