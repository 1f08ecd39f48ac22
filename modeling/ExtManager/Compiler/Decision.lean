import ExtManager.Compiler.Ownership

namespace Compiler

open Fallible

section Specification

section

variable (t : ContractTaxonomy) (contracts : List ExtensionContract)

-- A contract, by its identifier, and a capability of it.
def Provides (q : Capability) (x : Text × Capability) : Prop :=
  (∃ c ∈ contracts, c.extensionId = x.1 ∧ x.2 ∈ c.provides) ∧ x.2.name = q.name

variable [Packaging]

def InRange (version range : Text) : Prop :=
  ∃ v s, Packaging.version? version = some v ∧ Packaging.specifiers? range = some s ∧
    Packaging.contains s v = true

-- Not exactly one provider has a version in the range.
def Unresolved (q : Capability) : Prop :=
  ¬∃! x, Provides contracts q x ∧ InRange x.2.version q.version

def UnresolvedCapability : Prop :=
  ∃ c ∈ contracts, ∃ q ∈ c.requires, Unresolved contracts q

-- The code of a requirement without exactly one provider.
inductive Unbound (q : Capability) : PlanningErrorCode → Prop
  | missing : (∀ x, ¬Provides contracts q x) → Unbound q .missingCapability
  | incompatible : (∃ x, Provides contracts q x) →
    (∀ x, Provides contracts q x → ¬InRange x.2.version q.version) → Unbound q .incompatibleCapability
  | ambiguous {x y} : x ≠ y → Provides contracts q x ∧ InRange x.2.version q.version →
    Provides contracts q y ∧ InRange y.2.version q.version → Unbound q .ambiguousCapability

def Unbinds (code : PlanningErrorCode) : Prop :=
  ∃ c ∈ contracts, ∃ q ∈ c.requires, Unbound contracts q code

-- One contract requires a capability that another one provides.
def DependsOn (x y : Text) : Prop :=
  x ≠ y ∧ ∃ c ∈ contracts, c.extensionId = x ∧ ∃ q ∈ c.requires, ∃ p,
    Provides contracts q (y, p) ∧ InRange p.version q.version

-- The contracts are for the host, their obligations are granted, and they do not depend on each
-- other in a circle.
structure Admissible (hostRuntime hostVersion : Text) : Prop where
  nonempty : contracts ≠ []
  distinct : (ids contracts).Nodup
  runtime : hostRuntime ≠ [] ∧ hostRuntime.strip = hostRuntime
  version : hostVersion ≠ [] ∧ hostVersion.strip = hostVersion
  host : ∃ v, Packaging.version? hostVersion = some v ∧ Packaging.isLocal v = false ∧
    ∀ c ∈ contracts, c.hostRuntime = hostRuntime ∧ ∃ s,
      Packaging.specifiers? c.hostVersionRange = some s ∧ Packaging.contains s v = true
  granted : ∀ c ∈ contracts, ∀ o ∈ c.processObligations, o.expected ∈ c.authority.grants o.authority
  acyclic : ¬UnresolvedCapability contracts → ∀ x, ¬Relation.TransGen (DependsOn contracts) x x

end

-- The first condition that holds anywhere decides.
structure Decides [Packaging] (t : ContractTaxonomy) (contracts : List ExtensionContract)
    (r : Result ContractPlan) : Prop where
  unknown : UnknownResource t contracts → FailsWith .unknownResource r
  mode : ¬UnknownResource t contracts → InvalidMode t contracts → FailsWith .invalidResourceMode r
  capability : ¬UnknownResource t contracts → ¬InvalidMode t contracts →
    UnresolvedCapability contracts →
    ∃ code, FailsWith code r ∧ Unbinds contracts code
  conflict : ¬UnknownResource t contracts → ¬InvalidMode t contracts →
    ¬UnresolvedCapability contracts → ResourceConflict t contracts → FailsWith .resourceConflict r
  mediator : ¬UnknownResource t contracts → ¬InvalidMode t contracts →
    ¬UnresolvedCapability contracts → ¬ResourceConflict t contracts → MissingMediator t contracts →
    FailsWith .authorityViolation r
  succeeds : (∃ p, r = .ok p) ↔ ¬UnknownResource t contracts ∧ ¬InvalidMode t contracts ∧
    ¬UnresolvedCapability contracts ∧ ¬ResourceConflict t contracts ∧ ¬MissingMediator t contracts
  -- The plan lists every claimed resource with its claimants, of which an exclusive resource has one.
  owners : ∀ p, r = .ok p → ∀ n x, x ∈ stakes t contracts n → ∃ o ∈ p.resourceOwnership,
    o.resource = n ∧ o.owners.Perm ((stakes t contracts n).map Stake.owner) ∧
    (x.mode = "exclusive".points → o.mode = x.mode ∧ o.owners = [x.owner])

end Specification

def identify (y : ExtensionContract × Capability) : Text × Capability :=
  (y.1.extensionId, y.2)

section Requirements

variable [LawfulPackaging] {contracts ns : List ExtensionContract} {q : Capability} {c : ExtensionContract}
variable {x : Text × Capability}

theorem fits_iff {version range : Text} : fits version range = true ↔ InRange version range := by
  unfold fits inRange InRange
  cases hv : Packaging.version? version
  case none => simp [orElse, bind, Except.bind]
  case some v =>
    cases hs : Packaging.specifiers? range
    case none => simp [orElse, bind, Except.bind]
    case some s => simp [orElse, bind, Except.bind, pure, Except.pure]

omit [LawfulPackaging] in
theorem provides_iff : Provides contracts q x ↔ ∃ y ∈ providers contracts q.name, identify y = x := by
  constructor
  · rintro ⟨⟨c, hc, hid, hp⟩, hn⟩
    exact ⟨(c, x.2), mem_providers.mpr ⟨hc, hp, hn⟩, Prod.ext hid rfl⟩
  · rintro ⟨⟨c, p⟩, hy, rfl⟩
    have ⟨hc, hp, hn⟩ := mem_providers.mp hy
    exact ⟨⟨c, hc, rfl, hp⟩, hn⟩

theorem candidates_iff : Provides contracts q x ∧ InRange x.2.version q.version ↔
    ∃ y ∈ candidates contracts q, identify y = x := by
  rw [provides_iff, ← fits_iff]
  constructor
  · rintro ⟨⟨y, hy, rfl⟩, hf⟩
    exact ⟨y, List.mem_filter.mpr ⟨hy, hf⟩, rfl⟩
  · rintro ⟨y, hy, rfl⟩
    have ⟨hy, hf⟩ := List.mem_filter.mp hy
    exact ⟨⟨y, hy, rfl⟩, hf⟩

theorem candidates_nodup (hw : ∀ c ∈ contracts, WellFormed c) (hn : (ids contracts).Nodup) :
    ((candidates contracts q).map identify).Nodup := by
  refine List.Nodup.sublist (List.filter_sublist.map _) ?_
  rw [providers, List.map_flatMap, List.nodup_flatMap]
  refine ⟨fun c hc => ?_, (List.pairwise_map.mp hn).imp fun {c c'} hne x hx hx' => hne ?_⟩
  · have hp : (c.provides.filter (·.name = q.name)).Nodup := (hw c hc).provided.of_map.filter _
    rw [List.map_map]
    exact hp.map fun p p' h => congrArg Prod.snd h
  · have owner {c : ExtensionContract} {x : Text × Capability}
        (h : x ∈ ((c.provides.filter (·.name = q.name)).map (c, ·)).map identify) :
        x.1 = c.extensionId := by
      rw [List.map_map] at h
      obtain ⟨p, -, rfl⟩ := List.mem_map.mp h
      rfl
    exact (owner hx).symm.trans (owner hx')

-- A requirement is bound to the one candidate that there is, or there is not exactly one.
theorem resolveRequirement_unbound (hw : ∀ c ∈ contracts, WellFormed c) (hn : (ids contracts).Nodup)
    (hq : ∃ s, q.version = Packaging.specifiersStr s) :
    Raises (fun e => ∃ code d, e = .planning code d ∧ Unbound contracts q code)
      (resolveRequirement contracts c q) := by
  have hnodup := candidates_nodup (q := q) hw hn
  have hmem := @candidates_iff _ contracts q
  unfold resolveRequirement
  simp only [compatible_providers hw hq]
  refine .bind (x := .ok _) .ok fun found hf => ?_
  cases hf
  generalize candidates contracts q = found at hnodup hmem
  match found with
  | []          =>
    refine .error ⟨_, _, rfl, ?_⟩
    have hout x (hx : Provides contracts q x) : ¬InRange x.2.version q.version :=
      fun hr => by simpa using hmem.mp ⟨hx, hr⟩
    split
    case isTrue hp  =>
      obtain ⟨y, hy⟩ := List.exists_mem_of_ne_nil _ hp
      exact .incompatible ⟨_, provides_iff.mpr ⟨y, hy, rfl⟩⟩ hout
    case isFalse hp =>
      refine .missing fun x hx => ?_
      obtain ⟨y, hy, -⟩ := provides_iff.mp hx
      exact absurd (List.ne_nil_of_mem hy) hp
  | [y]         => exact .ok
  | y :: z :: _ =>
    refine .error ⟨_, _, rfl, ?_⟩
    have hne : identify y ≠ identify z := by
      simp only [List.map_cons, List.nodup_cons, List.mem_cons, not_or] at hnodup
      exact hnodup.left.left
    exact .ambiguous hne (hmem.mpr ⟨y, by simp, rfl⟩) (hmem.mpr ⟨z, by simp, rfl⟩)

theorem resolved_of_candidates {y : ExtensionContract × Capability}
    (h : candidates contracts q = [y]) : ¬Unresolved contracts q := by
  refine not_not.mpr ⟨identify y, candidates_iff.mpr ⟨y, by simp [h], rfl⟩, fun x hx => ?_⟩
  obtain ⟨z, hz, rfl⟩ := candidates_iff.mp hx
  rw [h, List.mem_singleton] at hz
  rw [hz]

omit [LawfulPackaging] in
theorem Unbound.unresolved [Packaging] {code : PlanningErrorCode} (h : Unbound contracts q code) :
    Unresolved contracts q := by
  rintro ⟨z, ⟨hz, hr⟩, hu⟩
  cases h
  case missing h             => exact h z hz
  case incompatible h        => exact h z hz hr
  case ambiguous x y h hx hy => exact h <| (hu x hx).trans (hu y hy).symm

theorem resolveCapabilities_unbound (hw : ∀ c ∈ contracts, WellFormed c) (hn : (ids contracts).Nodup) :
    Raises (fun e => ∃ code d, e = .planning code d ∧ Unbinds contracts code)
      (resolveCapabilities contracts) := by
  refine .bind (.mapM fun c hc => .mapM fun q hq => ?_) fun _ _ => .ok
  refine (resolveRequirement_unbound hw hn <| (hw c hc).requires q hq).mono ?_
  rintro e ⟨code, d, rfl, hu⟩
  exact ⟨code, d, rfl, c, hc, q, hq, hu⟩

theorem resolveCapabilities_total (hw : ∀ c ∈ contracts, WellFormed c) (hn : (ids contracts).Nodup) :
    (∃ bs, resolveCapabilities contracts = .ok bs) ↔ ¬UnresolvedCapability contracts := by
  constructor
  · rintro ⟨bs, h⟩ ⟨c, hc, q, hq, hu⟩
    obtain ⟨found, hf, -⟩ := bind_ok.mp h
    obtain ⟨_, -, hf⟩ := target_of_mapM hf c hc
    obtain ⟨b, -, hr⟩ := target_of_mapM hf q hq
    obtain ⟨⟨y, hy, -⟩, -⟩ := resolveRequirement_ok hw ((hw c hc).requires q hq) hr
    exact resolved_of_candidates hy hu
  · intro h
    refine Raises.total <| (resolveCapabilities_unbound hw hn).mono ?_
    rintro e ⟨code, d, -, c, hc, q, hq, hu⟩
    exact h ⟨c, hc, q, hq, hu.unresolved⟩

end Requirements

section Order

variable [LawfulPackaging] {contracts : List ExtensionContract} {bindings : List CapabilityBinding}

theorem dependsOn_of_mem (hw : ∀ c ∈ contracts, WellFormed c)
    (hb : resolveCapabilities contracts = .ok bindings) {x y : Text} (h : y ∈ dependencies bindings x) :
    DependsOn contracts x y ∧ y ∈ ids contracts := by
  have ⟨hne, h⟩ := Finset.mem_erase.mp h
  obtain ⟨b, hm, rfl⟩ := List.mem_map.mp (List.mem_toFinset.mp h)
  have ⟨hm, hx⟩ := List.mem_filter.mp hm
  obtain ⟨c, hc, q, hq, z, hz, hp, hcons⟩ := source_of_resolve hw hb hm
  have hz : z ∈ candidates contracts q := by simp [hz]
  have hpr := candidates_iff.mpr ⟨z, hz, rfl⟩
  refine ⟨⟨hne.symm, c, hc, hcons.symm.trans (by simpa using hx), q, hq, z.2, ?_⟩, ?_⟩
  · rw [hp]
    exact hpr
  · rw [hp]
    exact List.mem_map_of_mem (mem_providers.mp <| List.mem_of_mem_filter hz).left

theorem orderContracts_total (hw : ∀ c ∈ contracts, WellFormed c) (hn : (ids contracts).Nodup)
    (hb : resolveCapabilities contracts = .ok bindings)
    (ha : ∀ x, ¬Relation.TransGen (DependsOn contracts) x x) :
    ∃ ordered, orderContracts contracts bindings = .ok ordered := by
  have hp : (Kahn.order (dependencies bindings) (ids contracts)).ordered.Perm (ids contracts) := by
    refine Kahn.order_perm hn (fun x _ y hy => (dependsOn_of_mem hw hb hy).right) fun x h => ha x ?_
    exact Relation.TransGen.mono (fun _ _ h => (dependsOn_of_mem hw hb h.right).left) _ _ h
  obtain ⟨ordered, ho⟩ := Raises.total <| .mapM fun x hx => byId_raises (hp.subset hx)
  refine ⟨ordered, require_seq.mpr ⟨?_, ho⟩⟩
  simpa [ids] using hp.length_eq

end Order

section Decide

variable [LawfulPackaging] {t : ContractTaxonomy} {contracts ns : List ExtensionContract}

-- The same contracts, but for their resources.
structure Alike (contracts ns : List ExtensionContract) : Prop where
  source : ∀ c' ∈ ns, ∃ c ∈ contracts, c' = { c with resources := c'.resources }
  target : ∀ c ∈ contracts, ∃ c' ∈ ns, c' = { c with resources := c'.resources }

omit [LawfulPackaging] in
theorem Alike.exists_iff (h : Alike contracts ns) {p : ExtensionContract → Prop}
    (hp : ∀ c rs, p { c with resources := rs } ↔ p c) : (∃ c ∈ ns, p c) ↔ ∃ c ∈ contracts, p c := by
  constructor
  · rintro ⟨c', hc', hpc⟩
    obtain ⟨c, hc, he⟩ := h.source c' hc'
    exact ⟨c, hc, (hp c _).mp (he ▸ hpc)⟩
  · rintro ⟨c, hc, hpc⟩
    obtain ⟨c', hc', he⟩ := h.target c hc
    exact ⟨c', hc', he ▸ (hp c _).mpr hpc⟩

omit [LawfulPackaging] in
theorem Alike.provides (h : Alike contracts ns) : Provides ns = Provides contracts :=
  funext₂ fun _ _ => propext <| and_congr_left' <| h.exists_iff fun _ _ => .rfl

theorem Alike.unresolved (h : Alike contracts ns) :
    UnresolvedCapability ns ↔ UnresolvedCapability contracts := by
  unfold UnresolvedCapability Unresolved
  rw [h.provides]
  exact h.exists_iff fun _ _ => .rfl

theorem Alike.unbinds (h : Alike contracts ns) {code : PlanningErrorCode} (hu : Unbinds ns code) :
    Unbinds contracts code := by
  obtain ⟨c', hc', q, hq, hu⟩ := hu
  obtain ⟨c, hc, he⟩ := h.source c' hc'
  refine ⟨c, hc, q, by rw [he] at hq; exact hq, ?_⟩
  cases hu <;> rw [h.provides] at *
  case missing h           => exact .missing h
  case incompatible h h'   => exact .incompatible h h'
  case ambiguous hne hx hy => exact .ambiguous hne hx hy

theorem Alike.dependsOn (h : Alike contracts ns) : DependsOn ns = DependsOn contracts := by
  unfold DependsOn
  rw [h.provides]
  exact funext₂ fun x y => propext <| and_congr_right' <| h.exists_iff fun _ _ => .rfl

omit [LawfulPackaging] in
theorem alike_of_normalize (h : contracts.mapM (normalizeContract t) = .ok ns) : Alike contracts ns where
  source c' hc' := by
    obtain ⟨c, hc, hn⟩ := source_of_mapM h c' hc'
    exact ⟨c, hc, (normalizeContract_ok hn).left⟩
  target c hc := by
    obtain ⟨c', hc', hn⟩ := target_of_mapM h c hc
    exact ⟨c', hc', (normalizeContract_ok hn).left⟩

variable {runtime : Text} {version : Packaging.Version}

-- Without a provider for every requirement the resources are not looked at.
theorem planNormalized_unbound (hw : ∀ c ∈ ns, WellFormed c) (hn : (ids ns).Nodup)
    (hg : validateObligationAuthority ns = .ok ()) (hu : UnresolvedCapability ns) :
    ∃ code, FailsWith code (planNormalized runtime version ns) ∧ Unbinds ns code := by
  match hr : resolveCapabilities ns with
  | .ok bs    => exact absurd hu <| (resolveCapabilities_total hw hn).mp ⟨bs, hr⟩
  | .error e  =>
    obtain ⟨code, d, rfl, hub⟩ := resolveCapabilities_unbound hw hn e hr
    have hf : FailsWith code (resolveCapabilities ns) := ⟨d, hr⟩
    exact ⟨code, .after hg hf.bind, hub⟩

-- With one, they decide.
theorem planNormalized_bound (hw : ∀ c ∈ ns, WellFormed c) (hn : (ids ns).Nodup)
    (hg : validateObligationAuthority ns = .ok ()) (hu : ¬UnresolvedCapability ns)
    (ha : ∀ x, ¬Relation.TransGen (DependsOn ns) x x) :
    ∃ f : List ResourceOwnership → ContractPlan, (∀ rs, (f rs).resourceOwnership = rs) ∧
      planNormalized runtime version ns = resolveResources ns >>= fun rs => .ok (f rs) := by
  obtain ⟨bindings, hb⟩ := (resolveCapabilities_total hw hn).mpr hu
  obtain ⟨ordered, ho⟩ := orderContracts_total hw hn hb ha
  obtain ⟨obligations, hob⟩ := (bindObligations_resolved (p := fun _ => False) hw hb).total
  refine ⟨fun rs => ⟨runtime, Packaging.versionStr version, ordered,
    sortedBy (fun b => [b.consumer, b.capability]) bindings, rs, obligations⟩, fun _ => rfl, ?_⟩
  unfold planNormalized
  rw [hg]
  simp only [hb, ho, hob, bind, Except.bind, pure, Except.pure]

variable {hostRuntime hostVersion : Text}

-- Of contracts that are admissible the taxonomy is left to decide, and then the plan.
theorem compileContracts_eq (h : Admissible contracts hostRuntime hostVersion) : ∃ version,
    compileContracts contracts hostRuntime hostVersion (some t) =
      normalizeTaxonomyResources t (sortedBy ExtensionContract.extensionId contracts) >>=
        planNormalized hostRuntime version := by
  obtain ⟨v, hv, hl, hc⟩ := h.host
  refine ⟨v, ?_⟩
  have hversion : publicVersion (.str hostVersion) "host_version".points = .ok (Packaging.versionStr v) := by
    refine bind_ok.mpr ⟨_, string_ok.mpr ⟨rfl, h.version⟩, ?_⟩
    simp only [hv]
    exact require_seq.mpr ⟨hl, rfl⟩
  have hhost : contracts.forM (checkHost hostRuntime v) = .ok () := by
    refine forM_ok.mpr fun c hm => ?_
    obtain ⟨hr, s, hs, hin⟩ := hc c hm
    exact require_seq.mpr ⟨hr, bind_ok.mpr ⟨s, orElse_ok.mpr hs, require_ok.mpr hin⟩⟩
  unfold compileContracts
  rw [require_ok (u := ()).mpr h.nonempty, string_ok.mpr ⟨rfl, h.runtime⟩, hversion]
  simp only [LawfulPackaging.version?_str, orElse, bind, Except.bind]
  rw [require_ok (u := ()).mpr h.distinct, hhost]
  rfl

-- The normalized contracts claim, require and grant what the contracts do.
structure Normalizes (t : ContractTaxonomy) (contracts ns : List ExtensionContract) : Prop where
  alike : Alike contracts ns
  summarizes : Summarizes t contracts ns
  wellFormed : ∀ c ∈ ns, WellFormed c
  distinct : (ids ns).Nodup
  granted : validateObligationAuthority ns = .ok ()

theorem normalizes_of_ok {sorted : List ExtensionContract} (hp : sorted.Perm contracts)
    (hw : ∀ c ∈ contracts, WellFormed c) (ha : Admissible contracts hostRuntime hostVersion)
    (h : sorted.mapM (normalizeContract t) = .ok ns) : Normalizes t contracts ns where
  alike := by
    have h := alike_of_normalize h
    exact ⟨by simpa only [hp.mem_iff] using h.source, by simpa only [hp.mem_iff] using h.target⟩
  summarizes := summarizes_of_normalize hp h
  wellFormed c' hc' := by
    obtain ⟨c, hc, hn⟩ := source_of_mapM h c' hc'
    exact (hw c (hp.subset hc)).normalize hn
  distinct := by
    have he : ids ns = ids sorted := map_of_mapM (fun c c' hn => by rw [(normalizeContract_ok hn).left]) h
    exact he ▸ (hp.map _).nodup_iff.mpr ha.distinct
  granted := by
    refine forM_ok.mpr fun c' hc' => forM_ok.mpr fun o ho => require_ok.mpr ?_
    obtain ⟨c, hc, hn⟩ := source_of_mapM h c' hc'
    rw [(normalizeContract_ok hn).left] at ho ⊢
    exact ha.granted c (hp.subset hc) o ho

-- The first of the conditions that holds anywhere in the set of contracts decides.
theorem compile_decides [ContentId] (hparsed : ∀ c ∈ contracts, Parsed c)
    (h : Admissible contracts hostRuntime hostVersion) :
    Decides t contracts (compileContracts contracts hostRuntime hostVersion (some t)) := by
  have hw : ∀ c ∈ contracts, WellFormed c := by
    intro c hc
    obtain ⟨_, h⟩ := hparsed c hc
    exact parseContract_ok h
  obtain ⟨version, he⟩ := compileContracts_eq (t := t) h
  rw [he]
  clear he
  have hsorted := sortedBy_perm ExtensionContract.extensionId contracts
  generalize sortedBy ExtensionContract.extensionId contracts = sorted at hsorted
  generalize hr : normalizeTaxonomyResources t sorted >>= planNormalized hostRuntime version = r
  have hunknown : unknown t sorted = [] ↔ ¬UnknownResource t contracts := by
    rw [unknown_iff, UnknownResource, UnknownResource]
    simp only [hsorted.mem_iff]
  have hinvalid : invalidModes t sorted = [] ↔ ¬InvalidMode t contracts := by
    rw [invalidModes_iff, InvalidMode, InvalidMode]
    simp only [hsorted.mem_iff]
  have unknown (hu : UnknownResource t contracts) : FailsWith .unknownResource r :=
    hr ▸ (refuseLeast_fails fun hn => hunknown.mp hn hu).bind.bind
  have mode (hu : ¬UnknownResource t contracts) (hm : InvalidMode t contracts) :
      FailsWith .invalidResourceMode r := by
    refine hr ▸ FailsWith.bind (.after (a := ()) (refuseLeast_ok.mpr <| hunknown.mpr hu) ?_)
    exact (refuseLeast_fails fun hn => hinvalid.mp hn hm).bind
  have normalized (hu : ¬UnknownResource t contracts) (hm : ¬InvalidMode t contracts) :
      ∃ ns, Normalizes t contracts ns ∧ r = planNormalized hostRuntime version ns := by
    have hu := hunknown.mpr hu
    obtain ⟨ns, hns⟩ := (normalizeContracts_raises (p := fun _ => False) hu).total
    have hok := normalizeTaxonomyResources_ok.mpr ⟨hu, hinvalid.mpr hm, hns⟩
    exact ⟨ns, normalizes_of_ok hsorted hw h hns, by rw [← hr, hok]; rfl⟩
  have capability (hu : ¬UnknownResource t contracts) (hm : ¬InvalidMode t contracts)
      (hc : UnresolvedCapability contracts) : ∃ code, FailsWith code r ∧ Unbinds contracts code := by
    obtain ⟨ns, hn, rfl⟩ := normalized hu hm
    obtain ⟨code, hf, hub⟩ : ∃ code,
        FailsWith code (planNormalized hostRuntime version ns) ∧ Unbinds ns code :=
      planNormalized_unbound hn.wellFormed hn.distinct hn.granted (hn.alike.unresolved.mpr hc)
    exact ⟨code, hf, hn.alike.unbinds hub⟩
  have bound (hu : ¬UnknownResource t contracts) (hm : ¬InvalidMode t contracts)
      (hc : ¬UnresolvedCapability contracts) : ∃ ns, Summarizes t contracts ns ∧
        ∃ f : List ResourceOwnership → ContractPlan, (∀ rs, (f rs).resourceOwnership = rs) ∧
          r = resolveResources ns >>= fun rs => .ok (f rs) := by
    obtain ⟨ns, hn, rfl⟩ := normalized hu hm
    refine ⟨ns, hn.summarizes, planNormalized_bound hn.wellFormed hn.distinct hn.granted
      (hn.alike.unresolved.not.mpr hc) ?_⟩
    exact hn.alike.dependsOn ▸ h.acyclic hc
  have conflict (hu : ¬UnknownResource t contracts) (hm : ¬InvalidMode t contracts)
      (hc : ¬UnresolvedCapability contracts) (hx : ResourceConflict t contracts) :
      FailsWith .resourceConflict r := by
    obtain ⟨ns, hs, f, -, rfl⟩ := bound hu hm hc
    exact (resolveResources_conflict <| hs.conflict_iff.mp hx).bind
  have peaceful {ns : List ExtensionContract} (hs : Summarizes t contracts ns)
      (hx : ¬ResourceConflict t contracts) : ∀ s ∈ summaries ns, ¬s.ModeError ∧ ¬s.ConsistencyError :=
    fun s hs' => not_or.mp fun he => hx <| hs.conflict_iff.mpr ⟨s, hs', he⟩
  have mediator (hu : ¬UnknownResource t contracts) (hm : ¬InvalidMode t contracts)
      (hc : ¬UnresolvedCapability contracts) (hx : ¬ResourceConflict t contracts)
      (hp : MissingMediator t contracts) : FailsWith .authorityViolation r := by
    obtain ⟨ns, hs, f, -, rfl⟩ := bound hu hm hc
    have hno := peaceful hs hx
    exact (resolveResources_presence hno <| (hs.missing_iff hno).mp hp).bind
  have returns (hu : ¬UnknownResource t contracts) (hm : ¬InvalidMode t contracts)
      (hc : ¬UnresolvedCapability contracts) (hx : ¬ResourceConflict t contracts)
      (hp : ¬MissingMediator t contracts) : ∃ ns, Summarizes t contracts ns ∧
        ∃ p, r = .ok p ∧ p.resourceOwnership = (summaries ns).map Summary.ownership := by
    obtain ⟨ns, hs, f, hf, rfl⟩ := bound hu hm hc
    have hno := peaceful hs hx
    have hok := resolveResources_ok.mpr ⟨hno,
      fun s hs' he => hp <| (hs.missing_iff hno).mpr ⟨s, hs', he⟩, rfl⟩
    exact ⟨ns, hs, _, by rw [hok]; rfl, hf _⟩
  have fails {code : PlanningErrorCode} {p : ContractPlan} (hp : r = .ok p) : ¬FailsWith code r := by
    rintro ⟨_, hf⟩
    cases hf.symm.trans hp
  have innocent {p : ContractPlan} (hp : r = .ok p) : ¬UnknownResource t contracts ∧
      ¬InvalidMode t contracts ∧ ¬UnresolvedCapability contracts ∧ ¬ResourceConflict t contracts ∧
        ¬MissingMediator t contracts := by
    have hu : ¬UnknownResource t contracts := fun hu => fails hp (unknown hu)
    have hm : ¬InvalidMode t contracts := fun hm => fails hp (mode hu hm)
    have hc : ¬UnresolvedCapability contracts := by
      intro hc
      obtain ⟨_, hf, _⟩ := capability hu hm hc
      exact fails hp hf
    have hx : ¬ResourceConflict t contracts := fun hx => fails hp (conflict hu hm hc hx)
    exact ⟨hu, hm, hc, hx, fun hn => fails hp (mediator hu hm hc hx hn)⟩
  refine ⟨unknown, mode, capability, conflict, mediator, ⟨?_, ?_⟩, ?_⟩
  · rintro ⟨p, hp⟩
    exact innocent hp
  · rintro ⟨hu, hm, hc, hx, hp⟩
    obtain ⟨_, -, p, hp, -⟩ := returns hu hm hc hx hp
    exact ⟨p, hp⟩
  · intro p hp n x hstake
    obtain ⟨hu, hm, hc, hx, hmed⟩ := innocent hp
    obtain ⟨ns, hs, p', hp', hown⟩ := returns hu hm hc hx hmed
    cases hp.symm.trans hp'
    exact hown ▸ hs.owners (peaceful hs hx) hstake

end Decide

namespace Sample

theorem computed_fields :
    (∀ c ∈ [contract consumer, contract provider],
      c.hostRuntime = "vllm".points ∧ c.hostVersionRange = ">=1.0".points) ∧
    (∀ c ∈ [contract consumer, contract provider], ∀ o ∈ c.processObligations,
      o.expected ∈ c.authority.grants o.authority) ∧
    (∀ c ∈ [contract consumer, contract provider], ∀ q ∈ c.requires,
      c.extensionId = "org.consumer".points ∧ q.name = "kv.store".points) ∧
    (∀ c ∈ [contract consumer, contract provider], ∀ p ∈ c.provides,
      p.name = "kv.store".points → c.extensionId = "org.provider".points) := by
  decide +kernel

-- The consumer depends on the provider, and on nothing else.
theorem admissible : Admissible [contract consumer, contract provider] "vllm".points "1.0".points where
  nonempty := by simp
  distinct := computed.right.right.right
  runtime := by decide
  version := by decide
  host := by
    obtain ⟨hr, -⟩ := computed_fields
    refine ⟨false, rfl, rfl, fun c hc => ⟨(hr c hc).left, false, ?_, rfl⟩⟩
    rw [(hr c hc).right]
    rfl
  granted := computed_fields.right.left
  acyclic _ x h := by
    have ends {x y : Text} (h : DependsOn [contract consumer, contract provider] x y) :
        x = "org.consumer".points ∧ y = "org.provider".points := by
      obtain ⟨-, -, hreq, hprov⟩ := computed_fields
      obtain ⟨-, c, hc, rfl, q, hq, p, ⟨⟨c', hc', rfl, hp⟩, hn⟩, -⟩ := h
      have ⟨hx, hq⟩ := hreq c hc q hq
      exact ⟨hx, hprov c' hc' p hp (hn.trans hq)⟩
    obtain ⟨_, h, -⟩ := Relation.TransGen.head'_iff.mp h
    obtain ⟨_, -, h'⟩ := Relation.TransGen.tail'_iff.mp ‹Relation.TransGen _ x x›
    exact absurd ((ends h).left.symm.trans (ends h').right) (by decide)

end Sample

open Sample in
theorem compile_decides_of_consumer :
    Decides taxonomy [contract consumer, contract provider]
      (compileContracts [contract consumer, contract provider] "vllm".points "1.0".points taxonomy) := by
  exact compile_decides parsed admissible

end Compiler
