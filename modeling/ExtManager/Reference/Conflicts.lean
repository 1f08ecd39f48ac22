import ExtManager.Codec.Assoc
import ExtManager.Codec.Fallible
import ExtManager.Order.Seating
import ExtManager.Reference.Basic

open Crash Fallible Seating

namespace ReferenceModel

def shared (claim : ResourceClaim) : Bool :=
  claim.mode ≠ "exclusive"

-- Claims that do not stand against each other on a resource.
abbrev Agree : ResourceClaim → ResourceClaim → Prop :=
  Beside (·.owner) shared

def on (uri : String) (claims : List ResourceClaim) : List ResourceClaim :=
  members (·.uri) uri claims

def record (normalized : List (String × ResourceClaim)) (claim : ResourceClaim) :
    Except Exc (List (String × ResourceClaim)) :=
  match normalized.lookup claim.uri with
  | some prior =>
    if (prior.mode = "exclusive" ∨ claim.mode = "exclusive") ∧ prior.owner ≠ claim.owner then
      .error (.contract .resourceConflict (claim.uri ++ ": " ++ prior.owner ++ " vs " ++ claim.owner))
    else
      .ok (normalized.map fun (u, c) => if u = claim.uri then (u, claim) else (u, c))
  | none => .ok (normalized ++ [(claim.uri, claim)])

section Normalize

variable {claim prior c d : ResourceClaim} {claims claims' : List ResourceClaim}
  {normalized normalized' : List (String × ResourceClaim)} {uri : String}

theorem agrees_iff :
    Agree prior claim ↔ ¬((prior.mode = "exclusive" ∨ claim.mode = "exclusive") ∧
      prior.owner ≠ claim.owner) := by
  simp only [Agree, Beside, shared, ne_eq, decide_not, Bool.not_eq_true', decide_eq_false_iff_not]
  tauto

theorem lookup_replace {k : String} :
    (normalized.map fun (u, c) => if u = uri then (u, claim) else (u, c)).lookup k =
      if k = uri then (normalized.lookup k).map fun _ => claim else normalized.lookup k := by
  induction normalized with
  | nil          => simp
  | cons x xs ih =>
    obtain ⟨u, c⟩ := x
    rw [List.map_cons, List.lookup_cons, List.lookup_cons, ih]
    by_cases hu : u = uri
    case pos => by_cases hk : k = uri <;> simp [hu, hk, beq_false_of_ne]
    case neg => by_cases hk : k = u <;> simp [hu, hk, beq_false_of_ne]

theorem record_ok (h : record normalized claim = .ok normalized') (k : String) :
    normalized'.lookup k = if k = claim.uri then some claim else normalized.lookup k := by
  unfold record at h
  split at h
  case h_1 prior hp =>
    split at h
    case isTrue  => cases h
    case isFalse =>
      cases h
      rw [lookup_replace]
      split
      case isTrue he => rw [he, hp, Option.map_some]
      case isFalse   => rfl
  case h_2 hp =>
    cases h
    rw [List.lookup_append]
    split
    case isTrue he  => simp [he, hp]
    case isFalse he => simp [List.lookup_cons, beq_false_of_ne he]

theorem record_latest : KeepsLatest record (fun normalized uri => normalized.lookup uri)
    (·.uri) id Agree where
  ok normalized claim := by
    unfold record
    cases normalized.lookup claim.uri
    case none       => simp
    case some prior =>
      simp only [Option.some.injEq, forall_eq', id_eq, agrees_iff]
      split
      case isTrue h  => simp [h]
      case isFalse h => simp [h]
  get _ _ _ k h := record_ok h k

theorem normalize_eq [Lower] (hc : canonicalUri claim.uri "resource" = .ok claim.uri) :
    normalize normalized claim = record normalized claim := by
  rw [normalize, hc]
  rfl

theorem foldlM_normalize [Lower] (hc : ∀ c ∈ claims, canonicalUri c.uri "resource" = .ok c.uri) :
    claims.foldlM normalize normalized = claims.foldlM record normalized := by
  induction claims generalizing normalized with
  | nil             => rfl
  | cons c claims ih =>
    have ⟨hc, hcs⟩ := List.forall_mem_cons.mp hc
    rw [List.foldlM_cons, List.foldlM_cons, normalize_eq hc]
    exact congrArg _ (funext fun _ => ih hcs)

-- No conflict is seen iff neighbours among the claims on a resource agree.
theorem normalized_iff : (∃ n, claims.foldlM record [] = .ok n) ↔
    ∀ uri, (on uri claims).IsChain Agree := by
  rw [record_latest.chain]
  refine forall_congr' fun uri => ?_
  rw [KeepsLatest.under, List.map_id]
  rfl

theorem normalized_lookup (h : claims.foldlM record [] = .ok normalized) (uri : String) :
    normalized.lookup uri = (on uri claims).getLast? := by
  have hl := record_latest.latest h uri
  rw [KeepsLatest.under, List.map_id] at hl
  exact hl.trans Option.or_none

-- Every claim stands once, under its own resource.
structure Filed (normalized : List (String × ResourceClaim)) : Prop where
  keys : (normalized.map (·.1)).Nodup
  uris : ∀ x ∈ normalized, x.2.uri = x.1

theorem Filed.record (h : Filed normalized) (hr : record normalized claim = .ok normalized') :
    Filed normalized' := by
  unfold ReferenceModel.record at hr
  split at hr
  case h_1 prior hp =>
    split at hr
    case isTrue  => cases hr
    case isFalse =>
      cases hr
      refine ⟨?_, List.forall_mem_map.mpr fun x hx => ?_⟩
      · have hkeys : (normalized.map fun (u, c) => if u = claim.uri then (u, claim) else (u, c)).map
            (·.1) = normalized.map (·.1) := by
          rw [List.map_map]
          refine List.map_congr_left fun x _ => ?_
          dsimp only [Function.comp_apply]
          split <;> rfl
        rw [hkeys]
        exact h.keys
      · dsimp only
        split
        case isTrue he => exact he.symm
        case isFalse   => exact h.uris x hx
  case h_2 hp =>
    cases hr
    have hnew : claim.uri ∉ normalized.map (·.1) := by
      intro hm
      have ⟨x, hx, he⟩ := List.mem_map.mp hm
      exact absurd (List.lookup_eq_none_iff.mp hp x hx) (by simp [he])
    refine ⟨?_, List.forall_mem_append.mpr ⟨h.uris, List.forall_mem_singleton.mpr rfl⟩⟩
    rw [List.map_append, List.map_singleton]
    exact (List.nodup_append_comm.mp (List.nodup_cons.mpr ⟨hnew, h.keys⟩))

theorem filed (h : claims.foldlM record [] = .ok normalized) : Filed normalized := by
  have hempty : Filed [] := ⟨.nil, nofun⟩
  exact @foldlM_ok _ _ _ _ [] _ _ _ (fun _ n => Filed n) (fun _ _ _ _ h hr => h.record hr) hempty h

-- The claims that stand in the plan are the last ones on their resources.
theorem mem_normalized (h : claims.foldlM record [] = .ok normalized) :
    c ∈ normalized.map (·.2) ↔ (on c.uri claims).getLast? = some c := by
  have hp := filed h
  rw [← normalized_lookup h]
  constructor
  · intro hm
    obtain ⟨⟨u, c⟩, hx, rfl⟩ := List.mem_map.mp hm
    obtain rfl : c.uri = u := hp.uris _ hx
    exact Assoc.lookup_of_nodup hp.keys hx
  · intro hl
    exact List.mem_map.mpr ⟨_, Assoc.mem_of_lookup hl, rfl⟩

theorem record_error {e : Exc}
    (h : record normalized claim = .error e) : ∃ detail, e = .contract .resourceConflict detail := by
  unfold record at h
  split at h
  case h_1 =>
    split at h
    case isTrue  =>
      cases h
      exact ⟨_, rfl⟩
    case isFalse => cases h
  case h_2 => cases h

theorem foldlM_record_error {e : Exc} (h : claims.foldlM record [] = .error e) :
    ∃ detail, e = .contract .resourceConflict detail := by
  have ⟨_, _, _, _, _, _, he⟩ := foldlM_error_iff.mp h
  exact record_error he

end Normalize

-- Two owners of a resource, one of them exclusive.
def Conflict (c d : ResourceClaim) : Prop :=
  c.uri = d.uri ∧ c.owner ≠ d.owner ∧ (c.mode = "exclusive" ∨ d.mode = "exclusive")

-- How planning ends: well, or with the code of an error.
def outcome : Except Exc Plan → Except (Option ErrorCode) Unit
  | .ok _                     => .ok ()
  | .error (.contract code _) => .error (some code)
  | .error _                  => .error none

-- What is asked of the planning with some claims.
structure Detects (planning : List ResourceClaim → Except Exc Plan) (claims : List ResourceClaim) :
    Prop where
  known    : outcome (planning claims) = .ok () ∨
    outcome (planning claims) = .error (some .resourceConflict)
  exact    : outcome (planning claims) = .ok () ↔ ∀ c ∈ claims, ∀ d ∈ claims, ¬Conflict c d
  anyOrder : ∀ claims', List.Perm claims' claims →
    outcome (planning claims') = outcome (planning claims)
  present  : ∀ plan, planning claims = .ok plan → ∀ c ∈ claims, c ∈ plan.claims

-- The claims on a resource can be read in an order that shows no conflict: all of them have one
-- owner, or every owner shares the resource and no more than two of those that claim it exclusively
-- share it once only.
def Concealable (claims : List ResourceClaim) : Prop :=
  (∀ c ∈ claims, ∀ d ∈ claims, c.owner = d.owner) ∨
    (∀ c ∈ claims, ∃ d ∈ claims, d.owner = c.owner ∧ shared d) ∧
      ∃ a b, ∀ owner, Lone (·.owner) shared claims owner → owner = a ∨ owner = b

section Planning

variable {claims claims' : List ResourceClaim}

theorem concealable_iff : Concealable claims ↔ ∃ l, List.Perm l claims ∧ l.IsChain Agree :=
  seat_iff.symm

theorem on_perm {uri : String} (h : List.Perm claims' claims) : (on uri claims').Perm (on uri claims) :=
  h.filter _

theorem mem_on {c : ResourceClaim} {uri : String} : c ∈ on uri claims ↔ c ∈ claims ∧ c.uri = uri := by
  simp [on, mem_members]

-- The claims are in an order that shows no conflict.
def Passes (claims : List ResourceClaim) : Prop :=
  ∀ uri, (on uri claims).IsChain Agree

-- An order for each of the resources makes one for all of them.
theorem exists_passes (h : ∀ uri, Concealable (on uri claims)) :
    ∃ claims', List.Perm claims' claims ∧ Passes claims' := by
  have hrow (uri : String) := concealable_iff.mp (h uri)
  choose row hp hc using hrow
  let uris := (claims.map (·.uri)).dedup
  have hmem : ∀ c ∈ claims, c.uri ∈ uris := fun c hc => List.mem_dedup.mpr (List.mem_map_of_mem hc)
  have hn : uris.Nodup := List.nodup_dedup _
  have huri (uri : String) : ∀ c ∈ row uri, c.uri = uri :=
    fun c hc => (mem_on.mp ((hp uri).mem_iff.mp hc)).right
  refine ⟨uris.flatMap row, ?_, fun uri => ?_⟩
  · exact (List.Perm.flatMap_left uris fun uri _ => hp uri).trans (flatMap_members hn hmem)
  · rw [on, members_flatMap hn huri]
    split
    case isTrue  => exact hc uri
    case isFalse => exact .nil

theorem passes_of_agree (h : ∀ c ∈ claims, ∀ d ∈ claims, c.uri = d.uri → Agree c d) :
    Passes claims := by
  intro uri
  refine (List.pairwise_of_forall_mem_list fun c hc d hd => ?_).isChain
  have ⟨hc, hcu⟩ := mem_on.mp hc
  have ⟨hd, hdu⟩ := mem_on.mp hd
  exact h c hc d hd (hcu.trans hdu.symm)

theorem agree_of_not_conflict {c d : ResourceClaim} (h : ¬Conflict c d) (hu : c.uri = d.uri) :
    Agree c d :=
  agrees_iff.mpr fun ⟨hm, ho⟩ => h ⟨hu, ho, hm⟩

variable [Sha256] [Lower] {m : ReferenceModel} {plugins : List PluginIdentity}
  {host : HostCompatibility} {obligations : List EvidenceObligation}
  {predecessor : PredecessorSnapshot} {fallbackProven : Bool}

theorem makePlan_value (hm : m.state = .resolved) :
    (makePlan plugins host claims obligations predecessor fallbackProven m).value =
      (claims.foldlM normalize []).map fun normalized =>
        ⟨plugins, host, normalized.map (·.2), obligations, predecessor, fallbackProven⟩ := by
  unfold makePlan
  cases claims.foldlM normalize []
  all_goals
    simp [Bind.bind, Prog.bind, Pure.pure, Prog.pure, require, Prog.read, Prog.raiseIf, Prog.silent,
      Prog.lift, Prog.modify, append, setState, hm, Except.map]

-- Planning ends well iff the claims show no conflict in their order.
theorem planning_cases (hm : m.state = .resolved)
    (hc : ∀ c ∈ claims, canonicalUri c.uri "resource" = .ok c.uri) :
    (Passes claims ∧ ∃ plan,
      (makePlan plugins host claims obligations predecessor fallbackProven m).value = .ok plan ∧
        ∀ c, c ∈ plan.claims ↔ (on c.uri claims).getLast? = some c) ∨
    (¬Passes claims ∧
      outcome (makePlan plugins host claims obligations predecessor fallbackProven m).value =
        .error (some .resourceConflict)) := by
  rw [makePlan_value hm, foldlM_normalize hc]
  cases hr : claims.foldlM record []
  case ok normalized => exact .inl ⟨normalized_iff.mp ⟨_, hr⟩, _, rfl, fun _ => mem_normalized hr⟩
  case error e       =>
    obtain ⟨detail, rfl⟩ := foldlM_record_error hr
    refine .inr ⟨fun h => ?_, rfl⟩
    have ⟨_, hn⟩ := normalized_iff.mpr h
    rw [hr] at hn
    cases hn

end Planning

-- Planning detects every conflict in any order iff the claims on a resource are the same claim, or
-- there is a resource whose claims show a conflict in every order.
theorem detects_iff [Sha256] [Lower] (m : ReferenceModel) (hm : m.state = .resolved)
    (plugins : List PluginIdentity) (host : HostCompatibility) (claims : List ResourceClaim)
    (hc : ∀ c ∈ claims, canonicalUri c.uri "resource" = .ok c.uri)
    (obligations : List EvidenceObligation) (predecessor : PredecessorSnapshot)
    (fallbackProven : Bool) :
    Detects (fun claims =>
        (makePlan plugins host claims obligations predecessor fallbackProven m).value) claims ↔
      (∀ c ∈ claims, ∀ d ∈ claims, c.uri = d.uri → c = d) ∨
        ∃ uri, ¬Concealable (on uri claims) := by
  have hplan {claims'} (hp : List.Perm claims' claims) :=
    @planning_cases claims' _ _ m plugins host obligations predecessor fallbackProven hm
      fun c h => hc c (hp.mem_iff.mp h)
  have hok {claims'} (hp : List.Perm claims' claims) : outcome (makePlan plugins host claims'
      obligations predecessor fallbackProven m).value = .ok () ↔ Passes claims' := by
    rcases hplan hp with ⟨h, plan, hv, _⟩ | ⟨h, he⟩
    · simp [hv, outcome, h]
    · simp [he, h]
  have hfail {claims'} (hp : List.Perm claims' claims) (hno : ¬Passes claims') : outcome (makePlan
      plugins host claims' obligations predecessor fallbackProven m).value =
        .error (some .resourceConflict) :=
    (hplan hp).elim (fun h => absurd h.left hno) (·.right)
  constructor
  · intro h
    rcases hplan (.refl _) with ⟨_, plan, hv, hmem⟩ | ⟨hno, _⟩
    · refine .inl fun c hc d hd hu => ?_
      have hc := (hmem c).mp (h.present plan hv c hc)
      have hd := (hmem d).mp (h.present plan hv d hd)
      rw [hu, hd] at hc
      exact (Option.some.inj hc).symm
    · refine .inr (by_contra fun hall => hno ?_)
      have ⟨claims', hp, hpass⟩ := exists_passes fun uri => not_not.mp fun h => hall ⟨uri, h⟩
      exact (hok (.refl _)).mp ((h.anyOrder claims' hp).symm.trans ((hok hp).mpr hpass))
  · rintro (hsame | ⟨uri, hno⟩)
    · have hpass {claims'} (hp : List.Perm claims' claims) : Passes claims' :=
        passes_of_agree fun c hc d hd hu =>
          .inl (congrArg _ (hsame c (hp.mem_iff.mp hc) d (hp.mem_iff.mp hd) hu))
      have hend := (hok (.refl _)).mpr (hpass (.refl _))
      refine ⟨.inl hend, iff_of_true hend fun c hc d hd h => ?_, fun claims' hp => ?_, ?_⟩
      · exact h.right.left (congrArg _ (hsame c hc d hd h.left))
      · exact ((hok hp).mpr (hpass hp)).trans hend.symm
      · intro plan hv c hc
        rcases hplan (.refl _) with ⟨_, plan', hv', hmem⟩ | ⟨_, he⟩
        · obtain rfl : plan' = plan := Except.ok.inj (hv'.symm.trans hv)
          have hne : on c.uri claims ≠ [] := List.ne_nil_of_mem (mem_on.mpr ⟨hc, rfl⟩)
          have ⟨hd, hu⟩ := mem_on.mp (List.getLast_mem hne)
          rw [hmem, List.getLast?_eq_some_getLast hne, hsame _ hd c hc hu]
        · rw [hv] at he
          cases he
    · have hfails {claims'} (hp : List.Perm claims' claims) : ¬Passes claims' :=
        fun h => hno (concealable_iff.mpr ⟨_, on_perm hp, h uri⟩)
      have hend := hfail (.refl _) (hfails (.refl _))
      refine ⟨.inr hend, ?_, fun claims' hp => (hfail hp (hfails hp)).trans hend.symm, ?_⟩
      · refine iff_of_false (fun h => hfails (.refl _) ((hok (.refl _)).mp h)) fun h => ?_
        exact hfails (.refl _) (passes_of_agree fun c hc d hd => agree_of_not_conflict (h c hc d hd))
      · intro plan hv
        rw [hv] at hend
        cases hend

end ReferenceModel

namespace ReferenceModel.Sample

def uri : String :=
  "urn:ecpa:resource:gpu-0"

def observer : ResourceClaim :=
  ⟨uri, "plugin:a", "shared"⟩

def owner : ResourceClaim :=
  ⟨uri, "plugin:b", "exclusive"⟩

def host : HostCompatibility where
  runtime  := "python"
  version  := "3.12"
  provider := "vllm"
  abi      := "cp312"

def plan (claims : List ResourceClaim) : Plan :=
  ⟨[], host, claims, [], ⟨0, none, .obj []⟩, false⟩

-- The digests of the plans below.
def digests : List (Json × String) :=
  [((plan [observer]).asdict, "c429e72812f851d175d425fddb785974abd5ee7f923f34bc8595912c7e32e413"),
    ((plan [owner]).asdict, "5cc975b2df0384fe8e25fc93aef5f2bc94e595eb8aaabe0c2d0cb3f9583ab0f4")]

scoped instance : Sha256 where
  canonical value := (digests.lookup value).getD ""
  ascii value     := (digests.lookup value).getD ""

scoped instance : Lower where
  lower value := value.toLower

def resolved : ReferenceModel :=
  { ReferenceModel.new 0 with state := .resolved }

def planning (claims : List ResourceClaim) : Except Exc Plan :=
  (makePlan [] host claims [] ⟨0, none, .obj []⟩ false resolved).value

theorem canonical : canonicalUri uri "resource" = .ok uri := by
  have h : ¬(¬uri.startsWith ("urn:ecpa:" ++ "resource" ++ ":") ∨ Lower.lower uri ≠ uri ∨
      ' ' ∈ uri.toList) := by
    decide +kernel
  exact if_neg h

theorem detects_of_observer : Detects planning [observer, observer] :=
  (detects_iff resolved rfl [] host [observer, observer] (by simpa [observer] using canonical) []
    ⟨0, none, .obj []⟩ false).mpr (.inl (by simp))

-- Between the observer and the exclusive owner stands a claim of that owner that is shared.
def concealed : List ResourceClaim :=
  [observer, { owner with mode := "shared" }, owner]

theorem not_detects : (∀ c ∈ concealed, canonicalUri c.uri "resource" = .ok c.uri) ∧
    ¬Detects planning concealed := by
  refine ⟨by simpa [concealed, observer, owner] using canonical, fun h => ?_⟩
  have hv : (planning concealed).toOption.isSome := by decide +kernel
  have hok : outcome (planning concealed) = .ok () := by
    cases hp : planning concealed
    case ok      => rfl
    case error e => simp [hp, Except.toOption] at hv
  exact h.exact.mp hok observer (by simp [concealed]) owner (by simp [concealed])
    ⟨rfl, by decide, .inr rfl⟩

end ReferenceModel.Sample
