import Mathlib.Data.List.Chain
import ExtManager.Coordinator.Basic
import ExtManager.Reference.Conflicts

open Crash Prog Relation

namespace State

-- `TRANSITIONS` behind the start over `Resolved`.
def successors : State → List State
  | intent   => resolved :: intent.transitions
  | resolved => [planned]
  | s        => s.transitions

-- There is a path of the table from one state to the other.
def Leads : State → State → Prop :=
  ReflTransGen fun s s' => s' ∈ s.successors

-- The states of the model between two calls which a path leaves, and those which none does.

def resting : State → Bool
  | intent | resolved | planned | prepared | observing | effective | reconcile => true
  | _                                                                         => false

def ended : State → Bool
  | rolledBack | failedSafe => true
  | _                       => false

variable {s s' : State}

theorem not_resting_of_ended (h : s.ended) : ¬s.resting := by
  cases s
  case rolledBack | failedSafe => decide
  all_goals cases h

theorem ended_iff : s.ended ↔ s = failedSafe ∨ s = rolledBack := by
  cases s <;> decide

theorem Leads.of_chain (via : List State)
    (h : List.IsChain (fun s s' => s' ∈ s.successors) (s :: (via ++ [s']))) : Leads s s' :=
  List.relationReflTransGen_of_exists_isChain_cons (via ++ [s']) h (by simp)

theorem leads_of_ended (he : s.ended) : Leads s s' ↔ s' = s := by
  have hnone : s.successors = [] := by
    cases s
    case rolledBack | failedSafe => rfl
    all_goals cases he
  constructor
  · intro h
    cases h.cases_head
    case inl h => exact h.symm
    case inr h =>
      have ⟨_, hm, _⟩ := h
      exact absurd (hnone ▸ hm) List.not_mem_nil
  · rintro rfl
    exact .refl

theorem leads_reconcile (h : s.resting) : Leads s reconcile := by
  cases s
  case intent    => exact .of_chain [planned, preparing] (by decide)
  case resolved  => exact .of_chain [planned, preparing] (by decide)
  case planned   => exact .of_chain [preparing] (by decide)
  case prepared  => exact .of_chain [launching] (by decide)
  case observing => exact .of_chain [] (by decide)
  case effective => exact .of_chain [degraded] (by decide)
  case reconcile => exact .refl
  all_goals cases h

theorem leads_ended (h : s.resting) (he : s'.ended) : Leads s s' := by
  refine (leads_reconcile h).trans ?_
  cases s'
  case rolledBack => exact Leads.of_chain [rollback] (by decide)
  case failedSafe => exact Leads.of_chain [] (by decide)
  all_goals cases he

end State

namespace ReferenceModel

-- A call of the model, with its arguments.
inductive Op
  | resolve (registrations : List String) (expectedNamespace : String)
  | makePlan (plugins : List PluginIdentity) (host : HostCompatibility)
      (claims : List ResourceClaim) (obligations : List EvidenceObligation)
      (predecessor : PredecessorSnapshot) (fallbackProven : Bool)
  | prepare
  | launch (launchId : String) (inventory : List ProcessIdentity)
  | attest (item : Attestation) (now : Int)
  | commit (expected : Int)
  | externalLeaseLost
  | rollback (reason : String) (succeeds : Bool)
  | recoverAfterCrash

variable [Sha256] [Lower]

def Op.call : Op → M Unit
  | resolve registrations expectedNamespace =>
    ReferenceModel.resolve registrations expectedNamespace
  | makePlan plugins host claims obligations predecessor fallbackProven =>
    void (ReferenceModel.makePlan plugins host claims obligations predecessor fallbackProven)
  | prepare                                 => ReferenceModel.prepare
  | launch launchId inventory               => ReferenceModel.launch launchId inventory
  | attest item now                         => ReferenceModel.attest item now
  | commit expected                         => void (ReferenceModel.commit expected)
  | externalLeaseLost                       => ReferenceModel.externalLeaseLost
  | rollback reason succeeds                => ReferenceModel.rollback reason succeeds
  | recoverAfterCrash                       => ReferenceModel.recoverAfterCrash

-- The model after the call, whether it returns or raises.
def after (m : ReferenceModel) (op : Op) : ReferenceModel :=
  (op.call m).state

-- The change of the state is a path of the table, and what has ended stays.
structure Follow (m m' : ReferenceModel) : Prop where
  path : m.state.Leads m'.state
  kept : m.state.ended → m'.state = m.state

def Follows : ReferenceModel → List Op → Prop
  | _, []        => True
  | m, op :: ops => Follow m (m.after op) ∧ Follows (m.after op) ops

-- The calls that do not test the state, where it has ended and they do not happen to set it again.
def Leaves (m : ReferenceModel) : Op → Prop
  | .externalLeaseLost   =>
    m.state = .failedSafe ∨ m.state = .rolledBack ∧ ∃ plan, m.plan = some plan ∧ plan.fallbackProven
  | .rollback _ succeeds =>
    m.state = .failedSafe ∧ succeeds = true ∨ m.state = .rolledBack ∧ succeeds = false
  | .recoverAfterCrash   => m.state = .failedSafe ∨ m.state = .rolledBack
  | _                    => False

def Careful : ReferenceModel → List Op → Prop
  | _, []        => True
  | m, op :: ops => ¬m.Leaves op ∧ Careful (m.after op) ops

-- A call that tests the state goes from `s` to `s'`, or leaves the state as it is.
structure Moves (s s' : State) (m m' : ReferenceModel) : Prop where
  state : m'.state = m.state ∨ m.state = s ∧ m'.state = s'
  plan  : m.plan.isSome → m'.plan.isSome

section Calls

variable {m m' : ReferenceModel} {s s' : State} {states : List State} {α : Type} {op : Op}
variable {Q : Except Exc α → ReferenceModel → Prop} {D : ReferenceModel → Prop}

omit [Sha256] [Lower]

theorem Moves.refl : Moves s s' m m :=
  ⟨.inl rfl, id⟩

theorem wp_require_seq {k : Unit → M α} (hr : ∀ e, Q (.error e) m)
    (hk : m.state ∈ states → wp (k ()) Q D m) : wp (require states >>= k) Q D m := by
  simp only [require, wp_bind, wp_read]
  by_cases h : m.state ∈ states
  case pos => simpa [raiseIf, h] using hk h
  case neg => simpa [raiseIf, h] using hr _

theorem wp_getPlan_seq {k : Plan → M α} (hr : ∀ e, m.plan = none → Q (.error e) m)
    (hk : ∀ plan, m.plan = some plan → wp (k plan) Q D m) : wp (getPlan >>= k) Q D m := by
  cases h : m.plan
  case none      => simpa [getPlan, h] using hr _ h
  case some plan => simpa [getPlan, h] using hk plan h

theorem resolve_moves {registrations : List String} {expectedNamespace : String} :
    wp (resolve registrations expectedNamespace) (fun _ m' => Moves .intent .resolved m m')
      (fun _ => True) m := by
  refine wp_require_seq (fun _ => .refl) fun hs => ?_
  refine wp_raiseIf_seq (fun _ => .refl) fun _ => wp_raiseIf_seq (fun _ => .refl) fun _ => ?_
  simpa [setState] using ⟨.inr ⟨List.mem_singleton.mp hs, rfl⟩, id⟩

theorem attest_moves [Sha256] {item : Attestation} {now : Int} :
    wp (attest item now) (fun _ m' => Moves .observing .observing m m') (fun _ => True) m := by
  refine wp_require_seq (fun _ => .refl) fun _ => ?_
  refine wp_getPlan_seq (fun _ _ => .refl) fun _ _ => wp_raiseIf_seq (fun _ => .refl) fun _ => ?_
  refine wp_read_seq <| wp_raiseIf_seq (fun _ => .refl) fun _ => ?_
  refine wp_raiseIf_seq (fun _ => .refl) fun _ => wp_raiseIf_seq (fun _ => .refl) fun _ => ?_
  simpa [append] using ⟨.inl rfl, id⟩

theorem makePlan_moves [Sha256] [Lower] {plugins : List PluginIdentity} {host : HostCompatibility}
    {claims : List ResourceClaim} {obligations : List EvidenceObligation}
    {predecessor : PredecessorSnapshot} {fallbackProven : Bool} :
    wp (makePlan plugins host claims obligations predecessor fallbackProven)
      (fun _ m' => Moves .resolved .planned m m') (fun _ => True) m := by
  refine wp_require_seq (fun _ => .refl) fun hs => wp_lift_seq (fun _ _ => ?_) fun _ _ => .refl
  simpa [setState, append] using ⟨.inr ⟨List.mem_singleton.mp hs, rfl⟩, fun _ => rfl⟩

theorem prepare_moves [Sha256] :
    wp prepare (fun _ m' => Moves .planned .prepared m m') (fun _ => True) m := by
  refine wp_require_seq (fun _ => .refl) fun hs => wp_getPlan_seq (fun _ _ => .refl) fun _ _ => ?_
  simpa [setState, append] using ⟨.inr ⟨List.mem_singleton.mp hs, rfl⟩, id⟩

theorem launch_moves {launchId : String} {inventory : List ProcessIdentity} :
    wp (launch launchId inventory) (fun _ m' => Moves .prepared .observing m m')
      (fun _ => True) m := by
  refine wp_require_seq (fun _ => .refl) fun hs => wp_getPlan_seq (fun _ _ => .refl) fun _ _ => ?_
  simpa [setState, append] using ⟨.inr ⟨List.mem_singleton.mp hs, rfl⟩, id⟩

theorem commit_moves {expected : Int} :
    wp (commit expected) (fun _ m' => Moves .observing .effective m m') (fun _ => True) m := by
  refine wp_require_seq (fun _ => .refl) fun hs => wp_getPlan_seq (fun _ _ => .refl) fun _ _ => ?_
  refine wp_read_seq <| wp_raiseIf_seq (fun _ => .refl) fun _ => ?_
  refine wp_raiseIf_seq (fun _ => .refl) fun _ => ?_
  simpa [setState, append] using ⟨.inr ⟨List.mem_singleton.mp hs, rfl⟩, id⟩

-- The calls that test no state. Two of them need a plan.

-- The state a call comes to, where there is a plan.
structure Ends (s : Plan → State) (m m' : ReferenceModel) : Prop where
  plan  : m'.plan = m.plan
  state : m'.state = (m.plan.map s).getD m.state

theorem rollback_ends {reason : String} {succeeds : Bool} :
    wp (rollback reason succeeds)
      (fun _ m' => Ends (fun _ => if succeeds then .rolledBack else .failedSafe) m m')
      (fun _ => True) m := by
  refine wp_getPlan_seq (fun _ h => ⟨rfl, by simp [h]⟩) fun plan h => ?_
  cases succeeds
  all_goals simpa [setState, append] using ⟨rfl, by simp [h]⟩

theorem externalLeaseLost_ends :
    wp externalLeaseLost
      (fun _ m' => Ends (fun plan => if plan.fallbackProven then .reconcile else .rolledBack) m m')
      (fun _ => True) m := by
  refine wp_getPlan_seq (fun _ h => ⟨rfl, by simp [h]⟩) fun plan h => ?_
  by_cases hf : plan.fallbackProven
  case pos => simpa [setState, hf] using ⟨rfl, by simp [h, hf]⟩
  case neg =>
    simp only [setState, hf, wp_bind, wp_modify]
    refine wp_mono rollback_ends (fun _ m' hm => ?_) fun _ h => h
    exact ⟨hm.plan, by simpa [h, hf] using hm.state⟩

theorem recoverAfterCrash_state : (recoverAfterCrash m).state.state = .reconcile ∧
    (recoverAfterCrash m).state.plan = m.plan :=
  ⟨rfl, rfl⟩

end Calls

-- Between two calls the model is at rest, and it has ended only with a plan.
structure Rested (m : ReferenceModel) : Prop where
  state : m.state.resting ∨ m.state.ended
  plan  : m.state.ended → m.plan.isSome

section Runs

variable {m m' : ReferenceModel} {s s' : State} {op : Op} {ops : List Op}

omit [Sha256] [Lower]

theorem Moves.follow (hm : Moves s s' m m') (h : Rested m) (hs : s.resting) (hs' : s'.resting)
    (hl : s.Leads s') : Rested m' ∧ Follow m m' := by
  rcases hm.state with he | ⟨rfl, he⟩
  · exact ⟨⟨he ▸ h.state, fun hd => hm.plan (h.plan (he ▸ hd))⟩, he ▸ .refl, fun _ => he⟩
  · refine ⟨⟨.inl (he ▸ hs'), fun hd => ?_⟩, he ▸ hl, fun hd => ?_⟩
    · exact absurd (he ▸ hs') (State.not_resting_of_ended hd)
    · exact absurd hs (State.not_resting_of_ended hd)

-- From a state at rest a path leads to where the other calls may go.
theorem follow_iff (h : Rested m) (ht : m'.state = .reconcile ∨ m'.state.ended) :
    Follow m m' ↔ (m.state.ended → m'.state = m.state) := by
  refine ⟨Follow.kept, fun hk => ⟨?_, hk⟩⟩
  rcases h.state with hr | he
  · rcases ht with ht | ht
    · exact ht ▸ State.leads_reconcile hr
    · exact State.leads_ended hr ht
  · exact (State.leads_of_ended he).mpr (hk he)

theorem Ends.follow {t : Plan → State} (he : Ends t m m') (h : Rested m)
    (ht : ∀ plan, t plan = .reconcile ∨ (t plan).ended) : Rested m' ∧
      (Follow m m' ↔ ∀ plan, m.plan = some plan → m.state.ended → t plan = m.state) := by
  cases hp : m.plan
  case none =>
    have hs : m'.state = m.state := by simpa [hp] using he.state
    refine ⟨⟨hs ▸ h.state, fun hd => he.plan ▸ h.plan (hs ▸ hd)⟩, ?_⟩
    exact iff_of_true ⟨hs ▸ .refl, fun _ => hs⟩ nofun
  case some plan =>
    have hs : m'.state = t plan := by simpa [hp] using he.state
    refine ⟨⟨?_, fun _ => by simp [he.plan, hp]⟩, ?_⟩
    · rw [hs]
      exact (ht plan).imp (fun h => by rw [h]; rfl) id
    · rw [follow_iff h (hs ▸ ht plan), hs]
      simp

theorem Leaves.ended (h : m.Leaves op) : m.state.ended := by
  refine State.ended_iff.mpr ?_
  cases op
  case externalLeaseLost => exact h.imp id And.left
  case rollback          => exact h.imp And.left And.left
  case recoverAfterCrash => exact h
  all_goals cases h

-- The calls that need no state leave what has ended iff there is a plan and they lead elsewhere.
theorem Ends.after_follow {t : Plan → State} (he : Ends t m m') (h : Rested m)
    (ht : ∀ plan, t plan = .reconcile ∨ (t plan).ended)
    (hl : ∀ plan, m.plan = some plan → m.state.ended → (t plan = m.state ↔ ¬m.Leaves op)) :
    Rested m' ∧ (Follow m m' ↔ ¬m.Leaves op) := by
  have ⟨hr, hf⟩ := he.follow h ht
  refine ⟨hr, hf.trans ?_⟩
  by_cases hd : m.state.ended
  case neg => exact iff_of_true (fun _ _ hd' => absurd hd' hd) fun hl => hd hl.ended
  case pos =>
    have ⟨plan, hp⟩ := Option.isSome_iff_exists.mp (h.plan hd)
    rw [← hl plan hp hd]
    exact ⟨fun h => h plan hp hd, fun h plan' hp' _ => Option.some.inj (hp.symm.trans hp') ▸ h⟩

theorem after_follow [Sha256] [Lower] (h : Rested m) (op : Op) :
    Rested (m.after op) ∧ (Follow m (m.after op) ↔ ¬m.Leaves op) := by
  have moves {s s' : State} (hm : Moves s s' m (m.after op)) (hs : s.resting) (hs' : s'.resting)
      (hl : s.Leads s') (ho : ¬m.Leaves op) :
      Rested (m.after op) ∧ (Follow m (m.after op) ↔ ¬m.Leaves op) :=
    have ⟨hr, hf⟩ := hm.follow h hs hs' hl
    ⟨hr, iff_of_true hf ho⟩
  cases op
  case resolve  => exact moves resolve_moves.right rfl rfl (.of_chain [] (by decide)) nofun
  case makePlan =>
    exact moves (wp_void makePlan_moves).right rfl rfl (.of_chain [] (by decide)) nofun
  case prepare  =>
    exact moves prepare_moves.right rfl rfl (.of_chain [.preparing] (by decide)) nofun
  case launch   =>
    exact moves launch_moves.right rfl rfl (.of_chain [.launching] (by decide)) nofun
  case attest   => exact moves attest_moves.right rfl rfl .refl nofun
  case commit   =>
    exact moves (wp_void commit_moves).right rfl rfl (.of_chain [.commitReady] (by decide)) nofun
  case externalLeaseLost =>
    refine externalLeaseLost_ends.right.after_follow h (fun plan => ?_) fun plan hp hd => ?_
    · cases plan.fallbackProven
      case true  => exact .inl rfl
      case false => exact .inr rfl
    · rcases State.ended_iff.mp hd with hs | hs
      all_goals cases hf : plan.fallbackProven <;> simp [Leaves, hs, hp, hf]
  case rollback reason succeeds =>
    refine rollback_ends.right.after_follow h (fun plan => ?_) fun plan _ hd => ?_
    · cases succeeds
      all_goals exact .inr rfl
    · rcases State.ended_iff.mp hd with hs | hs
      all_goals cases succeeds <;> simp [Leaves, hs]
  case recoverAfterCrash =>
    have hs : (m.after .recoverAfterCrash).state = .reconcile := recoverAfterCrash_state.left
    refine ⟨⟨.inl (hs ▸ rfl), fun hd => absurd (hs ▸ hd) (by decide)⟩, ?_⟩
    rw [follow_iff h (.inl hs), hs, Leaves, ← State.ended_iff]
    exact forall_congr' fun hd => iff_false_intro fun he => State.not_resting_of_ended hd (he ▸ rfl)

theorem rested_new (generation : Int) : Rested (new generation) :=
  ⟨.inl rfl, nofun⟩

theorem follows_of_rested [Sha256] [Lower] (h : Rested m) : Follows m ops ↔ Careful m ops := by
  induction ops generalizing m
  case nil            => rfl
  case cons op ops ih =>
    have ⟨hr, hf⟩ := after_follow h op
    exact and_congr hf (ih hr)

end Runs

-- A run of calls follows the table iff no call in it leaves what has ended.
theorem follows_iff (generation : Int) (ops : List Op) :
    Follows (new generation) ops ↔ Careful (new generation) ops :=
  follows_of_rested (rested_new generation)

end ReferenceModel

namespace ReferenceModel.Sample

-- A plan is rolled back, and then the manager recovers.
def drill : List Op :=
  [.resolve ["vllm"] "vllm", .makePlan [] host [observer] [] ⟨0, none, .obj []⟩ false,
    .rollback "drill" true, .recoverAfterCrash]

theorem not_follows : ¬Follows (new 0) drill := by
  intro ⟨_, _, _, h, _⟩
  have hs : ((drill.take 3).foldl after (new 0)).state = .rolledBack := by decide +kernel
  replace h : Follow ((drill.take 3).foldl after (new 0)) _ := h
  have hk := h.kept (hs ▸ rfl)
  rw [hs] at hk
  cases hk

end ReferenceModel.Sample
