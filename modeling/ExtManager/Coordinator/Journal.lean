import ExtManager.Coordinator.Cas
import ExtManager.Coordinator.Evidence
import Mathlib.Data.List.Chain

open Crash Prog Relation

def State.all : List State :=
  [intent, resolved, planned, preparing, prepared, launching, observing, commitReady, effective,
    degraded, reconcile, rollback, rolledBack, failedSafe, safetyUnknown]

-- `State(value)`.
def State.ofValue? (value : String) : Option State :=
  State.all.find? (·.value = value)

theorem State.ofValue?_value {s : State} : State.ofValue? s.value = some s := by
  cases s <;> decide

-- The rollback of a plan has begun, or the plan has come to an end.
def State.ending : State → Bool
  | rollback | rolledBack | failedSafe | safetyUnknown => true
  | _                                                  => false

-- The states before the launch of a plan.
def State.unlaunched : State → Bool
  | planned | preparing | prepared => true
  | _                              => false

theorem State.eq_preparing_of_prepared {s : State} (h : .prepared ∈ s.transitions) :
    s = .preparing := by
  revert h
  cases s <;> simp [transitions]

theorem State.eq_commitReady_of_effective {s : State} (h : .effective ∈ s.transitions) :
    s = .commitReady := by
  revert h
  cases s <;> simp [transitions]

namespace JournalRow

def isWal (operation : String) (r : JournalRow) : Bool :=
  r.kind = .wal ∧ r.operation = operation

def isReceipt (operation : String) (r : JournalRow) : Bool :=
  r.kind = .receipt ∧ r.operation = operation

-- The row announces the launch with this id.
def launches (launchId : Option String) (r : JournalRow) : Prop :=
  r.isWal "launch" ∧ ∃ id, launchId = some id ∧ r.detail = .obj [("launch_id", .str id)]

-- The state that a transition row leads to. The first one of a plan is named after the operation.
def target? (r : JournalRow) : Option State :=
  if r.operation = "plan" then some .planned else State.ofValue? r.operation

@[simp]
theorem kind_moved {planId : String} {s target : State} :
    (moved planId s target).kind = .transition :=
  rfl

@[simp]
theorem target?_moved {planId : String} {s target : State} :
    (moved planId s target).target? = some target := by
  have hne : target.value ≠ "plan" := by cases target <;> decide
  rw [target?, moved, if_neg hne, State.ofValue?_value]

-- Every row with `p` has an older one with `q`. The newest row is the first.
def Preceded (p q : JournalRow → Prop) : List JournalRow → Prop
  | []         => True
  | r :: older => (p r → ∃ r' ∈ older, q r') ∧ Preceded p q older

variable {p q : JournalRow → Prop} {new rows : List JournalRow}

theorem Preceded.append (h : Preceded p q rows) (hn : ∀ r ∈ new, p r → ∃ r' ∈ rows, q r') :
    Preceded p q (new ++ rows) := by
  induction new
  case nil => exact h
  case cons r new hi =>
    refine ⟨fun hp => ?_, hi fun r' hm => hn r' (List.mem_cons_of_mem _ hm)⟩
    have ⟨r', hm, hq⟩ := hn r List.mem_cons_self hp
    exact ⟨r', List.mem_append_right _ hm, hq⟩

theorem Preceded.of_none (h : ∀ r ∈ rows, ¬p r) : Preceded p q rows := by
  induction rows
  case nil => trivial
  case cons r rows hi =>
    exact ⟨fun hp => absurd hp (h r List.mem_cons_self),
      hi fun r' hm => h r' (List.mem_cons_of_mem _ hm)⟩

-- The states that a plan has gone through, in the order of the journal.
def trail (rows : List JournalRow) : List (Option State) :=
  ((rows.filter (·.kind = .transition)).map target?).reverse

theorem trail_append : trail (new ++ rows) = trail rows ++ trail new := by
  simp [trail]

@[simp]
theorem trail_nil : trail [] = [] :=
  rfl

theorem trail_cons {r : JournalRow} :
    trail (r :: rows) = trail rows ++ if r.kind = .transition then [r.target?] else [] := by
  by_cases h : r.kind = .transition <;> simp [trail, h]

-- A row that neither moves the plan nor belongs to one of the effects of its life cycle.
structure Quiet (r : JournalRow) : Prop where
  transition : r.kind ≠ .transition
  wal        : r.kind ≠ .wal
  receipt    : ∀ o ∈ ["prepare", "launch", "commit"], ¬r.isReceipt o

-- The journal of one plan together with the state and the launch that it has come to: one
-- transaction after the other.
inductive Story (planId : String) : State → Option String → List JournalRow → Prop
  | plan : Story planId .planned none
      [⟨planId, .transition, "plan", .obj [("state", .str "Planned")]⟩]
  | note {s launchId r rows} : Story planId s launchId rows → Quiet r →
      Story planId s launchId ([r] ++ rows)
  | move {s target launchId new rows} : Story planId s launchId rows → target ∈ s.transitions →
      Moved planId s target new → Story planId target launchId (new ++ rows)
  | launch {launchId id rows} : Story planId .prepared launchId rows →
      Story planId .launching (some id)
        ([⟨planId, .wal, "launch", .obj [("launch_id", .str id)]⟩,
          moved planId .prepared .launching] ++ rows)
  | launched {launchId count rows} : Story planId .launching launchId rows →
      Story planId .observing launchId
        ([moved planId .launching .observing,
          ⟨planId, .receipt, "launch", .obj [("count", .int count)]⟩] ++ rows)
  | commit {s launchId id «from» rows} : Story planId s launchId rows →
      .commitReady ∈ s.transitions → launchId = some id → (∀ r ∈ rows, ¬r.isCommit) →
      Story planId .commitReady launchId
        ([⟨planId, .wal, "commit", .obj [("from", .int «from»)]⟩,
          moved planId s .commitReady] ++ rows)

section Moved

variable {planId : String} {s target : State} {r : JournalRow} {o : String}

theorem Moved.trail_eq (h : Moved planId s target new) : trail new = [some target] := by
  cases h
  all_goals simp [trail_cons]

theorem Moved.countP_wal (h : Moved planId s target new) : new.countP (·.isWal o) =
    if target = .preparing ∧ o = "prepare" ∨ target = .rollback ∧ o = "rollback" then 1 else 0 := by
  cases h
  case bare ht | recovered ht =>
    have hp : target ≠ .preparing := by rintro rfl; contradiction
    have hr : target ≠ .rollback := by rintro rfl; contradiction
    simp [isWal, moved, hp, hr]
  all_goals simp [isWal, moved, List.countP_cons, eq_comm]

theorem Moved.no_wal (h : Moved planId s target new) (hp : o ≠ "prepare") (hr : o ≠ "rollback") :
    ∀ r ∈ new, ¬r.isWal o := by
  refine List.countP_eq_zero.mp ?_
  simp [h.countP_wal, hp, hr]

-- The receipts of `prepare` and `commit` are written where their states are left.
theorem Moved.receipt (h : Moved planId s target new) (hm : r ∈ new) (hr : r.isReceipt o)
    (ho : o ∈ ["prepare", "launch", "commit"]) :
    o = "prepare" ∧ target = .prepared ∨ o = "commit" ∧ target = .effective := by
  cases h
  all_goals
    simp only [List.mem_cons, List.not_mem_nil, or_false] at hm
    rcases hm with rfl | rfl <;> simp [isReceipt, moved] at hr
  case prepared  => exact .inl ⟨hr.symm, rfl⟩
  case effective => exact .inr ⟨hr.symm, rfl⟩
  all_goals simp [← hr] at ho

theorem Moved.acknowledges (h : Moved planId s .prepared new) :
    ∃ r ∈ new, r.isReceipt "prepare" := by
  cases h
  case bare | recovered => contradiction
  case prepared => exact ⟨_, List.mem_cons_of_mem _ List.mem_cons_self, by simp [isReceipt]⟩

end Moved

namespace Story

variable {planId : String} {s : State} {launchId : Option String} {r : JournalRow}

-- The transitions of a plan are a path of the table from `Planned` to where it is.
theorem path (h : Story planId s launchId rows) : ∃ path : List State,
    trail rows = path.map some ∧ path.head? = some .planned ∧
      path.IsChain (fun s t => t ∈ s.transitions) ∧ path.getLast? = some s := by
  have hstep {s target : State} {new rows : List JournalRow} (ht : target ∈ s.transitions)
      (hn : trail new = [some target])
      (hi : ∃ path : List State, trail rows = path.map some ∧ path.head? = some .planned ∧
        path.IsChain (fun s t => t ∈ s.transitions) ∧ path.getLast? = some s) :
      ∃ path : List State, trail (new ++ rows) = path.map some ∧ path.head? = some .planned ∧
        path.IsChain (fun s t => t ∈ s.transitions) ∧ path.getLast? = some target := by
    have ⟨path, he, hh, hc, hl⟩ := hi
    refine ⟨path ++ [target], by simp [trail_append, he, hn], by simp [hh], ?_, by simp⟩
    refine List.isChain_append.mpr ⟨hc, by simp, fun a ha b hb => ?_⟩
    rw [hl, Option.mem_some_iff] at ha
    rw [List.head?_cons, Option.mem_some_iff] at hb
    exact ha ▸ hb ▸ ht
  induction h
  case plan => exact ⟨[.planned], by simp [trail_cons, target?], rfl, by simp, rfl⟩
  case note r _ _ hq hi =>
    simpa [trail_cons, hq.transition] using hi
  case move ht hm hi => exact hstep ht hm.trail_eq hi
  case launch hi =>
    exact hstep (by simp [State.transitions]) (by simp [trail_cons]) hi
  case launched hi =>
    exact hstep (by simp [State.transitions]) (by simp [trail_cons]) hi
  case commit ht _ _ hi => exact hstep ht (by simp [trail_cons]) hi

theorem ne_intent (h : Story planId s launchId rows) : s ≠ .intent := by
  induction h
  case note hi => exact hi
  case move s _ _ _ _ _ ht _ _ =>
    rintro rfl
    revert ht
    cases s <;> simp [State.transitions]
  all_goals simp

theorem launchId_eq (h : Story planId s launchId rows) (hs : s.unlaunched) : launchId = none := by
  induction h
  case plan       => rfl
  case note hi    => exact hi hs
  case move s target _ _ _ h ht _ hi =>
    refine hi ?_
    have := h.ne_intent
    revert hs ht this
    cases s <;> cases target <;> simp [State.transitions, State.unlaunched]
  all_goals contradiction

theorem countP_prepare (h : Story planId s launchId rows) :
    rows.countP (·.isWal "prepare") = if s = .planned then 0 else 1 := by
  induction h
  case plan            => rfl
  case note r _ _ hq _ => simp_all [isWal, hq.wal]
  case move s target _ _ _ h ht hm hi =>
    rw [List.countP_append, hi, hm.countP_wal]
    have := h.ne_intent
    revert ht this
    cases s <;> cases target <;> simp [State.transitions]
  case commit s _ _ _ _ _ ht _ _ hi =>
    have hs : s ≠ .planned := by rintro rfl; simp [State.transitions] at ht
    simpa [List.countP_cons, isWal, moved, hs] using hi
  all_goals simp_all [isWal, moved]

theorem countP_launch (h : Story planId s launchId rows) :
    rows.countP (·.isWal "launch") = if launchId = none then 0 else 1 := by
  induction h
  case plan                => rfl
  case note r _ _ hq _     => simp_all [isWal, hq.wal]
  case move hm hi          => simp [List.countP_append, hi, hm.countP_wal]
  case launch h hi         =>
    rw [List.countP_append, hi, h.launchId_eq rfl]
    rfl
  case launched | commit   => simp_all [isWal, moved]

theorem countP_rollback (h : Story planId s launchId rows) :
    rows.countP (·.isWal "rollback") ≤ 1 ∧
      (s.ending = false → rows.countP (·.isWal "rollback") = 0) := by
  have hsame {new rows : List JournalRow} (hn : ∀ r ∈ new, ¬r.isWal "rollback") :
      (new ++ rows).countP (·.isWal "rollback") = rows.countP (·.isWal "rollback") := by
    rw [List.countP_append, List.countP_eq_zero.mpr hn, Nat.zero_add]
  induction h
  case plan => simp [isWal]
  case note hq hi =>
    rw [hsame (by simp [isWal, hq.wal])]
    exact hi
  case move s target _ new rows _ ht hm hi =>
    rw [List.countP_append, hm.countP_wal]
    generalize rows.countP (·.isWal "rollback") = k at hi
    have hs : target = .rollback → s.ending = false := by
      rintro rfl
      revert ht
      cases s <;> simp [State.transitions, State.ending]
    have hk : target.ending = false → s.ending = false := by
      revert ht
      cases s <;> cases target <;> simp [State.transitions, State.ending]
    by_cases he : target = .rollback
    case pos => simp [he, hi.right (hs he), State.ending]
    case neg => simpa [he] using ⟨hi.left, fun ht => hi.right (hk ht)⟩
  case launch hi =>
    rw [hsame (by simp [isWal, moved]), hi.right rfl]
    simp
  case launched hi =>
    rw [hsame (by simp [isWal, moved]), hi.right rfl]
    simp
  case commit s _ _ _ _ _ ht _ _ hi =>
    have hs : s.ending = false := by
      revert ht
      cases s <;> simp [State.transitions, State.ending]
    rw [hsame (by simp [isWal, moved]), hi.right hs]
    simp

theorem countP_commit (h : Story planId s launchId rows) :
    rows.countP (·.isWal "commit") ≤ 1 := by
  induction h
  case plan                   => simp [isWal]
  case note r _ _ hq hi       => simpa [isWal, hq.wal] using hi
  case move hm hi             => simpa [List.countP_append, hm.countP_wal] using hi
  case launch hi              => simpa [isWal, moved] using hi
  case launched hi            => simpa [isWal, moved] using hi
  case commit rows _ _ _ hn _ =>
    have hz : rows.countP (·.isWal "commit") = 0 := List.countP_eq_zero.mpr hn
    rw [List.countP_append, hz]
    simp [isWal, moved]

theorem once (h : Story planId s launchId rows) {o : String}
    (ho : o ∈ ["prepare", "launch", "commit", "rollback"]) : rows.countP (·.isWal o) ≤ 1 := by
  simp only [List.mem_cons, List.not_mem_nil, or_false] at ho
  rcases ho with rfl | rfl | rfl | rfl
  · rw [h.countP_prepare]
    split <;> simp
  · rw [h.countP_launch]
    split <;> simp
  · exact h.countP_commit
  · exact h.countP_rollback.left

-- An effect that waits for its receipt has been announced.
theorem wal_of_preparing (h : Story planId .preparing launchId rows) :
    ∃ r ∈ rows, r.isWal "prepare" := by
  have hpos : 0 < rows.countP (·.isWal "prepare") := by simp [h.countP_prepare]
  simpa using List.countP_pos_iff.mp hpos

theorem launched_of_some {id : String} (h : Story planId s launchId rows) (hl : launchId = some id) :
    ∃ r ∈ rows, r.launches launchId := by
  induction h
  case plan => contradiction
  case launch id' _ _ _ =>
    exact ⟨_, List.mem_append_left _ List.mem_cons_self, by simp [isWal], id', rfl, rfl⟩
  case note hi | move hi | launched hi | commit hi =>
    have ⟨r, hm, hr⟩ := hi hl
    exact ⟨r, List.mem_append_right _ hm, hr⟩

theorem wal_of_launching (h : Story planId s launchId rows) (hs : s = .launching) :
    ∃ id, launchId = some id := by
  induction h
  case note hi => exact hi hs
  case move s _ _ _ _ _ ht hm _ =>
    subst hs
    cases hm
    all_goals contradiction
  case launch id _ _ _ => exact ⟨id, rfl⟩
  all_goals contradiction

theorem wal_of_commitReady (h : Story planId s launchId rows) (hs : s = .commitReady) :
    ∃ r ∈ rows, r.isWal "commit" := by
  induction h
  case note hi =>
    have ⟨r, hm, hr⟩ := hi hs
    exact ⟨r, List.mem_append_right _ hm, hr⟩
  case move hm _ =>
    subst hs
    cases hm
    all_goals contradiction
  case commit => exact ⟨_, List.mem_append_left _ List.mem_cons_self, by simp [isWal]⟩
  all_goals contradiction

theorem receipt_of_prepared (h : Story planId s launchId rows) (hs : s = .prepared) :
    ∃ r ∈ rows, r.isReceipt "prepare" := by
  induction h
  case note hi =>
    have ⟨r, hm, hr⟩ := hi hs
    exact ⟨r, List.mem_append_right _ hm, hr⟩
  case move hm _ =>
    subst hs
    have ⟨r, hm, hr⟩ := hm.acknowledges
    exact ⟨r, List.mem_append_left _ hm, hr⟩
  all_goals contradiction

theorem receipts (h : Story planId s launchId rows) {o : String}
    (ho : o ∈ ["prepare", "launch", "commit"]) :
    Preceded (·.isReceipt o) (·.isWal o) rows := by
  induction h
  case plan         => exact .of_none (by simp [isReceipt])
  case note hq hi   => exact hi.append (by simpa using fun hr => absurd hr (hq.receipt o ho))
  case move h ht hm hi =>
    refine hi.append fun r hr hrec => ?_
    rcases hm.receipt hr hrec ho with ⟨rfl, rfl⟩ | ⟨rfl, rfl⟩
    · have hs := State.eq_preparing_of_prepared ht
      exact wal_of_preparing (hs ▸ h)
    · exact h.wal_of_commitReady (State.eq_commitReady_of_effective ht)
  case launch hi    => exact hi.append (by simp [isReceipt, moved])
  case launched h hi =>
    refine hi.append fun r hr hrec => ?_
    simp only [List.mem_cons, List.not_mem_nil, or_false] at hr
    rcases hr with rfl | rfl
    · simp [isReceipt, moved] at hrec
    · simp only [isReceipt, true_and, decide_eq_true_eq] at hrec
      have ⟨_, hl⟩ := h.wal_of_launching rfl
      have ⟨r, hm, hr⟩ := h.launched_of_some hl
      exact ⟨r, hm, hrec ▸ hr.left⟩
  case commit hi    => exact hi.append (by simp [isReceipt, moved])

-- No launch without the receipt of the preparation.
theorem launch_prepared (h : Story planId s launchId rows) :
    Preceded (·.isWal "launch") (·.isReceipt "prepare") rows := by
  induction h
  case plan       => exact .of_none (by simp [isWal])
  case note hq hi => exact hi.append (by simp [isWal, hq.wal])
  case move hm hi =>
    exact hi.append fun r hr hw => absurd hw (hm.no_wal (by simp) (by simp) r hr)
  case launch h hi => exact hi.append fun _ _ _ => h.receipt_of_prepared rfl
  case launched hi => exact hi.append (by simp [isWal, moved])
  case commit hi   => exact hi.append (by simp [isWal, moved])

theorem no_commit (h : Story planId s launchId rows) (hl : launchId = none) :
    ∀ r ∈ rows, ¬r.isWal "commit" := by
  induction h
  case plan => simp [isWal]
  case note hq hi => simpa [isWal, hq.wal] using hi hl
  case move hm hi =>
    intro r hr
    rcases List.mem_append.mp hr with hr | hr
    · exact hm.no_wal (by simp) (by simp) r hr
    · exact hi hl r hr
  case launch      => contradiction
  case launched hi => simpa [isWal, moved] using hi hl
  case commit he _ _ => simp [hl] at he

-- No commit without the launch that the activation has on record.
theorem commit_launched (h : Story planId s launchId rows) :
    Preceded (·.isWal "commit") (·.launches launchId) rows := by
  induction h
  case plan       => exact .of_none (by simp [isWal])
  case note hq hi => exact hi.append (by simp [isWal, hq.wal])
  case move hm hi =>
    exact hi.append fun r hr hw => absurd hw (hm.no_wal (by simp) (by simp) r hr)
  case launch h _ =>
    have hn := h.no_commit (h.launchId_eq rfl)
    exact .append (.of_none hn) (by simp [isWal, moved])
  case launched hi => exact hi.append (by simp [isWal, moved])
  case commit h _ hl _ hi => exact hi.append fun _ _ _ => h.launched_of_some hl

end Story

end JournalRow

namespace Store

open JournalRow

variable {s s' : Store} {planId : String} {a b : Activation} {new : List JournalRow}

-- The journal of one plan.
def rowsOf (s : Store) (planId : String) : List JournalRow :=
  s.journal.filter (·.planId = planId)

def Stories (s : Store) : Prop :=
  ∀ id a, s.activation id = some a → Story id a.state a.launchId (s.rowsOf id)

theorem rowsOf_append (hj : s'.journal = new ++ s.journal) (hn : ∀ r ∈ new, r.planId = planId)
    {id : String} : s'.rowsOf id = if id = planId then new ++ s.rowsOf id else s.rowsOf id := by
  rw [rowsOf, hj, List.filter_append]
  by_cases he : id = planId
  case pos =>
    rw [if_pos he, List.filter_eq_self.mpr fun r hm => by simp [hn r hm, he]]
    rfl
  case neg =>
    have hnone : new.filter (·.planId = id) = [] :=
      List.filter_eq_nil_iff.mpr fun r hm => by simpa [hn r hm] using Ne.symm he
    rw [if_neg he, hnone]
    rfl

-- A transaction that tells the story of one plan on leaves the others alone.
theorem Stories.change (h : s.Stories) (new : List JournalRow)
    (ha : s'.activation = fun id => if id = planId then some b else s.activation id)
    (hj : s'.journal = new ++ s.journal) (hn : ∀ r ∈ new, r.planId = planId)
    (hs : Story planId b.state b.launchId (new ++ s.rowsOf planId)) : s'.Stories := by
  intro id a' ha'
  rw [rowsOf_append hj hn]
  rw [ha] at ha'
  by_cases he : id = planId
  case pos =>
    simp only [he, if_true, Option.some.injEq] at ha'
    subst ha'
    simpa [he] using hs
  case neg =>
    simp only [if_neg he] at ha'
    simpa [he] using h id a' ha'

theorem Stories.note {r : JournalRow} (h : s.Stories) (ha : s.activation planId = some a)
    (ha' : s'.activation = s.activation) (hj : s'.journal = r :: s.journal)
    (hid : r.planId = planId) (hq : Quiet r) : s'.Stories :=
  h.change [r] (ha'.trans (activation_self ha)) hj (by simpa using hid) (.note (h _ _ ha) hq)

theorem Stories.insert [Sha256] {plan : Plan} (h : s.Stories) (hi : s.Inv)
    (hs : s.insert plan = .ok s') : s'.Stories := by
  have ⟨hn, he⟩ := insert_ok_iff.mp hs
  have hnone : s.rowsOf plan.planId = [] := by
    refine List.filter_eq_nil_iff.mpr fun r hm hid => ?_
    have := hi.journal r hm
    rw [of_decide_eq_true hid, hn] at this
    contradiction
  refine h.change [⟨plan.planId, .transition, "plan", .obj [("state", .str "Planned")]⟩]
    (by rw [he]; rfl) (by rw [he]; rfl) (by simp) ?_
  rw [hnone]
  exact .plan

end Store

namespace Coordinator

open JournalRow

variable [Sha256] {τ π : Type} [TrafficAdapter τ] {c : Call} {op : Op} {w₀ w : World τ π}
variable {s : Store} {n : Int}

theorem Commit.stories (hc : Commit c op w₀ w s) (h₀ : w₀.store.Inv) (hi : w.store.Inv)
    (hcas : w.store.CasInv n) (hev : w.store.EvidenceInv) (h : w.store.Stories) :
    s = w₀.store ∨ s.Stories := by
  cases hc
  case insert hs         => exact .inr (h.insert hi hs)
  case delete hs _ _ _ _ => exact .inl (Store.delete_insert h₀ hs)
  case note operation detail ha ho =>
    refine .inr (h.note ha rfl rfl rfl ⟨by simp, by simp, ?_⟩)
    rcases ho with rfl | rfl <;> simp [isReceipt]
  case shift ha ht hm _ _ =>
    have hs := h _ _ ha
    exact .inr (h.change _ rfl rfl (fun r hr => (hm.plain hr).left) (.move hs ht hm))
  case launch a _ ha hs =>
    have hs := hs ▸ h _ _ ha
    exact .inr (h.change _ rfl rfl (by simp [moved]) (.launch hs))
  case launched a _ _ _ _ ha hs hinv =>
    obtain ⟨_, he⟩ := Store.setInventory_ok_iff.mp hinv
    subst he
    have hs := hs ▸ h _ _ ha
    exact .inr (h.change _ rfl rfl (by simp [moved]) (.launched hs))
  case evidence _ ha _ _ _ hs =>
    obtain ⟨_, he⟩ := Store.insertEvidence_ok_iff.mp hs
    subst he
    exact .inr (h.note ha rfl rfl rfl ⟨by simp, by simp, by simp [isReceipt]⟩)
  case refresh ha _ hs =>
    obtain ⟨_, he⟩ := Store.setInventory_ok_iff.mp hs
    subst he
    exact .inr (h.note ha rfl rfl rfl ⟨by simp, by simp, by simp [isReceipt]⟩)
  case wal planId _ a _ _ ha ht hcomplete hg hp he =>
    subst he
    -- the obligations are covered by evidence of the launch on record
    have hid := hi.planId _ _ ha
    obtain ⟨hne, hord⟩ := hi.complete _ _ ha
    obtain ⟨o, ho⟩ := List.exists_mem_of_ne_nil _ hne
    obtain ⟨ordinal, hord⟩ := List.exists_mem_of_ne_nil _ (hord o ho)
    obtain ⟨_, _, _, _, _, _, item, _, _, _, hl, _⟩ :=
      covered_of_evidenceComplete hev ha hid hcomplete o ho ordinal hord
    refine .inr (h.change _ rfl rfl (by simp [moved]) (.commit (h _ _ ha) ht hl fun r hr hk => ?_))
    -- a commit before this one would have taken the generation
    obtain ⟨hm, hr⟩ := List.mem_filter.mp hr
    have hlt := hcas.below r hm hk a (of_decide_eq_true hr ▸ ha)
    omega

variable [TrafficGate π]

theorem reachable_stories {may : Call → Op → World τ π → Prop}
    {env : Traffic τ π → Traffic τ π → Prop} (h : Reachable (Initial n) (Next may env) w) :
    w.store.Stories := by
  refine (run_store_invariant (I := fun s => s.CasInv n ∧ s.EvidenceInv ∧ s.Stories) h
    ⟨Store.casInv_new, Store.evidenceInv_new, fun _ _ ha => nomatch ha⟩ ?_ ?_).right.right.right
  · exact fun s _ ⟨hc, he, hs⟩ => ⟨⟨hc.count, hc.below, hc.order⟩, he.boot, hs⟩
  · intro c op w₀ w s _ h₀ hi ⟨hcas, hev, hs⟩ hc
    rcases hc.casInv h₀ hi hcas with he | hcas'
    · exact .inl he
    rcases hc.evidenceInv h₀ hev with he | hev'
    · exact .inl he
    exact (hc.stories h₀ hi hcas hev hs).imp_right fun hs' => ⟨hcas', hev', hs'⟩

-- The journal of a plan tells what has become of it.
structure Faithful (a : Activation) (rows : List JournalRow) : Prop where
  path     : ∃ path : List State, trail rows = path.map some ∧ path.head? = some .planned ∧
    path.IsChain (fun s t => t ∈ s.transitions) ∧ path.getLast? = some a.state
  receipts : ∀ o ∈ ["prepare", "launch", "commit"], Preceded (·.isReceipt o) (·.isWal o) rows
  launch   : Preceded (·.isWal "launch") (·.isReceipt "prepare") rows
  commit   : Preceded (·.isWal "commit") (·.launches a.launchId) rows
  once     : ∀ o ∈ ["prepare", "launch", "commit", "rollback"], rows.countP (·.isWal o) ≤ 1

-- Whatever coordinators do with whatever plans, and wherever they die, the journal of every plan
-- is faithful, and a plan that is not there has none.
theorem journal_fidelity {planId : String} (h : Reachable (Initial n) (Next Always Anything) w) :
    (∀ a, w.store.activation planId = some a → Faithful a (w.store.rowsOf planId)) ∧
      (w.store.activation planId = none → w.store.rowsOf planId = []) := by
  refine ⟨fun a ha => ?_, fun hn => ?_⟩
  · have hs := reachable_stories h planId a ha
    exact ⟨hs.path, fun o ho => hs.receipts ho, hs.launch_prepared, hs.commit_launched,
      fun o ho => hs.once ho⟩
  · refine List.filter_eq_nil_iff.mpr fun r hm hid => ?_
    have := (reachable_inv h).journal r hm
    rw [of_decide_eq_true hid, hn] at this
    contradiction

end Coordinator

namespace Coordinator.Sample

theorem journal_of_committed : ∃ a, (committed []).store.activation planId = some a ∧
    a.state = .effective ∧ Faithful a ((committed []).store.rowsOf planId) ∧
    ((committed []).store.rowsOf planId).countP (·.isWal "commit") = 1 := by
  have ⟨hs, hc⟩ : ((committed []).store.activation planId).map (·.state) = some .effective ∧
      ((committed []).store.rowsOf planId).countP (·.isWal "commit") = 1 := by
    decide +kernel
  have ⟨a, ha, hs⟩ := Option.map_eq_some_iff.mp hs
  exact ⟨a, ha, hs, (journal_fidelity reachable_committed).left a ha, hc⟩

end Coordinator.Sample
