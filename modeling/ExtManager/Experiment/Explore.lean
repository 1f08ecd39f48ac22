import Mathlib.Data.List.MinMax
import Mathlib.Data.Set.Card
import ExtManager.Codec.Fallible
import ExtManager.Experiment.Transaction
import ExtManager.Order.Bfs

-- The exhaustion of the transaction model.
namespace TransactionModel

open TransactionModel.State

structure Counterexample where
  action : Action
  errors : List String
  source : State
  target : State

structure Log where
  edges           : List (State × Action × State)
  rejected        : List (State × Action)
  counterexamples : List Counterexample

def counterexample? (s : State) (a : Action) (t : State) : Option Counterexample :=
  if t.invariantErrors = [] then none
  else some { action := a, errors := t.invariantErrors, source := s, target := t }

-- `edges` and `rejected` are sets.
def record (s : State) (a : Action) (target : Option State) (log : Log) : Log :=
  match target with
  | none   => { log with rejected := log.rejected.insert (s, a) }
  | some t =>
    { log with
      edges           := log.edges.insert (s, a, t)
      counterexamples := log.counterexamples ++ (counterexample? s a t).toList }

def system : Bfs.System State Action Log where
  labels   := actions
  step s a := (s.transition a).toOption
  record

structure Report where
  actions                    : ℕ
  reachableStates            : ℕ
  validEdges                 : ℕ
  rejectedStateActionPairs   : ℕ
  maximumShortestTraceLength : ℕ
  counterexamples            : List Counterexample

-- The loop runs for at most `fuel` rounds.
def explore (fuel : ℕ) : Option Report := do
  let found ← system.search fuel (.start initialState ⟨[], [], []⟩)
  let maximum ← (found.distances.map Prod.snd).max?
  return {
    actions                    := actions.length
    reachableStates            := found.distances.length
    validEdges                 := found.log.edges.length
    rejectedStateActionPairs   := found.log.rejected.length
    maximumShortestTraceLength := maximum
    counterexamples            := found.log.counterexamples }

-- What the runs of the model are.
def run (s : State) (w : List Action) : Except RejectedTransition State :=
  w.foldlM State.transition s

def Reachable (s : State) : Prop :=
  ∃ w, run initialState w = .ok s

-- The fewest actions that lead to a state.
def Nearest (n : ℕ) (s : State) : Prop :=
  IsLeast { n | ∃ w : List Action, w.length = n ∧ run initialState w = .ok s } n

section Logs

variable {tries : List (State × Action)} {log : Log} {s t : State} {a : Action}

-- The log is of just these tries.
structure Logs (tries : List (State × Action)) (log : Log) : Prop where
  edges           : ∀ s a t, (s, a, t) ∈ log.edges ↔ (s, a) ∈ tries ∧ s.transition a = .ok t
  edges_nodup     : log.edges.Nodup
  rejected        : ∀ s a, (s, a) ∈ log.rejected ↔
    (s, a) ∈ tries ∧ ∃ e, s.transition a = .error e
  rejected_nodup  : log.rejected.Nodup
  counterexamples : ∀ c ∈ log.counterexamples,
    (c.source, c.action) ∈ tries ∧ c.source.transition c.action = .ok c.target ∧
      c.target.invariantErrors ≠ []

theorem logs_nil : Logs [] ⟨[], [], []⟩ := by
  constructor <;> simp

theorem counterexample?_some {c : Counterexample} (h : c ∈ (counterexample? s a t).toList) :
    c.source = s ∧ c.action = a ∧ c.target = t ∧ t.invariantErrors ≠ [] := by
  rw [counterexample?] at h
  split at h
  · cases h
  · cases List.mem_singleton.mp h
    exact ⟨rfl, rfl, rfl, ‹_›⟩

theorem Logs.reject {e : RejectedTransition} (h : Logs tries log)
    (hs : s.transition a = .error e) : Logs (tries ++ [(s, a)]) (record s a none log) where
  edges s' a' t' := by
    simp only [record, h.edges, List.mem_append, List.mem_singleton, Prod.mk.injEq]
    grind
  edges_nodup := h.edges_nodup
  rejected s' a' := by
    simp only [record, List.mem_insert_iff, h.rejected, List.mem_append, List.mem_singleton,
      Prod.mk.injEq]
    grind
  rejected_nodup := h.rejected_nodup.insert
  counterexamples c hc := by
    obtain ⟨hm, hc⟩ := h.counterexamples c hc
    exact ⟨List.mem_append_left _ hm, hc⟩

theorem Logs.accept (h : Logs tries log) (hs : s.transition a = .ok t) :
    Logs (tries ++ [(s, a)]) (record s a (some t) log) where
  edges s' a' t' := by
    simp only [record, List.mem_insert_iff, h.edges, List.mem_append, List.mem_singleton,
      Prod.mk.injEq]
    grind
  edges_nodup := h.edges_nodup.insert
  rejected s' a' := by
    simp only [record, h.rejected, List.mem_append, List.mem_singleton, Prod.mk.injEq]
    grind
  rejected_nodup := h.rejected_nodup
  counterexamples c hc := by
    rcases List.mem_append.mp hc with hc | hc
    · obtain ⟨hm, hc⟩ := h.counterexamples c hc
      exact ⟨List.mem_append_left _ hm, hc⟩
    · obtain ⟨rfl, rfl, rfl, he⟩ := counterexample?_some hc
      exact ⟨by simp, hs, he⟩

theorem Logs.record (h : Logs tries log) (s : State) (a : Action) :
    Logs (tries ++ [(s, a)]) (record s a (s.transition a).toOption log) := by
  cases hs : s.transition a with
  | error e => exact h.reject hs
  | ok t    => exact h.accept hs

theorem logs_tries (tries : List (State × Action)) :
    Logs tries (tries.foldl (fun log p => TransactionModel.record p.1 p.2
      (p.1.transition p.2).toOption log) ⟨[], [], []⟩) := by
  induction tries using List.reverseRecOn with
  | nil => exact logs_nil
  | append_singleton tries p ih =>
    rw [List.foldl_append]
    exact ih.record p.1 p.2

end Logs

section Paths

variable {s t : State} {a : Action} {n : ℕ} {w : List Action}

theorem mem_actions (a : Action) : a ∈ actions := by
  cases a <;> decide

theorem step_iff : system.step s a = some t ↔ s.transition a = .ok t := by
  show (s.transition a).toOption = some t ↔ s.transition a = .ok t
  cases s.transition a <;> simp [Except.toOption]

theorem run_snoc : run s (w ++ [a]) = .ok t ↔ ∃ u, run s w = .ok u ∧ u.transition a = .ok t := by
  simp [run, Fallible.bind_ok]

theorem path_iff : system.Path initialState n s ↔
    ∃ w : List Action, w.length = n ∧ run initialState w = .ok s := by
  constructor
  · intro h
    induction h with
    | nil => exact ⟨[], rfl, rfl⟩
    | snoc _ _ hs ih =>
      obtain ⟨w, rfl, hw⟩ := ih
      exact ⟨w ++ [_], by simp, run_snoc.mpr ⟨_, hw, step_iff.mp hs⟩⟩
  · rintro ⟨w, rfl, hw⟩
    induction w using List.reverseRecOn generalizing s with
    | nil =>
      cases hw
      exact .nil
    | append_singleton w a ih =>
      obtain ⟨u, hu, hs⟩ := run_snoc.mp hw
      rw [List.length_append]
      exact .snoc (ih hu) (mem_actions a) (step_iff.mpr hs)

theorem shortest_iff : system.Shortest initialState n s ↔ Nearest n s := by
  simp only [Bfs.System.Shortest, Nearest, IsLeast, mem_lowerBounds, path_iff]
  rfl

theorem sound_run (hs : s.Sound) (h : run s w = .ok t) : t.Sound := by
  induction w using List.reverseRecOn generalizing t with
  | nil =>
    cases h
    exact hs
  | append_singleton w a ih =>
    obtain ⟨u, hu, ha⟩ := run_snoc.mp h
    exact (ih hu).transition ha

theorem Reachable.sound (h : Reachable s) : s.Sound :=
  have ⟨_, hw⟩ := h
  sound_run sound_initialState hw

theorem Reachable.transition (h : Reachable s) (ha : s.transition a = .ok t) : Reachable t :=
  have ⟨w, hw⟩ := h
  ⟨w ++ [a], run_snoc.mpr ⟨s, hw, ha⟩⟩

end Paths

section Space

def phases : List Phase :=
  [.predecessorOpen, .candidateStaged, .candidateClosed, .opening, .candidateOpen, .draining,
    .recovering, .rolledBack, .failedSafe, .safetyUnknown]

def routes : List Route :=
  [.predecessor, .candidate, .closed, .unknown]

def truths : List Bool :=
  [false, true]

-- All states whose generation is 0 or 1.
def space : List State :=
  phases.flatMap fun phase => routes.flatMap fun route => truths.flatMap fun proofComplete =>
    truths.flatMap fun leaseValid => [0, 1].flatMap fun generation =>
      truths.flatMap fun openIntent => truths.map fun openReceipt =>
        { phase, route, proofComplete, leaseValid, generation, openIntent, openReceipt }

theorem mem_phases (p : Phase) : p ∈ phases := by
  cases p <;> decide

theorem mem_routes (r : Route) : r ∈ routes := by
  cases r <;> decide

theorem mem_truths (b : Bool) : b ∈ truths := by
  cases b <;> decide

theorem length_space : space.length = 1280 := by
  decide +kernel

theorem Reachable.mem_space {s : State} (h : Reachable s) : s ∈ space := by
  have hg : s.generation ∈ [0, 1] := by simpa using h.sound.generation
  simp only [space, List.mem_flatMap, List.mem_map]
  exact ⟨s.phase, mem_phases _, s.route, mem_routes _, s.proofComplete, mem_truths _,
    s.leaseValid, mem_truths _, s.generation, hg, s.openIntent, mem_truths _, s.openReceipt,
    mem_truths _, rfl⟩

end Space

-- What has been found after enough rounds.
theorem search_explores {fuel : ℕ} (hf : 1280 < fuel) :
    ∃ found, system.search fuel (.start initialState ⟨[], [], []⟩) = some found ∧
      (∀ s n, (s, n) ∈ found.distances ↔ Nearest n s) ∧ found.keys.Nodup ∧
      Logs (found.keys ×ˢ actions) found.log := by
  have hspace : ∀ n s, system.Path initialState n s → s ∈ space := by
    intro n s h
    obtain ⟨w, -, hw⟩ := path_iff.mp h
    exact Reachable.mem_space ⟨w, hw⟩
  obtain ⟨found, hs, he⟩ :=
    Bfs.System.search_exhausts hspace (length_space ▸ hf) (⟨[], [], []⟩ : Log)
  refine ⟨found, hs, fun s n => (he.shortest s n).trans shortest_iff, he.nodup, ?_⟩
  rw [he.logged, Bfs.System.logged_eq]
  exact logs_tries _

theorem exists_nearest {s : State} : (∃ n, Nearest n s) ↔ Reachable s := by
  constructor
  · rintro ⟨n, ⟨w, -, hw⟩, -⟩
    exact ⟨w, hw⟩
  · rintro ⟨w, hw⟩
    have hne : ∃ n, ∃ w : List Action, w.length = n ∧ run initialState w = .ok s :=
      ⟨_, w, rfl, hw⟩
    classical
    exact ⟨Nat.find hne, Nat.find_spec hne, fun n hn => Nat.find_min' hne hn⟩

theorem length_eq_ncard {α : Type} {l : List α} {p : α → Prop} (hl : l.Nodup)
    (h : ∀ x, x ∈ l ↔ p x) : l.length = {x | p x}.ncard := by
  classical
  rw [← List.toFinset_card_of_nodup hl, ← Set.ncard_coe_finset]
  congr
  ext x
  simp [h]

-- The report says how many states are reachable, which pairs are edges, which are rejected and how
-- far the furthest state is.
theorem explore_exact {fuel : ℕ} (hf : 1280 < fuel) : ∃ report, explore fuel = some report ∧
    report.actions = 16 ∧
    report.reachableStates = {s | Reachable s}.ncard ∧
    report.validEdges =
      {e : State × Action × State | Reachable e.1 ∧ e.1.transition e.2.1 = .ok e.2.2}.ncard ∧
    report.rejectedStateActionPairs =
      {p : State × Action | Reachable p.1 ∧ ∃ e, p.1.transition p.2 = .error e}.ncard ∧
    IsGreatest {n | ∃ s, Nearest n s} report.maximumShortestTraceLength ∧
    report.counterexamples = [] := by
  obtain ⟨found, hs, hd, hn, hl⟩ := search_explores hf
  have hkey : ∀ s, s ∈ found.keys ↔ Reachable s := by
    intro s
    rw [← exists_nearest, Bfs.Search.keys, List.mem_map]
    constructor
    · rintro ⟨p, hp, rfl⟩
      exact ⟨p.2, (hd _ _).mp hp⟩
    · rintro ⟨n, hn⟩
      exact ⟨(s, n), (hd _ _).mpr hn, rfl⟩
  have htry : ∀ s a, (s, a) ∈ found.keys ×ˢ actions ↔ Reachable s := by
    intro s a
    rw [List.mem_product, hkey]
    exact and_iff_left (mem_actions a)
  have hroot : (initialState, 0) ∈ found.distances :=
    (hd _ _).mpr ⟨⟨[], rfl, rfl⟩, fun n _ => n.zero_le⟩
  obtain ⟨maximum, hm⟩ := Option.isSome_iff_exists.mp
    (List.isSome_max?_of_mem (List.mem_map_of_mem (f := Prod.snd) hroot))
  refine ⟨_, by simp [explore, hs, hm]; rfl, rfl, ?reachable, ?edges, ?rejected, ?maximum, ?errors⟩
  case reachable =>
    rw [← length_eq_ncard hn hkey, Bfs.Search.keys, List.length_map]
  case edges =>
    refine length_eq_ncard hl.edges_nodup ?_
    rintro ⟨s, a, t⟩
    rw [hl.edges, htry]
  case rejected =>
    refine length_eq_ncard hl.rejected_nodup ?_
    rintro ⟨s, a⟩
    rw [hl.rejected, htry]
  case maximum =>
    obtain ⟨hmem, hle⟩ := List.max?_eq_some_iff.mp hm
    constructor
    · obtain ⟨p, hp, rfl⟩ := List.mem_map.mp hmem
      exact ⟨p.1, (hd _ _).mp hp⟩
    · rintro n ⟨s, hn⟩
      exact hle n (List.mem_map.mpr ⟨(s, n), (hd _ _).mpr hn, rfl⟩)
  case errors =>
    refine List.eq_nil_iff_forall_not_mem.mpr fun c hc => ?_
    obtain ⟨hm, ht, he⟩ := hl.counterexamples c hc
    have hr := (htry _ _).mp hm
    exact he (hr.transition ht).sound.invariantErrors

theorem explore_exact_2000 : ∃ report, explore 2000 = some report ∧ report.counterexamples = [] :=
  have ⟨report, h, _, _, _, _, _, hc⟩ := explore_exact (by decide : 1280 < 2000)
  ⟨report, h, hc⟩

example : (explore 40).map (fun r => (r.reachableStates, r.validEdges,
    r.maximumShortestTraceLength)) = some (39, 102, 8) := by
  decide +kernel

end TransactionModel
