import Mathlib.Data.List.Nodup
import Mathlib.Data.List.Perm.Subperm
import Mathlib.Data.List.ProdSigma

-- A breadth-first search of a labelled transition system, which keeps a log of all that it tries.
namespace Bfs

variable {σ α β : Type} [DecidableEq σ]

-- The labels in the order in which they are tried, where they lead, and how a try is logged.
structure System (σ α β : Type) where
  labels : List α
  step   : σ → α → Option σ
  record : σ → α → Option σ → β → β

-- What is left to expand, and all that is found, each with its depth and with the first one first.
structure Search (σ β : Type) where
  queue     : List (σ × ℕ)
  distances : List (σ × ℕ)
  log       : β

namespace Search

def start (x : σ) (log : β) : Search σ β where
  queue     := [(x, 0)]
  distances := [(x, 0)]
  log       := log

def keys (s : Search σ β) : List σ :=
  s.distances.map Prod.fst

def discover (s : Search σ β) (x : σ) (depth : ℕ) : Search σ β :=
  if x ∈ s.keys then s
  else { s with queue := s.queue ++ [(x, depth)], distances := s.distances ++ [(x, depth)] }

end Search

namespace System

variable (S : System σ α β)

def attempt (x : σ) (depth : ℕ) (s : Search σ β) (a : α) : Search σ β :=
  let s := { s with log := S.record x a (S.step x a) s.log }
  match S.step x a with
  | none   => s
  | some y => s.discover y (depth + 1)

def expand (x : σ) (depth : ℕ) (s : Search σ β) : Search σ β :=
  S.labels.foldl (S.attempt x depth) s

def search : ℕ → Search σ β → Option (Search σ β)
  | 0,     _ => none
  | n + 1, s =>
    match s.queue with
    | []                  => some s
    | (x, depth) :: queue => search n (S.expand x depth { s with queue })

-- There is a path of that many steps.
inductive Path (x : σ) : ℕ → σ → Prop
  | nil : Path x 0 x
  | snoc {n y z a} : Path x n y → a ∈ S.labels → S.step y a = some z → Path x (n + 1) z

def Shortest (x : σ) (n : ℕ) (y : σ) : Prop :=
  S.Path x n y ∧ ∀ m, S.Path x m y → n ≤ m

-- The log after all labels were tried of each of `xs`.
def logged (xs : List σ) (log : β) : β :=
  xs.foldl (fun log x => S.labels.foldl (fun log a => S.record x a (S.step x a) log) log) log

variable {S} {s : Search σ β} {x y z : σ} {a : α} {n m depth : ℕ} {log : β}

section Attempts

variable {labels : List α}

-- What the tries of some labels find.
structure Finds (S : System σ α β) (labels : List α) (x : σ) (depth : ℕ) (s s' : Search σ β)
    (new : List (σ × ℕ)) : Prop where
  queue     : s'.queue = s.queue ++ new
  distances : s'.distances = s.distances ++ new
  reached   : ∀ p ∈ new, p.2 = depth + 1 ∧ ∃ a ∈ labels, S.step x a = some p.1
  found     : ∀ a ∈ labels, ∀ y, S.step x a = some y → y ∈ s'.keys
  nodup     : s.keys.Nodup → s'.keys.Nodup
  log       : s'.log = labels.foldl (fun log a => S.record x a (S.step x a) log) s.log

omit [DecidableEq σ] in
theorem Finds.keys {s' : Search σ β} {new : List (σ × ℕ)} (h : Finds S labels x depth s s' new) :
    s'.keys = s.keys ++ new.map Prod.fst := by
  simp [Search.keys, h.distances]

theorem attempt_finds (x : σ) (depth : ℕ) (s : Search σ β) (a : α) :
    ∃ new, Finds S [a] x depth s (S.attempt x depth s a) new := by
  cases hs : S.step x a with
  | none =>
    refine ⟨[], ?_, ?_, by simp, ?_, ?_, ?_⟩ <;> simp [attempt, hs, Search.keys]
  | some y =>
    by_cases hy : y ∈ s.keys
    · refine ⟨[], ?_, ?_, by simp, ?_, ?_, ?_⟩ <;>
        simp_all [attempt, Search.discover, Search.keys]
    · refine ⟨[(y, depth + 1)], ?_, ?_, by simp [hs], ?_, ?_, ?_⟩ <;>
        simp_all [attempt, Search.discover, Search.keys, List.nodup_append]
      rintro - z d hz rfl
      exact hy d hz

theorem attempts_finds (labels : List α) (x : σ) (depth : ℕ) (s : Search σ β) :
    ∃ new, Finds S labels x depth s (labels.foldl (S.attempt x depth) s) new := by
  induction labels generalizing s with
  | nil => exact ⟨[], by simp, by simp, by simp, by simp, id, rfl⟩
  | cons a labels ih =>
    obtain ⟨l₁, h₁⟩ := attempt_finds x depth s a (S := S)
    obtain ⟨l₂, h₂⟩ := ih (S.attempt x depth s a)
    refine ⟨l₁ ++ l₂, ?_, ?_, ?_, ?_, h₂.nodup ∘ h₁.nodup, ?_⟩
    · simp [h₂.queue, h₁.queue]
    · simp [h₂.distances, h₁.distances]
    · intro p hp
      rcases List.mem_append.mp hp with hp | hp
      · obtain ⟨hd, b, hb, hs⟩ := h₁.reached p hp
        exact ⟨hd, b, List.mem_cons.mpr (.inl (List.mem_singleton.mp hb)), hs⟩
      · obtain ⟨hd, b, hb, hs⟩ := h₂.reached p hp
        exact ⟨hd, b, List.mem_cons_of_mem _ hb, hs⟩
    · intro b hb y hs
      rcases List.mem_cons.mp hb with rfl | hb
      · exact h₂.keys ▸ List.mem_append_left _ (h₁.found b List.mem_cons_self y hs)
      · exact h₂.found b hb y hs
    · simp [h₂.log, h₁.log]

theorem expand_finds (x : σ) (depth : ℕ) (s : Search σ β) :
    ∃ new, Finds S S.labels x depth s (S.expand x depth s) new :=
  attempts_finds S.labels x depth s

end Attempts

-- The search has expanded `done` so far, and nothing that is found is more than one step deeper
-- than what is still queued.
structure Progress (S : System σ α β) (init : σ) (log : β) (done : List (σ × ℕ)) (s : Search σ β) :
    Prop where
  split  : s.distances = done ++ s.queue
  root   : (init, 0) ∈ s.distances
  nodup  : s.keys.Nodup
  paths  : ∀ p ∈ s.distances, S.Path init p.2 p.1
  sorted : s.queue.Pairwise fun p q => p.2 ≤ q.2
  near   : ∀ p ∈ s.queue, ∀ q ∈ s.distances, q.2 ≤ p.2 + 1
  closed : ∀ p ∈ done, ∀ a ∈ S.labels, ∀ y, S.step p.1 a = some y →
    ∃ n ≤ p.2 + 1, (y, n) ∈ s.distances
  logged : s.log = S.logged (done.map Prod.fst) log

variable {init : σ} {done : List (σ × ℕ)}

omit [DecidableEq σ] in
theorem progress_start : Progress S init log [] (.start init log) where
  split  := rfl
  root   := List.mem_singleton_self _
  nodup  := List.nodup_singleton _
  paths  := by simp [Search.start, Path.nil]
  sorted := List.pairwise_singleton _ _
  near   := by simp [Search.start]
  closed := by simp
  logged := rfl

theorem Progress.expand {queue : List (σ × ℕ)} (h : Progress S init log done s)
    (hq : s.queue = (x, depth) :: queue) :
    Progress S init log (done ++ [(x, depth)]) (S.expand x depth { s with queue }) := by
  obtain ⟨new, hf⟩ := expand_finds x depth { s with queue } (S := S)
  have hx : (x, depth) ∈ s.queue := by simp [hq]
  have hold : ∀ p ∈ s.distances, p ∈ (S.expand x depth { s with queue }).distances :=
    fun p hp => hf.distances ▸ List.mem_append_left _ hp
  have hsorted := List.pairwise_cons.mp (hq ▸ h.sorted)
  refine ⟨?split, hold _ h.root, hf.nodup h.nodup, ?paths, ?sorted, ?near, ?closed, ?logged⟩
  case split =>
    rw [hf.distances, hf.queue]
    simp [h.split, hq]
  case paths =>
    intro p hp
    rcases List.mem_append.mp (hf.distances ▸ hp) with hp | hp
    · exact h.paths p hp
    · obtain ⟨hd, a, ha, hs⟩ := hf.reached p hp
      exact hd ▸ .snoc (h.paths _ (h.split ▸ List.mem_append_right _ hx)) ha hs
  case sorted =>
    rw [hf.queue]
    refine List.pairwise_append.mpr ⟨hsorted.2, ?_, fun p hp q hn => ?_⟩
    · refine List.pairwise_iff_forall_sublist.mpr fun {p q} hpq => ?_
      have hp := hf.reached p (hpq.subset (by simp))
      have hq := hf.reached q (hpq.subset (by simp))
      omega
    · have := h.near _ hx p (h.split ▸ List.mem_append_right _ (hq ▸ List.mem_cons_of_mem _ hp))
      have := (hf.reached q hn).1
      simp_all
  case near =>
    intro p hp q hm
    have hdp : depth ≤ p.2 := by
      rcases List.mem_append.mp (hf.queue ▸ hp) with hp | hp
      · exact hsorted.1 p hp
      · have := (hf.reached p hp).1
        omega
    rcases List.mem_append.mp (hf.distances ▸ hm) with hm | hm
    · have := h.near _ hx q hm
      simp only at this
      omega
    · have := (hf.reached q hm).1
      omega
  case closed =>
    intro p hp a ha y hs
    rcases List.mem_append.mp hp with hp | hp
    · obtain ⟨n, hn, hy⟩ := h.closed p hp a ha y hs
      exact ⟨n, hn, hold _ hy⟩
    · cases List.mem_singleton.mp hp
      obtain ⟨q, hq', rfl⟩ := List.mem_map.mp (hf.found a ha y hs)
      refine ⟨q.2, ?_, hq'⟩
      rcases List.mem_append.mp (hf.distances ▸ hq') with hm | hm
      · exact h.near _ hx q hm
      · exact Nat.le_of_eq (hf.reached q hm).1
  case logged =>
    rw [hf.log, h.logged]
    simp [System.logged]

-- Nothing is left to expand.
structure Exhausted (S : System σ α β) (init : σ) (log : β) (s : Search σ β) : Prop where
  shortest : ∀ y n, (y, n) ∈ s.distances ↔ S.Shortest init n y
  nodup    : s.keys.Nodup
  logged   : s.log = S.logged s.keys log

omit [DecidableEq σ] in
theorem Progress.exhausted (h : Progress S init log done s) (hq : s.queue = []) :
    Exhausted S init log s := by
  have hdone : s.distances = done := by simpa [hq] using h.split
  have hfound : ∀ m y, S.Path init m y → ∃ n ≤ m, (y, n) ∈ s.distances := by
    intro m y hp
    induction hp with
    | nil => exact ⟨0, Nat.le_refl 0, h.root⟩
    | snoc _ ha hs ih =>
      obtain ⟨n, hn, hy⟩ := ih
      obtain ⟨k, hk, hz⟩ := h.closed _ (hdone ▸ hy) _ ha _ hs
      exact ⟨k, by simp only at hk; omega, hz⟩
  refine ⟨fun y n => ⟨fun hy => ⟨h.paths _ hy, fun m hm => ?_⟩, fun hy => ?_⟩, h.nodup, ?_⟩
  · obtain ⟨k, hk, hz⟩ := hfound m y hm
    cases List.inj_on_of_nodup_map h.nodup hy hz rfl
    exact hk
  · obtain ⟨k, hk, hz⟩ := hfound n y hy.1
    cases Nat.le_antisymm hk (hy.2 k (h.paths _ hz))
    exact hz
  · rw [h.logged, Search.keys, hdone]

omit [DecidableEq σ] in
theorem Progress.length_le (h : Progress S init log done s) {space : List σ}
    (hu : ∀ n y, S.Path init n y → y ∈ space) : done.length ≤ space.length := by
  have hk : s.keys ⊆ space := by
    intro y hy
    obtain ⟨p, hp, rfl⟩ := List.mem_map.mp hy
    exact hu _ _ (h.paths p hp)
  calc done.length ≤ s.keys.length := by simp [Search.keys, h.split]
    _ ≤ space.length := (h.nodup.subperm hk).length_le

theorem Progress.search (h : Progress S init log done s) {space : List σ}
    (hu : ∀ n y, S.Path init n y → y ∈ space) (hn : space.length < done.length + n) :
    ∃ s', S.search n s = some s' ∧ Exhausted S init log s' := by
  induction n generalizing done s with
  | zero => exact absurd (h.length_le hu) (by omega)
  | succ n ih =>
    rw [System.search]
    split
    · exact ⟨s, rfl, h.exhausted ‹_›⟩
    · exact ih (h.expand ‹_›) (by simp; omega)

-- Where all that is reachable lies within some list, as many rounds as it is long and one more
-- exhaust it.
theorem search_exhausts {space : List σ} (hu : ∀ n y, S.Path init n y → y ∈ space)
    (hn : space.length < n) (log : β) :
    ∃ s, S.search n (.start init log) = some s ∧ Exhausted S init log s :=
  progress_start.search hu (by simpa using hn)

omit [DecidableEq σ] in
theorem logged_eq (xs : List σ) : S.logged xs log =
    (xs ×ˢ S.labels).foldl (fun log p => S.record p.1 p.2 (S.step p.1 p.2) log) log := by
  simp [logged, SProd.sprod, List.product, List.foldl_flatMap, List.foldl_map]

end System

end Bfs
