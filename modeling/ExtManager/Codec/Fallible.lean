import Mathlib.Data.List.Chain
import Mathlib.Data.List.Forall2

-- Programs that return or raise.
namespace Fallible

variable {ε α β : Type}

theorem bind_ok {x : Except ε α} {f : α → Except ε β} {b : β} :
    x >>= f = .ok b ↔ ∃ a, x = .ok a ∧ f a = .ok b := by
  cases x
  case ok a    => exact ⟨fun h => ⟨a, rfl, h⟩, fun ⟨_, ha, h⟩ => by cases ha; exact h⟩
  case error e => exact ⟨nofun, fun ⟨_, ha, _⟩ => nomatch ha⟩

theorem bind_error {x : Except ε α} {f : α → Except ε β} {e : ε} :
    x >>= f = .error e ↔ x = .error e ∨ ∃ a, x = .ok a ∧ f a = .error e := by
  cases x
  case ok a     =>
    refine ⟨fun h => .inr ⟨a, rfl, h⟩, ?_⟩
    rintro (h | ⟨_, ⟨⟩, h⟩)
    · exact nomatch h
    · exact h
  case error e' =>
    refine ⟨fun h => .inl ?_, ?_⟩
    · cases h
      rfl
    · rintro (h | ⟨_, h, -⟩)
      · cases h
        rfl
      · exact nomatch h

theorem mapError_ok {ε' : Type} {f : ε → ε'} {x : Except ε α} {a : α} : x.mapError f = .ok a ↔ x = .ok a := by
  cases x
  case ok    => simp [Except.mapError]
  case error => exact ⟨nofun, nofun⟩

theorem map_ok {f : α → β} {x : Except ε α} {b : β} : x.map f = .ok b ↔ ∃ a, x = .ok a ∧ f a = b := by
  cases x
  case ok    => simp [Except.map]
  case error => exact ⟨nofun, nofun⟩

theorem ok_of_toOption {x : Except ε α} {a : α} (h : x.toOption = some a) : x = .ok a := by
  cases x
  case ok    => exact congrArg _ (Option.some.inj h)
  case error => cases h

theorem mapM_ok {f : α → Except ε β} {as : List α} {bs : List β} :
    as.mapM f = .ok bs ↔ List.Forall₂ (fun a b => f a = .ok b) as bs := by
  induction as generalizing bs with
  | nil =>
    rw [List.mapM_nil]
    constructor
    · intro h
      cases h
      exact .nil
    · intro h
      cases h
      rfl
  | cons a as ih =>
    rw [List.mapM_cons, bind_ok]
    constructor
    · rintro ⟨b, hb, h⟩
      obtain ⟨bs', hbs, h⟩ := bind_ok.mp h
      cases h
      exact .cons hb (ih.mp hbs)
    · intro h
      cases h
      case cons b bs hb hbs => exact ⟨b, hb, bind_ok.mpr ⟨bs, ih.mpr hbs, rfl⟩⟩

section MapM

variable {f : α → Except ε β} {as : List α} {bs : List β}

theorem source_of_mapM (h : as.mapM f = .ok bs) : ∀ b ∈ bs, ∃ a ∈ as, f a = .ok b := by
  have h := mapM_ok.mp h
  induction h with
  | nil             => exact nofun
  | cons hb _ ih =>
    refine List.forall_mem_cons.mpr ⟨⟨_, List.mem_cons_self .., hb⟩, fun b hm => ?_⟩
    have ⟨a, ha, hf⟩ := ih (mapM_ok.mpr ‹_›) b hm
    exact ⟨a, List.mem_cons_of_mem _ ha, hf⟩

theorem target_of_mapM (h : as.mapM f = .ok bs) : ∀ a ∈ as, ∃ b ∈ bs, f a = .ok b := by
  have h := mapM_ok.mp h
  induction h with
  | nil             => exact nofun
  | cons hb _ ih =>
    refine List.forall_mem_cons.mpr ⟨⟨_, List.mem_cons_self .., hb⟩, fun a hm => ?_⟩
    have ⟨b, hb, hf⟩ := ih (mapM_ok.mpr ‹_›) a hm
    exact ⟨b, List.mem_cons_of_mem _ hb, hf⟩

theorem mapM_total (h : ∀ a ∈ as, ∃ b, f a = .ok b) : ∃ bs, as.mapM f = .ok bs := by
  induction as with
  | nil          => exact ⟨[], rfl⟩
  | cons a as ih =>
    have ⟨⟨b, hb⟩, h⟩ := List.forall_mem_cons.mp h
    have ⟨bs, hbs⟩ := ih h
    exact ⟨b :: bs, mapM_ok.mpr (.cons hb (mapM_ok.mp hbs))⟩

-- What the function keeps of every item.
theorem map_of_mapM_mem {γ : Type} {g : α → γ} {k : β → γ} (hf : ∀ a ∈ as, ∀ b, f a = .ok b → k b = g a)
    (h : as.mapM f = .ok bs) : bs.map k = as.map g := by
  have h := mapM_ok.mp h
  induction h with
  | nil          => rfl
  | cons hb _ ih =>
    have ⟨ha, has⟩ := List.forall_mem_cons.mp hf
    exact congrArg₂ List.cons (ha _ hb) (ih has (mapM_ok.mpr ‹_›))

theorem map_of_mapM {γ : Type} {g : α → γ} {k : β → γ} (hf : ∀ a b, f a = .ok b → k b = g a)
    (h : as.mapM f = .ok bs) : bs.map k = as.map g :=
  map_of_mapM_mem (fun a _ b => hf a b) h

end MapM

theorem forM_ok {f : α → Except ε Unit} {as : List α} :
    as.forM f = .ok () ↔ ∀ a ∈ as, f a = .ok () := by
  induction as with
  | nil          => exact ⟨nofun, fun _ => rfl⟩
  | cons a as ih =>
    rw [List.forall_mem_cons, ← ih]
    exact bind_ok.trans ⟨fun ⟨_, h⟩ => h, fun h => ⟨(), h⟩⟩

section FoldlM

variable {σ : Type} {f : σ → α → Except ε σ} {done as : List α} {st st' : σ} {e : ε}
variable {P : List α → σ → Prop}

-- What every round keeps, of the items that have been gone through and the state.
theorem foldlM_ok (hP : ∀ done st a st', P done st → f st a = .ok st' → P (done ++ [a]) st')
    (h : P done st) (hr : as.foldlM f st = .ok st') : P (done ++ as) st' := by
  induction as generalizing done st with
  | nil          =>
    cases hr
    simpa using h
  | cons a as ih =>
    rw [List.foldlM_cons] at hr
    obtain ⟨st₁, ha, hr⟩ := bind_ok.mp hr
    simpa using ih (hP _ _ _ _ h ha) hr

-- What is raised is raised by some round.
theorem foldlM_error (hP : ∀ done st a st', P done st → f st a = .ok st' → P (done ++ [a]) st')
    (h : P done st) (hr : as.foldlM f st = .error e) :
    ∃ as₁ a as₂ st₁, as = as₁ ++ a :: as₂ ∧ P (done ++ as₁) st₁ ∧ f st₁ a = .error e := by
  induction as generalizing done st with
  | nil          => exact nomatch hr
  | cons a as ih =>
    rw [List.foldlM_cons] at hr
    match ha : f st a with
    | .error e' =>
      rw [ha] at hr
      cases hr
      exact ⟨[], a, as, st, rfl, by simpa using h, ha⟩
    | .ok st₁   =>
      rw [ha] at hr
      obtain ⟨as₁, b, as₂, st₂, rfl, h₂, hb⟩ := ih (hP _ _ _ _ h ha) hr
      exact ⟨a :: as₁, b, as₂, st₂, rfl, by simpa using h₂, hb⟩

-- A loop that raises has gone through a part of the items.
theorem foldlM_error_iff : as.foldlM f st = .error e ↔
    ∃ as₁ a as₂ st₁, as = as₁ ++ a :: as₂ ∧ as₁.foldlM f st = .ok st₁ ∧ f st₁ a = .error e := by
  constructor
  · intro h
    obtain ⟨as₁, a, as₂, st₁, has, hr, ha⟩ :=
      foldlM_error (P := fun done st' => done.foldlM f st = .ok st') (fun done st₁ a st₂ hd ha => by
        rw [List.foldlM_append, hd]
        exact bind_ok.mpr ⟨_, rfl, bind_ok.mpr ⟨_, ha, rfl⟩⟩) (rfl : ([] : List α).foldlM f st = .ok st) h
    exact ⟨as₁, a, as₂, st₁, has, hr, ha⟩
  · rintro ⟨as₁, a, as₂, st₁, rfl, hr, ha⟩
    rw [List.foldlM_append, hr]
    exact bind_error.mpr (.inr ⟨_, rfl, bind_error.mpr (.inl ha)⟩)

-- A loop that does not raise is one that cannot.
theorem foldlM_eq {g : σ → α → σ} (hg : ∀ st a st', f st a = .ok st' → st' = g st a)
    (hr : as.foldlM f st = .ok st') : st' = as.foldl g st := by
  induction as generalizing st with
  | nil          => exact (Except.ok.inj hr).symm
  | cons a as ih =>
    rw [List.foldlM_cons] at hr
    obtain ⟨st₁, hf, hr⟩ := bind_ok.mp hr
    rw [List.foldl_cons, ← hg _ _ _ hf]
    exact ih hr

-- What every round keeps between the states before and after it.
theorem foldlM_related {R : σ → σ → Prop} (hrefl : ∀ st, R st st)
    (htrans : ∀ st₁ st₂ st₃, R st₁ st₂ → R st₂ st₃ → R st₁ st₃)
    (hR : ∀ a ∈ as, ∀ st st', f st a = .ok st' → R st st') (hr : as.foldlM f st = .ok st') : R st st' := by
  induction as generalizing st with
  | nil          =>
    cases hr
    exact hrefl _
  | cons a as ih =>
    have ⟨ha, has⟩ := List.forall_mem_cons.mp hR
    rw [List.foldlM_cons] at hr
    obtain ⟨st₁, hf, hr⟩ := bind_ok.mp hr
    exact htrans _ _ _ (ha _ _ hf) (ih has hr)

end FoldlM

-- A loop that keeps the latest value of each key, and lets a value in if it goes with the one before
-- it under its key.
structure KeepsLatest {σ κ β : Type} [DecidableEq κ] (f : σ → α → Except ε σ)
    (get? : σ → κ → Option β) (key : α → κ) (value : α → β) (R : β → β → Prop) : Prop where
  ok  : ∀ st a, (∃ st', f st a = .ok st') ↔ ∀ b, get? st (key a) = some b → R b (value a)
  get : ∀ st a st' k, f st a = .ok st' →
    get? st' k = if k = key a then some (value a) else get? st k

namespace KeepsLatest

variable {σ κ β : Type} [DecidableEq κ] {f : σ → α → Except ε σ} {get? : σ → κ → Option β}
  {key : α → κ} {value : α → β} {R : β → β → Prop} {st st' : σ} {as : List α}

-- The values under a key, in their order.
def under (key : α → κ) (value : α → β) (as : List α) (k : κ) : List β :=
  (as.filter (key · = k)).map value

theorem under_cons {a : α} {k : κ} : under key value (a :: as) k =
    if k = key a then value a :: under key value as k else under key value as k := by
  by_cases h : k = key a
  case pos => simp [under, h]
  case neg => simp [under, h, Ne.symm h]

theorem chain (h : KeepsLatest f get? key value R) : (∃ st', as.foldlM f st = .ok st') ↔
    ∀ k, ((get? st k).toList ++ under key value as k).IsChain R := by
  induction as generalizing st with
  | nil          =>
    refine ⟨fun _ k => ?_, fun _ => ⟨_, rfl⟩⟩
    cases get? st k
    all_goals simp [under]
  | cons a as ih =>
    have hnext {st'} (hr : f st a = .ok st') (k : κ) :
        ((get? st' k).toList ++ under key value as k).IsChain R ↔
          if k = key a then (value a :: under key value as k).IsChain R
          else ((get? st k).toList ++ under key value as k).IsChain R := by
      rw [h.get st a st' k hr]
      split <;> rfl
    rw [List.foldlM_cons]
    constructor
    · rintro ⟨r, hr⟩ k
      obtain ⟨st', ha, hr⟩ := bind_ok.mp hr
      have hk := (hnext ha k).mp (ih.mp ⟨r, hr⟩ k)
      rw [under_cons]
      split at hk
      case isTrue he  =>
        rw [if_pos he]
        cases hb : get? st k
        case none   => exact hk
        case some b => exact .cons_cons ((h.ok st a).mp ⟨st', ha⟩ b (he ▸ hb)) hk
      case isFalse he => rwa [if_neg he]
    · intro hall
      have hok : ∀ b, get? st (key a) = some b → R b (value a) := by
        intro b hb
        have hk := hall (key a)
        rw [under_cons, if_pos rfl, hb] at hk
        exact (List.isChain_cons_cons.mp hk).left
      obtain ⟨st', ha⟩ := (h.ok st a).mpr hok
      have ⟨r, hr⟩ := (@ih st').mpr fun k => by
        have hk := hall k
        rw [under_cons] at hk
        refine (hnext ha k).mpr ?_
        split
        case isTrue he  =>
          rw [if_pos he] at hk
          exact hk.right_of_append
        case isFalse he => rwa [if_neg he] at hk
      exact ⟨r, bind_ok.mpr ⟨st', ha, hr⟩⟩

theorem latest (h : KeepsLatest f get? key value R) (hr : as.foldlM f st = .ok st') (k : κ) :
    get? st' k = (under key value as k).getLast?.or (get? st k) := by
  induction as generalizing st with
  | nil          =>
    cases hr
    rfl
  | cons a as ih =>
    rw [List.foldlM_cons] at hr
    obtain ⟨st₁, ha, hr⟩ := bind_ok.mp hr
    rw [ih hr, h.get st a st₁ k ha, under_cons]
    split
    case isTrue  => cases hl : under key value as k <;> simp [List.getLast?_cons]
    case isFalse => rfl

end KeepsLatest

-- Whatever is raised is as `p` says.
def Raises (p : ε → Prop) (x : Except ε α) : Prop :=
  ∀ e, x = .error e → p e

namespace Raises

variable {p : ε → Prop}

theorem ok {a : α} : Raises p (.ok a : Except ε α) :=
  nofun

theorem error {e : ε} (h : p e) : Raises p (.error e : Except ε α) :=
  fun _ he => by cases he; exact h

theorem total {x : Except ε α} (h : Raises (fun _ => False) x) : ∃ a, x = .ok a := by
  cases x
  case ok a    => exact ⟨a, rfl⟩
  case error e => exact (h e rfl).elim

theorem mono {p' : ε → Prop} {x : Except ε α} (h : Raises p x) (hp : ∀ e, p e → p' e) :
    Raises p' x :=
  fun e he => hp e (h e he)

theorem bind {x : Except ε α} {f : α → Except ε β} (h : Raises p x)
    (hf : ∀ a, x = .ok a → Raises p (f a)) : Raises p (x >>= f) := by
  cases x
  case ok a    => exact hf a rfl
  case error e => exact .error (h e rfl)

theorem mapError {ε' : Type} {x : Except ε' α} {g : ε' → ε} (h : Raises (fun e => p (g e)) x) :
    Raises p (x.mapError g) := by
  cases x
  case ok    => exact .ok
  case error => exact .error (h _ rfl)

theorem mapM {f : α → Except ε β} {as : List α} (h : ∀ a ∈ as, Raises p (f a)) :
    Raises p (as.mapM f) := by
  induction as with
  | nil          => exact .ok
  | cons a as ih =>
    have ⟨ha, has⟩ := List.forall_mem_cons.mp h
    rw [List.mapM_cons]
    exact ha.bind fun _ _ => (ih has).bind fun _ _ => .ok

theorem forM {f : α → Except ε Unit} {as : List α} (h : ∀ a ∈ as, Raises p (f a)) :
    Raises p (as.forM f) := by
  induction as with
  | nil          => exact .ok
  | cons a as ih =>
    have ⟨ha, has⟩ := List.forall_mem_cons.mp h
    exact ha.bind fun _ _ => ih has

theorem foldlM {σ : Type} {f : σ → α → Except ε σ} {as : List α} {st : σ}
    (h : ∀ st, ∀ a ∈ as, Raises p (f st a)) : Raises p (as.foldlM f st) := by
  induction as generalizing st with
  | nil          => exact .ok
  | cons a as ih =>
    rw [List.foldlM_cons]
    exact (h st a (List.mem_cons_self ..)).bind fun _ _ =>
      ih fun st b hb => h st b (List.mem_cons_of_mem _ hb)

end Raises

end Fallible
