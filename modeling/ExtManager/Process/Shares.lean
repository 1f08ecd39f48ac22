import ExtManager.Process.Rules

namespace Process

-- What processes without a lock promise each other. Each of them has a part of the state, which is
-- apart from the parts of the others; by a call it may exchange its part for another one. `guar` is
-- what a call may do, and `rely` what a process has to expect of the others between two calls. All
-- calls together keep `inv`, so that every process may build on it.
structure Sharing (σ ρ : Type) where
  nothing : ρ
  inv : σ → Prop
  valid : ρ → σ → Prop
  apart : ρ → ρ → Prop
  guar : ρ → ρ → σ → σ → Prop
  rely : ρ → σ → σ → Prop
  apart_symm : ∀ {r t}, apart r t → apart t r
  apart_nothing : ∀ r, apart r nothing
  valid_nothing : ∀ s, valid nothing s
  rely_refl : ∀ r s, rely r s s
  rely_trans : ∀ {r s₁ s₂ s₃}, rely r s₁ s₂ → rely r s₂ s₃ → rely r s₁ s₃
  valid_rely : ∀ {r s s'}, rely r s s' → valid r s → valid r s'
  inv_guar : ∀ {r r' s s'}, guar r r' s s' → inv s → valid r s → inv s'
  valid_guar : ∀ {r r' s s'}, guar r r' s s' → inv s → valid r s → valid r' s'
  others : ∀ {r r' t s s'}, guar r r' s s' → inv s → valid r s → apart r t → valid t s →
    apart r' t ∧ rely t s s'

variable {C : Type} {A : C → Type} {ε τ σ ρ α β : Type}

-- Run from `s` on with the part `r`, with the others in between, the program keeps to what it has
-- promised call by call, and when it ends its value, its part and the state satisfy `Q`. It leaves
-- the lock alone.
def Shares (sys : (c : C) → σ → A c → σ → Prop) (d : Sharing σ ρ) (Q : Except ε α → ρ → σ → Prop) :
    ρ → Prog C A ε α → σ → Prop
  | r, .ret v,      s => Q v r s
  | r, .call c k,   s => d.inv s → d.valid r s → ∀ a s', sys c s a s' →
      ∃ r', d.guar r r' s s' ∧ ∀ s'', d.rely r' s' s'' → Shares sys d Q r' (k a) s''
  | _, .acquire _ _, _ => False
  | _, .release _,   _ => False

section Shares

variable {sys : (c : C) → σ → A c → σ → Prop} {d : Sharing σ ρ} {r : ρ} {s : σ}
variable {Q Q' : Except ε α → ρ → σ → Prop} {m : Prog C A ε α}

theorem Shares.mono (h : Shares sys d Q r m s) (hq : ∀ v r s, Q v r s → Q' v r s) :
    Shares sys d Q' r m s := by
  induction m generalizing r s with
  | ret v          => exact hq _ _ _ h
  | call c k ih    =>
    intro hi hv a s' hs
    have ⟨r', hg, hk⟩ := h hi hv a s' hs
    exact ⟨r', hg, fun s'' hr => ih a (hk s'' hr)⟩
  | acquire m k ih => exact h.elim
  | release k ih   => exact h.elim

theorem shares_andThen {f : Except ε α → Prog C A ε β} {Q : Except ε β → ρ → σ → Prop} :
    Shares sys d Q r (m.andThen f) s ↔
      Shares sys d (fun v r' s' => Shares sys d Q r' (f v) s') r m s := by
  induction m generalizing r s with
  | ret v          => rfl
  | call c k ih    => simp only [Prog.andThen, Shares, ih]
  | acquire m k ih => rfl
  | release k ih   => rfl

-- What every call and every move of the others keeps is there at the end.
theorem Shares.keep {J : σ → Prop} (h : Shares sys d Q r m s)
    (hg : ∀ r r' s s', d.guar r r' s s' → d.inv s → d.valid r s → J s → J s')
    (hr : ∀ r s s', d.rely r s s' → J s → J s') (hs : J s) :
    Shares sys d (fun v r s => Q v r s ∧ J s) r m s := by
  induction m generalizing r s with
  | ret v          => exact ⟨h, hs⟩
  | call c k ih    =>
    intro hi hv a s' hc
    have ⟨r', hgu, hk⟩ := h hi hv a s' hc
    exact ⟨r', hgu, fun s'' hre => ih a (hk s'' hre) (hr _ _ _ hre (hg _ _ _ _ hgu hi hv hs))⟩
  | acquire m k ih => exact h.elim
  | release k ih   => exact h.elim

end Shares

-- When the program ends with a value, `P` holds.
def Gives (sys : (c : C) → σ → A c → σ → Prop) (d : Sharing σ ρ) (P : α → ρ → σ → Prop)
    (m : Prog C A ε α) (r : ρ) (s : σ) : Prop :=
  Shares sys d (fun v r' s' => ∀ a, v = .ok a → P a r' s') r m s

-- The others do not change whether it holds.
def Stable (d : Sharing σ ρ) (P : ρ → σ → Prop) : Prop :=
  ∀ r s s', d.rely r s s' → P r s → P r s'

namespace Gives

variable {sys : (c : C) → σ → A c → σ → Prop} {d : Sharing σ ρ} {r : ρ} {s : σ}
variable {P P' : α → ρ → σ → Prop} {m : Prog C A ε α}

theorem pure {a : α} (h : P a r s) : Gives sys d P (Pure.pure a : Prog C A ε α) r s := by
  intro a' ha
  cases ha
  exact h

theorem raise {e : ε} : Gives sys d P (Prog.raise e : Prog C A ε α) r s :=
  nofun

theorem lift {v : Except ε α} (h : ∀ a, v = .ok a → P a r s) :
    Gives sys d P (Prog.lift v : Prog C A ε α) r s :=
  h

theorem mono (h : Gives sys d P m r s) (hp : ∀ a r s, P a r s → P' a r s) : Gives sys d P' m r s :=
  Shares.mono h fun _ r s hv a ha => hp a r s (hv a ha)

theorem andThen {R : α → ρ → σ → Prop} {f : Except ε α → Prog C A ε β} {P : β → ρ → σ → Prop}
    (h : Gives sys d R m r s) (hok : ∀ a r s, R a r s → Gives sys d P (f (.ok a)) r s)
    (herr : ∀ e r s, Gives sys d P (f (.error e)) r s) : Gives sys d P (m.andThen f) r s := by
  refine shares_andThen.mpr (Shares.mono h fun v r s hv => ?_)
  cases v
  case ok a    => exact hok a r s (hv a rfl)
  case error e => exact herr e r s

theorem bind {R : α → ρ → σ → Prop} {k : α → Prog C A ε β} {P : β → ρ → σ → Prop}
    (h : Gives sys d R m r s) (hk : ∀ a r s, R a r s → Gives sys d P (k a) r s) :
    Gives sys d P (m >>= k) r s :=
  h.andThen hk fun _ _ _ => .raise

theorem attempt {k : ε → Prog C A ε α} (h : Gives sys d P m r s)
    (hk : ∀ e r s, Gives sys d P (k e) r s) : Gives sys d P (m.attempt k) r s :=
  h.andThen (fun _ _ _ hp => .pure hp) hk

theorem ensure {f : Prog C A ε Unit} (h : Gives sys d P m r s)
    (hf : ∀ a r s, P a r s → Gives sys d (fun _ => P a) f r s)
    (he : ∀ r s, Gives sys d (fun _ _ _ => True) f r s) : Gives sys d P (m.ensure f) r s := by
  refine h.andThen (fun a r s hp => ?_) fun e r s => ?_
  · exact (hf a r s hp).andThen (fun _ _ _ hp => .pure hp) fun _ _ _ => .raise
  · exact (he r s).andThen (fun _ _ _ _ => .raise) fun _ _ _ => .raise

theorem raiseIf_seq {c : Prop} [Decidable c] {e : ε} {k : Unit → Prog C A ε α}
    (h : ¬c → Gives sys d P (k ()) r s) : Gives sys d P (Prog.raiseIf c e >>= k) r s := by
  unfold Prog.raiseIf
  split
  case isTrue  => exact .raise
  case isFalse => exact h ‹_›

-- A call with an answer, where the others do not change what is known of it.
theorem call {c : C} {k : A c → Prog C A ε α} {R : A c → ρ → σ → Prop}
    (hR : ∀ a, Stable d (R a)) (h : ∀ a s', sys c s a s' → ∃ r', d.guar r r' s s' ∧ R a r' s')
    (hk : ∀ a r s, R a r s → Gives sys d P (k a) r s) : Gives sys d P (.call c k) r s := by
  intro _ _ a s' hs
  have ⟨r', hg, ha⟩ := h a s' hs
  exact ⟨r', hg, fun s'' hr => hk a r' s'' (hR a r' s' s'' hr ha)⟩

theorem keep {J : σ → Prop} (h : Gives sys d P m r s)
    (hg : ∀ r r' s s', d.guar r r' s s' → d.inv s → d.valid r s → J s → J s')
    (hr : ∀ r s s', d.rely r s s' → J s → J s') (hs : J s) :
    Gives sys d (fun a r s => P a r s ∧ J s) m r s :=
  Shares.mono (Shares.keep h hg hr hs) fun _ _ _ ⟨hv, hj⟩ a ha => ⟨hv a ha, hj⟩

end Gives

section Reachable

variable {sys : (c : C) → σ → A c → σ → Prop} {d : Sharing σ ρ}
variable {program : τ → Prog C A ε Unit} {allowed : τ → Prop} {init : σ → Prop}
variable {w w' : World C A ε τ σ}

-- The processes have parts of their own, and what is left of each keeps to its promises.
structure Parted (sys : (c : C) → σ → A c → σ → Prop) (d : Sharing σ ρ) (w : World C A ε τ σ)
    (part : Nat → ρ) : Prop where
  apart : ∀ q q', q ≠ q' → d.apart (part q) (part q')
  valid : ∀ q, d.valid (part q) w.state
  gives : ∀ q p, w.proc q = some p → ∀ s, d.rely (part q) w.state s →
    Gives sys d (fun _ _ _ => True) p.prog (part q) s

-- One process moves on with another part.
theorem Parted.update {part : Nat → ρ} {q : Nat} {p : Option (Proc C A ε τ)} {r : ρ} {s : σ}
    (h : Parted sys d w part) (ha : ∀ t, d.apart (part q) t → d.valid t w.state → d.apart r t)
    (hv : d.valid r s) (ho : ∀ t, d.apart (part q) t → d.valid t w.state → d.rely t w.state s)
    (hp : ∀ p' ∈ p, ∀ s', d.rely r s s' → Gives sys d (fun _ _ _ => True) p'.prog r s') :
    Parted sys d ({ w with state := s }.put q p) (Function.update part q r) where
  apart := by
    have hq' {q'} (hne : q ≠ q') : d.apart r (part q') := ha _ (h.apart q q' hne) (h.valid q')
    intro q₁ q₂ hne
    by_cases h₁ : q₁ = q
    · subst h₁
      rw [Function.update_self, Function.update_of_ne hne.symm]
      exact hq' hne
    · rw [Function.update_of_ne h₁]
      by_cases h₂ : q₂ = q
      · subst h₂
        rw [Function.update_self]
        exact d.apart_symm (hq' hne.symm)
      · rw [Function.update_of_ne h₂]
        exact h.apart q₁ q₂ hne
  valid := by
    intro q'
    by_cases hq : q' = q
    · subst hq
      rw [Function.update_self]
      exact hv
    · rw [Function.update_of_ne hq]
      exact d.valid_rely (ho _ (h.apart q q' (Ne.symm hq)) (h.valid q')) (h.valid q')
  gives := by
    intro q' p' h' s' hs
    rcases put_eq h' with ⟨rfl, hx⟩ | ⟨hq, hp'⟩
    · rw [Function.update_self] at hs ⊢
      exact hp p' hx s' hs
    · rw [Function.update_of_ne hq] at hs ⊢
      have hr := ho _ (h.apart q q' (Ne.symm hq)) (h.valid q')
      exact h.gives q' p' hp' s' (d.rely_trans hr hs)

-- A step is within what every process has to expect, and leaves the processes parted.
theorem Parted.step {part : Nat → ρ}
    (hp : ∀ t, allowed t → ∀ s, Gives sys d (fun _ _ _ => True) (program t) d.nothing s)
    (h : Parted sys d w part) (hi : d.inv w.state) (st : Step sys program allowed w w') :
    (∃ part', Parted sys d w' part') ∧ d.inv w'.state ∧ d.rely d.nothing w.state w'.state := by
  have hnone (q : Nat) : d.apart (part q) d.nothing := d.apart_nothing _
  cases st
  case start q t _ ha =>
    refine ⟨⟨_, h.update (fun t _ _ => d.apart_symm (d.apart_nothing t)) (d.valid_nothing _)
      (fun t _ _ => d.rely_refl t _) ?_⟩, hi, d.rely_refl ..⟩
    intro p' hp' s' _
    cases hp'
    exact hp t ha s'
  case call q t l c k a s hq hs =>
    have hv := h.valid q
    have ⟨r', hg, hk⟩ := h.gives q _ hq w.state (d.rely_refl ..) hi hv a s hs
    refine ⟨⟨_, h.update (fun t ha ht => (d.others hg hi hv ha ht).1) (d.valid_guar hg hi hv)
      (fun t ha ht => (d.others hg hi hv ha ht).2) ?_⟩, d.inv_guar hg hi hv,
      (d.others hg hi hv (hnone q) (d.valid_nothing _)).2⟩
    intro p' hp' s' hr
    cases hp'
    exact hk s' hr
  case acquired q t m k hq hg => exact (h.gives q _ hq w.state (d.rely_refl ..)).elim
  case refused q t l m k hq   => exact (h.gives q _ hq w.state (d.rely_refl ..)).elim
  case released q t l k hq    => exact (h.gives q _ hq w.state (d.rely_refl ..)).elim
  case killed q =>
    refine ⟨⟨_, h.update (fun t ha _ => ha) (h.valid q) (fun t _ _ => d.rely_refl t _) ?_⟩, hi,
      d.rely_refl ..⟩
    exact nofun

theorem Parted.reachable (hi : ∀ s, init s → d.inv s)
    (hp : ∀ t, allowed t → ∀ s, Gives sys d (fun _ _ _ => True) (program t) d.nothing s)
    (h : Reachable sys program allowed init w) : (∃ part, Parted sys d w part) ∧ d.inv w.state := by
  induction h with
  | init hs      =>
    refine ⟨⟨fun _ => d.nothing, ?_⟩, hi _ hs⟩
    exact ⟨fun _ _ _ => d.apart_nothing _, fun _ => d.valid_nothing _, nofun⟩
  | step _ st ih =>
    have ⟨⟨_, hpart⟩, hinv⟩ := ih
    have ⟨hpart', hinv', _⟩ := hpart.step hp hinv st
    exact ⟨hpart', hinv'⟩

-- What a whole run may do to the state.
theorem Parted.rely {part : Nat → ρ}
    (hp : ∀ t, allowed t → ∀ s, Gives sys d (fun _ _ _ => True) (program t) d.nothing s)
    (h : Parted sys d w part) (hi : d.inv w.state)
    (hs : Relation.ReflTransGen (Step sys program allowed) w w') :
    d.rely d.nothing w.state w'.state := by
  have hall : (∃ part', Parted sys d w' part') ∧ d.inv w'.state ∧
      d.rely d.nothing w.state w'.state := by
    induction hs with
    | refl           => exact ⟨⟨part, h⟩, hi, d.rely_refl ..⟩
    | tail _ st ih   =>
      have ⟨⟨_, hpart⟩, hinv, hrely⟩ := ih
      have ⟨hpart', hinv', hrely'⟩ := hpart.step hp hinv st
      exact ⟨hpart', hinv', d.rely_trans hrely hrely'⟩
  exact hall.2.2

end Reachable

end Process
