import Mathlib.Logic.Relation
import Mathlib.Tactic.Common

namespace Process

-- How a process may hold the one advisory lock of the system: with other holders, or alone.
inductive Mode
  | shared
  | exclusive
  deriving DecidableEq

-- A program is the tree of the calls it makes. A call is a request to the outside world, and the
-- rest of the program depends on its answer. A request for the lock is granted or refused. A
-- program ends with a value or with an exception.
inductive Prog (C : Type) (A : C → Type) (ε α : Type)
  | ret (v : Except ε α)
  | call (c : C) (k : A c → Prog C A ε α)
  | acquire (m : Mode) (k : Bool → Prog C A ε α)
  | release (k : Prog C A ε α)

namespace Prog

variable {C : Type} {A : C → Type} {ε α β : Type}

-- Goes on with `f` however the program ends.
def andThen (f : Except ε α → Prog C A ε β) : Prog C A ε α → Prog C A ε β
  | ret v       => f v
  | call c k    => call c fun a => (k a).andThen f
  | acquire m k => acquire m fun b => (k b).andThen f
  | release k   => release (k.andThen f)

instance : Monad (Prog C A ε) where
  pure a   := ret (.ok a)
  bind m f := m.andThen fun v => match v with
    | .ok a    => f a
    | .error e => ret (.error e)

def raise (e : ε) : Prog C A ε α :=
  ret (.error e)

def raiseIf (c : Prop) [Decidable c] (e : ε) : Prog C A ε Unit :=
  if c then raise e else pure ()

def when (c : Prop) [Decidable c] (m : Prog C A ε Unit) : Prog C A ε Unit :=
  if c then m else pure ()

def lift (v : Except ε α) : Prog C A ε α :=
  ret v

-- `try m except e: h e`.
def attempt (m : Prog C A ε α) (h : ε → Prog C A ε α) : Prog C A ε α :=
  m.andThen fun v => match v with
    | .ok a    => ret (.ok a)
    | .error e => h e

-- `try m finally: f`. An exception of `f` takes the place of what `m` ended with.
def ensure (m : Prog C A ε α) (f : Prog C A ε Unit) : Prog C A ε α :=
  m.andThen fun v => f.andThen fun u => match u with
    | .ok _    => ret v
    | .error e => ret (.error e)

-- Runs `m` and hands its exception on as a value.
def capture (m : Prog C A ε α) : Prog C A ε (Except ε α) :=
  m.andThen fun v => ret (.ok v)

-- Whether a program makes only calls of a kind, and leaves the lock alone.
def Only (p : C → Prop) : Prog C A ε α → Prop
  | ret _       => True
  | call c k    => p c ∧ ∀ a, (k a).Only p
  | acquire _ _ => False
  | release _   => False

end Prog

-- A process at work: what it was started for, how it holds the lock, what is left of its program.
structure Proc (C : Type) (A : C → Type) (ε τ : Type) where
  task : τ
  lock : Option Mode
  prog : Prog C A ε Unit

structure World (C : Type) (A : C → Type) (ε τ σ : Type) where
  state : σ
  proc : Nat → Option (Proc C A ε τ)

namespace World

variable {C : Type} {A : C → Type} {ε τ σ ρ : Type}

def put (w : World C A ε τ σ) (q : Nat) (p : Option (Proc C A ε τ)) : World C A ε τ σ :=
  { w with proc := Function.update w.proc q p }

-- The lock excludes: who asks for it alone gets it when nobody has it, who shares it when nobody
-- has it alone.
def Grants (w : World C A ε τ σ) : Mode → Prop
  | .shared    => ∀ q p, w.proc q = some p → p.lock ≠ some .exclusive
  | .exclusive => ∀ q p, w.proc q = some p → p.lock = none

def map (π : σ → ρ) (w : World C A ε τ σ) : World C A ε τ ρ :=
  { state := π w.state, proc := w.proc }

end World

-- Any process moves by one call, or starts, or is killed. The lock of a process that is gone is
-- free; a process that has come to its end keeps what it has not given back until it is gone.
inductive Step {C : Type} {A : C → Type} {ε τ σ : Type} (sys : (c : C) → σ → A c → σ → Prop)
    (program : τ → Prog C A ε Unit) (allowed : τ → Prop) :
    World C A ε τ σ → World C A ε τ σ → Prop
  | start {w q} (t : τ) : w.proc q = none → allowed t →
      Step sys program allowed w (w.put q (some ⟨t, none, program t⟩))
  | call {w q t l c k a s} : w.proc q = some ⟨t, l, .call c k⟩ → sys c w.state a s →
      Step sys program allowed w ({ w with state := s }.put q (some ⟨t, l, k a⟩))
  | acquired {w q t m k} : w.proc q = some ⟨t, none, .acquire m k⟩ → w.Grants m →
      Step sys program allowed w (w.put q (some ⟨t, some m, k true⟩))
  | refused {w q t l m k} : w.proc q = some ⟨t, l, .acquire m k⟩ →
      Step sys program allowed w (w.put q (some ⟨t, l, k false⟩))
  | released {w q t l k} : w.proc q = some ⟨t, l, .release k⟩ →
      Step sys program allowed w (w.put q (some ⟨t, none, k⟩))
  | killed {w} (q : Nat) : Step sys program allowed w (w.put q none)

-- The worlds that a system comes to when it starts without processes in one of the states `init`.
inductive Reachable {C : Type} {A : C → Type} {ε τ σ : Type} (sys : (c : C) → σ → A c → σ → Prop)
    (program : τ → Prog C A ε Unit) (allowed : τ → Prop) (init : σ → Prop) :
    World C A ε τ σ → Prop
  | init {s} : init s → Reachable sys program allowed init ⟨s, fun _ => none⟩
  | step {w w'} : Reachable sys program allowed init w → Step sys program allowed w w' →
      Reachable sys program allowed init w'

-- What the processes promise each other. `step m` is what one call may do to the state while its
-- process holds the lock in mode `m`. `shared` is what a process that shares the lock has to
-- expect of the others, and `any` what a process without it has to expect; one that holds the lock
-- alone finds the state as it left it.
structure Discipline (σ : Type) where
  step : Mode → σ → σ → Prop
  shared : σ → σ → Prop
  any : σ → σ → Prop
  shared_refl : ∀ s, shared s s
  shared_trans : ∀ {s₁ s₂ s₃}, shared s₁ s₂ → shared s₂ s₃ → shared s₁ s₃
  any_refl : ∀ s, any s s
  any_trans : ∀ {s₁ s₂ s₃}, any s₁ s₂ → any s₂ s₃ → any s₁ s₃
  shared_of_step : ∀ {s s'}, step .shared s s' → shared s s'
  any_of_shared : ∀ {s s'}, shared s s' → any s s'
  any_of_step : ∀ {s s'}, step .exclusive s s' → any s s'

namespace Discipline

variable {σ : Type}

-- What one call may do.
def guar (d : Discipline σ) : Option Mode → σ → σ → Prop
  | none   => Eq
  | some m => d.step m

-- What the others may do between two calls.
def rely (d : Discipline σ) : Option Mode → σ → σ → Prop
  | none            => d.any
  | some .shared    => d.shared
  | some .exclusive => Eq

end Discipline

-- Run from `s` on, with the others in between, the program keeps to the discipline call by call,
-- and when it ends its value, its hold on the lock and the state satisfy `Q`.
def Safe {C : Type} {A : C → Type} {ε σ α : Type} (sys : (c : C) → σ → A c → σ → Prop)
    (d : Discipline σ) (Q : Except ε α → Option Mode → σ → Prop) :
    Option Mode → Prog C A ε α → σ → Prop
  | l, .ret v,       s => Q v l s
  | l, .call c k,    s => ∀ a s', sys c s a s' →
      d.guar l s s' ∧ ∀ s'', d.rely l s' s'' → Safe sys d Q l (k a) s''
  | l, .acquire m k, s =>
      (l = none → ∀ s', d.rely (some m) s s' → Safe sys d Q (some m) (k true) s') ∧
      ∀ s', d.rely l s s' → Safe sys d Q l (k false) s'
  | _, .release k,   s => ∀ s', d.any s s' → Safe sys d Q none k s'

-- Run alone, with one bit for each call, until the bits are used up. The lock is granted to who does
-- not have it.
def exec {C : Type} {A : C → Type} {ε σ α : Type} (act : (c : C) → Bool → σ → A c × σ) :
    List Bool → Option Mode → Prog C A ε α → σ → Option Mode × Prog C A ε α × σ
  | _,       l,      .ret v,       s => (l, .ret v, s)
  | bs,      _,      .release k,   s => exec act bs none k s
  | [],      l,      m,            s => (l, m, s)
  | b :: bs, l,      .call c k,    s => match act c b s with
    | (a, s') => exec act bs l (k a) s'
  | _ :: bs, none,   .acquire m k, s => exec act bs (some m) (k true) s
  | _ :: bs, some l, .acquire _ k, s => exec act bs (some l) (k false) s

-- The state after processes that run one after the other, each until its bits are used up and it is
-- killed.
def runs {C : Type} {A : C → Type} {ε τ σ : Type} (act : (c : C) → Bool → σ → A c × σ)
    (program : τ → Prog C A ε Unit) : List (τ × List Bool) → σ → σ
  | [],            s => s
  | (t, bs) :: ts, s => runs act program ts (exec act bs none (program t) s).2.2

end Process
