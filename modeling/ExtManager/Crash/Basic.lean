import Mathlib.Logic.Relation
import Mathlib.Tactic.Common

namespace Crash

-- What one call of a program does when it is started in a given state: the states in which the
-- process may have died on the way, the value or exception it ends with, and the state it leaves.
structure Result (σ ε α : Type) where
  trail : List σ
  value : Except ε α
  state : σ

-- The states in which a call may leave the world: it dies on its trail or it comes to its end.
def Result.ends {σ ε α : Type} (r : Result σ ε α) : List σ :=
  r.trail ++ [r.state]

-- A program over a world `σ` that raises exceptions of type `ε`. The process can be killed before
-- every atomic step (`act`), and only there: anything else it does is lost with the process.
def Prog (σ ε α : Type) :=
  σ → Result σ ε α

namespace Prog

variable {σ ρ ε α β : Type}

-- A step that touches nothing durable: a read, a check, a change of the process's own memory.
def silent (f : σ → Except ε α × σ) : Prog σ ε α :=
  fun s => match f s with
    | (v, s') => ⟨[], v, s'⟩

-- A durable step: the commit of one transaction or one call of an external system. The process
-- may die before it, and the step itself is all or nothing.
def act (f : σ → Except ε α × σ) : Prog σ ε α :=
  fun s => match f s with
    | (v, s') => ⟨[s], v, s'⟩

protected def pure (a : α) : Prog σ ε α :=
  silent fun s => (.ok a, s)

protected def bind (m : Prog σ ε α) (f : α → Prog σ ε β) : Prog σ ε β :=
  fun s => match m s with
    | ⟨t, .ok a, s'⟩    => match f a s' with
      | ⟨t', v, s''⟩ => ⟨t ++ t', v, s''⟩
    | ⟨t, .error e, s'⟩ => ⟨t, .error e, s'⟩

instance : Monad (Prog σ ε) where
  pure := Prog.pure
  bind := Prog.bind

def read (f : σ → α) : Prog σ ε α :=
  silent fun s => (.ok (f s), s)

def modify (f : σ → σ) : Prog σ ε Unit :=
  silent fun s => (.ok (), f s)

def lift (f : σ → Except ε α) : Prog σ ε α :=
  silent fun s => (f s, s)

def raise (e : ε) : Prog σ ε α :=
  silent fun s => (.error e, s)

def raiseIf (c : Prop) [Decidable c] (e : ε) : Prog σ ε Unit :=
  if c then raise e else Pure.pure ()

def when (c : Prop) [Decidable c] (m : Prog σ ε Unit) : Prog σ ε Unit :=
  if c then m else Pure.pure ()

-- `try m except e: h e`. The death of the process is not an exception and is not caught.
def attempt (m : Prog σ ε α) (h : ε → Prog σ ε α) : Prog σ ε α :=
  fun s => match m s with
    | ⟨t, .ok a, s'⟩    => ⟨t, .ok a, s'⟩
    | ⟨t, .error e, s'⟩ => match h e s' with
      | ⟨t', v, s''⟩ => ⟨t ++ t', v, s''⟩

-- Drops the value.
def void (m : Prog σ ε α) : Prog σ ε Unit :=
  m >>= fun _ => Pure.pure ()

-- Runs a program on a part of the world.
def zoom (get : σ → ρ) (set : ρ → σ → σ) (m : Prog ρ ε α) : Prog σ ε α :=
  fun s => match m (get s) with
    | ⟨t, v, s'⟩ => ⟨t.map (set · s), v, set s' s⟩

-- The weakest condition under which a call ends as `Q` says, and dies, if it dies, where `D` holds.
def wp (m : Prog σ ε α) (Q : Except ε α → σ → Prop) (D : σ → Prop) (s : σ) : Prop :=
  (∀ t ∈ (m s).trail, D t) ∧ Q (m s).value (m s).state

-- A call that is not killed returns `a` and leaves `s'`.
def Returns (m : Prog σ ε α) (a : α) (s s' : σ) : Prop :=
  (m s).value = .ok a ∧ (m s).state = s'

end Prog

-- The states a system comes to from its initial ones.
inductive Reachable {σ : Type} (init : σ → Prop) (step : σ → σ → Prop) : σ → Prop
  | init {s} : init s → Reachable init step s
  | step {s s'} : Reachable init step s → step s s' → Reachable init step s'

end Crash
