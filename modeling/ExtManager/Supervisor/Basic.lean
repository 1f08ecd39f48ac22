import Mathlib.Data.List.Basic
import Mathlib.Order.Basic

-- The supervisor of a command that has been launched, and the signals that interrupt it.
namespace Supervisor

inductive Sig
  | term
  | int
  | hup
  | kill
  deriving DecidableEq

def Sig.number : Sig → Int
  | .hup  => 1
  | .int  => 2
  | .kill => 9
  | .term => 15

def managedSignals : List Sig :=
  [.term, .int, .hup]

inductive Failure
  -- The grace period is negative.
  | value
  -- The command cannot be started.
  | popen
  -- A `PermissionError` of `os.killpg`.
  | permission
  -- An `IndexError`.
  | index
  deriving DecidableEq

abbrev Result :=
  Except Failure Int

-- The command itself: nobody has waited for it before it is reaped.
inductive Child
  | none
  | running
  | exited (returnCode : Int)
  | reaped (returnCode : Int)
  deriving DecidableEq

-- How far `forward` has come.
inductive Pc
  | enter
  | append (firstSignal : Bool)
  | start (firstSignal : Bool)
  | test
  | send (forwarded : Sig)
  deriving DecidableEq

-- A handler at work.
structure Frame where
  signum : Sig
  pc     : Pc
  deriving DecidableEq

-- How far `supervise` has come.
inductive Phase
  | begin
  | install (todo : List Sig)
  | popen
  -- The command runs, and `child` is still to be set.
  | assign
  -- Whether a signal has come too early to be forwarded.
  | early
  | earlySend (signum : Sig)
  | wait (escalated : Bool)
  | check (escalated : Bool)
  | escalate
  | deadline (returnCode : Int)
  -- `_cleanup_survivors`
  | survivors (returnCode deadline : Int)
  | terminate (returnCode deadline : Int)
  | poll (returnCode deadline : Int)
  | late (returnCode deadline : Int)
  | killSurvivors (returnCode : Int)
  | decide (returnCode : Int)
  -- `finally`
  | finish (r : Result)
  | finishKill (r : Result)
  | finishWait (r : Result)
  | restore (r : Result) (todo : List Sig)
  | ended (r : Result)

-- What the last `SIGKILL` was for a member of the group.
inductive Fate
  | untouched
  | killed
  -- The Manager was not allowed to signal him, and `os.killpg` has passed him over.
  | refused
  -- He has come back into the group since.
  | joined
  deriving DecidableEq

structure Member where
  fate    : Fate
  -- Whether the Manager may signal him.
  allowed : Bool
  deriving DecidableEq

-- Who has been killed stays so.
def Member.kill (m : Member) : Member :=
  if m.fate = .killed then m else { m with fate := if m.allowed then .killed else .refused }

structure State where
  phase    : Phase
  -- The handlers that interrupt each other, the last one first.
  stack    : List Frame
  received : List Sig
  -- `signal_started_at`
  started  : List Int
  -- The signals that `forward` is the handler of.
  handlers : List Sig
  child    : Child
  -- Whether `child` is set.
  assigned : Bool
  -- The others in the group of the command.
  group    : List Member
  -- What has been sent to the group, and when.
  sent     : List (Sig × Int)
  reapedAt : Option Int
  now      : Int

-- What a step of `supervise` does.
inductive Effect
  | none
  | handle (signum : Sig)
  | restore (signum : Sig)
  | spawn
  | assign
  | reap (returnCode : Int)
  -- `_signal_launch_tree`
  | send (signum : Sig)

namespace State

def apply (s : State) : Effect → State
  | .none           => s
  | .handle signum  => { s with handlers := signum :: s.handlers }
  | .restore signum => { s with handlers := s.handlers.filter (· ≠ signum) }
  | .spawn          => { s with child := .running }
  | .assign         => { s with assigned := true }
  | .reap rc        => { s with child := .reaped rc, reapedAt := some s.now }
  | .send signum    => { s with
    sent  := s.sent ++ [(signum, s.now)]
    group := if signum = .kill then s.group.map Member.kill else s.group }

-- What `forward` does next.
def forward (s : State) (f : Frame) (fs : List Frame) : State :=
  match f.pc with
  | .enter        => { s with stack := { f with pc := .append (s.received = []) } :: fs }
  | .append first => { s with
    received := s.received ++ [f.signum]
    stack    := { f with pc := .start first } :: fs }
  | .start first  => { s with
    started := if first then s.started ++ [s.now] else s.started
    stack   := { f with pc := .test } :: fs }
  | .test         =>
    if s.assigned then
      { s with stack := { f with pc := .send (if 1 < s.received.length then .kill else f.signum) } :: fs }
    else { s with stack := fs }
  | .send signum  => { s.apply (.send signum) with stack := fs }

-- Nobody is left in the group.
def Gone (s : State) : Prop :=
  s.group = [] ∧ ∃ rc, s.child = .reaped rc

-- At first there is nothing of the command, and other handlers are in place.
def Initial (s : State) : Prop :=
  s.phase = .begin ∧ s.stack = [] ∧ s.received = [] ∧ s.started = [] ∧ s.handlers = [] ∧
    s.child = .none ∧ s.assigned = false ∧ s.group = [] ∧ s.sent = [] ∧ s.reapedAt = none

end State

namespace Phase

-- Where an exception of `os.killpg` leads to.
def unwound : Phase → Phase
  | .finish _ | .finishKill _ | .finishWait _ => .ended (.error .permission)
  | .restore .. | .ended _                    => .ended (.error .permission)
  | _                                         => .finish (.error .permission)

-- What is about to be sent.
def sends? : Phase → Option Sig
  | .earlySend signum                            => some signum
  | .terminate ..                                => some .term
  | .escalate | .killSurvivors _ | .finishKill _ => some .kill
  | _                                            => none

end Phase

-- What `supervise` does next.
inductive Next (grace : Int) (s : State) : Phase → Effect → Phase → Prop
  | invalid : grace < 0 → Next grace s .begin .none (.ended (.error .value))
  | valid : 0 ≤ grace → Next grace s .begin .none (.install managedSignals)
  | install {signum todo} :
    Next grace s (.install (signum :: todo)) (.handle signum) (.install todo)
  | installed : Next grace s (.install []) .none .popen
  | popen : Next grace s .popen .spawn .assign
  | notStarted : Next grace s .popen .none (.finish (.error .popen))
  | assign : Next grace s .assign .assign .early
  | quiet : s.received = [] → Next grace s .early .none (.wait false)
  | early {signum} : s.received.head? = some signum →
    Next grace s .early .none (.earlySend signum)
  | earlySend {signum} : Next grace s (.earlySend signum) (.send signum) (.wait false)
  | exited {escalated rc} : s.child = .exited rc →
    Next grace s (.wait escalated) (.reap rc) (.deadline rc)
  | timeout {escalated} : Next grace s (.wait escalated) .none (.check escalated)
  | unsignalled {escalated : Bool} : s.received = [] ∨ escalated →
    Next grace s (.check escalated) .none (.wait escalated)
  | patient {t} : s.received ≠ [] → s.started.head? = some t → s.now - t < grace →
    Next grace s (.check false) .none (.wait false)
  | overdue {t} : s.received ≠ [] → s.started.head? = some t → grace ≤ s.now - t →
    Next grace s (.check false) .none .escalate
  | unstarted : s.received ≠ [] → s.started = [] →
    Next grace s (.check false) .none (.finish (.error .index))
  | escalate : Next grace s .escalate (.send .kill) (.wait true)
  | deadline {rc} : s.received = [] →
    Next grace s (.deadline rc) .none (.survivors rc (s.now + grace))
  | signalled {rc t} : s.received ≠ [] → s.started.head? = some t →
    Next grace s (.deadline rc) .none (.survivors rc (t + grace))
  | undated {rc} : s.received ≠ [] → s.started = [] →
    Next grace s (.deadline rc) .none (.finish (.error .index))
  | alone {rc d} : s.Gone → Next grace s (.survivors rc d) .none (.decide rc)
  | survivors {rc d} : Next grace s (.survivors rc d) .none (.terminate rc d)
  | terminate {rc d} : Next grace s (.terminate rc d) (.send .term) (.poll rc d)
  | gone {rc d} : s.Gone → Next grace s (.poll rc d) .none (.decide rc)
  | present {rc d} : Next grace s (.poll rc d) .none (.late rc d)
  | expired {rc d} : d ≤ s.now → Next grace s (.late rc d) .none (.killSurvivors rc)
  | sleep {rc d} : s.now < d → Next grace s (.late rc d) .none (.poll rc d)
  | killSurvivors {rc} : Next grace s (.killSurvivors rc) (.send .kill) (.decide rc)
  | interrupted {rc signum} : s.received.head? = some signum →
    Next grace s (.decide rc) .none (.finish (.ok (128 + signum.number)))
  | completed {rc} : s.received = [] → Next grace s (.decide rc) .none (.finish (.ok rc))
  | unlaunched {r} : s.assigned = false →
    Next grace s (.finish r) .none (.restore r managedSignals)
  | polled {r rc} : s.assigned → s.child = .exited rc →
    Next grace s (.finish r) (.reap rc) (.restore r managedSignals)
  | done {r rc} : s.assigned → s.child = .reaped rc →
    Next grace s (.finish r) .none (.restore r managedSignals)
  | unfinished {r} : s.assigned → s.child = .running →
    Next grace s (.finish r) .none (.finishKill r)
  | finishKill {r} : Next grace s (.finishKill r) (.send .kill) (.finishWait r)
  | finishWait {r rc} : s.child = .exited rc →
    Next grace s (.finishWait r) (.reap rc) (.restore r managedSignals)
  | restore {r signum todo} :
    Next grace s (.restore r (signum :: todo)) (.restore signum) (.restore r todo)
  | restored {r} : Next grace s (.restore r []) .none (.ended r)

-- What becomes of the group by itself. Who has not been killed may start others like himself, and
-- anybody may exit or leave the group. Whom the Manager may signal may change, and who has left the
-- group may come back as long as there is one.
inductive Moves (s : State) : List Member → Prop
  | launched {allowed} : s.child = .running → Moves s (⟨.untouched, allowed⟩ :: s.group)
  | forked {m} : m ∈ s.group → m.fate ≠ .killed → Moves s (m :: s.group)
  | left {m} : m ∈ s.group → Moves s (s.group.erase m)
  | changed {m allowed} : m ∈ s.group → Moves s ({ m with allowed := allowed } :: s.group.erase m)
  | joined {allowed} : s.child ≠ .none → ¬s.Gone → Moves s (⟨.joined, allowed⟩ :: s.group)

-- While a handler is at work, all that it has interrupted stands still. A signal may come at any
-- time, and `os.killpg` may be refused.
inductive Step (grace : Int) : State → State → Prop
  | main {s e p} : s.stack = [] → Next grace s s.phase e p →
    Step grace s { s.apply e with phase := p }
  | handler {s f fs} : s.stack = f :: fs → Step grace s (s.forward f fs)
  | refused {s signum} : s.stack = [] → s.phase.sends? = some signum →
    Step grace s { s with phase := s.phase.unwound }
  | refusedHandler {s f fs signum} : s.stack = f :: fs → f.pc = .send signum →
    Step grace s { s with stack := [], phase := s.phase.unwound }
  | signal {s signum} : signum ∈ s.handlers →
    Step grace s { s with stack := ⟨signum, .enter⟩ :: s.stack }
  | tick {s t} : s.now ≤ t → Step grace s { s with now := t }
  | exit {s} (rc : Int) : s.child = .running → Step grace s { s with child := .exited rc }
  | group {s group} : Moves s group → Step grace s { s with group := group }

-- The states of a run with this grace period.
inductive Reachable (grace : Int) : State → Prop
  | init {s} : s.Initial → Reachable grace s
  | step {s s'} : Reachable grace s → Step grace s s' → Reachable grace s'

end Supervisor
