import Mathlib.Data.List.Basic
import Mathlib.Logic.Relation

-- The finite abstraction of the exposure transaction.
namespace TransactionModel

inductive Phase
  | predecessorOpen
  | candidateStaged
  | candidateClosed
  | opening
  | candidateOpen
  | draining
  | recovering
  | rolledBack
  | failedSafe
  | safetyUnknown
  deriving DecidableEq

def Phase.value : Phase → String
  | predecessorOpen => "predecessor-open"
  | candidateStaged => "candidate-staged"
  | candidateClosed => "candidate-closed"
  | opening         => "opening"
  | candidateOpen   => "candidate-open"
  | draining        => "draining"
  | recovering      => "recovering"
  | rolledBack      => "rolled-back"
  | failedSafe      => "failed-safe"
  | safetyUnknown   => "safety-unknown"

inductive Route
  | predecessor
  | candidate
  | closed
  | unknown
  deriving DecidableEq

inductive Action
  | stage
  | observeComplete
  | closeCandidate
  | openIntent
  | openEffect
  | openReceipt
  | admitRequest
  | startDrain
  | finishDrain
  | loseLease
  | renewLease
  | crash
  | reconcile
  | rollbackStrong
  | rollbackFailedClosed
  | rollbackFailedUnknown
  deriving DecidableEq

def Action.value : Action → String
  | stage                 => "stage"
  | observeComplete       => "observe-complete"
  | closeCandidate        => "close-candidate"
  | openIntent            => "open-intent"
  | openEffect            => "open-effect"
  | openReceipt           => "open-receipt"
  | admitRequest          => "admit-request"
  | startDrain            => "start-drain"
  | finishDrain           => "finish-drain"
  | loseLease             => "lose-lease"
  | renewLease            => "renew-lease"
  | crash                 => "crash"
  | reconcile             => "reconcile"
  | rollbackStrong        => "rollback-strong"
  | rollbackFailedClosed  => "rollback-failed-closed"
  | rollbackFailedUnknown => "rollback-failed-unknown"

-- `ACTIONS`.
def actions : List Action := [
  .stage, .observeComplete, .closeCandidate, .openIntent, .openEffect, .openReceipt, .admitRequest,
  .startDrain, .finishDrain, .loseLease, .renewLease, .crash, .reconcile, .rollbackStrong,
  .rollbackFailedClosed, .rollbackFailedUnknown]

structure RejectedTransition where
  message : String
  deriving DecidableEq

structure State where
  phase         : Phase
  route         : Route
  proofComplete : Bool
  leaseValid    : Bool
  generation    : Int
  openIntent    : Bool
  openReceipt   : Bool
  deriving DecidableEq

def initialState : State where
  phase         := .predecessorOpen
  route         := .predecessor
  proofComplete := false
  leaseValid    := true
  generation    := 0
  openIntent    := false
  openReceipt   := false

namespace Phase

-- The sets of phases that the transitions ask for.

def preExposure : List Phase :=
  [predecessorOpen, candidateStaged, candidateClosed]

def observable : List Phase :=
  [candidateStaged, candidateClosed]

def crashable : List Phase :=
  [opening, candidateOpen, draining]

def rollbackPhases : List Phase :=
  [candidateStaged, candidateClosed, opening, candidateOpen, draining]

end Phase

namespace State

def canAdmit (s : State) : Bool :=
  if s.route = .predecessor then s.phase ∈ Phase.preExposure
  else s.route = .candidate ∧ (s.phase = .candidateOpen ∨ s.phase = .draining) ∧
    s.proofComplete ∧ s.leaseValid ∧ s.generation = 1 ∧ s.openReceipt

def rejected (s : State) (a : Action) : RejectedTransition where
  message := a.value ++ " is invalid from " ++ s.phase.value

def goes (s : State) (a : Action) (p : Prop) [Decidable p] (t : State) :
    Except RejectedTransition State :=
  if p then .ok t else .error (s.rejected a)

def opened (s : State) : State :=
  { s with phase := .candidateOpen, generation := 1, openReceipt := true }

def failedSafe (s : State) : State :=
  { s with phase := .failedSafe, route := .closed }

def reconciled (s : State) : State :=
  if s.route = .unknown then { s with phase := .safetyUnknown }
  else if s.route = .candidate ∧ s.proofComplete ∧ s.leaseValid then s.opened
  else s.failedSafe

def unleased (s : State) : State :=
  if s.route = .candidate then
    { s with phase := .safetyUnknown, route := .unknown, leaseValid := false }
  else { s with leaseValid := false }

def transition (s : State) (a : Action) : Except RejectedTransition State :=
  match a with
  | .stage => s.goes a (s.phase = .predecessorOpen) { s with phase := .candidateStaged }
  | .observeComplete =>
    s.goes a (s.phase ∈ Phase.observable ∧ s.leaseValid) { s with proofComplete := true }
  | .closeCandidate => s.goes a (s.phase = .candidateStaged) { s with phase := .candidateClosed }
  | .openIntent =>
    s.goes a (s.phase = .candidateClosed ∧ s.proofComplete ∧ s.leaseValid)
      { s with phase := .opening, openIntent := true }
  | .openEffect =>
    s.goes a (s.phase = .opening ∧ s.route = .predecessor ∧ s.openIntent ∧ s.proofComplete ∧
      s.leaseValid) { s with route := .candidate }
  | .openReceipt =>
    s.goes a (s.phase = .opening ∧ s.route = .candidate ∧ s.proofComplete ∧ s.leaseValid ∧
      s.openIntent) s.opened
  | .admitRequest => s.goes a s.canAdmit s
  | .startDrain => s.goes a (s.phase = .candidateOpen) { s with phase := .draining }
  | .finishDrain => s.goes a (s.phase = .draining) { s with phase := .candidateOpen }
  | .loseLease => s.goes a s.leaseValid s.unleased
  | .renewLease =>
    s.goes a (s.leaseValid = false ∧ s.phase ∈ Phase.preExposure)
      { s with leaseValid := true, proofComplete := false }
  | .crash => s.goes a (s.phase ∈ Phase.crashable) { s with phase := .recovering }
  | .reconcile => s.goes a (s.phase = .recovering) s.reconciled
  | .rollbackStrong =>
    s.goes a (s.phase ∈ Phase.rollbackPhases)
      { s with phase := .rolledBack, route := .predecessor, generation := 0, openIntent := false,
               openReceipt := false }
  | .rollbackFailedClosed => s.goes a (s.phase ∈ Phase.rollbackPhases) s.failedSafe
  | .rollbackFailedUnknown =>
    s.goes a (s.phase ∈ Phase.rollbackPhases) { s with phase := .safetyUnknown, route := .unknown }

def errorIf (p : Prop) [Decidable p] (message : String) : List String :=
  if p then [message] else []

def invariantErrors (s : State) : List String :=
  errorIf (s.route = .candidate ∧ s.openReceipt ∧
      ¬(s.proofComplete ∧ s.generation = 1 ∧ s.openIntent))
    "candidate receipt lacks proof, generation, or intent" ++
  errorIf (s.route = .candidate ∧ ¬s.openReceipt ∧
      (¬s.proofComplete ∨ ¬s.leaseValid ∨ ¬(s.phase = .opening ∨ s.phase = .recovering) ∨
        s.canAdmit))
    "candidate side effect before receipt enables admission" ++
  errorIf (s.phase ∈ Phase.preExposure ∧ (s.route ≠ .predecessor ∨ s.generation ≠ 0))
    "pre-exposure phase lost predecessor route" ++
  errorIf (s.phase = .failedSafe ∧ (s.route ≠ .closed ∨ s.canAdmit))
    "failed-safe state did not close admissions" ++
  errorIf (s.phase = .safetyUnknown ∧ s.canAdmit) "safety-unknown state admitted a request" ++
  errorIf (s.phase = .rolledBack ∧
      (s.route ≠ .predecessor ∨ s.generation ≠ 0 ∨ s.openIntent ∨ s.openReceipt))
    "strong rollback did not restore predecessor identity" ++
  errorIf (s.canAdmit ∧ s.route = .candidate ∧
      ¬(s.proofComplete ∧ s.leaseValid ∧ s.openReceipt))
    "candidate admission lacks current authority"

-- What one phase says of the other fields.
def Sound (s : State) : Prop :=
  match s.phase with
  | .predecessorOpen | .candidateStaged | .candidateClosed =>
    s.route = .predecessor ∧ s.generation = 0 ∧ s.openIntent = false ∧ s.openReceipt = false
  | .opening =>
    s.openIntent ∧ s.proofComplete ∧ s.generation = 0 ∧ s.openReceipt = false ∧
      (s.route = .predecessor ∨ s.route = .candidate ∧ s.leaseValid)
  | .candidateOpen | .draining =>
    s.openIntent ∧ s.proofComplete ∧ s.generation = 1 ∧ s.openReceipt ∧ s.route = .candidate ∧
      s.leaseValid
  | .recovering =>
    s.openIntent ∧ s.proofComplete ∧ (s.generation = if s.openReceipt then 1 else 0) ∧
      (s.route = .predecessor ∨ s.route = .candidate ∧ s.leaseValid)
  | .rolledBack =>
    s.route = .predecessor ∧ s.generation = 0 ∧ s.openIntent = false ∧ s.openReceipt = false
  | .failedSafe    => s.route = .closed ∧ (s.generation = 0 ∨ s.generation = 1)
  | .safetyUnknown => s.route = .unknown ∧ (s.generation = 0 ∨ s.generation = 1)

variable {s t t' : State} {a : Action} {p : Prop} [Decidable p]

theorem goes_ok : s.goes a p t = .ok t' ↔ p ∧ t = t' := by
  by_cases hp : p <;> simp [goes, hp]

theorem sound_initialState : initialState.Sound :=
  ⟨rfl, rfl, rfl, rfl⟩

theorem Sound.generation (h : s.Sound) : s.generation = 0 ∨ s.generation = 1 := by
  obtain ⟨phase, route, proof, lease, generation, intent, receipt⟩ := s
  cases receipt <;> cases phase <;> simp_all [Sound]

theorem Sound.failedSafe (h : s.Sound) : s.failedSafe.Sound :=
  ⟨rfl, h.generation⟩

theorem Sound.opened (h : s.Sound) (hp : s.phase = .opening ∨ s.phase = .recovering)
    (hr : s.route = .candidate) (hl : s.leaseValid) : s.opened.Sound := by
  rcases hp with hp | hp <;> simp_all [Sound, State.opened]

theorem Sound.reconciled (h : s.Sound) (hp : s.phase = .recovering) : s.reconciled.Sound := by
  rw [State.reconciled]
  split
  case isTrue hr => simp [Sound, hp, hr] at h
  split
  case isTrue hc  => exact h.opened (.inr hp) hc.1 hc.2.2
  case isFalse hc => exact h.failedSafe

theorem Sound.unleased (h : s.Sound) : s.unleased.Sound := by
  rw [State.unleased]
  split
  case isTrue hr  => exact ⟨rfl, h.generation⟩
  case isFalse hr =>
    obtain ⟨phase, route, proof, lease, generation, intent, receipt⟩ := s
    cases phase <;> simp_all [Sound]

theorem Sound.transition (h : s.Sound) (ht : s.transition a = .ok t) : t.Sound := by
  cases a <;> simp only [State.transition, goes_ok] at ht <;> obtain ⟨hp, rfl⟩ := ht
  case openReceipt           => exact h.opened (.inl hp.1) hp.2.1 hp.2.2.2.1
  case admitRequest          => exact h
  case loseLease             => exact h.unleased
  case reconcile             => exact h.reconciled hp
  case rollbackStrong        => exact ⟨rfl, rfl, rfl, rfl⟩
  case rollbackFailedClosed  => exact h.failedSafe
  case rollbackFailedUnknown => exact ⟨rfl, h.generation⟩
  all_goals
    obtain ⟨phase, route, proof, lease, generation, intent, receipt⟩ := s
    cases phase <;> simp_all [Sound, Phase.preExposure, Phase.observable, Phase.crashable]

theorem Sound.invariantErrors (h : s.Sound) : s.invariantErrors = [] := by
  obtain ⟨phase, route, proof, lease, generation, intent, receipt⟩ := s
  cases phase <;> simp_all [Sound, State.invariantErrors, errorIf, canAdmit, Phase.preExposure]
  all_goals
    rintro rfl
    simp_all

end State

end TransactionModel
