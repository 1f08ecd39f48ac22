import ExtManager.Contract.Basic
import ExtManager.Crash.Theorems

open Crash Prog

-- A record of `EvidenceStore`.
structure Record where
  sequence : Nat
  kind     : String
  payload  : Json
  deriving DecidableEq

-- The executable contract model. The set of nonces is kept as a list.
structure ReferenceModel where
  state      : State
  generation : Int
  records    : List Record
  plan       : Option Plan
  launchId   : Option String
  inventory  : List ProcessIdentity
  nonces     : List String
  accepted   : List Attestation
  deriving DecidableEq

namespace ReferenceModel

abbrev M (α : Type) :=
  Prog ReferenceModel Exc α

def new (generation : Int) : ReferenceModel where
  state      := .intent
  generation := generation
  records    := []
  plan       := none
  launchId   := none
  inventory  := []
  nonces     := []
  accepted   := []

def setState (state : State) : M Unit :=
  modify fun m => { m with state := state }

-- `self.store.append`.
def append (kind : String) (payload : Json) : M Unit :=
  modify fun m => { m with records := m.records ++ [⟨m.records.length, kind, payload⟩] }

-- `_require`.
def require (states : List State) : M Unit := do
  let state ← read (·.state)
  raiseIf (state ∉ states) (.contract .invalidTransition (state.value ++ " not in [" ++
    ", ".intercalate (states.map fun s => "'" ++ s.value ++ "'") ++ "]"))

-- `assert self.plan`.
def getPlan : M Plan :=
  lift fun m => match m.plan with
    | some plan => .ok plan
    | none      => .error (.other "")

def resolve (registrations : List String) (expectedNamespace : String) : M Unit := do
  require [.intent]
  raiseIf (registrations.count expectedNamespace = 0)
    (.contract .unknownResource expectedNamespace)
  raiseIf (registrations.count expectedNamespace ≠ 1)
    (.contract .ambiguousResource expectedNamespace)
  setState .resolved

-- One round of the loop of `make_plan`. A key that is there keeps its place.
def normalize [Lower] (normalized : List (String × ResourceClaim)) (claim : ResourceClaim) :
    Except Exc (List (String × ResourceClaim)) := do
  let uri ← canonicalUri claim.uri "resource"
  match normalized.lookup uri with
  | some prior =>
    if (prior.mode = "exclusive" ∨ claim.mode = "exclusive") ∧ prior.owner ≠ claim.owner then
      .error (.contract .resourceConflict (uri ++ ": " ++ prior.owner ++ " vs " ++ claim.owner))
    else
      .ok (normalized.map fun (u, c) => if u = uri then (u, claim) else (u, c))
  | none => .ok (normalized ++ [(uri, claim)])

section

variable [Sha256]

-- The arguments have no lone surrogates (URIs and owners included), and the rendered inputs are JSON:
-- `plan_id` raises otherwise, behind the checks of the claims.
def makePlan [Lower] (plugins : List PluginIdentity) (host : HostCompatibility)
    (claims : List ResourceClaim) (obligations : List EvidenceObligation)
    (predecessor : PredecessorSnapshot) (fallbackProven : Bool) : M Plan := do
  require [.resolved]
  let normalized ← lift fun _ => claims.foldlM normalize []
  let plan : Plan := ⟨plugins, host, normalized.map (·.2), obligations, predecessor, fallbackProven⟩
  modify fun m => { m with plan := some plan }
  append "plan" (.obj [("plan_id", .str plan.planId)])
  setState .planned
  pure plan

def prepare : M Unit := do
  require [.planned]
  let plan ← getPlan
  setState .preparing
  append "wal" (.obj [("operation", .str "prepare"), ("plan_id", .str plan.planId)])
  append "receipt" (.obj [("operation", .str "prepare"), ("plan_id", .str plan.planId)])
  setState .prepared

def launch (launchId : String) (inventory : List ProcessIdentity) : M Unit := do
  require [.prepared]
  let _ ← getPlan
  setState .launching
  modify fun m => { m with launchId := some launchId, inventory := inventory }
  append "wal" (.obj [("launch_id", .str launchId), ("operation", .str "launch")])
  append "receipt" (.obj [("launch_id", .str launchId), ("operation", .str "launch")])
  setState .observing

-- The checks of `attest` on the plan, the launch and the time.
def stale (m : ReferenceModel) (plan : Plan) (item : Attestation) (now : Int) : Prop :=
  item.planId ≠ plan.planId ∨ item.artifactId ∉ plan.plugins.map (·.id) ∨
    some item.launchId ≠ m.launchId ∨ item.expiresAt < now ∨ item.issuedAt > now

instance (m : ReferenceModel) (plan : Plan) (item : Attestation) (now : Int) :
    Decidable (m.stale plan item now) :=
  inferInstanceAs (Decidable (_ ∨ _ ∨ _ ∨ _ ∨ _))

def attest (item : Attestation) (now : Int) : M Unit := do
  require [.observing, .reconcile]
  let plan ← getPlan
  raiseIf (item.authority ≠ "host-runtime") (.contract .authorityViolation item.authority)
  let m ← read fun m => m
  raiseIf (m.stale plan item now) (.contract .staleEvidence item.nonce)
  raiseIf (item.nonce ∈ m.nonces) (.contract .replayedNonce item.nonce)
  raiseIf (item.process.key ∉ m.inventory.map (·.key)) (.contract .staleEvidence item.process.key)
  modify fun m => { m with nonces := item.nonce :: m.nonces, accepted := m.accepted ++ [item] }
  append "attestation" item.asdict

-- `processes[ordinal]` of `evidence_complete`: of two processes with one ordinal the last counts.
def process? (m : ReferenceModel) (role : String) (ordinal : Int) : Option ProcessIdentity :=
  m.inventory.reverse.find? fun p => p.role = role ∧ p.ordinal = ordinal

-- Equality of the sets with these elements.
def sameSet {α : Type} [DecidableEq α] (xs ys : List α) : Bool :=
  (xs.all (· ∈ ys)) && ys.all (· ∈ xs)

-- One round of the loop of `evidence_complete`.
def covered (m : ReferenceModel) (o : EvidenceObligation) : Bool :=
  (o.requiredOrdinals.all fun ordinal => (m.process? o.role ordinal).isSome) &&
    sameSet
      (o.requiredOrdinals.filterMap fun ordinal =>
        (m.process? o.role ordinal).map fun p => (o.role, ordinal, p.epoch))
      ((m.accepted.filter fun a => a.obligationId = o.obligationId ∧ a.event = o.event).map
        fun a => (a.process.role, a.process.ordinal, a.process.epoch))

def evidenceComplete (m : ReferenceModel) (plan : Plan) : Bool :=
  plan.obligations.all m.covered

def commit (expected : Int) : M Int := do
  require [.observing]
  let plan ← getPlan
  let m ← read fun m => m
  raiseIf (expected ≠ m.generation ∨ plan.predecessor.generation ≠ m.generation)
    (.contract .casMismatch
      ("expected " ++ toString expected ++ ", current " ++ toString m.generation))
  raiseIf (¬m.evidenceComplete plan)
    (.contract .missingProcessEvidence "all-required-process coverage failed")
  setState .commitReady
  append "wal" (.obj [("from", .int m.generation), ("operation", .str "commit")])
  modify fun m => { m with generation := m.generation + 1 }
  append "receipt" (.obj [("generation", .int (m.generation + 1)), ("operation", .str "commit")])
  setState .effective
  read (·.generation)

def rollback (reason : String) (succeeds : Bool) : M Unit := do
  let plan ← getPlan
  setState .rollback
  append "wal" (.obj [("operation", .str "rollback"), ("predecessor", plan.predecessor.asdict),
    ("reason", .str reason)])
  if ¬succeeds then do
    append "receipt" (.obj [("operation", .str "rollback"), ("success", .bool false)])
    setState .failedSafe
    raise (.contract .rollbackFailed reason)
  else do
    append "receipt" (.obj [("conditional", .bool true), ("operation", .str "rollback")])
    setState .rolledBack

def externalLeaseLost : M Unit := do
  let plan ← getPlan
  setState .degraded
  if plan.fallbackProven then setState .reconcile
  else rollback "external lease invalid" true

def recoverAfterCrash : M Unit := do
  modify fun m => { m with accepted := [] }
  setState .reconcile
  let m ← read fun m => m
  append "reobserve-required" (.obj [("launch_id", .ofOption .str m.launchId)])

end

end ReferenceModel
