import Mathlib.Data.List.ReduceOption
import ExtManager.Codec.Canonical
import ExtManager.Codec.Dict
import ExtManager.Codec.Fallible

-- The batches of the false-effective experiment.
namespace Harness

inductive Arm
  | vanillaVllmEntryPoints
  | manualIntegration
  | ecpa
  deriving DecidableEq

def Arm.value : Arm → String
  | vanillaVllmEntryPoints => "vanilla-vllm-entry-points"
  | manualIntegration      => "manual-integration"
  | ecpa                   => "ecpa"

def arms : List Arm :=
  [.vanillaVllmEntryPoints, .manualIntegration, .ecpa]

def latinSquare : List (List Arm) := [
  [.vanillaVllmEntryPoints, .manualIntegration, .ecpa],
  [.manualIntegration, .ecpa, .vanillaVllmEntryPoints],
  [.ecpa, .vanillaVllmEntryPoints, .manualIntegration]]

inductive Status
  | planned
  | complete
  | failed
  | excluded
  deriving DecidableEq

inductive EvidenceClass
  | formalReal
  | interfaceFixture
  | referenceSynthetic
  | unitSelftest
  deriving DecidableEq

structure ExecutionIdentity where
  launchId           : Option String
  controllerInstance : Option String
  planId             : Option String

structure Process where
  pid        : Option Int
  startTicks : Option Int

-- What a batch is validated by, of a record with the fields and the values that the schema of
-- records asks for.
structure Record where
  startId           : String
  cellId            : String
  scenario          : String
  arm               : Arm
  repetition        : Int
  armOrder          : Int
  status            : Status
  evidenceClass     : EvidenceClass
  -- The fields of `identity`: whether it is a fixture, two of `scenario_binding`, and all but
  -- `arm`, `evaluation_arm`, `activation_contract` and `adapter_verification`.
  fixtureOnly         : Bool
  comparisonBindingId : Option String
  descriptorSha256    : Option String
  matched             : Fields
  -- The fields of `command`.
  executionIdentity : ExecutionIdentity
  invocationIds     : List (Option String)
  sutProcess        : Process
  observerProcess   : Process
  -- `oracle.outcome.false_effective`.
  falseEffective    : Bool

inductive Failure
  | valueError (message : String)
  | keyError
  -- What `validate_record` raises.
  | record (message : String)
  deriving DecidableEq

def refuse (p : Prop) [Decidable p] (message : String) : Except Failure Unit :=
  if p then .error (.valueError message) else .ok ()

-- `len(set(values)) != 1 or None in values`.
def NotOne (values : List (Option String)) : Prop :=
  none ∈ values ∨ values.dedup.length ≠ 1

instance (values : List (Option String)) : Decidable (NotOne values) :=
  inferInstanceAs (Decidable (_ ∨ _))

def validateCrossArmScenarioBinding (cell : String) (rows : List Record) : Except Failure Unit :=
  refuse (NotOne (rows.map (·.comparisonBindingId)) ∨ NotOne (rows.map (·.descriptorSha256)))
    ("cell " ++ cell ++ " arms do not share one scenario entry point")

-- `row["command"]["execution_identity"]["plan_id"]`.
def planId (row : Record) : Except Failure String :=
  match row.executionIdentity.planId with
  | some planId => .ok planId
  | none        => .error .keyError

def validatePlans (cell : String) (rows : List Record) (arm : Arm) : Except Failure Unit := do
  let planIds ← (rows.filter (·.arm = arm)).mapM planId
  refuse (planIds.dedup.length ≠ 1)
    ("cell " ++ cell ++ " arm " ++ arm.value ++ " does not share one plan")

def Record.position (r : Record) : Int × Int :=
  (r.repetition, r.armOrder)

-- The dictionary of the Latin square.
def expected : Dict (Int × Int) Arm :=
  .ofList <| (latinSquare.zipIdx 1).flatMap fun (arms, repetition) =>
    (arms.zipIdx 1).map fun (arm, order) => (((repetition : Int), (order : Int)), arm)

def actual (rows : List Record) : Dict (Int × Int) Arm :=
  .ofList (rows.map fun r => (r.position, r.arm))

-- `!=` of dictionaries.
def Differ (d d' : Dict (Int × Int) Arm) : Prop :=
  (∃ x ∈ d.items, d'.get? x.1 ≠ some x.2) ∨ ∃ x ∈ d'.items, d.get? x.1 ≠ some x.2

instance (d d' : Dict (Int × Int) Arm) : Decidable (Differ d d') :=
  inferInstanceAs (Decidable (_ ∨ _))

variable [PythonJson]

-- `value != identities[0]`, of one of the others.
def Mismatch (rows : List Record) : Prop :=
  ∃ first ∈ rows.head?, ∃ row ∈ rows.tail, ¬Value.same (.obj row.matched) (.obj first.matched)

instance (rows : List Record) : Decidable (Mismatch rows) :=
  inferInstanceAs (Decidable (∃ first ∈ rows.head?, _))

-- One round of the loop over the cells.
def validateCell (cell : String) (rows : List Record) : Except Failure Unit := do
  refuse (rows.length < 9 ∨ ∃ arm ∈ arms, arm ∉ rows.map (·.arm))
    ("cell " ++ cell ++ " lacks 3 starts x 3 arms")
  refuse (∃ arm ∈ arms, rows.countP (·.arm = arm) < 3)
    ("cell " ++ cell ++ " has fewer than 3 starts per arm")
  validateCrossArmScenarioBinding cell rows
  arms.forM (validatePlans cell rows)
  refuse (Mismatch rows) ("cell " ++ cell ++ " matched-arm metadata mismatch")
  refuse ((rows.map (·.position)).dedup.length ≠ 9)
    ("cell " ++ cell ++ " order schedule is unbalanced")
  refuse (Differ (actual rows) expected)
    ("cell " ++ cell ++ " does not match frozen Latin square")

def complete (records : List Record) : List Record :=
  records.filter (·.status = .complete)

-- `groups`, cells in the order in which they come up.
def groups (complete : List Record) : Dict String (List Record) :=
  complete.foldl (fun d r => d.set r.cellId ((d.get? r.cellId).getD [] ++ [r])) .empty

-- The identities of the launches, the controllers, the invocations and the processes.
def NotUnique (complete : List Record) : Prop :=
  let launchIds := complete.map (·.executionIdentity.launchId)
  let controllers := complete.map (·.executionIdentity.controllerInstance)
  let invocationIds := complete.flatMap (·.invocationIds)
  let processes := complete.flatMap fun r => [r.sutProcess, r.observerProcess]
  let processIdentities := processes.map fun p => (p.pid, p.startTicks)
  none ∈ launchIds ∨ ¬launchIds.Nodup ∨ none ∈ controllers ∨ ¬controllers.Nodup ∨
    none ∈ invocationIds ∨ ¬invocationIds.Nodup ∨
    (∃ i ∈ processIdentities, i.1 = none ∨ i.2 = none) ∨ ¬processIdentities.Nodup

instance (complete : List Record) : Decidable (NotUnique complete) :=
  inferInstanceAs (Decidable (_ ∨ _))

-- The check of one record, which looks at the files of its run as well.
variable (validateRecord : Record → Except Failure Unit)

def validateBatch (records : List Record) (formal : Bool) : Except Failure Unit := do
  refuse (¬(records.map (·.startId)).Nodup) "duplicate start_id"
  records.forM fun record => do
    validateRecord record
    refuse (formal ∧ record.evidenceClass ≠ .formalReal)
      "fixture-only or synthetic evidence cannot enter formal aggregate"
    refuse (formal ∧ record.fixtureOnly) "fixture-only evidence cannot enter formal aggregate"
  if formal ∧ complete records ≠ [] then do
    refuse (NotUnique (complete records))
      "launch/controller/invocation/process identity is not unique"
    (groups (complete records)).items.forM fun (cell, rows) => validateCell cell rows

-- One entry of `paired_contrasts`.
structure Contrast where
  scenario      : String
  repetition    : Int
  ecpaVsVanilla : Int
  ecpaVsManual  : Int
  deriving DecidableEq

def getItem (values : Dict Arm Int) (arm : Arm) : Except Failure Int :=
  match values.get? arm with
  | some value => .ok value
  | none       => .error .keyError

def matched (complete : List Record) (scenario : String) (repetition : Int) : List Record :=
  complete.filter fun r => r.scenario = scenario ∧ r.repetition = repetition

def falseEffective (matched : List Record) : Dict Arm Int :=
  .ofList (matched.map fun r => (r.arm, if r.falseEffective then 1 else 0))

def contrast (complete : List Record) (scenario : String) (repetition : Int) :
    Except Failure (Option Contrast) :=
  if (matched complete scenario repetition).length = 3 then do
    let values := falseEffective (matched complete scenario repetition)
    let ecpa ← getItem values .ecpa
    let vanilla ← getItem values .vanillaVllmEntryPoints
    let manual ← getItem values .manualIntegration
    return some ⟨scenario, repetition, ecpa - vanilla, ecpa - manual⟩
  else
    return none

def scenarios (complete : List Record) : List String :=
  ((complete.map (·.scenario)).dedup).insertionSort (· ≤ ·)

def contrasts (complete : List Record) (scenario : String) : Except Failure (List Contrast) := do
  let found ← [1, 2, 3].mapM (contrast complete scenario)
  return found.reduceOption

-- What `aggregate` reports under `paired_contrasts`.
def aggregate (records : List Record) (formal : Bool) : Except Failure (Option (List Contrast)) := do
  validateBatch validateRecord records formal
  if complete records = [] then return none
  let found ← (scenarios (complete records)).mapM (contrasts (complete records))
  return some found.flatten

end Harness
