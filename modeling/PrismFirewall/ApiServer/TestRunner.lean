import Mathlib.Data.Rat.Defs
import PrismFirewall.Lib.Exec

/-!
# The test runner

`test_runner.py` runs a test definition from a YAML file: the setup steps, the test
steps, the assertions about their output, and the cleanup steps.  Nothing in the file is
checked when it is loaded, so a section or a step may be any YAML value, and a Python
operation on a value of the wrong type raises.

How a command on a remote host ends (`SshOutcome`), what a regular expression finds in a
text and what `float` makes of a value (`Python`) are inputs.  `executed` notes the steps
that are handed to `_execute_step`.  `wp_executeStep` is what one step does; the functions
that say it without the state are `stepResult` and `evaluateAssertion`.
-/

namespace PrismFirewall.ApiServer

open Lib

/-! ### Values -/

/-- An exception and its text. -/
inductive PyExc
  | runtimeError (text : String)
  | timeoutError (text : String)
  | other (text : String)
  deriving DecidableEq

def PyExc.text : PyExc → String
  | .runtimeError text | .timeoutError text | .other text => text

inductive PyFloat
  | finite (q : Rat)
  | inf
  | negInf
  | nan
  deriving DecidableEq

/-- What `yaml.safe_load` returns; `other` is a date. -/
inductive Yaml
  | null
  | bool (b : Bool)
  | int (n : Int)
  | float (x : PyFloat)
  | str (s : String)
  | list (items : List Yaml)
  | dict (entries : List (Yaml × Yaml))
  | other

namespace Yaml

def isKey (key : String) : Yaml → Bool
  | .str s => s == key
  | _ => false

/-- `d.get(key, default)` of a dictionary. -/
def lookup (entries : List (Yaml × Yaml)) (key : String) (default : Yaml) : Yaml :=
  ((entries.find? (fun e => e.1.isKey key)).map Prod.snd).getD default

/-- The dictionary whose `get` is called. -/
def asDict : Yaml → Except PyExc (List (Yaml × Yaml))
  | .dict entries => .ok entries
  | _ => .error (.other "object has no attribute 'get'")

/-- What a `for` loop goes through. -/
def iter : Yaml → Except PyExc (List Yaml)
  | .list items => .ok items
  | .dict entries => .ok (entries.map Prod.fst)
  | .str s => .ok (s.toList.map (fun c => .str (String.singleton c)))
  | _ => .error (.other "object is not iterable")

/-- The number a value is in comparisons with integers. -/
def number? : Yaml → Option PyFloat
  | .bool b => some (.finite (if b then 1 else 0))
  | .int n => some (.finite n)
  | .float x => some x
  | _ => none

/-- `exit_code == value`. -/
def eqInt (value : Yaml) (n : Int) : Bool := value.number? == some (.finite n)

/-- `value >= n`. -/
def geNat (value : Yaml) (n : Nat) : Except PyExc Bool :=
  match value.number? with
  | some (.finite q) => .ok (decide ((n : Rat) ≤ q))
  | some .inf => .ok true
  | some _ => .ok false
  | none => .error (.other "'>=' not supported")

/-- `items[value]`. -/
def index {α : Type} (items : List α) : Yaml → Except PyExc α
  | .int n => at_ n
  | .bool b => at_ (if b then 1 else 0)
  | _ => .error (.other "list indices must be integers or slices")
where
  /-- A negative index counts from the end. -/
  at_ (n : Int) : Except PyExc α :=
    match if 0 ≤ n then items[n.toNat]?
      else if -(items.length : Int) ≤ n then items[(items.length + n).toNat]? else none with
    | some a => .ok a
    | none => .error (.other "list index out of range")

/-- `value * 1000`. -/
def times1000 : Yaml → Except PyExc Unit
  | .null | .dict _ | .other => .error (.other "unsupported operand type(s) for *")
  | _ => .ok ()

end Yaml

/-- What the assertions use of Python: `re.search(pattern, text).group()`, `float`, the order of
floats, and `str`. -/
structure Python where
  Float : Type
  search : Yaml → String → Except PyExc (Option String)
  float : Yaml → Except PyExc Float
  ge : Float → Float → Bool
  floatStr : Float → String
  str : Yaml → String

/-! ### Results -/

inductive TestStatus
  | PENDING
  | RUNNING
  | PASSED
  | FAILED
  | ERROR
  deriving DecidableEq

structure StepResult where
  stepIndex : Nat
  command : Yaml
  target : Yaml
  exitCode : Int
  stdout : String
  passed : Bool

structure AssertionResult where
  description : Yaml
  passed : Bool
  actualValue : String
  expected : String

structure TestResult where
  testId : String
  status : TestStatus
  stepResults : List StepResult
  assertionResults : List AssertionResult
  errorMessage : Option String

/-- How `SSHExecutor.execute` ends. -/
inductive SshOutcome
  | completed (exitCode : Int) (stdout : String)
  | raises (e : PyExc)

inductive Phase
  | setup
  | test
  | cleanup
  deriving DecidableEq

/-- A step that was handed to `_execute_step`. -/
structure Executed where
  phase : Phase
  index : Nat
  step : Yaml

/-- The result so far, the steps executed so far, and how the command of each step ends. -/
structure RunState where
  ssh : Nat → SshOutcome
  executed : List Executed
  result : TestResult

/-- A step is handed to `_execute_step`. -/
def RunState.executing (s : RunState) (phase : Phase) (index : Nat) (step : Yaml) : RunState :=
  { s with executed := s.executed ++ [⟨phase, index, step⟩] }

abbrev RunM := EStateM PyExc RunState

def ofExcept {α : Type} : Except PyExc α → RunM α
  | .ok a => pure a
  | .error e => throw e

def modifyResult (f : TestResult → TestResult) : RunM Unit :=
  modify (fun s => { s with result := f s.result })

/-! ### Steps -/

/-- `_execute_step`, for a command that ends in a given way. -/
def stepResult (outcome : SshOutcome) (index : Nat) (step : Yaml) : Except PyExc StepResult := do
  let d ← step.asDict
  let target := Yaml.lookup d "target" (.str "")
  let command := Yaml.lookup d "command" (.str "")
  let expectExitCode := Yaml.lookup d "expect_exit_code" (.int 0)
  let timeout := Yaml.lookup d "timeout" (.float (.finite 60))
  match outcome with
  | .completed exitCode stdout =>
    return ⟨index, command, target, exitCode, stdout, expectExitCode.eqInt exitCode⟩
  | .raises (.runtimeError text) =>
    return ⟨index, command, target, -1, "SSH ERROR: " ++ text, false⟩
  | .raises (.timeoutError text) =>
    timeout.times1000
    return ⟨index, command, target, -2, "TIMEOUT: " ++ text, false⟩
  | .raises e => throw e

/-- `_execute_step`. -/
def executeStep (index : Nat) (step : Yaml) (phase : Phase) : RunM StepResult := do
  let s ← get
  set (s.executing phase index step)
  ofExcept (stepResult (s.ssh s.executed.length) index step)

/-! ### Assertions -/

/-- The step result an assertion refers to; `none` is a step that does not exist. -/
def referencedStep (stepIndex : Yaml) (stepResults : List StepResult) :
    Except PyExc (Option StepResult) := do
  if ← stepIndex.geNat stepResults.length then
    return none
  return some (← stepIndex.index stepResults)

/-- `text[:200]`. -/
def first200 (text : String) : String := String.ofList (text.toList.take 200)

/-- The check of an assertion on the step it refers to. -/
def checkAssertion (py : Python) (d : List (Yaml × Yaml)) (step : StepResult) :
    Except PyExc AssertionResult := do
  let description := Yaml.lookup d "description" (.str "unnamed assertion")
  match Yaml.lookup d "type" (.str "exit_code") with
  | .str "exit_code" =>
    let expectedCode := Yaml.lookup d "expected" (.int 0)
    return ⟨description, expectedCode.eqInt step.exitCode, toString step.exitCode,
      py.str expectedCode⟩
  | .str "output_contains" =>
    let pattern := Yaml.lookup d "pattern" (.str "")
    let found ← py.search pattern step.stdout
    return ⟨description, found.isSome, first200 step.stdout, "pattern: " ++ py.str pattern⟩
  | .str "output_not_contains" =>
    let pattern := Yaml.lookup d "pattern" (.str "")
    let found ← py.search pattern step.stdout
    return ⟨description, found.isNone, first200 step.stdout, "not matching: " ++ py.str pattern⟩
  | .str "numeric_gte" =>
    let pattern := Yaml.lookup d "extract_pattern" (.str "[\\d.]+")
    let threshold ← py.float (Yaml.lookup d "threshold" (.int 0))
    match ← py.search pattern step.stdout with
    | some text =>
      let actual ← py.float (.str text)
      return ⟨description, py.ge actual threshold, py.floatStr actual,
        ">= " ++ py.floatStr threshold⟩
    | none =>
      return ⟨description, false, "no numeric value found", ">= " ++ py.floatStr threshold⟩
  | assertionType =>
    return ⟨description, false, "N/A", "unknown assertion type: " ++ py.str assertionType⟩

/-- `assertion_def.get("step", 0)`. -/
def stepIndexOf (d : List (Yaml × Yaml)) : Yaml := Yaml.lookup d "step" (.int 0)

/-- `_evaluate_assertion`. -/
def evaluateAssertion (py : Python) (assertionDef : Yaml) (stepResults : List StepResult) :
    Except PyExc AssertionResult := do
  let d ← assertionDef.asDict
  match ← referencedStep (stepIndexOf d) stepResults with
  | some step => checkAssertion py d step
  | none =>
    return ⟨Yaml.lookup d "description" (.str "unnamed assertion"), false, "N/A",
      "step " ++ py.str (stepIndexOf d) ++ " to exist"⟩

/-! ### The test -/

/-- The loop over the setup steps; `false` if one of them failed. -/
def runSetup (py : Python) : Nat → List Yaml → RunM Bool
  | _, [] => return true
  | i, step :: rest => do
    let r ← executeStep i step .setup
    modifyResult (fun t => { t with stepResults := t.stepResults ++ [r] })
    if r.passed then
      runSetup py (i + 1) rest
    else
      modifyResult (fun t => { t with
        status := .ERROR
        errorMessage := some ("Setup step " ++ toString i ++ " failed on " ++ py.str r.target
          ++ ": exit_code=" ++ toString r.exitCode) })
      return false

/-- The loop over the test steps. -/
def runSteps : Nat → List Yaml → RunM Unit
  | _, [] => return ()
  | i, step :: rest => do
    let r ← executeStep i step .test
    modifyResult (fun t => { t with stepResults := t.stepResults ++ [r] })
    runSteps (i + 1) rest

/-- The loop over the assertions. -/
def runAssertions (py : Python) : List Yaml → RunM Unit
  | [] => return ()
  | assertionDef :: rest => do
    let s ← get
    let a ← ofExcept (evaluateAssertion py assertionDef s.result.stepResults)
    modifyResult (fun t => { t with assertionResults := t.assertionResults ++ [a] })
    runAssertions py rest

/-- The loop over the cleanup steps; an exception ends the step and not the loop. -/
def cleanupSteps : Nat → List Yaml → RunM Unit
  | _, [] => return ()
  | i, step :: rest => do
    tryCatch (do let _ ← executeStep i step .cleanup) (fun _ => return ())
    cleanupSteps (i + 1) rest

/-- `_run_cleanup`. -/
def runCleanup (testDef : List (Yaml × Yaml)) : RunM Unit := do
  let steps ← ofExcept (Yaml.lookup testDef "cleanup" (.list [])).iter
  cleanupSteps 0 steps

def TestResult.allPassed (t : TestResult) : Bool :=
  t.assertionResults.all AssertionResult.passed && t.stepResults.all StepResult.passed

/-- The test steps, the assertions, and the status they give. -/
def runPhases (py : Python) (testDef : List (Yaml × Yaml)) : RunM Unit := do
  let testSteps ← ofExcept (Yaml.lookup testDef "steps" (.list [])).iter
  runSteps 0 testSteps
  let assertions ← ofExcept (Yaml.lookup testDef "assertions" (.list [])).iter
  runAssertions py assertions
  modifyResult (fun t => { t with status := if t.allPassed then .PASSED else .FAILED })

/-- What `run_test` does once the definition is loaded. -/
def runDefinition (py : Python) (testDef : List (Yaml × Yaml)) : RunM Unit := do
  let setupSteps ← ofExcept (Yaml.lookup testDef "setup" (.list [])).iter
  if ← runSetup py 0 setupSteps then
    runPhases py testDef
  runCleanup testDef

/-- `run_test`, with what `_load_test_definition` returns. -/
def runTest (py : Python) (testId : String) (loaded : Option (List (Yaml × Yaml))) : RunM Unit := do
  modifyResult (fun _ => ⟨testId, .RUNNING, [], [], none⟩)
  tryCatch
    (match loaded with
      | none => modifyResult (fun t => { t with
          status := .ERROR
          errorMessage := some ("Test definition not found: " ++ testId) })
      | some testDef => runDefinition py testDef)
    (fun e => modifyResult (fun t => { t with
      status := .ERROR
      errorMessage := some ("Unexpected error: " ++ e.text) }))

end PrismFirewall.ApiServer
