import PrismFirewall.ApiServer.TestRunner

/-!
# What each phase of a test run does

How the command of a step ends decides what `_execute_step` makes of it: an exception
leaves it (`Raises`), or it returns a result that is passed (`Passes`) or not (`Fails`).
Each loop of `run_test` gets one lemma that says how the loop ends in these terms:
`wp_runSetup`, `wp_runSteps`, `wp_runAssertions` and `wp_cleanupSteps`.  The commands of a run
are counted through its phases, so the step results are `resultsOf` from the number of
commands that came before.
-/

namespace PrismFirewall.ApiServer

open Lib

/-! ### Programs of the runner -/

/-- What `enumerate(test_def.get(name, []))` goes through. -/
def sectionOf (testDef : List (Yaml × Yaml)) (name : String) : Except PyExc (List Yaml) :=
  (Yaml.lookup testDef name (.list [])).iter

/-- The cleanup steps of a definition; there are none if the section cannot be iterated. -/
def cleanupSection (testDef : List (Yaml × Yaml)) : List Yaml :=
  match sectionOf testDef "cleanup" with
  | .ok steps => steps
  | .error _ => []

@[simp] theorem ofExcept_ok {α : Type} (a : α) : ofExcept (.ok a : Except PyExc α) = pure a := rfl

@[simp] theorem ofExcept_error {α : Type} (e : PyExc) :
    ofExcept (.error e : Except PyExc α) = throw e := rfl

@[simp] theorem wp_modifyResult {f : TestResult → TestResult} {s : RunState}
    {Q : PUnit → RunState → Prop} {E : PyExc → RunState → Prop} :
    wp (modifyResult f) s Q E ↔ Q ⟨⟩ { s with result := f s.result } := Iff.rfl

section

variable {α : Type} {testDef : List (Yaml × Yaml)} {name : String} {f : List Yaml → RunM α}
  {s : RunState} {Q : α → RunState → Prop} {E : PyExc → RunState → Prop}

/-- A section that can be iterated is gone through. -/
theorem wp_section_ok {items : List Yaml} (h : sectionOf testDef name = .ok items) :
    wp (ofExcept (Yaml.lookup testDef name (.list [])).iter >>= f) s Q E ↔ wp (f items) s Q E := by
  rw [sectionOf] at h
  rw [h, ofExcept_ok, wp_bind, wp_pure]

theorem wp_section_error {e : PyExc} (h : sectionOf testDef name = .error e) :
    wp (ofExcept (Yaml.lookup testDef name (.list [])).iter >>= f) s Q E ↔ E e s := by
  rw [sectionOf] at h
  rw [h, ofExcept_error, wp_bind, wp_throw]

end

/-- The step is noted as executed, whether it returns or raises. -/
theorem wp_executeStep {i : Nat} {step : Yaml} {phase : Phase} {s : RunState}
    {Q : StepResult → RunState → Prop} {E : PyExc → RunState → Prop} :
    wp (executeStep i step phase) s Q E ↔
      match stepResult (s.ssh s.executed.length) i step with
      | .ok r => Q r (s.executing phase i step)
      | .error e => E e (s.executing phase i step) := by
  rw [executeStep, wp_bind, wp_get, wp_bind, wp_set]
  cases stepResult (s.ssh s.executed.length) i step <;> rfl

@[simp] theorem executing_ssh (s : RunState) (phase : Phase) (i : Nat) (step : Yaml) :
    (s.executing phase i step).ssh = s.ssh := rfl

@[simp] theorem executing_result (s : RunState) (phase : Phase) (i : Nat) (step : Yaml) :
    (s.executing phase i step).result = s.result := rfl

@[simp] theorem length_executing (s : RunState) (phase : Phase) (i : Nat) (step : Yaml) :
    (s.executing phase i step).executed.length = s.executed.length + 1 := by
  simp [RunState.executing]

/-! ### One step -/

/-- An exception leaves `_execute_step`: the step is not a dictionary, its command raises
something else than a `RuntimeError` or a `TimeoutError`, or it times out and its `timeout`
cannot be multiplied. -/
def Raises (outcome : SshOutcome) : Yaml → Prop
  | .dict d =>
    match outcome with
    | .completed _ _ | .raises (.runtimeError _) => False
    | .raises (.timeoutError _) =>
      (Yaml.lookup d "timeout" (.float (.finite 60))).times1000.isOk = false
    | .raises (.other _) => True
  | _ => True

/-- The command ends with the exit code that the step expects. -/
def Passes (outcome : SshOutcome) : Yaml → Prop
  | .dict d =>
    match outcome with
    | .completed exitCode _ => (Yaml.lookup d "expect_exit_code" (.int 0)).eqInt exitCode = true
    | .raises _ => False
  | _ => False

def Fails (outcome : SshOutcome) (step : Yaml) : Prop := ¬Raises outcome step ∧ ¬Passes outcome step

/-- The output in the result of a step. -/
def reportedOutput : SshOutcome → String
  | .completed _ stdout => stdout
  | .raises (.runtimeError text) => "SSH ERROR: " ++ text
  | .raises (.timeoutError text) => "TIMEOUT: " ++ text
  | .raises (.other _) => ""

theorem not_raises_of_passes {outcome : SshOutcome} {step : Yaml} (h : Passes outcome step) :
    ¬Raises outcome step := by
  cases step with
  | dict d =>
    cases outcome with
    | completed exitCode stdout => exact id
    | raises e => exact h.elim
  | _ => exact h.elim

/-- **What one step comes to.** -/
theorem stepResult_cases (outcome : SshOutcome) (i : Nat) (step : Yaml) :
    (Raises outcome step ∧ ∃ e, stepResult outcome i step = .error e) ∨
    (¬Raises outcome step ∧ ∃ r, stepResult outcome i step = .ok r ∧
      r.stdout = reportedOutput outcome ∧ (r.passed = true ↔ Passes outcome step)) := by
  cases step with
  | dict d =>
    cases outcome with
    | completed exitCode stdout => exact .inr ⟨id, _, rfl, rfl, Iff.rfl⟩
    | raises e =>
      cases e with
      | runtimeError text => exact .inr ⟨id, _, rfl, rfl, by simp [Passes]⟩
      | timeoutError text =>
        cases h : (Yaml.lookup d "timeout" (.float (.finite 60))).times1000 with
        | error e => exact .inl ⟨by simp [Raises, h, Except.isOk, Except.toBool],
            e, by simp [stepResult, Yaml.asDict, h, bind, Except.bind]⟩
        | ok u =>
          have hr : stepResult (.raises (.timeoutError text)) i (.dict d) =
              .ok ⟨i, Yaml.lookup d "command" (.str ""), Yaml.lookup d "target" (.str ""), -2,
                "TIMEOUT: " ++ text, false⟩ := by
            simp [stepResult, Yaml.asDict, h, bind, Except.bind, pure, Except.pure]
          exact .inr ⟨by simp [Raises, h, Except.isOk, Except.toBool], _, hr, rfl, by simp [Passes]⟩
      | other text => exact .inl ⟨trivial, _, rfl⟩
  | _ => exact .inl ⟨trivial, _, rfl⟩

/-! ### The steps of a phase -/

/-- Every step passes; the first command is the `k`-th of the run. -/
def AllPass (ssh : Nat → SshOutcome) : Nat → List Yaml → Prop
  | _, [] => True
  | k, step :: rest => Passes (ssh k) step ∧ AllPass ssh (k + 1) rest

/-- A step fails after steps that pass. -/
def SomeFails (ssh : Nat → SshOutcome) : Nat → List Yaml → Prop
  | _, [] => False
  | k, step :: rest => Fails (ssh k) step ∨ Passes (ssh k) step ∧ SomeFails ssh (k + 1) rest

def NoneRaises (ssh : Nat → SshOutcome) : Nat → List Yaml → Prop
  | _, [] => True
  | k, step :: rest => ¬Raises (ssh k) step ∧ NoneRaises ssh (k + 1) rest

/-- The results of the steps up to the first one that raises. -/
def resultsOf (ssh : Nat → SshOutcome) : Nat → Nat → List Yaml → List StepResult
  | _, _, [] => []
  | k, i, step :: rest =>
    match stepResult (ssh k) i step with
    | .ok r => r :: resultsOf ssh (k + 1) (i + 1) rest
    | .error _ => []

theorem noneRaises_of_allPass {ssh : Nat → SshOutcome} {steps : List Yaml} {k : Nat}
    (h : AllPass ssh k steps) : NoneRaises ssh k steps := by
  induction steps generalizing k with
  | nil => trivial
  | cons step rest ih => exact ⟨not_raises_of_passes h.1, ih h.2⟩

theorem not_someFails_of_allPass {ssh : Nat → SshOutcome} {steps : List Yaml} {k : Nat}
    (h : AllPass ssh k steps) : ¬SomeFails ssh k steps := by
  induction steps generalizing k with
  | nil => exact id
  | cons step rest ih =>
    rintro (hf | ⟨-, hr⟩)
    · exact hf.2 h.1
    · exact ih h.2 hr

/-- If no step raises, there is a result for each, with the output of its command. -/
theorem map_stdout_resultsOf {ssh : Nat → SshOutcome} {steps : List Yaml} {k i : Nat}
    (h : NoneRaises ssh k steps) :
    (resultsOf ssh k i steps).map StepResult.stdout =
      (List.range' k steps.length).map (fun j => reportedOutput (ssh j)) := by
  induction steps generalizing k i with
  | nil => rfl
  | cons step rest ih =>
    rcases stepResult_cases (ssh k) i step with ⟨hr, -⟩ | ⟨-, r, hr, hout, -⟩
    · exact absurd hr h.1
    · rw [resultsOf, hr, List.map_cons, ih h.2, hout, List.length_cons, List.range'_succ,
        List.map_cons]

theorem length_resultsOf {ssh : Nat → SshOutcome} {steps : List Yaml} {k i : Nat}
    (h : NoneRaises ssh k steps) : (resultsOf ssh k i steps).length = steps.length := by
  have := congrArg List.length (map_stdout_resultsOf (i := i) h)
  simpa using this

/-! ### The loops -/

/-- The steps that were executed as cleanup steps, in order. -/
def RunState.cleanedUp (s : RunState) : List Yaml :=
  (s.executed.filter (fun e => e.phase == .cleanup)).map Executed.step

@[simp] theorem cleanedUp_executing (s : RunState) (phase : Phase) (i : Nat) (step : Yaml) :
    (s.executing phase i step).cleanedUp =
      s.cleanedUp ++ if phase = .cleanup then [step] else [] := by
  cases phase <;> simp [RunState.cleanedUp, RunState.executing]

/-- What the phases before cleanup leave alone. -/
structure Onward (s s' : RunState) : Prop where
  ssh : s'.ssh = s.ssh
  cleanedUp : s'.cleanedUp = s.cleanedUp

theorem Onward.refl (s : RunState) : Onward s s := ⟨rfl, rfl⟩

theorem Onward.trans {s s' s'' : RunState} (h : Onward s s') (h' : Onward s' s'') :
    Onward s s'' := ⟨h'.ssh.trans h.ssh, h'.cleanedUp.trans h.cleanedUp⟩

/-- What the phases before the assertions leave alone. -/
structure Executing (s s' : RunState) : Prop extends Onward s s' where
  assertionResults : s'.result.assertionResults = s.result.assertionResults

theorem Executing.refl (s : RunState) : Executing s s := ⟨Onward.refl s, rfl⟩

theorem Executing.after {s s' s'' : RunState} (h' : Executing s' s'') (h : Executing s s') :
    Executing s s'' :=
  ⟨h.toOnward.trans h'.toOnward, h'.assertionResults.trans h.assertionResults⟩

theorem executing_step (s : RunState) (phase : Phase) (hp : phase ≠ .cleanup) (i : Nat)
    (step : Yaml) {t : TestResult} (ht : t.assertionResults = s.result.assertionResults) :
    Executing s ⟨s.ssh, (s.executing phase i step).executed, t⟩ := by
  refine ⟨⟨rfl, ?_⟩, ht⟩
  have h := cleanedUp_executing s phase i step
  rw [if_neg hp, List.append_nil] at h
  exact h

/-- The setup steps end with all of them passed, with one that failed, or with an exception. -/
theorem wp_runSetup (py : Python) {steps : List Yaml} {i k : Nat} {s : RunState}
    (hk : s.executed.length = k) :
    wp (runSetup py i steps) s
      (fun passed s' => Executing s s' ∧
        (passed = true ∧ AllPass s.ssh k steps ∧ s'.executed.length = k + steps.length ∧
            s'.result.stepResults = s.result.stepResults ++ resultsOf s.ssh k i steps ∨
          passed = false ∧ SomeFails s.ssh k steps))
      (fun _ s' => Executing s s' ∧ ¬AllPass s.ssh k steps ∧ ¬SomeFails s.ssh k steps) := by
  induction steps generalizing i k s with
  | nil => exact ⟨Executing.refl s, .inl ⟨rfl, trivial, hk, (List.append_nil _).symm⟩⟩
  | cons step rest ih =>
    rw [runSetup, wp_bind, wp_executeStep, hk]
    rcases stepResult_cases (s.ssh k) i step with ⟨hraise, e, hr⟩ | ⟨hraise, r, hr, -, hpassed⟩
    · rw [hr]
      refine ⟨executing_step s .setup (by decide) i step rfl, fun h => not_raises_of_passes h.1 hraise, ?_⟩
      rintro (hf | ⟨hp, -⟩)
      · exact hf.1 hraise
      · exact not_raises_of_passes hp hraise
    · rw [hr]
      simp only [wp_bind, wp_modifyResult]
      by_cases hp : r.passed = true
      · rw [if_pos hp]
        have hpass := hpassed.1 hp
        refine wp_mono (ih (k := k + 1) (by simp [hk])) ?_ ?_
        · rintro passed s' ⟨hon, hend⟩
          refine ⟨hon.after (executing_step s .setup (by decide) i step rfl), ?_⟩
          rcases hend with ⟨ht, hall, hlen, hres⟩ | ⟨hf, hsome⟩
          · refine .inl ⟨ht, ⟨hpass, hall⟩, by rw [hlen, List.length_cons]; omega, ?_⟩
            rw [hres, resultsOf, hr]
            exact List.append_assoc ..
          · exact .inr ⟨hf, .inr ⟨hpass, hsome⟩⟩
        · rintro e s' ⟨hon, hall, hsome⟩
          refine ⟨hon.after (executing_step s .setup (by decide) i step rfl), fun h => hall h.2, ?_⟩
          rintro (hf | ⟨-, hs⟩)
          · exact hf.2 hpass
          · exact hsome hs
      · rw [if_neg hp]
        simp only [wp_bind, wp_modifyResult, wp_pure]
        have hfails : Fails (s.ssh k) step := ⟨hraise, fun h => hp (hpassed.2 h)⟩
        exact ⟨executing_step s .setup (by decide) i step rfl, .inr ⟨trivial, .inl hfails⟩⟩

/-- The test steps end with a result for each, or with an exception. -/
theorem wp_runSteps {steps : List Yaml} {i k : Nat} {s : RunState} (hk : s.executed.length = k) :
    wp (runSteps i steps) s
      (fun _ s' => Executing s s' ∧ NoneRaises s.ssh k steps ∧
        s'.result.stepResults = s.result.stepResults ++ resultsOf s.ssh k i steps)
      (fun _ s' => Executing s s' ∧ ¬NoneRaises s.ssh k steps) := by
  induction steps generalizing i k s with
  | nil => exact ⟨Executing.refl s, trivial, (List.append_nil _).symm⟩
  | cons step rest ih =>
    rw [runSteps, wp_bind, wp_executeStep, hk]
    rcases stepResult_cases (s.ssh k) i step with ⟨hraise, e, hr⟩ | ⟨hraise, r, hr, -⟩
    · rw [hr]
      exact ⟨executing_step s .test (by decide) i step rfl, fun h => h.1 hraise⟩
    · rw [hr]
      simp only [wp_bind, wp_modifyResult]
      refine wp_mono (ih (k := k + 1) (by simp [hk])) ?_ ?_
      · rintro _ s' ⟨hon, hnone, hres⟩
        refine ⟨hon.after (executing_step s .test (by decide) i step rfl), ⟨hraise, hnone⟩, ?_⟩
        rw [hres, resultsOf, hr]
        exact List.append_assoc ..
      · rintro e s' ⟨hon, hnone⟩
        exact ⟨hon.after (executing_step s .test (by decide) i step rfl), fun h => hnone h.2⟩

/-- Every cleanup step is executed once, in order, and the result of the test stays. -/
theorem wp_cleanupSteps {steps : List Yaml} {i : Nat} {s : RunState} :
    wp (cleanupSteps i steps) s
      (fun _ s' => s'.cleanedUp = s.cleanedUp ++ steps ∧ s'.result = s.result)
      (fun _ _ => False) := by
  induction steps generalizing i s with
  | nil => exact ⟨(List.append_nil _).symm, rfl⟩
  | cons step rest ih =>
    have hnext : wp (cleanupSteps (i + 1) rest) (s.executing .cleanup i step)
        (fun _ s' => s'.cleanedUp = s.cleanedUp ++ step :: rest ∧ s'.result = s.result)
        (fun _ _ => False) := by
      refine wp_mono ih ?_ (fun _ _ h => h)
      rintro _ s' ⟨hc, hr⟩
      refine ⟨?_, hr⟩
      rw [hc, cleanedUp_executing, if_pos rfl, List.append_assoc, List.singleton_append]
    rw [cleanupSteps, wp_bind, wp_tryCatch, wp_bind, wp_executeStep]
    cases stepResult (s.ssh s.executed.length) i step with
    | ok r => exact hnext
    | error e => exact hnext

/-- `_run_cleanup` executes the cleanup steps, and raises only if it finds none. -/
theorem wp_runCleanup {testDef : List (Yaml × Yaml)} {s : RunState} :
    wp (runCleanup testDef) s
      (fun _ s' => s'.cleanedUp = s.cleanedUp ++ cleanupSection testDef ∧ s'.result = s.result)
      (fun _ s' => s' = s ∧ cleanupSection testDef = []) := by
  rw [runCleanup, cleanupSection]
  cases h : sectionOf testDef "cleanup" with
  | error e =>
    rw [wp_section_error h]
    exact ⟨rfl, rfl⟩
  | ok steps =>
    rw [wp_section_ok h]
    exact wp_mono wp_cleanupSteps (fun _ _ h => h) (fun _ _ h => h.elim)

/-! ### The assertions -/

/-- No exception leaves the check of an assertion on a step with the given output: the pattern
is a regular expression, and the threshold and the text that is found are numbers. -/
def CheckReturns (py : Python) (d : List (Yaml × Yaml)) (output : String) : Prop :=
  match Yaml.lookup d "type" (.str "exit_code") with
  | .str "output_contains" | .str "output_not_contains" =>
    (py.search (Yaml.lookup d "pattern" (.str "")) output).isOk
  | .str "numeric_gte" =>
    (py.float (Yaml.lookup d "threshold" (.int 0))).isOk ∧
      ∃ found, py.search (Yaml.lookup d "extract_pattern" (.str "[\\d.]+")) output = .ok found ∧
        ∀ text ∈ found, (py.float (.str text)).isOk
  | _ => True

/-- No exception leaves `_evaluate_assertion`, when the steps have the given outputs: `step`
is a number that is too large or an index of the list, and the check returns. -/
def AssertionReturns (py : Python) (outputs : List String) : Yaml → Prop
  | .dict d =>
    (stepIndexOf d).geNat outputs.length = .ok true ∨
      (stepIndexOf d).geNat outputs.length = .ok false ∧
        ∃ output, (stepIndexOf d).index outputs = .ok output ∧ CheckReturns py d output
  | _ => False

@[simp] theorem isOk_ok {α : Type} (a : α) : (Except.ok a : Except PyExc α).isOk = true := rfl

@[simp] theorem isOk_error {α : Type} (e : PyExc) :
    (Except.error e : Except PyExc α).isOk = false := rfl

/-- What is returned at the end does not raise. -/
theorem isOk_bind_pure {α β : Type} (x : Except PyExc α) (f : α → β) :
    (x >>= fun a => pure (f a)).isOk = x.isOk := by
  cases x <;> rfl

theorem index_map {α β : Type} (f : α → β) (items : List α) (v : Yaml) :
    v.index (items.map f) = (v.index items).map f := by
  have hat (n : Int) : Yaml.index.at_ (items.map f) n = (Yaml.index.at_ items n).map f := by
    unfold Yaml.index.at_
    simp only [List.length_map, List.getElem?_map]
    by_cases h0 : 0 ≤ n
    · simp only [if_pos h0]
      cases items[n.toNat]? <;> rfl
    · by_cases hn : -(items.length : Int) ≤ n
      · simp only [if_neg h0, if_pos hn]
        cases items[(items.length + n).toNat]? <;> rfl
      · simp only [if_neg h0, if_neg hn]
        rfl
  cases v with
  | int n => exact hat n
  | bool b => exact hat _
  | _ => rfl

theorem numericCheck_isOk_iff (py : Python) (description : Yaml)
    (threshold : Except PyExc py.Float) (search : Except PyExc (Option String)) :
    (do
      let t ← threshold
      match ← search with
      | some text => do
        let actual ← py.float (.str text)
        return (⟨description, py.ge actual t, py.floatStr actual, ">= " ++ py.floatStr t⟩ :
          AssertionResult)
      | none => return ⟨description, false, "no numeric value found", ">= " ++ py.floatStr t⟩ :
        Except PyExc AssertionResult).isOk = true ↔
      threshold.isOk = true ∧
        ∃ found, search = .ok found ∧ ∀ text ∈ found, (py.float (.str text)).isOk = true := by
  cases threshold with
  | error e => exact iff_of_false Bool.false_ne_true (fun h => Bool.false_ne_true h.1)
  | ok t =>
    cases search with
    | error e => exact iff_of_false Bool.false_ne_true (fun ⟨_, _, h, _⟩ => nomatch h)
    | ok found =>
      cases found with
      | none => exact iff_of_true rfl ⟨rfl, none, rfl, fun _ h => nomatch h⟩
      | some text =>
        refine (Bool.eq_iff_iff.1 (isOk_bind_pure (py.float (.str text)) _)).trans ⟨fun h => ?_, ?_⟩
        · refine ⟨rfl, some text, rfl, ?_⟩
          rintro _ ⟨⟩
          exact h
        · rintro ⟨-, _, ⟨⟩, h⟩
          exact h text rfl

/-- An exception leaves the check when `CheckReturns` says so. -/
theorem checkAssertion_isOk_iff (py : Python) (d : List (Yaml × Yaml)) (step : StepResult) :
    (checkAssertion py d step).isOk = true ↔ CheckReturns py d step.stdout := by
  unfold checkAssertion CheckReturns
  generalize Yaml.lookup d "type" (.str "exit_code") = type
  split
  case h_1 => exact iff_of_true rfl trivial
  case h_2 | h_3 => exact Bool.eq_iff_iff.1 (isOk_bind_pure _ _)
  case h_4 => exact numericCheck_isOk_iff py _ _ _
  case h_5 =>
    refine iff_of_true rfl ?_
    split <;> trivial

theorem evaluateAssertion_dict (py : Python) (d : List (Yaml × Yaml)) (results : List StepResult) :
    evaluateAssertion py (.dict d) results =
      referencedStep (stepIndexOf d) results >>= fun
        | some step => checkAssertion py d step
        | none => .ok ⟨Yaml.lookup d "description" (.str "unnamed assertion"), false, "N/A",
            "step " ++ py.str (stepIndexOf d) ++ " to exist"⟩ := rfl

theorem evaluateAssertion_isOk_iff (py : Python) (results : List StepResult) (a : Yaml) :
    (evaluateAssertion py a results).isOk = true ↔
      AssertionReturns py (results.map StepResult.stdout) a := by
  cases a with
  | dict d =>
    rw [evaluateAssertion_dict, referencedStep, AssertionReturns, List.length_map, index_map]
    cases (stepIndexOf d).geNat results.length with
    | error e => exact iff_of_false Bool.false_ne_true (fun h => by simp at h)
    | ok large =>
      cases large with
      | true => exact iff_of_true rfl (.inl rfl)
      | false =>
        cases (stepIndexOf d).index results with
        | error e => exact iff_of_false Bool.false_ne_true (fun h => by simp [Except.map] at h)
        | ok step =>
          refine (checkAssertion_isOk_iff py d step).trans ⟨fun h => .inr ⟨rfl, _, rfl, h⟩, ?_⟩
          rintro (h | ⟨-, _, ⟨⟩, h⟩)
          · simp at h
          · exact h
  | _ => exact iff_of_false Bool.false_ne_true id

/-- The reports of the assertions up to the first one that raises. -/
def evaluations (py : Python) (results : List StepResult) : List Yaml → List AssertionResult
  | [] => []
  | a :: rest =>
    match evaluateAssertion py a results with
    | .ok r => r :: evaluations py results rest
    | .error _ => []

/-- The report of an assertion before which none raises. -/
theorem evaluations_getElem? {py : Python} {results : List StepResult} {assertions : List Yaml}
    {j : Nat} {a : Yaml} (ha : assertions[j]? = some a)
    (hbefore : ∀ b ∈ assertions.take j, (evaluateAssertion py b results).isOk = true) :
    (evaluations py results assertions)[j]? = (evaluateAssertion py a results).toOption := by
  induction assertions generalizing j with
  | nil => simp at ha
  | cons b rest ih =>
    rw [evaluations]
    cases j with
    | zero =>
      obtain rfl : b = a := by simpa using ha
      cases evaluateAssertion py b results <;> rfl
    | succ j =>
      rw [List.take_succ_cons, List.forall_mem_cons] at hbefore
      cases hb : evaluateAssertion py b results with
      | error e => simp [hb] at hbefore
      | ok r => simpa using ih (by simpa using ha) hbefore.2

/-- The loop gets to an assertion if and only if none before it raises. -/
theorem le_length_evaluations_iff {py : Python} {results : List StepResult}
    {assertions : List Yaml} {j : Nat} (hj : j ≤ assertions.length) :
    j ≤ (evaluations py results assertions).length ↔
      ∀ a ∈ assertions.take j, (evaluateAssertion py a results).isOk = true := by
  induction assertions generalizing j with
  | nil =>
    obtain rfl : j = 0 := by simpa using hj
    simp
  | cons a rest ih =>
    cases j with
    | zero => simp
    | succ j =>
      rw [List.take_succ_cons, List.forall_mem_cons, evaluations, ← ih (by simpa using hj)]
      cases evaluateAssertion py a results with
      | error e => simp
      | ok r => simp

/-- The assertions are evaluated on the step results there are, up to the first one that raises. -/
theorem wp_runAssertions (py : Python) {assertions : List Yaml} {s : RunState} :
    wp (runAssertions py assertions) s
      (fun _ s' => Onward s s' ∧ s'.result.stepResults = s.result.stepResults ∧
        s'.result.assertionResults =
          s.result.assertionResults ++ evaluations py s.result.stepResults assertions ∧
        ∀ a ∈ assertions, AssertionReturns py (s.result.stepResults.map StepResult.stdout) a)
      (fun _ s' => Onward s s' ∧ s'.result.stepResults = s.result.stepResults ∧
        s'.result.assertionResults =
          s.result.assertionResults ++ evaluations py s.result.stepResults assertions ∧
        ¬∀ a ∈ assertions, AssertionReturns py (s.result.stepResults.map StepResult.stdout) a) := by
  induction assertions generalizing s with
  | nil => exact ⟨Onward.refl s, rfl, (List.append_nil _).symm, fun _ h => (nomatch h)⟩
  | cons a rest ih =>
    rw [runAssertions, wp_bind, wp_get, wp_bind, evaluations]
    have hreturns := evaluateAssertion_isOk_iff py s.result.stepResults a
    cases h : evaluateAssertion py a s.result.stepResults with
    | error e =>
      rw [h] at hreturns
      refine ⟨Onward.refl s, rfl, (List.append_nil _).symm, fun hall => ?_⟩
      exact Bool.false_ne_true (hreturns.2 (hall a List.mem_cons_self))
    | ok r =>
      rw [h] at hreturns
      simp only [ofExcept_ok, wp_pure, wp_bind, wp_modifyResult]
      refine wp_mono ih ?_ ?_
      · rintro _ s' ⟨hon, hres, heval, hall⟩
        refine ⟨⟨hon.ssh, hon.cleanedUp⟩, hres, ?_, List.forall_mem_cons.2 ⟨hreturns.1 rfl, hall⟩⟩
        rw [heval, List.append_assoc, List.singleton_append]
      · rintro e s' ⟨hon, hres, heval, hall⟩
        refine ⟨⟨hon.ssh, hon.cleanedUp⟩, hres, ?_, fun h => hall (List.forall_mem_cons.1 h).2⟩
        rw [heval, List.append_assoc, List.singleton_append]

/-! ### The test steps and the assertions -/

/-- The outputs of the first `n` commands of a run. -/
def outputsOf (ssh : Nat → SshOutcome) (n : Nat) : List String :=
  (List.range' 0 n).map (fun k => reportedOutput (ssh k))

/-- No exception leaves the test steps or the assertions, after `k` commands. -/
def TestReturns (py : Python) (ssh : Nat → SshOutcome) (testDef : List (Yaml × Yaml)) (k : Nat) :
    Prop :=
  ∃ steps assertions, sectionOf testDef "steps" = .ok steps ∧
    sectionOf testDef "assertions" = .ok assertions ∧ NoneRaises ssh k steps ∧
    ∀ a ∈ assertions, AssertionReturns py (outputsOf ssh (k + steps.length)) a

/-- The assertion results are the reports of the assertions on all step results. -/
def Evaluated (py : Python) (testDef : List (Yaml × Yaml)) (s : RunState) : Prop :=
  ∀ assertions, sectionOf testDef "assertions" = .ok assertions →
    s.result.assertionResults = evaluations py s.result.stepResults assertions

/-- If no test step raises, the step results are those from before and one for each of them, and
the assertions are evaluated on these. -/
def AddsResults (py : Python) (testDef : List (Yaml × Yaml)) (k : Nat) (s s' : RunState) : Prop :=
  ∀ steps, sectionOf testDef "steps" = .ok steps → NoneRaises s.ssh k steps →
    s'.result.stepResults = s.result.stepResults ++ resultsOf s.ssh k 0 steps ∧
      Evaluated py testDef s'

theorem outputsOf_add (ssh : Nat → SshOutcome) {steps : List Yaml} {k i : Nat}
    (h : NoneRaises ssh k steps) :
    outputsOf ssh k ++ (resultsOf ssh k i steps).map StepResult.stdout =
      outputsOf ssh (k + steps.length) := by
  rw [map_stdout_resultsOf h, outputsOf, outputsOf, ← List.map_append]
  congr 1
  simpa using @List.range'_append 0 k steps.length 1

theorem addsResults_iff {py : Python} {testDef : List (Yaml × Yaml)} {k : Nat} {s s' : RunState}
    {steps : List Yaml} (hsteps : sectionOf testDef "steps" = .ok steps) :
    AddsResults py testDef k s s' ↔ (NoneRaises s.ssh k steps →
      s'.result.stepResults = s.result.stepResults ++ resultsOf s.ssh k 0 steps ∧
        Evaluated py testDef s') := by
  constructor
  · exact fun h => h steps hsteps
  · intro h steps' hsteps'
    rwa [Except.ok.inj (hsteps'.symm.trans hsteps)]

theorem testReturns_iff (py : Python) (ssh : Nat → SshOutcome) {testDef : List (Yaml × Yaml)}
    {k : Nat} {steps assertions : List Yaml} (hsteps : sectionOf testDef "steps" = .ok steps)
    (hassertions : sectionOf testDef "assertions" = .ok assertions) :
    TestReturns py ssh testDef k ↔ NoneRaises ssh k steps ∧
      ∀ a ∈ assertions, AssertionReturns py (outputsOf ssh (k + steps.length)) a := by
  constructor
  · rintro ⟨steps', assertions', hs, ha, h⟩
    rwa [Except.ok.inj (hs.symm.trans hsteps), Except.ok.inj (ha.symm.trans hassertions)] at h
  · exact fun h => ⟨steps, assertions, hsteps, hassertions, h⟩

/-- The test steps and the assertions end without an exception if and only if `TestReturns`. -/
theorem wp_runPhases (py : Python) {testDef : List (Yaml × Yaml)} {k : Nat} {s : RunState}
    (hk : s.executed.length = k)
    (hout : s.result.stepResults.map StepResult.stdout = outputsOf s.ssh k)
    (hnil : s.result.assertionResults = []) :
    wp (runPhases py testDef) s
      (fun _ s' => Onward s s' ∧ AddsResults py testDef k s s' ∧ TestReturns py s.ssh testDef k)
      (fun _ s' => Onward s s' ∧ AddsResults py testDef k s s' ∧
        ¬TestReturns py s.ssh testDef k) := by
  rw [runPhases]
  cases hsteps : sectionOf testDef "steps" with
  | error e =>
    rw [wp_section_error hsteps]
    have hnone (steps : List Yaml) : sectionOf testDef "steps" ≠ .ok steps := by
      rw [hsteps]
      intro h
      cases h
    refine ⟨Onward.refl s, fun steps h => absurd h (hnone steps), ?_⟩
    rintro ⟨steps, _, h, -⟩
    exact hnone steps h
  | ok steps =>
    simp only [addsResults_iff hsteps]
    rw [wp_section_ok hsteps, wp_bind]
    refine wp_mono (wp_runSteps hk) ?_ ?_
    · rintro _ s₁ ⟨hon, hnone, hres⟩
      cases hassertions : sectionOf testDef "assertions" with
      | error e =>
        rw [wp_section_error hassertions]
        refine ⟨hon.toOnward, fun _ => ⟨hres, fun assertions h => ?_⟩, ?_⟩
        · rw [hassertions] at h
          cases h
        · rintro ⟨_, assertions, -, h, -⟩
          rw [hassertions] at h
          cases h
      | ok assertions =>
        have hreturns := testReturns_iff py s.ssh (k := k) hsteps hassertions
        have houtputs : s₁.result.stepResults.map StepResult.stdout =
            outputsOf s.ssh (k + steps.length) := by
          rw [hres, List.map_append, hout, outputsOf_add s.ssh hnone]
        -- the reports are those of all assertions, whether or not one of them raises
        have hevaluated (s₂ : RunState) (hres₂ : s₂.result.stepResults = s₁.result.stepResults)
            (heval : s₂.result.assertionResults =
              s₁.result.assertionResults ++ evaluations py s₁.result.stepResults assertions) :
            Evaluated py testDef s₂ := by
          intro assertions' hassertions'
          rw [Except.ok.inj (hassertions'.symm.trans hassertions), heval, hres₂,
            hon.assertionResults, hnil, List.nil_append]
        rw [wp_section_ok hassertions, wp_bind]
        refine wp_mono (wp_runAssertions py) ?_ ?_
        · rintro _ s₂ ⟨hon₂, hres₂, heval, hall⟩
          rw [houtputs] at hall
          have hon₃ := hon.toOnward.trans hon₂
          refine ⟨⟨hon₃.ssh, hon₃.cleanedUp⟩, fun _ => ⟨hres₂.trans hres, ?_⟩,
            hreturns.2 ⟨hnone, hall⟩⟩
          exact hevaluated s₂ hres₂ heval
        · rintro e s₂ ⟨hon₂, hres₂, heval, hall⟩
          rw [houtputs] at hall
          refine ⟨hon.toOnward.trans hon₂, fun _ => ⟨hres₂.trans hres, ?_⟩,
            fun h => hall (hreturns.1 h).2⟩
          exact hevaluated s₂ hres₂ heval
    · rintro e s₁ ⟨hon, hnone⟩
      refine ⟨hon.toOnward, fun h => absurd h hnone, ?_⟩
      rintro ⟨steps', _, hs, -, h, -⟩
      rw [Except.ok.inj (hs.symm.trans hsteps)] at h
      exact hnone h

/-! ### A definition -/

/-- The step results are those of both sections, if no test step raised, and the assertions are
evaluated on them. -/
def HasResults (py : Python) (testDef : List (Yaml × Yaml)) (ssh : Nat → SshOutcome)
    (setup : List Yaml) (s : RunState) : Prop :=
  ∀ steps, sectionOf testDef "steps" = .ok steps → NoneRaises ssh setup.length steps →
    s.result.stepResults = resultsOf ssh 0 0 setup ++ resultsOf ssh setup.length 0 steps ∧
      Evaluated py testDef s

/-- **The ways through a definition**: the setup steps pass and the phases after them return or
raise, a setup step fails, or one raises. -/
theorem wp_runDefinition (py : Python) {testDef : List (Yaml × Yaml)} {setup : List Yaml}
    {s : RunState} {Q : Unit → RunState → Prop} {E : PyExc → RunState → Prop}
    (hsetup : sectionOf testDef "setup" = .ok setup) (he : s.executed = [])
    (hr : s.result.stepResults = []) (ha : s.result.assertionResults = [])
    (hreturns : AllPass s.ssh 0 setup → TestReturns py s.ssh testDef setup.length →
      ∀ s₁, Onward s s₁ → HasResults py testDef s.ssh setup s₁ → wp (runCleanup testDef) s₁ Q E)
    (hraises : AllPass s.ssh 0 setup → ¬TestReturns py s.ssh testDef setup.length →
      ∀ e s₁, Onward s s₁ → HasResults py testDef s.ssh setup s₁ → E e s₁)
    (hfails : SomeFails s.ssh 0 setup → ∀ s₁, Onward s s₁ → wp (runCleanup testDef) s₁ Q E)
    (hescapes : ¬AllPass s.ssh 0 setup → ¬SomeFails s.ssh 0 setup →
      ∀ e s₁, Onward s s₁ → E e s₁) :
    wp (runDefinition py testDef) s Q E := by
  rw [runDefinition, wp_section_ok hsetup, wp_bind]
  refine wp_mono (wp_runSetup py (k := 0) (by rw [he]; rfl)) ?_ ?_
  · rintro passed s₁ ⟨hon, ⟨rfl, hall, hlen, hres⟩ | ⟨rfl, hsome⟩⟩
    · rw [hr, List.nil_append] at hres
      have hout : s₁.result.stepResults.map StepResult.stdout = outputsOf s₁.ssh setup.length := by
        have hadd := outputsOf_add s.ssh (i := 0) (noneRaises_of_allPass hall)
        rw [Nat.zero_add] at hadd
        rw [hres, hon.ssh, ← hadd]
        rfl
      have hboth (s₂ : RunState) (hadds : AddsResults py testDef setup.length s₁ s₂) :
          HasResults py testDef s.ssh setup s₂ := by
        intro steps hsteps hnone
        have hadded := hadds steps hsteps
        rw [hres, hon.ssh] at hadded
        exact hadded hnone
      rw [if_pos rfl, wp_bind]
      have hnil : s₁.result.assertionResults = [] := hon.assertionResults.trans ha
      refine wp_mono (wp_runPhases py (by rw [hlen, Nat.zero_add]) hout hnil) ?_ ?_
      · rintro _ s₂ ⟨hon₂, hadds, hret⟩
        rw [hon.ssh] at hret
        exact hreturns hall hret s₂ (hon.toOnward.trans hon₂) (hboth s₂ hadds)
      · rintro e s₂ ⟨hon₂, hadds, hret⟩
        rw [hon.ssh] at hret
        exact hraises hall hret e s₂ (hon.toOnward.trans hon₂) (hboth s₂ hadds)
    · exact hfails hsome s₁ hon.toOnward
  · rintro e s₁ ⟨hon, hall, hsome⟩
    exact hescapes hall hsome e s₁ hon.toOnward

end PrismFirewall.ApiServer
