import Mathlib.Algebra.Order.Ring.Rat
import Mathlib.Data.Nat.Cast.Order.Ring
import PrismFirewall.ApiServer.Cleanup
import PrismFirewall.Lib.Decimal

/-!
# Which step an assertion looks at

The results of the setup steps and of the test steps are one list, in this order, and
`_evaluate_assertion` takes the index of an assertion into that list.  With setup steps in front
the index is off by their number: `step: 0` is the first setup step, and a step is only missing
when the index is past both sections.

`assertions_look_at_their_step_iff` is about the reports in the result of a run.  They are the
checks of the steps that the assertions name if there are no setup steps, or if an index is past
both sections anyway; otherwise only if the assertion cannot tell the step that it finds from the
one that it names (`SeenAlike`).
-/

namespace PrismFirewall.ApiServer

open Lib Lib.Text

variable {py : Python} {ssh : Nat → SshOutcome} {setup steps : List Yaml}

/-- A run gets to the assertions: the setup steps pass and no test step raises. -/
def ReachesAssertions (ssh : Nat → SshOutcome) (setup steps : List Yaml) : Prop :=
  AllPass ssh 0 setup ∧ NoneRaises ssh setup.length steps

/-- The results of the `steps` section. -/
def ownResults (ssh : Nat → SshOutcome) (setup steps : List Yaml) : List StepResult :=
  resultsOf ssh setup.length 0 steps

/-- The results of both sections, as `run_test` collects them. -/
def bothResults (ssh : Nat → SshOutcome) (setup steps : List Yaml) : List StepResult :=
  resultsOf ssh 0 0 setup ++ ownResults ssh setup steps

/-- The report on a step that does not exist. -/
def missingReport (py : Python) (d : List (Yaml × Yaml)) : AssertionResult :=
  ⟨Yaml.lookup d "description" (.str "unnamed assertion"), false, "N/A",
    "step " ++ py.str (stepIndexOf d) ++ " to exist"⟩

/-! ### The reports of a run -/

theorem wp_runDefinition_evaluated (py : Python) {testDef : List (Yaml × Yaml)} {s : RunState}
    (hsetup : sectionOf testDef "setup" = .ok setup) (hsteps : sectionOf testDef "steps" = .ok steps)
    (h : ReachesAssertions s.ssh setup steps) (he : s.executed = [])
    (hr : s.result.stepResults = []) (ha : s.result.assertionResults = []) :
    wp (runDefinition py testDef) s
      (fun _ s' => s'.result.stepResults = bothResults s.ssh setup steps ∧ Evaluated py testDef s')
      (fun _ s' => s'.result.stepResults = bothResults s.ssh setup steps ∧
        Evaluated py testDef s') := by
  refine wp_runDefinition py hsetup he hr ha ?_ ?_ ?_ ?_
  · intro _ _ s₁ _ hboth
    refine wp_mono wp_runCleanup ?_ ?_
    · rintro _ s₂ ⟨-, hresult⟩
      rw [Evaluated, hresult]
      exact hboth steps hsteps h.2
    · rintro e s₂ ⟨rfl, -⟩
      exact hboth steps hsteps h.2
  · exact fun _ _ e s₁ _ hboth => hboth steps hsteps h.2
  · exact fun hsome => absurd hsome (not_someFails_of_allPass h.1)
  · exact fun hall => absurd h.1 hall

/-- **The assertion results of a run** are the reports of the assertions on all step results,
those of the setup steps included. -/
theorem wp_runTest_evaluated (py : Python) (testId : String) {testDef : List (Yaml × Yaml)}
    (before : TestResult) (hsetup : sectionOf testDef "setup" = .ok setup)
    (hsteps : sectionOf testDef "steps" = .ok steps) (h : ReachesAssertions ssh setup steps) :
    wp (runTest py testId (some testDef)) ⟨ssh, [], before⟩
      (fun _ s' => ∀ assertions, sectionOf testDef "assertions" = .ok assertions →
        s'.result.assertionResults = evaluations py (bothResults ssh setup steps) assertions)
      (fun _ _ => False) := by
  have hreports {s : RunState} (hs : s.result.stepResults = bothResults ssh setup steps ∧
      Evaluated py testDef s) (assertions : List Yaml)
      (hassertions : sectionOf testDef "assertions" = .ok assertions) :
      s.result.assertionResults = evaluations py (bothResults ssh setup steps) assertions := by
    rw [hs.2 assertions hassertions, hs.1]
  rw [runTest, wp_bind, wp_modifyResult, wp_tryCatch]
  refine wp_mono (wp_runDefinition_evaluated py hsetup hsteps h rfl rfl rfl) ?_ ?_
  · exact fun _ s' hs' => hreports hs'
  · exact fun e s' hs' => hreports hs'

/-! ### One assertion -/

theorem referencedStep_nat (i : Nat) (results : List StepResult) :
    referencedStep (.int i) results = .ok results[i]? := by
  have hge : (Yaml.int i).geNat results.length = .ok (decide (results.length ≤ i)) := by
    show Except.ok (decide ((results.length : Rat) ≤ ((i : Int) : Rat))) = _
    rw [Int.cast_natCast, decide_eq_decide.2 Nat.cast_le]
  rw [referencedStep, hge]
  by_cases hi : results.length ≤ i
  · rw [decide_eq_true hi, List.getElem?_eq_none hi]
    rfl
  · rw [decide_eq_false hi]
    obtain ⟨step, hsome⟩ : ∃ step, results[i]? = some step :=
      ⟨_, List.getElem?_eq_getElem (by omega)⟩
    have hindex : (Yaml.int i).index results = .ok step := by
      simp [Yaml.index, Yaml.index.at_, hsome]
    rw [hsome]
    show (Yaml.int i).index results >>= (fun step => .ok (some step)) = _
    rw [hindex]
    rfl

section Evaluate

variable {d : List (Yaml × Yaml)} {i : Nat} {results : List StepResult}

/-- With `step: i` the `i`-th of the step results is checked. -/
theorem evaluateAssertion_found {step : StepResult} (hi : stepIndexOf d = .int i)
    (hstep : results[i]? = some step) :
    evaluateAssertion py (.dict d) results = checkAssertion py d step := by
  rw [evaluateAssertion_dict, hi, referencedStep_nat, hstep]
  rfl

theorem evaluateAssertion_missing (hi : stepIndexOf d = .int i) (hlen : results.length ≤ i) :
    evaluateAssertion py (.dict d) results = .ok (missingReport py d) := by
  rw [evaluateAssertion_dict, missingReport, hi, referencedStep_nat,
    List.getElem?_eq_none hlen]
  rfl

end Evaluate

/-- What `output_contains` and `output_not_contains` see of an output: whether the pattern is
found, and the first 200 characters. -/
def patternSeen (py : Python) (d : List (Yaml × Yaml)) (output : String) : Option (Bool × String) :=
  (py.search (Yaml.lookup d "pattern" (.str "")) output).toOption.map
    (fun found => (found.isSome, first200 output))

/-- What `numeric_gte` sees of an output: whether the number reaches the threshold, and its
text. -/
def numberSeen (py : Python) (d : List (Yaml × Yaml)) (output : String) :
    Option (Bool × String) := do
  let threshold ← (py.float (Yaml.lookup d "threshold" (.int 0))).toOption
  match ← (py.search (Yaml.lookup d "extract_pattern" (.str "[\\d.]+")) output).toOption with
  | some text => do
    let actual ← (py.float (.str text)).toOption
    return (py.ge actual threshold, py.floatStr actual)
  | none => return (false, "no numeric value found")

/-- The assertion cannot tell the two steps apart. -/
def SeenAlike (py : Python) (d : List (Yaml × Yaml)) (a b : StepResult) : Prop :=
  match Yaml.lookup d "type" (.str "exit_code") with
  | .str "exit_code" => a.exitCode = b.exitCode
  | .str "output_contains" | .str "output_not_contains" =>
    patternSeen py d a.stdout = patternSeen py d b.stdout
  | .str "numeric_gte" => numberSeen py d a.stdout = numberSeen py d b.stdout
  | _ => True

/-- The reports of an assertion are what it sees of a step, and none of them is the report on a
step that does not exist. -/
structure Reports (py : Python) (d : List (Yaml × Yaml)) (seen : StepResult → Option (Bool × String))
    (f : Bool → Bool) (expected : String) : Prop where
  injective : f.Injective
  report : ∀ step, (checkAssertion py d step).toOption = (seen step).map (fun v =>
    ⟨Yaml.lookup d "description" (.str "unnamed assertion"), f v.1, v.2, expected⟩)
  present : ∀ step v, seen step = some v → expected = (missingReport py d).expected → v.2 ≠ "N/A"
  alike : ∀ a b, seen a = seen b ↔ SeenAlike py d a b

theorem toOption_bind_pure {α β : Type} (x : Except PyExc α) (f : α → β) :
    (x >>= fun a => pure (f a)).toOption = x.toOption.map f := by
  cases x <;> rfl

theorem numericCheck_toOption (py : Python) (description : Yaml) {threshold : py.Float}
    (search : Except PyExc (Option String)) :
    (do
      match ← search with
      | some text => do
        let actual ← py.float (.str text)
        return (⟨description, py.ge actual threshold, py.floatStr actual,
          ">= " ++ py.floatStr threshold⟩ : AssertionResult)
      | none => return ⟨description, false, "no numeric value found",
          ">= " ++ py.floatStr threshold⟩ : Except PyExc AssertionResult).toOption =
      (do
        match ← search.toOption with
        | some text => do
          let actual ← (py.float (.str text)).toOption
          return (py.ge actual threshold, py.floatStr actual)
        | none => return (false, "no numeric value found") : Option (Bool × String)).map
        (fun v => ⟨description, v.1, v.2, ">= " ++ py.floatStr threshold⟩) := by
  cases search with
  | error e => rfl
  | ok found =>
    cases found with
    | none => rfl
    | some text =>
      show (py.float (.str text) >>= _).toOption = ((py.float (.str text)).toOption >>= _).map _
      cases py.float (.str text) <;> rfl

/-- A text that begins otherwise is not what is expected of a step that does not exist. -/
theorem ne_expected_missing {start text : String} {c : Char} (d : List (Yaml × Yaml))
    (hstart : start.toList.head? = some c) (hc : c ≠ 's') :
    start ++ text ≠ (missingReport py d).expected := by
  intro h
  have hhead := congrArg (fun s => s.toList.head?) h
  rw [missingReport, String.append_assoc, String.toList_append, String.toList_append,
    List.head?_append, hstart] at hhead
  exact hc (Option.some.inj hhead)

section Types

variable {d : List (Yaml × Yaml)}

theorem reports_exitCode (py : Python)
    (htype : Yaml.lookup d "type" (.str "exit_code") = .str "exit_code") :
    Reports py d (fun step => some ((Yaml.lookup d "expected" (.int 0)).eqInt step.exitCode,
      toString step.exitCode)) id (py.str (Yaml.lookup d "expected" (.int 0))) where
  injective := Function.injective_id
  report step := by
    rw [checkAssertion, htype]
    rfl
  present := by
    rintro step _ ⟨⟩ - hna
    have hmem : 'N' ∈ (toString step.exitCode).toList := by
      rw [show toString step.exitCode = "N/A" from hna]
      decide
    rcases mem_toString_int hmem with h | h
    · exact absurd h (by decide)
    · exact absurd h (by decide)
  alike a b := by
    rw [SeenAlike, htype]
    constructor
    · intro h
      exact toString_int_inj.1 (congrArg Prod.snd (Option.some.inj h))
    · intro h
      rw [show a.exitCode = b.exitCode from h]

theorem reports_contains (py : Python)
    (htype : Yaml.lookup d "type" (.str "exit_code") = .str "output_contains") :
    Reports py d (fun step => patternSeen py d step.stdout) id
      ("pattern: " ++ py.str (Yaml.lookup d "pattern" (.str ""))) where
  injective := Function.injective_id
  report step := by
    rw [checkAssertion, htype, patternSeen, Option.map_map]
    exact toOption_bind_pure _ _
  present step v _ h := by
    exact absurd h (ne_expected_missing d (c := 'p') rfl (by decide))
  alike a b := by
    rw [SeenAlike, htype]
    exact Iff.rfl

theorem reports_notContains (py : Python)
    (htype : Yaml.lookup d "type" (.str "exit_code") = .str "output_not_contains") :
    Reports py d (fun step => patternSeen py d step.stdout) not
      ("not matching: " ++ py.str (Yaml.lookup d "pattern" (.str ""))) where
  injective _ _ := Bool.not_inj
  report step := by
    have hnot (found : Option String) : found.isNone = !found.isSome := by
      cases found <;> rfl
    rw [checkAssertion, htype, patternSeen, Option.map_map]
    refine (toOption_bind_pure _ _).trans ?_
    simp only [hnot]
    rfl
  present step v _ h := by
    exact absurd h (ne_expected_missing d (c := 'n') rfl (by decide))
  alike a b := by
    rw [SeenAlike, htype]
    exact Iff.rfl

theorem reports_numeric (py : Python) {threshold : py.Float}
    (htype : Yaml.lookup d "type" (.str "exit_code") = .str "numeric_gte")
    (ht : py.float (Yaml.lookup d "threshold" (.int 0)) = .ok threshold) :
    Reports py d (fun step => numberSeen py d step.stdout) id (">= " ++ py.floatStr threshold) where
  injective := Function.injective_id
  report step := by
    rw [checkAssertion, htype, numberSeen]
    dsimp only
    rw [ht]
    exact numericCheck_toOption py _ _
  present step v _ h := by
    exact absurd h (ne_expected_missing d (c := '>') rfl (by decide))
  alike a b := by
    rw [SeenAlike, htype]
    exact Iff.rfl

/-- Without a threshold nothing is seen of a step. -/
theorem reports_noThreshold (py : Python) {e : PyExc}
    (htype : Yaml.lookup d "type" (.str "exit_code") = .str "numeric_gte")
    (ht : py.float (Yaml.lookup d "threshold" (.int 0)) = .error e) :
    Reports py d (fun _ => none) id "" where
  injective := Function.injective_id
  report step := by
    rw [checkAssertion, htype]
    dsimp only
    rw [ht]
    rfl
  present := by
    rintro step v ⟨⟩
  alike a b := by
    rw [SeenAlike, htype]
    refine iff_of_true rfl ?_
    show numberSeen py d a.stdout = numberSeen py d b.stdout
    rw [numberSeen, numberSeen, ht]
    rfl

theorem reports_unknown (py : Python)
    (hexit : Yaml.lookup d "type" (.str "exit_code") ≠ .str "exit_code")
    (hcontains : Yaml.lookup d "type" (.str "exit_code") ≠ .str "output_contains")
    (hnot : Yaml.lookup d "type" (.str "exit_code") ≠ .str "output_not_contains")
    (hnumeric : Yaml.lookup d "type" (.str "exit_code") ≠ .str "numeric_gte") :
    Reports py d (fun _ => some (false, "N/A")) id
      ("unknown assertion type: " ++ py.str (Yaml.lookup d "type" (.str "exit_code"))) where
  injective := Function.injective_id
  report step := by
    rw [checkAssertion]
    split
    case h_1 h => exact absurd h hexit
    case h_2 h => exact absurd h hcontains
    case h_3 h => exact absurd h hnot
    case h_4 h => exact absurd h hnumeric
    case h_5 => rfl
  present step v _ h := by
    exact absurd h (ne_expected_missing d (c := 'u') rfl (by decide))
  alike a b := by
    refine iff_of_true rfl ?_
    rw [SeenAlike]
    split
    case h_1 h => exact absurd h hexit
    case h_2 h => exact absurd h hcontains
    case h_3 h => exact absurd h hnot
    case h_4 h => exact absurd h hnumeric
    case h_5 => trivial

end Types

theorem checkAssertion_reports (py : Python) (d : List (Yaml × Yaml)) :
    ∃ seen f expected, Reports py d seen f expected := by
  by_cases hexit : Yaml.lookup d "type" (.str "exit_code") = .str "exit_code"
  · exact ⟨_, _, _, reports_exitCode py hexit⟩
  by_cases hcontains : Yaml.lookup d "type" (.str "exit_code") = .str "output_contains"
  · exact ⟨_, _, _, reports_contains py hcontains⟩
  by_cases hnot : Yaml.lookup d "type" (.str "exit_code") = .str "output_not_contains"
  · exact ⟨_, _, _, reports_notContains py hnot⟩
  by_cases hnumeric : Yaml.lookup d "type" (.str "exit_code") = .str "numeric_gte"
  · cases ht : py.float (Yaml.lookup d "threshold" (.int 0)) with
    | error e => exact ⟨_, _, _, reports_noThreshold py hnumeric ht⟩
    | ok threshold => exact ⟨_, _, _, reports_numeric py hnumeric ht⟩
  · exact ⟨_, _, _, reports_unknown py hexit hcontains hnot hnumeric⟩

/-- **Two steps are reported alike** if and only if they are seen alike. -/
theorem toOption_checkAssertion_eq_iff (py : Python) (d : List (Yaml × Yaml)) (a b : StepResult) :
    (checkAssertion py d a).toOption = (checkAssertion py d b).toOption ↔ SeenAlike py d a b := by
  obtain ⟨seen, f, expected, h⟩ := checkAssertion_reports py d
  rw [h.report, h.report, ← h.alike]
  refine (Option.map_injective ?_).eq_iff
  rintro ⟨p, v⟩ ⟨p', v'⟩ heq
  rw [AssertionResult.mk.injEq] at heq
  rw [Prod.mk.injEq]
  exact ⟨h.injective heq.2.1, heq.2.2.1⟩

/-- The check of a step never says that it is missing. -/
theorem checkAssertion_ne_missingReport (py : Python) (d : List (Yaml × Yaml)) (step : StepResult) :
    (checkAssertion py d step).toOption ≠ some (missingReport py d) := by
  obtain ⟨seen, f, expected, h⟩ := checkAssertion_reports py d
  rw [h.report]
  intro heq
  obtain ⟨v, hv, hreport⟩ := Option.map_eq_some_iff.1 heq
  exact h.present step v hv (congrArg AssertionResult.expected hreport)
    (congrArg AssertionResult.actualValue hreport)

/-! ### The reports of both sections -/

/-- An assertion with `step: i` finds the `i`-th step, or one that it cannot tell from it, or
there is neither. -/
def FindsItsStep (py : Python) (ssh : Nat → SshOutcome) (setup steps : List Yaml)
    (d : List (Yaml × Yaml)) (i : Nat) : Prop :=
  setup = [] ∨ setup.length + steps.length ≤ i ∨
    ∃ found own, (bothResults ssh setup steps)[i]? = some found ∧
      (ownResults ssh setup steps)[i]? = some own ∧ SeenAlike py d found own

/-- The report of an assertion with `step: i` is the check of the `i`-th step, and it says that
the step is missing exactly if there is none. -/
structure LooksAtStep (py : Python) (d : List (Yaml × Yaml)) (ssh : Nat → SshOutcome)
    (setup steps : List Yaml) (i : Nat) (report : Option AssertionResult) : Prop where
  checked : ∀ step, (ownResults ssh setup steps)[i]? = some step →
    report = (checkAssertion py d step).toOption
  missing : report = some (missingReport py d) ↔ steps.length ≤ i

/-- **One assertion**, evaluated on the results of both sections. -/
theorem looksAtStep_iff {d : List (Yaml × Yaml)} {i : Nat} (h : ReachesAssertions ssh setup steps)
    (hi : stepIndexOf d = .int i) :
    LooksAtStep py d ssh setup steps i
        (evaluateAssertion py (.dict d) (bothResults ssh setup steps)).toOption ↔
      FindsItsStep py ssh setup steps d i := by
  have hown : (ownResults ssh setup steps).length = steps.length := length_resultsOf h.2
  have hboth : (bothResults ssh setup steps).length = setup.length + steps.length := by
    rw [bothResults, List.length_append, length_resultsOf (noneRaises_of_allPass h.1), hown]
  by_cases hpast : setup.length + steps.length ≤ i
  · refine iff_of_true ⟨fun step hstep => ?_, ?_⟩ (.inr (.inl hpast))
    · rw [List.getElem?_eq_none (by omega)] at hstep
      cases hstep
    · rw [evaluateAssertion_missing hi (by omega)]
      exact iff_of_true rfl (by omega)
  obtain ⟨found, hfound⟩ : ∃ found, (bothResults ssh setup steps)[i]? = some found :=
    ⟨_, List.getElem?_eq_getElem (by omega)⟩
  rw [evaluateAssertion_found hi hfound, FindsItsStep, or_iff_right hpast]
  by_cases hlt : i < steps.length
  · obtain ⟨own, hsome⟩ : ∃ own, (ownResults ssh setup steps)[i]? = some own :=
      ⟨_, List.getElem?_eq_getElem (by omega)⟩
    -- without setup steps the two are the same
    have halike : (setup = [] ∨ ∃ found own, (bothResults ssh setup steps)[i]? = some found ∧
        (ownResults ssh setup steps)[i]? = some own ∧ SeenAlike py d found own) ↔
          SeenAlike py d found own := by
      rw [hfound, hsome]
      constructor
      · rintro (rfl | ⟨found', own', ⟨⟩, ⟨⟩, hseen⟩)
        · obtain rfl : found = own := Option.some.inj (hfound.symm.trans hsome)
          exact (toOption_checkAssertion_eq_iff py d found found).1 rfl
        · exact hseen
      · intro hseen
        exact .inr ⟨found, own, rfl, rfl, hseen⟩
    rw [halike, ← toOption_checkAssertion_eq_iff]
    constructor
    · intro hlooks
      exact hlooks.checked own hsome
    · intro heq
      refine ⟨fun step hstep => ?_, ?_⟩
      · obtain rfl : own = step := Option.some.inj (hsome.symm.trans hstep)
        exact heq
      · exact iff_of_false (checkAssertion_ne_missingReport py d found) (by omega)
  · -- the setup steps make up for the step that there is not
    refine iff_of_false (fun hlooks => ?_) ?_
    · exact checkAssertion_ne_missingReport py d found (hlooks.missing.2 (by omega))
    · rintro (rfl | ⟨_, own, -, hsome, -⟩)
      · exact hpast (by simpa using hlt)
      · rw [List.getElem?_eq_none (by omega)] at hsome
        cases hsome

/-- **The reports are about the steps that the assertions name**: of every assertion with
`step: i` that the loop gets to. -/
def LookAtTheirSteps (py : Python) (testDef : List (Yaml × Yaml)) (ssh : Nat → SshOutcome)
    (setup steps : List Yaml) (reports : List AssertionResult) : Prop :=
  ∀ assertions, sectionOf testDef "assertions" = .ok assertions →
    ∀ (j : Nat) d (i : Nat), assertions[j]? = some (.dict d) → stepIndexOf d = .int i →
      j ≤ reports.length → LooksAtStep py d ssh setup steps i reports[j]?

/-- An assertion of the definition has `step: i`, and none before it raises when the steps have
the outputs. -/
def NamesStep (py : Python) (testDef : List (Yaml × Yaml)) (outputs : List String)
    (d : List (Yaml × Yaml)) (i : Nat) : Prop :=
  ∃ assertions, ∃ j : Nat, sectionOf testDef "assertions" = .ok assertions ∧
    assertions[j]? = some (.dict d) ∧ stepIndexOf d = .int i ∧
    ∀ a ∈ assertions.take j, AssertionReturns py outputs a

theorem map_stdout_bothResults (h : ReachesAssertions ssh setup steps) :
    (bothResults ssh setup steps).map StepResult.stdout =
      outputsOf ssh (setup.length + steps.length) := by
  have hsetup := outputsOf_add ssh (i := 0) (noneRaises_of_allPass h.1)
  rw [Nat.zero_add] at hsetup
  rw [← outputsOf_add ssh (i := 0) h.2, ← hsetup, bothResults, List.map_append]
  rfl

section Loop

variable {assertions : List Yaml} {a : Yaml} {j : Nat}

/-- The loop gets to an assertion if and only if none before it raises. -/
theorem le_length_reports_iff (h : ReachesAssertions ssh setup steps) (ha : assertions[j]? = some a) :
    j ≤ (evaluations py (bothResults ssh setup steps) assertions).length ↔
      ∀ b ∈ assertions.take j, AssertionReturns py (outputsOf ssh (setup.length + steps.length)) b := by
  rw [le_length_evaluations_iff (List.getElem?_eq_some_iff.1 ha).1.le]
  simp only [evaluateAssertion_isOk_iff, map_stdout_bothResults h]

/-- Such an assertion is reported as it is evaluated. -/
theorem reports_getElem? {results : List StepResult} (ha : assertions[j]? = some a)
    (hle : j ≤ (evaluations py results assertions).length) :
    (evaluations py results assertions)[j]? = (evaluateAssertion py a results).toOption :=
  evaluations_getElem? ha
    ((le_length_evaluations_iff (List.getElem?_eq_some_iff.1 ha).1.le).1 hle)

end Loop

/-- **An assertion looks at the step it names.**  In every run that gets to the assertions, the
reports are about the steps that the assertions name if and only if each assertion that is
evaluated finds its step. -/
theorem assertions_look_at_their_step_iff (py : Python) (testId : String)
    (testDef : List (Yaml × Yaml)) (ssh : Nat → SshOutcome) (before : TestResult)
    (hsetup : sectionOf testDef "setup" = .ok setup) (hsteps : sectionOf testDef "steps" = .ok steps)
    (hreach : ReachesAssertions ssh setup steps) :
    wp (runTest py testId (some testDef)) ⟨ssh, [], before⟩
        (fun _ s' => LookAtTheirSteps py testDef ssh setup steps s'.result.assertionResults)
        (fun _ _ => False) ↔
      ∀ d i, NamesStep py testDef (outputsOf ssh (setup.length + steps.length)) d i →
        FindsItsStep py ssh setup steps d i := by
  refine wp_iff_of (wp_mono (wp_runTest_evaluated py testId before hsetup hsteps hreach) ?_ ?_)
  · intro _ s' heval
    constructor
    · rintro h d i ⟨assertions, j, hassertions, hj, hi, hreturns⟩
      have hle := (le_length_reports_iff hreach hj).2 hreturns
      rw [← looksAtStep_iff hreach hi, ← reports_getElem? hj hle, ← heval assertions hassertions]
      rw [← heval assertions hassertions] at hle
      exact h assertions hassertions j d i hj hi hle
    · intro h assertions hassertions j d i hj hi hle
      rw [heval assertions hassertions] at hle ⊢
      rw [reports_getElem? hj hle, looksAtStep_iff hreach hi]
      exact h d i ⟨assertions, j, hassertions, hj, hi, (le_length_reports_iff hreach hj).1 hle⟩
  · exact fun _ _ hfalse => hfalse.elim

/-! ### A benchmark behind a restart -/

def restartSetup : List Yaml :=
  [.dict [(.str "target", .str "dpu1"), (.str "command", .str "systemctl restart dpdk-app")]]

def benchSteps : List Yaml :=
  [.dict [(.str "target", .str "dpu2"), (.str "command", .str "trex -f stl/bench.py -d 60")]]

def throughputAssertion : List (Yaml × Yaml) :=
  [(.str "type", .str "numeric_gte"), (.str "step", .int 0), (.str "threshold", .int 90)]

/-- One setup step, one step, and an assertion on the throughput in `step: 0`. -/
def baselineTest : List (Yaml × Yaml) :=
  [(.str "setup", .list restartSetup), (.str "steps", .list benchSteps),
    (.str "assertions", .list [.dict throughputAssertion])]

/-- The restart takes 120 ms, and the throughput is too low. -/
def slowRun : Nat → SshOutcome
  | 0 => .completed 0 "restarted in 120 ms"
  | _ => .completed 0 "17 Gbps"

/-- The restart does not say how long it takes. -/
def quietRun : Nat → SshOutcome
  | 0 => .completed 0 "restarted"
  | _ => .completed 0 "94 Gbps"

theorem slowRun_reachesAssertions : ReachesAssertions slowRun restartSetup benchSteps :=
  ⟨⟨rfl, trivial⟩, ⟨id, trivial⟩⟩

theorem quietRun_reachesAssertions : ReachesAssertions quietRun restartSetup benchSteps :=
  ⟨⟨rfl, trivial⟩, ⟨id, trivial⟩⟩

/-- In a quiet run no number is found, although the throughput is high enough. -/
theorem quiet_run_looks_elsewhere :
    ¬wp (runTest wholeNumbers "T1" (some baselineTest))
      ⟨quietRun, [], ⟨"T1", .PENDING, [], [], none⟩⟩
      (fun _ s' => LookAtTheirSteps wholeNumbers baselineTest quietRun restartSetup benchSteps
        s'.result.assertionResults)
      (fun _ _ => False) := by
  rw [assertions_look_at_their_step_iff wholeNumbers "T1" baselineTest quietRun _ rfl rfl
    quietRun_reachesAssertions]
  intro h
  have hnames : NamesStep wholeNumbers baselineTest (outputsOf quietRun 2) throughputAssertion 0 :=
    ⟨_, 0, rfl, rfl, rfl, fun _ ha => nomatch ha⟩
  rcases h _ _ hnames with hnil | hpast | ⟨found, own, hfound, hown, halike⟩
  · cases hnil
  · exact absurd hpast (by decide)
  · obtain rfl := Option.some.inj hfound
    obtain rfl := Option.some.inj hown
    have hseen : numberSeen wholeNumbers throughputAssertion "restarted" =
        numberSeen wholeNumbers throughputAssertion "94 Gbps" := halike
    exact absurd hseen (by decide +kernel)

/-- The number of the restart is taken for the throughput, and the test passes. -/
theorem slow_benchmark_passes :
    ReachesAssertions slowRun restartSetup benchSteps ∧
      wp (runTest wholeNumbers "T1" (some baselineTest))
        ⟨slowRun, [], ⟨"T1", .PENDING, [], [], none⟩⟩
        (fun _ s' => s'.result.status = .PASSED ∧ ¬LookAtTheirSteps wholeNumbers baselineTest
          slowRun restartSetup benchSteps s'.result.assertionResults)
        (fun _ _ => False) := by
  refine ⟨slowRun_reachesAssertions, rfl, fun h => ?_⟩
  have hlooks := (h _ rfl 0 throughputAssertion 0 rfl rfl (Nat.zero_le _)).checked _ rfl
  have hshown := congrArg (Option.map AssertionResult.actualValue) hlooks
  exact absurd hshown (by decide +kernel)

end PrismFirewall.ApiServer
