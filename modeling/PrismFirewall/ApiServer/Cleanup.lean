import PrismFirewall.ApiServer.Phases
import PrismFirewall.Lib.Pattern

/-!
# When the cleanup steps run

`run_test` calls `_run_cleanup` after a setup step that failed and after the assertions, and
catches every exception around both calls.  An exception that leaves a step, an assertion or the
loop over a section that is not a list goes to the handler past both, and the cleanup steps never
run.  `NothingEscapes` says that there is no such exception, and `cleanup_once_iff` that
the cleanup steps run exactly once just when there is none, or when there are no cleanup steps.
-/

namespace PrismFirewall.ApiServer

open Lib Lib.Text

/-- No exception leaves the phases before cleanup: a setup step fails, or all of them pass and
neither a test step nor an assertion raises. -/
def NothingEscapes (py : Python) (ssh : Nat → SshOutcome) (testDef : List (Yaml × Yaml)) : Prop :=
  ∃ setup, sectionOf testDef "setup" = .ok setup ∧
    (SomeFails ssh 0 setup ∨ AllPass ssh 0 setup ∧ TestReturns py ssh testDef setup.length)

/-- `run_test` returns, and has executed the cleanup steps once each and in order. -/
def CleansUpOnce (py : Python) (testId : String) (testDef : List (Yaml × Yaml))
    (ssh : Nat → SshOutcome) (before : TestResult) : Prop :=
  wp (runTest py testId (some testDef)) ⟨ssh, [], before⟩
    (fun _ s' => s'.cleanedUp = cleanupSection testDef) (fun _ _ => False)

/-- The cleanup steps are executed if nothing escapes before them, and not otherwise. -/
theorem wp_runDefinition_cleanedUp (py : Python) {testDef : List (Yaml × Yaml)} {s : RunState}
    (he : s.executed = []) (hr : s.result.stepResults = [])
    (ha : s.result.assertionResults = []) :
    wp (runDefinition py testDef) s
      (fun _ s' => NothingEscapes py s.ssh testDef ∧ s'.cleanedUp = cleanupSection testDef)
      (fun _ s' => s'.cleanedUp = [] ∧
        (cleanupSection testDef = [] ∨ ¬NothingEscapes py s.ssh testDef)) := by
  have hclean : s.cleanedUp = [] := by rw [RunState.cleanedUp, he]; rfl
  cases hsetup : sectionOf testDef "setup" with
  | error e =>
    rw [runDefinition, wp_section_error hsetup]
    refine ⟨hclean, .inr ?_⟩
    rintro ⟨setup, h, -⟩
    rw [hsetup] at h
    cases h
  | ok setup =>
    have hiff : NothingEscapes py s.ssh testDef ↔
        SomeFails s.ssh 0 setup ∨
          AllPass s.ssh 0 setup ∧ TestReturns py s.ssh testDef setup.length := by
      constructor
      · rintro ⟨setup', h', hcase⟩
        rwa [Except.ok.inj (h'.symm.trans hsetup)] at hcase
      · exact fun hcase => ⟨setup, hsetup, hcase⟩
    have hcleanup (hn : NothingEscapes py s.ssh testDef) (s₁ : RunState) (h₁ : Onward s s₁) :
        wp (runCleanup testDef) s₁
          (fun _ s' => NothingEscapes py s.ssh testDef ∧ s'.cleanedUp = cleanupSection testDef)
          (fun _ s' => s'.cleanedUp = [] ∧
            (cleanupSection testDef = [] ∨ ¬NothingEscapes py s.ssh testDef)) := by
      refine wp_mono wp_runCleanup ?_ ?_
      · rintro _ s' ⟨h, -⟩
        exact ⟨hn, by rw [h, h₁.cleanedUp, hclean, List.nil_append]⟩
      · rintro e s' ⟨rfl, hnone⟩
        exact ⟨h₁.cleanedUp.trans hclean, .inl hnone⟩
    refine wp_runDefinition py hsetup he hr ha ?_ ?_ ?_ ?_
    · intro hall hreturns s₁ hon _
      exact hcleanup (hiff.2 (.inr ⟨hall, hreturns⟩)) s₁ hon
    · intro hall hreturns e s₁ hon _
      refine ⟨hon.cleanedUp.trans hclean, .inr (fun hn => ?_)⟩
      rcases hiff.1 hn with hs | ⟨-, h⟩
      · exact not_someFails_of_allPass hall hs
      · exact hreturns h
    · intro hsome s₁ hon
      exact hcleanup (hiff.2 (.inl hsome)) s₁ hon
    · intro hall hsome e s₁ hon
      refine ⟨hon.cleanedUp.trans hclean, .inr (fun hn => ?_)⟩
      rcases hiff.1 hn with hs | ⟨ha, -⟩
      · exact hsome hs
      · exact hall ha

/-- The cleanup steps run exactly once if and only if there are none, or no exception leaves the
phases before them. -/
theorem cleanup_once_iff (py : Python) (testId : String) (testDef : List (Yaml × Yaml))
    (ssh : Nat → SshOutcome) (before : TestResult) :
    CleansUpOnce py testId testDef ssh before ↔
      cleanupSection testDef = [] ∨ NothingEscapes py ssh testDef := by
  refine wp_iff_of ?_
  rw [runTest, wp_bind, wp_modifyResult, wp_tryCatch]
  refine wp_mono (wp_runDefinition_cleanedUp py rfl rfl rfl) ?_ ?_
  · rintro _ s' ⟨hn, hc⟩
    exact iff_of_true hc (.inr hn)
  · rintro e s' ⟨hc, hcase⟩
    show s'.cleanedUp = cleanupSection testDef ↔ _
    rw [hc]
    constructor
    · exact fun h => .inl h.symm
    · rintro (h | h)
      · exact h.symm
      · exact (hcase.resolve_right (not_not_intro h)).symm

/-- Python's `[\d.]+` and its `float`, as far as whole numbers go. -/
def wholeNumbers : Python where
  Float := Nat
  search := fun pattern text =>
    match pattern with
    | .str "[\\d.]+" =>
      let found := (text.toList.dropWhile (fun c => !(isDecimal c || c == '.'))).takeWhile
        (fun c => isDecimal c || c == '.')
      .ok (if found = [] then none else some (String.ofList found))
    | _ => .error (.other "another pattern")
  float := fun v =>
    match v with
    | .int (.ofNat n) => .ok n
    | .str text =>
      if text ≠ "" ∧ text.toList.all isDecimal then .ok (natOfDigits text.toList)
      else .error (.other ("could not convert string to float: " ++ text))
    | _ => .error (.other "not a whole number")
  ge := fun a b => decide (b ≤ a)
  floatStr := fun n => toString n ++ ".0"
  str := fun v =>
    match v with
    | .int n => toString n
    | .str text => text
    | _ => ""

/-- A benchmark whose throughput is read from the output, and that stops its traffic generator. -/
def throughputTest : List (Yaml × Yaml) :=
  [(.str "steps", .list [.dict [(.str "target", .str "dpu2"), (.str "command", .str "trex")]]),
    (.str "assertions", .list [.dict [(.str "type", .str "numeric_gte"),
      (.str "threshold", .int 90)]]),
    (.str "cleanup", .list [.dict [(.str "target", .str "dpu2"),
      (.str "command", .str "trex --stop")]])]

/-- The first match in the output is the dot of "done.", which is not a number; the traffic
generator is not stopped. -/
theorem throughput_test_not_cleaned_up :
    ¬CleansUpOnce wholeNumbers "T1" throughputTest (fun _ => .completed 0 "done. 94 Gbps")
      ⟨"T1", .PENDING, [], [], none⟩ := by
  intro h
  have hnone : ([] : List Yaml) = cleanupSection throughputTest := h
  cases hnone

end PrismFirewall.ApiServer
