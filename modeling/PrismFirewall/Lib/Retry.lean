import Mathlib.Data.List.Basic

/-!
# Calls that are repeated

A client that gets an error for its request sends it again, up to a number of attempts.  An
error says nothing about the server: the request may never have come in, or the server may
have executed it and its answer was lost.  `call` is such a call, with the fate of every
attempt given; `executed` lists the attempts that the server executes, and the server's
state afterwards is theirs (`call_snd`).

If the server never answers with an error, the fates alone tell which attempts are executed
(`reached`).  If a second execution changes nothing, the server is `Idempotent`, and only the
first of the executed attempts has an effect (`applyAll_of_idempotent`).
-/

namespace PrismFirewall.Lib

/-- What becomes of one attempt; the client sees the text of an error. -/
inductive Fate
  | lost (error : String)
  | unanswered (error : String)
  | answered
  deriving DecidableEq

namespace Retry

variable {σ α ρ : Type*} (exec : α → σ → Except String ρ × σ)

/-- One attempt after the other until an answer arrives; the last error if none does. -/
def call (last : String) : List (Fate × α) → σ → Except String ρ × σ
  | [], s => (.error last, s)
  | (.lost error, _) :: rest, s => call error rest s
  | (.unanswered error, a) :: rest, s => call error rest (exec a s).2
  | (.answered, a) :: rest, s =>
    match exec a s with
    | (.ok r, s) => (.ok r, s)
    | (.error error, s) => call error rest s

/-- The attempts that the server executes. -/
def executed : List (Fate × α) → σ → List α
  | [], _ => []
  | (.lost _, _) :: rest, s => executed rest s
  | (.unanswered _, a) :: rest, s => a :: executed rest (exec a s).2
  | (.answered, a) :: rest, s =>
    match exec a s with
    | (.ok _, _) => [a]
    | (.error _, s) => a :: executed rest s

/-- The attempts that come in, up to the first one that is answered. -/
def reached : List (Fate × α) → List α
  | [] => []
  | (.lost _, _) :: rest => reached rest
  | (.unanswered _, a) :: rest => a :: reached rest
  | (.answered, a) :: _ => [a]

/-- The server after some executions. -/
def applyAll (as : List α) (s : σ) : σ := as.foldl (fun s a => (exec a s).2) s

@[simp] theorem applyAll_nil (s : σ) : applyAll exec [] s = s := rfl

@[simp] theorem applyAll_cons (a : α) (as : List α) (s : σ) :
    applyAll exec (a :: as) s = applyAll exec as (exec a s).2 := rfl

/-- **The server is left as by the executed attempts alone.** -/
theorem call_snd (l : List (Fate × α)) : ∀ (last : String) (s : σ),
    (call exec last l s).2 = applyAll exec (executed exec l s) s := by
  induction l with
  | nil => exact fun last s => rfl
  | cons x rest ih =>
    intro last s
    obtain ⟨fate, a⟩ := x
    cases fate with
    | lost error => exact ih error s
    | unanswered error => exact ih error (exec a s).2
    | answered =>
      cases hexec : exec a s with
      | mk r s' =>
        cases r with
        | ok r => simp only [call, executed, hexec, applyAll_cons, applyAll_nil]
        | error e =>
          simp only [call, executed, hexec, applyAll_cons]
          exact ih e s'

theorem length_reached_le (l : List (Fate × α)) : (reached l).length ≤ l.length := by
  induction l with
  | nil => exact Nat.le_refl 0
  | cons x rest ih =>
    obtain ⟨fate, a⟩ := x
    cases fate with
    | lost error => exact Nat.le_succ_of_le ih
    | unanswered error => exact Nat.succ_le_succ ih
    | answered => exact Nat.succ_le_succ (Nat.zero_le _)

/-- **An answer is that of the last executed attempt.** -/
theorem executed_of_ok (l : List (Fate × α)) : ∀ (last : String) (s : σ) (r : ρ),
    (call exec last l s).1 = .ok r → ∃ as a, executed exec l s = as ++ [a] ∧
      (exec a (applyAll exec as s)).1 = .ok r := by
  induction l with
  | nil => exact fun last s r h => by cases h
  | cons x rest ih =>
    intro last s r h
    obtain ⟨fate, a⟩ := x
    cases fate with
    | lost error => exact ih error s r h
    | unanswered error =>
      obtain ⟨as, b, he, hb⟩ := ih error (exec a s).2 r h
      exact ⟨a :: as, b, by rw [executed, he, List.cons_append], hb⟩
    | answered =>
      cases hexec : exec a s with
      | mk r' s' =>
        cases r' with
        | ok r' =>
          simp only [call, hexec] at h
          refine ⟨[], a, ?_, ?_⟩
          · simp only [executed, hexec, List.nil_append]
          · rw [applyAll_nil, hexec]
            exact h
        | error e =>
          simp only [call, hexec] at h
          obtain ⟨as, b, he, hb⟩ := ih e s' r h
          refine ⟨a :: as, b, ?_, ?_⟩
          · simp only [executed, hexec, he, List.cons_append]
          · rw [applyAll_cons, hexec]
            exact hb

theorem executed_eq_reached (h : ∀ a s, ∃ r, (exec a s).1 = .ok r) (l : List (Fate × α)) :
    ∀ s : σ, executed exec l s = reached l := by
  induction l with
  | nil => exact fun s => rfl
  | cons x rest ih =>
    intro s
    obtain ⟨fate, a⟩ := x
    cases fate with
    | lost error => exact ih s
    | unanswered error => rw [executed, reached, ih]
    | answered =>
      obtain ⟨r, hr⟩ := h a s
      rw [executed, reached]
      split
      · rfl
      · rename_i heq
        rw [heq] at hr
        cases hr

/-- The second of two executions changes nothing. -/
def Idempotent (s : σ) : Prop := ∀ a b, (exec b (exec a s).2).2 = (exec a s).2

variable {exec}

/-- **Of an idempotent server's executions the first one alone has an effect.** -/
theorem applyAll_of_idempotent {s : σ} (h : Idempotent exec s) (a : α) (as : List α) :
    applyAll exec (a :: as) s = (exec a s).2 := by
  induction as with
  | nil => rfl
  | cons b as ih =>
    rw [applyAll_cons, applyAll_cons, h a b]
    exact ih

end Retry

end PrismFirewall.Lib
