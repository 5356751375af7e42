import Mathlib.Data.List.Induction
import Mathlib.Order.Defs.PartialOrder

/-!
# Runs of a machine

A `Machine` reads inputs one at a time, answers each and moves to a new state.
`run` is where it ends after a list of inputs.  `run_induction` is the one
induction every run invariant goes through: the invariant may mention the
inputs read so far, so a history needs no place in the state.

`trace` is the list of the answers, and `events` what the steps tell.  `Meets C l`
says that along `l` each input meets `C` in the state that reads it, and
`run_induction_of_meets` is the induction for such runs; `run_append_induction` is the one
for what a part of a run keeps.

A machine may have another one inside it: in some of its steps the part makes a step of its
own, in the others it stands still.  `run_component` says that the part then does what it
does alone, on the inputs that the whole feeds it.
-/

namespace PrismFirewall.Lib

/-- A place in a list with one more element at its end is the end, or a place in
the list. -/
theorem append_singleton_eq_append_cons_iff {α : Type*} {l l₁ l₂ : List α} {a b : α} :
    l ++ [a] = l₁ ++ b :: l₂ ↔
      (l₁ = l ∧ b = a ∧ l₂ = []) ∨ ∃ l₃, l₂ = l₃ ++ [a] ∧ l = l₁ ++ b :: l₃ := by
  constructor
  · intro h
    rcases List.eq_nil_or_concat l₂ with rfl | ⟨l₃, c, rfl⟩
    · obtain ⟨h1, h2⟩ := List.append_inj' h (by simp)
      rw [List.cons.injEq] at h2
      exact Or.inl ⟨h1.symm, h2.1.symm, rfl⟩
    · rw [List.concat_eq_append, ← List.cons_append, ← List.append_assoc] at h
      obtain ⟨h1, h2⟩ := List.append_inj' h (by simp)
      rw [List.cons.injEq] at h2
      exact Or.inr ⟨l₃, by rw [List.concat_eq_append, h2.1], h1⟩
  · intro h
    rcases h with ⟨rfl, rfl, rfl⟩ | ⟨l₃, rfl, rfl⟩
    · rfl
    · simp

structure Machine (σ ι ο : Type*) where
  init : σ
  step : σ → ι → ο × σ

namespace Machine

variable {σ ι ο : Type*} (M : Machine σ ι ο)

def run (l : List ι) : σ := l.foldl (fun s i => (M.step s i).2) M.init

@[simp] theorem run_nil : M.run [] = M.init := rfl

@[simp] theorem run_append_singleton (l : List ι) (i : ι) :
    M.run (l ++ [i]) = (M.step (M.run l) i).2 := by
  simp [run, List.foldl_append]

/-- The answers given along a run. -/
def trace : List ι → List ο := fun l =>
  (l.foldl (fun p i => ((M.step p.1 i).2, p.2 ++ [(M.step p.1 i).1])) (M.init, [])).2

@[simp] theorem trace_nil : M.trace [] = [] := rfl

@[simp] theorem trace_append_singleton (l : List ι) (i : ι) :
    M.trace (l ++ [i]) = M.trace l ++ [(M.step (M.run l) i).1] := by
  have hrun : ∀ l : List ι,
      (l.foldl (fun p i => ((M.step p.1 i).2, p.2 ++ [(M.step p.1 i).1])) (M.init, [])).1
        = M.run l := by
    intro l
    induction l using List.reverseRecOn with
    | nil => rfl
    | append_singleton l i ih => simp only [List.foldl_append, List.foldl_cons, List.foldl_nil, ih,
        run_append_singleton]
  simp only [trace, List.foldl_append, List.foldl_cons, List.foldl_nil, hrun]

/-- What the steps of a run tell, in order: each by the state before it, the input and the
answer. -/
def events {ε : Type*} (f : σ → ι → ο → Option ε) (l : List ι) : List ε :=
  (l.foldl (fun p i => ((M.step p.1 i).2, p.2 ++ (f p.1 i (M.step p.1 i).1).toList))
    (M.init, [])).2

@[simp] theorem events_nil {ε : Type*} (f : σ → ι → ο → Option ε) : M.events f [] = [] := rfl

@[simp] theorem events_append_singleton {ε : Type*} (f : σ → ι → ο → Option ε) (l : List ι)
    (i : ι) : M.events f (l ++ [i])
      = M.events f l ++ (f (M.run l) i (M.step (M.run l) i).1).toList := by
  have hrun : ∀ l : List ι, (l.foldl (fun p i => ((M.step p.1 i).2,
      p.2 ++ (f p.1 i (M.step p.1 i).1).toList)) (M.init, [])).1 = M.run l := by
    intro l
    induction l using List.reverseRecOn with
    | nil => rfl
    | append_singleton l i ih => simp only [List.foldl_append, List.foldl_cons, List.foldl_nil, ih,
        run_append_singleton]
  simp only [events, List.foldl_append, List.foldl_cons, List.foldl_nil, hrun]

theorem mem_events_iff {ε : Type*} {f : σ → ι → ο → Option ε} {l : List ι} {e : ε} :
    e ∈ M.events f l ↔ ∃ l₁ i l₂, l = l₁ ++ i :: l₂ ∧
      f (M.run l₁) i (M.step (M.run l₁) i).1 = some e := by
  induction l using List.reverseRecOn with
  | nil => simp
  | append_singleton l i ih =>
    rw [events_append_singleton, List.mem_append, Option.mem_toList, ih]
    constructor
    · rintro (⟨l₁, j, l₂, rfl, h⟩ | h)
      · exact ⟨l₁, j, l₂ ++ [i], by simp, h⟩
      · exact ⟨l, i, [], rfl, h⟩
    · rintro ⟨l₁, j, l₂, e, h⟩
      rcases append_singleton_eq_append_cons_iff.mp e with ⟨rfl, rfl, -⟩ | ⟨l₃, -, e⟩
      · exact Or.inr h
      · exact Or.inl ⟨l₁, j, l₃, e, h⟩

/-- **What holds at the start and is kept by every step holds after every run.** -/
theorem run_induction {P : List ι → σ → Prop} (h0 : P [] M.init)
    (hs : ∀ l i s, P l s → P (l ++ [i]) (M.step s i).2) : ∀ l, P l (M.run l) := by
  intro l
  induction l using List.reverseRecOn with
  | nil => exact h0
  | append_singleton l i ih =>
    rw [run_append_singleton]
    exact hs l i (M.run l) ih

/-- What holds after a run is kept by the inputs that follow, if every step keeps it between
two states with `Q` and `Q` holds all along. -/
theorem run_append_induction {P Q : σ → Prop} {l : List ι} (h : P (M.run l))
    (hs : ∀ l i, P (M.run l) → Q (M.run l) → Q (M.step (M.run l) i).2 →
      P (M.step (M.run l) i).2) (l' : List ι)
    (hq : ∀ l₁ l₂, l' = l₁ ++ l₂ → Q (M.run (l ++ l₁))) : P (M.run (l ++ l')) := by
  induction l' using List.reverseRecOn with
  | nil =>
    rw [List.append_nil]
    exact h
  | append_singleton l' i ih =>
    have hbefore := hq l' [i] rfl
    have hafter := hq (l' ++ [i]) [] (by simp)
    rw [← List.append_assoc, run_append_singleton] at hafter ⊢
    exact hs _ i (ih (fun l₁ l₂ e => hq l₁ (l₂ ++ [i]) (by simp [e]))) hbefore hafter

/-- The only beginning of no inputs. -/
theorem forall_beginning_nil {P : List ι → Prop} (h : P []) : ∀ l₁ l₂, [] = l₁ ++ l₂ → P l₁ := by
  intro l₁ l₂ e
  rw [(List.append_eq_nil_iff.mp e.symm).1]
  exact h

/-- Every input of the run meets `C` in the state that reads it. -/
def Meets (C : σ → ι → Prop) (l : List ι) : Prop :=
  ∀ l₁ i l₂, l = l₁ ++ i :: l₂ → C (M.run l₁) i

theorem meets_append_singleton {C : σ → ι → Prop} {l : List ι} {i : ι} :
    M.Meets C (l ++ [i]) ↔ M.Meets C l ∧ C (M.run l) i := by
  constructor
  · intro h
    refine ⟨fun l₁ j l₂ e => h l₁ j (l₂ ++ [i]) (by rw [e]; simp), h l i [] rfl⟩
  · intro h l₁ j l₂ e
    obtain ⟨h1, h2⟩ := h
    rcases append_singleton_eq_append_cons_iff.mp e with ⟨rfl, rfl, -⟩ | ⟨l₃, -, e⟩
    · exact h2
    · exact h1 l₁ j l₃ e

theorem Meets.of_append {C : σ → ι → Prop} {l l' : List ι} (h : M.Meets C (l ++ l')) :
    M.Meets C l :=
  fun l₁ i l₂ e => h l₁ i (l₂ ++ l') (by rw [e, List.append_assoc, List.cons_append])

/-- The form in which a condition is checked on a given run: input by input. -/
def MeetsFrom (C : σ → ι → Prop) : σ → List ι → Prop
  | _, [] => True
  | s, i :: l => C s i ∧ MeetsFrom C (M.step s i).2 l

instance decidableMeetsFrom (C : σ → ι → Prop) [∀ s i, Decidable (C s i)] :
    (s : σ) → (l : List ι) → Decidable (M.MeetsFrom C s l)
  | _, [] => inferInstanceAs (Decidable True)
  | s, i :: l =>
    haveI := decidableMeetsFrom C (M.step s i).2 l
    inferInstanceAs (Decidable (C s i ∧ M.MeetsFrom C (M.step s i).2 l))

theorem meets_of_meetsFrom {C : σ → ι → Prop} {l : List ι} (h : M.MeetsFrom C M.init l) :
    M.Meets C l := by
  have hfrom : ∀ (l : List ι) (s : σ), M.MeetsFrom C s l → ∀ l₁ i l₂, l = l₁ ++ i :: l₂ →
      C (l₁.foldl (fun s i => (M.step s i).2) s) i := by
    intro l
    induction l with
    | nil =>
      intro s _ l₁ i l₂ e
      simp at e
    | cons a l ih =>
      intro s hs l₁ i l₂ e
      cases l₁ with
      | nil =>
        cases e
        exact hs.1
      | cons b l₁ =>
        cases e
        exact ih (M.step s a).2 hs.2 l₁ i l₂ rfl
  exact hfrom l M.init h

/-- The induction for runs all of whose steps meet a condition. -/
theorem run_induction_of_meets {C : σ → ι → Prop} {P : List ι → σ → Prop} (h0 : P [] M.init)
    (hs : ∀ l i s, P l s → C s i → P (l ++ [i]) (M.step s i).2) :
    ∀ l, M.Meets C l → P l (M.run l) := by
  intro l
  induction l using List.reverseRecOn with
  | nil => intro _; exact h0
  | append_singleton l i ih =>
    intro h
    obtain ⟨h1, h2⟩ := M.meets_append_singleton.mp h
    rw [run_append_singleton]
    exact hs l i (M.run l) (ih h1) h2

/-- Where a step keeps `A` exactly if it meets `C`, `A` holds all along a run
exactly if every step meets `C`. -/
theorem forall_run_iff_meets {A : σ → Prop} {C : σ → ι → Prop} (h0 : A M.init)
    (hs : ∀ l i, A (M.run l) → (A (M.step (M.run l) i).2 ↔ C (M.run l) i)) (l : List ι) :
    (∀ l₁ l₂, l = l₁ ++ l₂ → A (M.run l₁)) ↔ M.Meets C l := by
  constructor
  · intro h l₁ i l₂ e
    have hA := h (l₁ ++ [i]) l₂ (by rw [e, List.append_assoc]; rfl)
    rw [run_append_singleton] at hA
    exact (hs l₁ i (h l₁ (i :: l₂) e)).mp hA
  · intro h l₁ l₂ e
    subst e
    have h₁ := h.of_append
    clear h
    induction l₁ using List.reverseRecOn with
    | nil => exact h0
    | append_singleton l i ih =>
      obtain ⟨hl, hi⟩ := M.meets_append_singleton.mp h₁
      rw [run_append_singleton]
      exact (hs l i (ih hl)).mpr hi

/-- The same along the runs whose steps all meet another condition, which the step may use. -/
theorem forall_run_iff_meets_of_meets {A : σ → Prop} {C D : σ → ι → Prop} (h0 : A M.init)
    (hs : ∀ l i, M.Meets D (l ++ [i]) → A (M.run l) →
      (A (M.step (M.run l) i).2 ↔ C (M.run l) i)) (l : List ι) (hl : M.Meets D l) :
    (∀ l₁ l₂, l = l₁ ++ l₂ → A (M.run l₁)) ↔ M.Meets C l := by
  induction l using List.reverseRecOn with
  | nil => exact ⟨fun _ l₁ i l₂ e => by simp at e, fun _ => forall_beginning_nil h0⟩
  | append_singleton l i ih =>
    have hbefore := ih (M.meets_append_singleton.mp hl).1
    rw [meets_append_singleton, ← hbefore]
    constructor
    · intro h
      have hlast := h (l ++ [i]) [] (List.append_nil _).symm
      rw [run_append_singleton] at hlast
      exact ⟨fun l₁ l₂ e => h l₁ (l₂ ++ [i]) (by rw [e, List.append_assoc]),
        (hs l i hl (h l [i] rfl)).mp hlast⟩
    · rintro ⟨h, hi⟩ l₁ l₂ e
      rcases List.eq_nil_or_concat l₂ with rfl | ⟨l₃, c, rfl⟩
      · rw [List.append_nil] at e
        subst e
        rw [run_append_singleton]
        exact (hs l i hl (h l [] (List.append_nil l).symm)).mpr hi
      · rw [List.concat_eq_append, ← List.append_assoc] at e
        exact h l₁ l₃ (List.append_inj_left' e rfl)

/-- **Inputs that leave nothing behind.**  A view that tells the states of the machine apart is
the same with and without the inputs in `bad`, all along a run, exactly if each of them leaves
the state as it is. -/
theorem forall_purged_iff_meets {bad : ι → Bool} {V : σ → σ → Prop}
    (hV : ∀ l l', V (M.run l) (M.run l') ↔ M.run l = M.run l') (l : List ι) :
    (∀ l₁ l₂, l = l₁ ++ l₂ → V (M.run l₁) (M.run (l₁.filter (fun i => !bad i)))) ↔
      M.Meets (fun s i => bad i = true → (M.step s i).2 = s) l := by
  simp only [hV]
  induction l using List.reverseRecOn with
  | nil => exact ⟨fun _ l₁ i l₂ e => by simp at e, fun _ => forall_beginning_nil rfl⟩
  | append_singleton l i ih =>
    rw [meets_append_singleton, ← ih]
    constructor
    · intro h
      refine ⟨fun l₁ l₂ e => h l₁ (l₂ ++ [i]) (by rw [e, List.append_assoc]), fun hi => ?_⟩
      have hbefore := h l [i] rfl
      have hafter := h (l ++ [i]) [] (List.append_nil _).symm
      rw [run_append_singleton, List.filter_append, List.filter_cons_of_neg (by simp [hi]),
        List.filter_nil, List.append_nil] at hafter
      rw [hafter, ← hbefore]
    · rintro ⟨h, hi⟩ l₁ l₂ e
      rcases List.eq_nil_or_concat l₂ with rfl | ⟨l₃, c, rfl⟩
      · rw [List.append_nil] at e
        subst e
        have hl := h l [] (List.append_nil l).symm
        rw [List.filter_append, run_append_singleton]
        cases hb : bad i with
        | true =>
          rw [List.filter_cons_of_neg (by simp [hb]), List.filter_nil, List.append_nil, hi hb]
          exact hl
        | false =>
          rw [List.filter_cons_of_pos (by simp [hb]), List.filter_nil, run_append_singleton, ← hl]
      · rw [List.concat_eq_append, ← List.append_assoc] at e
        exact h l₁ l₃ (List.append_inj_left' e rfl)

/-- Where `G` is kept by the steps that meet `C`, any other step out of `G` leads to
`B`, and `B` is never left, the state at the end tells whether every step met `C`. -/
theorem run_dichotomy {C : σ → ι → Prop} {G B : σ → Prop} (h0 : G M.init)
    (hg : ∀ s i, G s → C s i → G (M.step s i).2) (hx : ∀ s i, G s → ¬ C s i → B (M.step s i).2)
    (hb : ∀ s i, B s → B (M.step s i).2) :
    ∀ l, M.Meets C l ∧ G (M.run l) ∨ ¬ M.Meets C l ∧ B (M.run l) := by
  intro l
  induction l using List.reverseRecOn with
  | nil => exact Or.inl ⟨fun l₁ i l₂ e => by simp at e, h0⟩
  | append_singleton l i ih =>
    rw [meets_append_singleton, run_append_singleton]
    rcases ih with ⟨hl, hG⟩ | ⟨hl, hB⟩
    · by_cases hi : C (M.run l) i
      · exact Or.inl ⟨⟨hl, hi⟩, hg _ i hG hi⟩
      · exact Or.inr ⟨fun h => hi h.2, hx _ i hG hi⟩
    · exact Or.inr ⟨fun h => hl h.1, hb _ i hB⟩

/-- A quantity that no step lowers only grows along a run. -/
theorem le_run_of_meets {β : Type*} [Preorder β] (f : σ → β) {C : σ → ι → Prop} {P : σ → Prop}
    (h0 : P M.init) (hs : ∀ s i, P s → C s i → P (M.step s i).2 ∧ f s ≤ f (M.step s i).2) :
    ∀ l₁ l₂, M.Meets C (l₁ ++ l₂) → f (M.run l₁) ≤ f (M.run (l₁ ++ l₂)) := by
  intro l₁ l₂
  have hP : ∀ l, M.Meets C l → P (M.run l) :=
    M.run_induction_of_meets (P := fun _ s => P s) h0 (fun _ i s hp hc => (hs s i hp hc).1)
  induction l₂ using List.reverseRecOn with
  | nil => intro _; rw [List.append_nil]
  | append_singleton l i ih =>
    intro h
    rw [← List.append_assoc] at h ⊢
    obtain ⟨h1, h2⟩ := M.meets_append_singleton.mp h
    rw [run_append_singleton]
    exact le_trans (ih h1) (hs _ i (hP _ h1) h2).2

/-! ### Machines made of machines -/

section Parts

variable {σ' ι' ο' ε : Type*} (N : Machine σ' ι' ο')

/-- The part after one step of the whole. -/
def feed (t : σ') (input : Option ι') : σ' := input.elim t (fun j => (N.step t j).2)

/-- **A part of a machine runs on the inputs it is fed.** -/
theorem run_component (part : σ → σ') (input : σ → ι → ο → Option ι') (h0 : part M.init = N.init)
    (hs : ∀ s i, part (M.step s i).2 = N.feed (part s) (input s i (M.step s i).1)) (l : List ι) :
    part (M.run l) = N.run (M.events input l) := by
  induction l using List.reverseRecOn with
  | nil => exact h0
  | append_singleton l i ih =>
    rw [run_append_singleton, events_append_singleton, hs, ih]
    cases input (M.run l) i (M.step (M.run l) i).1 with
    | none =>
      rw [Option.toList_none, List.append_nil]
      rfl
    | some j =>
      rw [Option.toList_some, run_append_singleton]
      rfl

/-- What the part's steps tell, told of the whole. -/
theorem events_component (part : σ → σ') (input : σ → ι → ο → Option ι') (h0 : part M.init = N.init)
    (hs : ∀ s i, part (M.step s i).2 = N.feed (part s) (input s i (M.step s i).1))
    (f : σ' → ι' → ο' → Option ε) (l : List ι) :
    N.events f (M.events input l)
      = M.events
          (fun s i o => (input s i o).bind (fun j => f (part s) j (N.step (part s) j).1)) l := by
  induction l using List.reverseRecOn with
  | nil => rfl
  | append_singleton l i ih =>
    rw [events_append_singleton, events_append_singleton, ← ih]
    have hpart := run_component M N part input h0 hs l
    cases input (M.run l) i (M.step (M.run l) i).1 with
    | none =>
      rw [Option.toList_none, List.append_nil, Option.bind_none, Option.toList_none,
        List.append_nil]
    | some j =>
      rw [Option.toList_some, events_append_singleton, Option.bind_some, hpart]

/-- Events of a run are events of a longer one. -/
theorem events_append_prefix (f : σ → ι → ο → Option ε) (l l' : List ι) :
    ∃ later, M.events f (l ++ l') = M.events f l ++ later := by
  induction l' using List.reverseRecOn with
  | nil => exact ⟨[], by rw [List.append_nil, List.append_nil]⟩
  | append_singleton l' i ih =>
    obtain ⟨later, h⟩ := ih
    rw [← List.append_assoc, events_append_singleton, h, List.append_assoc]
    exact ⟨_, rfl⟩

end Parts

end Machine

end PrismFirewall.Lib
