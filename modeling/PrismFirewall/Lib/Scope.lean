import Mathlib.Data.List.Count
import Mathlib.Data.List.Induction
import PrismFirewall.Lib.Exec

/-!
# Resources that are released in the reverse order

What a program does with its resources is a list of acts.  `held l s` is the stack of what
is held after them, the last one first; acts that take a resource twice, give back anything
but the last one, or use what is not held have no such stack.

`Leaves acts s m f` says that `m`, started with the stack `s`, returns `a` with the stack
`f a`, and that up to any exception its acts were in order.  It is closed under the
constructs of a program, and `Leaves.scope` is the rule for a body between taking a resource
and giving it back, with the early return where it could not be taken.
-/

namespace PrismFirewall.Lib

inductive Act (ρ : Type)
  | acquire (r : ρ)
  | release (r : ρ)
  | use (r : ρ)
  deriving DecidableEq

section Held

variable {ρ : Type} [DecidableEq ρ]

/-- What is held after an act. -/
def Act.after (s : List ρ) : Act ρ → Option (List ρ)
  | .acquire r => if r ∈ s then none else some (r :: s)
  | .release r => if s.head? = some r then some s.tail else none
  | .use r => if r ∈ s then some s else none

theorem Act.after_acquire {s : List ρ} {r : ρ} (h : r ∉ s) :
    (Act.acquire r).after s = some (r :: s) := if_neg h

theorem Act.after_use {s : List ρ} {r : ρ} (h : r ∈ s) : (Act.use r).after s = some s := if_pos h

@[simp] theorem Act.after_release (r : ρ) (s : List ρ) :
    (Act.release r).after (r :: s) = some s := if_pos rfl

def held (l : List (Act ρ)) (s : List ρ) : Option (List ρ) := l.foldlM Act.after s

@[simp] theorem held_nil (s : List ρ) : held [] s = some s := rfl

theorem held_append (l l' : List (Act ρ)) (s : List ρ) :
    held (l ++ l') s = (held l s).bind (held l') := by
  rw [held, List.foldlM_append]
  rfl

theorem held_append_singleton {l : List (Act ρ)} {s t : List ρ} (h : held l s = some t)
    (a : Act ρ) : held (l ++ [a]) s = a.after t := by
  rw [held_append, h, Option.bind_some, held, List.foldlM_cons]
  cases a.after t <;> rfl

/-- What is in order to the end was in order before. -/
theorem exists_held_of_append {l l' : List (Act ρ)} {s t : List ρ}
    (h : held (l ++ l') s = some t) : ∃ u, held l s = some u := by
  rw [held_append, Option.bind_eq_some_iff] at h
  obtain ⟨u, hu, -⟩ := h
  exact ⟨u, hu⟩

/-- What was taken is given back or still held. -/
theorem count_acquire_of_held {l : List (Act ρ)} {s : List ρ} (h : held l [] = some s) (r : ρ) :
    l.count (.acquire r) = l.count (.release r) + s.count r := by
  induction l using List.reverseRecOn generalizing s with
  | nil =>
    cases h
    rfl
  | append_singleton l a ih =>
    obtain ⟨t, ht⟩ := exists_held_of_append h
    have hcount := ih ht
    rw [held_append_singleton ht] at h
    rw [List.count_append, List.count_append, hcount]
    cases a with
    | acquire r' =>
      simp only [Act.after] at h
      split at h
      · cases h
      · cases h
        by_cases hr : r' = r
        · subst hr
          simp
          omega
        · simp [hr]
    | release r' =>
      simp only [Act.after] at h
      split at h
      · rename_i hhead
        cases h
        obtain ⟨t, rfl⟩ := List.head?_eq_some_iff.mp hhead
        by_cases hr : r' = r
        · subst hr
          simp
          omega
        · simp [hr]
      · cases h
    | use r' =>
      simp only [Act.after] at h
      split at h
      · cases h
        simp
      · cases h

end Held

/-! ### Programs -/

variable {ρ ε σ α β : Type} [DecidableEq ρ]

/-- `m` turns the stack `s` into `f a`. -/
def Leaves (acts : σ → List (Act ρ)) (s : List ρ) (m : EStateM ε σ α) (f : α → List ρ) : Prop :=
  ∀ w, held (acts w) [] = some s →
    wp m w (fun a w' => held (acts w') [] = some (f a))
      (fun _ w' => ∃ t, held (acts w') [] = some t)

/-- However it is started, what `m` returns satisfies `P`. -/
def Returns (m : EStateM ε σ α) (P : α → Prop) : Prop :=
  ∀ w, wp m w (fun a _ => P a) (fun _ _ => True)

namespace Returns

theorem pure {P : α → Prop} {a : α} (h : P a) : Returns (Pure.pure a : EStateM ε σ α) P :=
  fun _ => h

theorem bind {m : EStateM ε σ β} {k : β → EStateM ε σ α} {P : α → Prop}
    (hk : ∀ b, Returns (k b) P) : Returns (m >>= k) P := by
  intro w
  rw [wp_bind]
  unfold wp
  cases m w with
  | ok b w' => exact hk b w'
  | error e w' => trivial

end Returns

namespace Leaves

variable {acts : σ → List (Act ρ)} {s : List ρ}

theorem pure {f : α → List ρ} {a : α} (h : f a = s) :
    Leaves acts s (Pure.pure a : EStateM ε σ α) f := by
  intro w hw
  rw [wp_pure, h]
  exact hw

theorem bind {m : EStateM ε σ β} {k : β → EStateM ε σ α} {f : β → List ρ} {g : α → List ρ}
    (hm : Leaves acts s m f) (hk : ∀ b, Leaves acts (f b) (k b) g) :
    Leaves acts s (m >>= k) g := by
  intro w hw
  rw [wp_bind]
  exact wp_mono (hm w hw) (fun b w' h => hk b w' h) (fun _ _ h => h)

/-- The rest of the program may use what is known of the value. -/
theorem bind_of_returns {m : EStateM ε σ β} {k : β → EStateM ε σ α} {f : β → List ρ}
    {g : α → List ρ} {P : β → Prop} (hm : Leaves acts s m f) (hP : Returns m P)
    (hk : ∀ b, P b → Leaves acts (f b) (k b) g) : Leaves acts s (m >>= k) g := by
  intro w hw
  have hheld := hm w hw
  have hvalue := hP w
  rw [wp_bind]
  unfold wp at hheld hvalue ⊢
  cases hrun : m w with
  | ok b w' =>
    rw [hrun] at hheld hvalue
    exact hk b hvalue w' hheld
  | error e w' =>
    rw [hrun] at hheld
    exact hheld

/-- A part that does nothing with the resources. -/
theorem of_acts_eq {m : EStateM ε σ α}
    (h : ∀ w, wp m w (fun _ w' => acts w' = acts w) (fun _ w' => acts w' = acts w)) :
    Leaves acts s m (fun _ => s) := by
  intro w hw
  refine wp_mono (h w) ?_ ?_
  · intro a w' e
    rw [e]
    exact hw
  · intro e w' e'
    rw [e']
    exact ⟨s, hw⟩

/-- A test, and an early return where it fails. -/
theorem guarded {m : EStateM ε σ Bool} {body : EStateM ε σ α} {a : α} {f : Bool → List ρ}
    {g : α → List ρ} (hm : Leaves acts s m f) (ha : g a = f false)
    (hbody : Leaves acts (f true) body g) :
    Leaves acts s (m >>= fun ok => if ok = true then body else Pure.pure a) g := by
  refine hm.bind (fun ok => ?_)
  cases ok with
  | false => exact Leaves.pure ha
  | true => exact hbody

/-- **A body between taking a resource and giving it back.** -/
theorem scope {r : ρ} {acquire : EStateM ε σ Bool} {body : EStateM ε σ α}
    {release : EStateM ε σ PUnit} {a : α}
    (hacquire : Leaves acts s acquire (fun ok => if ok then r :: s else s))
    (hbody : Leaves acts (r :: s) body (fun _ => r :: s))
    (hrelease : Leaves acts (r :: s) release (fun _ => s)) :
    Leaves acts s (acquire >>= fun ok =>
      if ok = true then (do let x ← body; release; Pure.pure x) else Pure.pure a) (fun _ => s) := by
  refine hacquire.guarded rfl ?_
  exact hbody.bind (fun x => hrelease.bind (fun _ => Leaves.pure rfl))

/-- Elements that are gone through one by one, each taking the stack one further. -/
theorem forM {m : α → EStateM ε σ PUnit} {g : List α → List ρ} (l : List α)
    (hm : ∀ done a rest, l = done ++ a :: rest →
      Leaves acts (g done) (m a) (fun _ => g (done ++ [a])))
    (hs : g [] = s) : Leaves acts s (forM l m) (fun _ => g l) := by
  intro w hw
  refine wp_forM (I := fun done w' => held (acts w') [] = some (g done)) l ?_ w (hs ▸ hw)
  intro done a rest w' e hw'
  exact hm done a rest e w' hw'

end Leaves

end PrismFirewall.Lib
