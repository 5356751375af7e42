import Mathlib.Logic.Basic

/-!
# Programs with state and exceptions

Imperative code is written in `EStateM ε σ`: a program reads and writes a state
and may raise.  A raised exception keeps the writes made before it, and a
handler starts from there.

`wp m s Q E` says where `m` goes from `s`: it returns with `Q`, or raises with
`E`.  One equation per construct turns the `wp` of a program into a plain
statement (`wp_bind`, `wp_tryCatch`, …), so a program is executed symbolically
by rewriting with them.  `wp_mono` is how a caller uses what is known about a
callee, and `wp_forM` is the rule for a loop.

`zoom` runs a program on a part of the state; `wp_zoom` says that the rest is
untouched.  `Keeps R m` says that `m` stays in the relation `R` however it ends, and
is closed under the constructs of a program.
-/

namespace PrismFirewall.Lib

variable {ε σ τ α β : Type}

/-- `m` started in `s` returns with `Q` or raises with `E`. -/
def wp (m : EStateM ε σ α) (s : σ) (Q : α → σ → Prop) (E : ε → σ → Prop) : Prop :=
  match m s with
  | .ok a s' => Q a s'
  | .error e s' => E e s'

section Constructs

variable {s : σ} {Q : α → σ → Prop} {E : ε → σ → Prop}

@[simp] theorem wp_pure {a : α} : wp (pure a) s Q E ↔ Q a s := Iff.rfl

@[simp] theorem wp_throw {e : ε} : wp (throw e : EStateM ε σ α) s Q E ↔ E e s := Iff.rfl

@[simp] theorem wp_bind {m : EStateM ε σ β} {f : β → EStateM ε σ α} :
    wp (m >>= f) s Q E ↔ wp m s (fun b s' => wp (f b) s' Q E) E := by
  show wp (EStateM.bind m f) s Q E ↔ _
  unfold wp EStateM.bind
  cases m s <;> rfl

@[simp] theorem wp_map {m : EStateM ε σ β} {f : β → α} :
    wp (f <$> m) s Q E ↔ wp m s (fun b s' => Q (f b) s') E := by
  show wp (EStateM.map f m) s Q E ↔ _
  unfold wp EStateM.map
  cases m s <;> rfl

@[simp] theorem wp_get {Q : σ → σ → Prop} : wp (get : EStateM ε σ σ) s Q E ↔ Q s s := Iff.rfl

@[simp] theorem wp_set {s' : σ} {Q : PUnit → σ → Prop} :
    wp (set s' : EStateM ε σ PUnit) s Q E ↔ Q ⟨⟩ s' := Iff.rfl

@[simp] theorem wp_modify {f : σ → σ} {Q : PUnit → σ → Prop} :
    wp (modify f : EStateM ε σ PUnit) s Q E ↔ Q ⟨⟩ (f s) := Iff.rfl

@[simp] theorem wp_tryCatch {m : EStateM ε σ α} {h : ε → EStateM ε σ α} :
    wp (tryCatch m h) s Q E ↔ wp m s Q (fun e s' => wp (h e) s' Q E) := by
  show wp (EStateM.tryCatch m h) s Q E ↔ _
  unfold wp EStateM.tryCatch
  cases m s <;> rfl

end Constructs

theorem wp_of_ok {m : EStateM ε σ α} {s s' : σ} {a : α} (h : m s = .ok a s')
    {Q : α → σ → Prop} {E : ε → σ → Prop} : wp m s Q E ↔ Q a s' := by
  rw [wp, h]

/-- What is known about a program is weakened to what its caller needs. -/
theorem wp_mono {m : EStateM ε σ α} {s : σ} {Q Q' : α → σ → Prop} {E E' : ε → σ → Prop}
    (h : wp m s Q E) (hQ : ∀ a s', Q a s' → Q' a s') (hE : ∀ e s', E e s' → E' e s') :
    wp m s Q' E' := by
  unfold wp at h ⊢
  cases hm : m s with
  | ok a s' => rw [hm] at h; exact hQ a s' h
  | error e s' => rw [hm] at h; exact hE e s' h

/-- However the program ends, it does what is asked of it if and only if `P`. -/
theorem wp_iff_of {m : EStateM ε σ α} {s : σ} {Q : α → σ → Prop} {E : ε → σ → Prop} {P : Prop}
    (h : wp m s (fun a s' => Q a s' ↔ P) (fun e s' => E e s' ↔ P)) : wp m s Q E ↔ P := by
  unfold wp at h ⊢
  cases hm : m s with
  | ok a s' => rw [hm] at h; exact h
  | error e s' => rw [hm] at h; exact h

/-- **A loop keeps its invariant.**  `I done s` speaks of the elements already
gone through; an exception leaves with the postcondition of the element that
raised it. -/
theorem wp_forM {f : α → EStateM ε σ PUnit} {I : List α → σ → Prop} {E : ε → σ → Prop}
    (l : List α)
    (hf : ∀ done a rest s, l = done ++ a :: rest → I done s →
      wp (f a) s (fun _ s' => I (done ++ [a]) s') E) :
    ∀ s, I [] s → wp (forM l f) s (fun _ s' => I l s') E := by
  suffices h : ∀ rest done, l = done ++ rest → ∀ s, I done s →
      wp (forM rest f) s (fun _ s' => I l s') E from fun s hs => h l [] rfl s hs
  intro rest
  induction rest with
  | nil =>
    intro done e s hs
    rw [List.append_nil] at e
    exact e ▸ hs
  | cons a r ih =>
    intro done e s hs
    rw [List.forM_cons, wp_bind]
    refine wp_mono (hf done a r s e hs) (fun _ s' hs' => ?_) (fun _ _ h => h)
    exact ih (done ++ [a]) (by rw [e, List.append_assoc]; rfl) s' hs'

/-- Run a program on a part of the state. -/
def zoom (part : σ → τ) (put : τ → σ → σ) (m : EStateM ε τ α) : EStateM ε σ α := fun s =>
  match m (part s) with
  | .ok a t => .ok a (put t s)
  | .error e t => .error e (put t s)

@[simp] theorem wp_zoom {part : σ → τ} {put : τ → σ → σ} {m : EStateM ε τ α} {s : σ}
    {Q : α → σ → Prop} {E : ε → σ → Prop} :
    wp (zoom part put m) s Q E ↔
      wp m (part s) (fun a t => Q a (put t s)) (fun e t => E e (put t s)) := by
  unfold wp zoom
  cases m (part s) <;> rfl

/-! ### Frames -/

/-- However it ends, the program leaves a state that is related to the first. -/
def Keeps (R : σ → σ → Prop) (m : EStateM ε σ α) : Prop :=
  ∀ s, wp m s (fun _ s' => R s s') (fun _ s' => R s s')

namespace Keeps

variable {R : σ → σ → Prop}

theorem pure (hr : ∀ s, R s s) (a : α) : Keeps R (Pure.pure a : EStateM ε σ α) := fun s => hr s

theorem throw (hr : ∀ s, R s s) (e : ε) : Keeps R (MonadExcept.throw e : EStateM ε σ α) :=
  fun s => hr s

theorem bind (ht : ∀ s s' s'', R s s' → R s' s'' → R s s'') {m : EStateM ε σ β}
    {f : β → EStateM ε σ α} (hm : Keeps R m) (hf : ∀ b, Keeps R (f b)) : Keeps R (m >>= f) := by
  intro s
  rw [wp_bind]
  refine wp_mono (hm s) ?_ (fun _ _ h => h)
  intro b s' h
  exact wp_mono (hf b s') (fun _ s'' h' => ht s s' s'' h h') (fun _ s'' h' => ht s s' s'' h h')

end Keeps

end PrismFirewall.Lib
