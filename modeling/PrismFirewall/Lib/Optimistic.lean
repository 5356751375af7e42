import Mathlib.Logic.Function.Basic

/-!
# Optimistic writers over one counter

Cells carry a version.  A writer looks at the version of a cell, later draws a
number from a counter that all writers share, and later still stores the number
as the cell's new version; nothing keeps the others away in between.

`Step` lists what one writer can do at a time.  A look of `Step` is made only
while no other writer stands between its look and its store on that cell, and
under this discipline the versions behave as optimistic concurrency means them
to: `Ordered` is kept by every step, at most one writer stores on top of a given
version (`Ordered.once`), and every store raises the version
(`Step.version_lt_of_wrote`).
-/

namespace PrismFirewall.Lib.Optimistic

variable {ι κ : Type*}

/-- Where a writer stands; `e` is the version it saw and `n` the number it drew. -/
inductive Phase (κ : Type*)
  | idle
  | reserved (n : Nat)
  | looked (k : κ) (e : Nat)
  | drew (k : κ) (e n : Nat)
  | wrote (k : κ) (e : Nat)

/-- The writer has looked at the cell and has not stored yet. -/
def Phase.On (k : κ) : Phase κ → Prop
  | .looked k' _ => k' = k
  | .drew k' _ _ => k' = k
  | _ => False

structure Shared (ι κ : Type*) where
  versions : κ → Option Nat
  counter : Nat
  phase : ι → Phase κ

variable [DecidableEq ι] [DecidableEq κ]

inductive Step : Shared ι κ → Shared ι κ → Prop
  | skip (v : Shared ι κ) : Step v v
  /-- A number is drawn for something that has no version. -/
  | count (v : Shared ι κ) : Step v { v with counter := v.counter + 1 }
  | reserve (v : Shared ι κ) (i : ι) (hi : v.phase i = .idle) :
      Step v { v with
        counter := v.counter + 1, phase := Function.update v.phase i (.reserved v.counter) }
  /-- A new cell starts at a reserved number. -/
  | add (v : Shared ι κ) (i : ι) (k : κ) (n : Nat) (hi : v.phase i = .reserved n)
      (hk : v.versions k = none) :
      Step v { v with
        versions := Function.update v.versions k (some n),
        phase := Function.update v.phase i .idle }
  | look (v : Shared ι κ) (i : ι) (k : κ) (e : Nat) (hi : v.phase i = .idle)
      (hk : v.versions k = some e) (hon : ∀ j, ¬ (v.phase j).On k) :
      Step v { v with phase := Function.update v.phase i (.looked k e) }
  | draw (v : Shared ι κ) (i : ι) (k : κ) (e : Nat) (hi : v.phase i = .looked k e) :
      Step v { v with
        counter := v.counter + 1, phase := Function.update v.phase i (.drew k e v.counter) }
  | write (v : Shared ι κ) (i : ι) (k : κ) (e n : Nat) (hi : v.phase i = .drew k e n) :
      Step v { v with
        versions := Function.update v.versions k (some n),
        phase := Function.update v.phase i (.wrote k e) }

/-! ### The invariant -/

/-- What a phase says about the versions and the counter. -/
def Fits (versions : κ → Option Nat) (counter : Nat) : Phase κ → Prop
  | .idle => True
  | .reserved n => n < counter
  | .looked k e => versions k = some e
  | .drew k e n => versions k = some e ∧ e < n ∧ n < counter
  | .wrote k e => ∃ g, versions k = some g ∧ e < g

/-- At most one writer is in a phase of this kind. -/
def AtMostOne (q : Phase κ → Prop) (phase : ι → Phase κ) : Prop :=
  ∀ i j, q (phase i) → q (phase j) → i = j

structure Ordered (v : Shared ι κ) : Prop where
  version_lt : ∀ k g, v.versions k = some g → g < v.counter
  fits : ∀ i, Fits v.versions v.counter (v.phase i)
  alone : ∀ k, AtMostOne (Phase.On k) v.phase
  once : ∀ k e, AtMostOne (fun p => p = .wrote k e) v.phase

omit [DecidableEq ι] [DecidableEq κ] in
theorem Ordered.fits_of_eq {v : Shared ι κ} (h : Ordered v) {i : ι} {p : Phase κ}
    (hi : v.phase i = p) : Fits v.versions v.counter p := by
  rw [← hi]
  exact h.fits i

omit [DecidableEq κ] in
theorem Fits.of_le {versions : κ → Option Nat} {c c' : Nat} (h : c ≤ c') {p : Phase κ}
    (hp : Fits versions c p) : Fits versions c' p := by
  cases p with
  | idle => trivial
  | reserved n => exact Nat.lt_of_lt_of_le hp h
  | looked k e => exact hp
  | drew k e n => exact ⟨hp.1, hp.2.1, Nat.lt_of_lt_of_le hp.2.2 h⟩
  | wrote k e => exact hp

/-- A higher version on a cell is noticed only by those who stand on it. -/
theorem Fits.update {versions : κ → Option Nat} {c : Nat} {p : Phase κ} (hp : Fits versions c p)
    {k : κ} {n : Nat} (hon : ¬ p.On k) (hn : ∀ g, versions k = some g → g < n) :
    Fits (Function.update versions k (some n)) c p := by
  cases p with
  | idle => trivial
  | reserved m => exact hp
  | looked k' e =>
    have hne : k' ≠ k := hon
    rw [Fits, Function.update_of_ne hne]
    exact hp
  | drew k' e m =>
    have hne : k' ≠ k := hon
    rw [Fits, Function.update_of_ne hne]
    exact hp
  | wrote k' e =>
    obtain ⟨g, hg, he⟩ := hp
    by_cases hk : k' = k
    · subst hk
      exact ⟨n, Function.update_self _ _ _, Nat.lt_trans he (hn g hg)⟩
    · exact ⟨g, by rw [Function.update_of_ne hk]; exact hg, he⟩

omit [DecidableEq κ] in
theorem AtMostOne.update {q : Phase κ → Prop} {phase : ι → Phase κ} (h : AtMostOne q phase)
    {i : ι} {p : Phase κ} (hp : q p → ∀ j, j ≠ i → ¬ q (phase j)) :
    AtMostOne q (Function.update phase i p) := by
  intro a b ha hb
  by_cases hai : a = i
  · by_cases hbi : b = i
    · rw [hai, hbi]
    · rw [hai, Function.update_self] at ha
      rw [Function.update_of_ne hbi] at hb
      exact absurd hb (hp ha b hbi)
  · rw [Function.update_of_ne hai] at ha
    by_cases hbi : b = i
    · rw [hbi, Function.update_self] at hb
      exact absurd ha (hp hb a hai)
    · rw [Function.update_of_ne hbi] at hb
      exact h a b ha hb

omit [DecidableEq κ] in
theorem AtMostOne.update_of_not {q : Phase κ → Prop} {phase : ι → Phase κ}
    (h : AtMostOne q phase) {i : ι} {p : Phase κ} (hp : ¬ q p) :
    AtMostOne q (Function.update phase i p) :=
  h.update (fun hq => absurd hq hp)

theorem version_lt_update {versions : κ → Option Nat} {c n : Nat} {k : κ}
    (h : ∀ k g, versions k = some g → g < c) (hn : n < c) :
    ∀ k' g, Function.update versions k (some n) k' = some g → g < c := by
  intro k' g hg
  by_cases hk : k' = k
  · rw [hk, Function.update_self] at hg
    cases hg
    exact hn
  · rw [Function.update_of_ne hk] at hg
    exact h k' g hg

/-- **Every step keeps the versions in order.** -/
theorem Step.ordered {v v' : Shared ι κ} (hs : Step v v') (h : Ordered v) : Ordered v' := by
  cases hs with
  | skip => exact h
  | count =>
    refine ⟨fun k g hg => Nat.lt_succ_of_lt (h.version_lt k g hg), fun i => ?_, h.alone, h.once⟩
    exact (h.fits i).of_le (Nat.le_succ _)
  | reserve i hi =>
    refine ⟨fun k g hg => Nat.lt_succ_of_lt (h.version_lt k g hg), ?_, fun k => ?_, fun k e => ?_⟩
    · rw [Function.forall_update_iff v.phase (fun _ p => Fits v.versions (v.counter + 1) p)]
      exact ⟨Nat.lt_succ_self _, fun j _ => (h.fits j).of_le (Nat.le_succ _)⟩
    · exact (h.alone k).update_of_not (by simp [Phase.On])
    · exact (h.once k e).update_of_not (by simp)
  | add i k n hi hk =>
    have hn : n < v.counter := h.fits_of_eq hi
    -- nobody stands on a cell that is not there
    have hon : ∀ j, ¬ (v.phase j).On k := by
      intro j hj
      cases hp : v.phase j with
      | looked k' e =>
        rw [hp] at hj
        obtain rfl : k' = k := hj
        have hfit : v.versions k' = some e := h.fits_of_eq hp
        rw [hk] at hfit
        cases hfit
      | drew k' e m =>
        rw [hp] at hj
        obtain rfl : k' = k := hj
        have hfit : v.versions k' = some e := (h.fits_of_eq hp).1
        rw [hk] at hfit
        cases hfit
      | _ =>
        rw [hp] at hj
        exact hj
    refine ⟨version_lt_update h.version_lt hn, ?_, fun k' => ?_, fun k' e => ?_⟩
    · rw [Function.forall_update_iff v.phase
        (fun _ p => Fits (Function.update v.versions k (some n)) v.counter p)]
      exact ⟨trivial, fun j _ => (h.fits j).update (hon j) (fun g hg => by rw [hk] at hg; cases hg)⟩
    · exact (h.alone k').update_of_not (by simp [Phase.On])
    · exact (h.once k' e).update_of_not (by simp)
  | look i k e hi hk hon =>
    refine ⟨h.version_lt, ?_, fun k' => ?_, fun k' e' => ?_⟩
    · rw [Function.forall_update_iff v.phase (fun _ p => Fits v.versions v.counter p)]
      exact ⟨hk, fun j _ => h.fits j⟩
    · refine (h.alone k').update (fun hq j _ => ?_)
      obtain rfl : k = k' := hq
      exact hon j
    · exact (h.once k' e').update_of_not (by simp)
  | draw i k e hi =>
    have hk : v.versions k = some e := h.fits_of_eq hi
    refine ⟨fun k g hg => Nat.lt_succ_of_lt (h.version_lt k g hg), ?_, fun k' => ?_,
      fun k' e' => ?_⟩
    · rw [Function.forall_update_iff v.phase (fun _ p => Fits v.versions (v.counter + 1) p)]
      exact ⟨⟨hk, h.version_lt k e hk, Nat.lt_succ_self _⟩,
        fun j _ => (h.fits j).of_le (Nat.le_succ _)⟩
    · refine (h.alone k').update (fun hq j hj hon => hj ?_)
      have hi' : (v.phase i).On k' := by
        rw [hi]
        exact hq
      exact h.alone k' j i hon hi'
    · exact (h.once k' e').update_of_not (by simp)
  | write i k e n hi =>
    obtain ⟨hk, hen, hn⟩ : v.versions k = some e ∧ e < n ∧ n < v.counter := h.fits_of_eq hi
    have hon : ∀ j, j ≠ i → ¬ (v.phase j).On k := fun j hj hjk =>
      hj (h.alone k j i hjk (by rw [hi]; rfl))
    refine ⟨version_lt_update h.version_lt hn, ?_, fun k' => ?_, fun k' e' => ?_⟩
    · rw [Function.forall_update_iff v.phase
        (fun _ p => Fits (Function.update v.versions k (some n)) v.counter p)]
      refine ⟨⟨n, Function.update_self _ _ _, hen⟩, fun j hj => ?_⟩
      exact (h.fits j).update (hon j hj) (fun g hg => by rw [hk] at hg; cases hg; exact hen)
    · exact (h.alone k').update_of_not (by simp [Phase.On])
    · refine (h.once k' e').update (fun hq j _ hj => ?_)
      cases hq
      -- one who stored on top of `e` left a version above it
      obtain ⟨g, hg, heg⟩ := h.fits_of_eq hj
      rw [hk] at hg
      cases hg
      exact Nat.lt_irrefl _ heg

/-- **A store raises the version of its cell.** -/
theorem Step.version_lt_of_wrote {v v' : Shared ι κ} (hs : Step v v') (h : Ordered v) {i : ι}
    {k : κ} {e : Nat} (hi : v.phase i ≠ .wrote k e) (hi' : v'.phase i = .wrote k e) :
    ∃ g g', v.versions k = some g ∧ v'.versions k = some g' ∧ g < g' := by
  have hupdate : ∀ {j p}, Function.update v.phase j p i = .wrote k e → j = i ∧ p = .wrote k e := by
    intro j p hp
    by_cases hji : i = j
    · subst hji
      rw [Function.update_self] at hp
      exact ⟨rfl, hp⟩
    · rw [Function.update_of_ne hji] at hp
      exact absurd hp hi
  cases hs with
  | skip => exact absurd hi' hi
  | count => exact absurd hi' hi
  | reserve j _ => cases (hupdate hi').2
  | add j k' n _ _ => cases (hupdate hi').2
  | look j k' e' _ _ _ => cases (hupdate hi').2
  | draw j k' e' _ => cases (hupdate hi').2
  | write j k' e' n hj =>
    obtain ⟨rfl, hp⟩ := hupdate hi'
    cases hp
    obtain ⟨hk, hen, -⟩ := h.fits_of_eq hj
    exact ⟨e, n, hk, Function.update_self _ _ _, hen⟩

end PrismFirewall.Lib.Optimistic
