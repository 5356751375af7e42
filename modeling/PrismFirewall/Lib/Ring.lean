import Mathlib.Data.Finset.Basic
import Mathlib.Data.Int.ModEq
import Mathlib.Tactic.Ring

/-!
# Going round a ring of numbers

The `n` numbers from `m` on are taken as a ring: after the last one comes the first.
`place m n c i` is the number `i` places after `c`.  `FirstFree` says that a search that
starts at `c` and goes round stops at `p`: everything it passed over is in use, and `p`
is not.

`FirstFree.place_cases` is the step of every argument about a pointer that is moved
behind what such searches find: a place ahead of the pointer is in use, or is the one
that was found, or is still ahead of it.
-/

namespace PrismFirewall.Lib.Ring

variable {m n : ℤ}

/-- The number `i` places after `c`. -/
def place (m n c : ℤ) (i : ℕ) : ℤ := m + (c - m + i) % n

theorem place_mem (hn : 0 < n) (c : ℤ) (i : ℕ) : m ≤ place m n c i ∧ place m n c i < m + n := by
  have h1 := Int.emod_nonneg (c - m + i) hn.ne'
  have h2 := Int.emod_lt_of_pos (c - m + i) hn
  unfold place
  omega

theorem place_zero {c : ℤ} (h : m ≤ c ∧ c < m + n) : place m n c 0 = c := by
  have he : (c - m) % n = c - m := Int.emod_eq_of_lt (by omega) (by omega)
  simp only [place, Nat.cast_zero, Int.add_zero, he]
  omega

/-- Before the end of the ring a place is a sum. -/
theorem place_of_lt {c : ℤ} (hc : m ≤ c) {i : ℕ} (h : c + i < m + n) : place m n c i = c + i := by
  rw [place, Int.emod_eq_of_lt (by omega) (by omega)]
  omega

/-- Behind the end it goes on with the first number. -/
theorem place_of_ge {c : ℤ} (hc : c < m + n) {i : ℕ} (h1 : m + n ≤ c + i) (h2 : (i : ℤ) < n) :
    place m n c i = c + i - n := by
  rw [place, ← Int.sub_emod_right, Int.emod_eq_of_lt (by omega) (by omega)]
  omega

/-- Steps add up. -/
theorem place_place (c : ℤ) (i j : ℕ) :
    place m n (place m n c i) j = place m n c (i + j) := by
  have he : m + (c - m + i) % n - m + j = (c - m + i) % n + j := by ring
  simp only [place, he, Int.emod_add_emod, Nat.cast_add, Int.add_assoc]

/-- Every number of the ring is somewhere ahead. -/
theorem exists_place (hn : 0 < n) (c : ℤ) {q : ℤ} (hq : m ≤ q ∧ q < m + n) :
    ∃ i : ℕ, (i : ℤ) < n ∧ place m n c i = q := by
  have h1 := Int.emod_nonneg (q - c) hn.ne'
  have h2 := Int.emod_lt_of_pos (q - c) hn
  refine ⟨((q - c) % n).toNat, by omega, ?_⟩
  have hq' : (q - m) % n = q - m := Int.emod_eq_of_lt (by omega) (by omega)
  have hsum : c - m + (q - c) = q - m := by ring
  rw [place, Int.toNat_of_nonneg h1, Int.add_emod_emod, hsum, hq']
  omega

/-- Fewer than `n` steps do not lead back. -/
theorem place_ne_self {c : ℤ} (h : m ≤ c ∧ c < m + n) {i : ℕ} (hi : 0 < i) (hin : (i : ℤ) < n) :
    place m n c i ≠ c := by
  by_cases hw : c + i < m + n
  · rw [place_of_lt h.1 hw]
    omega
  · rw [place_of_ge h.2 (by omega) hin]
    omega

/-- The search from `c` finds `p`. -/
def FirstFree (m n : ℤ) (used : Finset ℤ) (c p : ℤ) : Prop :=
  p ∉ used ∧ ∃ i : ℕ, place m n c i = p ∧ ∀ j < i, place m n c j ∈ used

theorem FirstFree.mem {used : Finset ℤ} {c p : ℤ} (h : FirstFree m n used c p) (hn : 0 < n) :
    m ≤ p ∧ p < m + n := by
  obtain ⟨-, i, rfl, -⟩ := h
  exact place_mem hn c i

/-- A search that gets to `p` before the end of the ring. -/
theorem firstFree_of_ahead {used : Finset ℤ} {c p : ℤ} (hc : m ≤ c) (hcp : c ≤ p)
    (hp : p < m + n) (hfree : p ∉ used) (hused : ∀ q, c ≤ q → q < p → q ∈ used) :
    FirstFree m n used c p := by
  refine ⟨hfree, (p - c).toNat, ?_, fun j hj => ?_⟩
  · rw [place_of_lt hc (by omega)]
    omega
  · rw [place_of_lt hc (by omega)]
    exact hused _ (by omega) (by omega)

/-- A search that finds nothing up to the end of the ring and goes on from its start. -/
theorem firstFree_of_wrapped {used : Finset ℤ} {c p : ℤ} (hp : m ≤ p) (hpc : p < c)
    (hc : c < m + n) (hfree : p ∉ used) (htail : ∀ q, c ≤ q → q < m + n → q ∈ used)
    (hhead : ∀ q, m ≤ q → q < p → q ∈ used) : FirstFree m n used c p := by
  refine ⟨hfree, (p + n - c).toNat, ?_, fun j hj => ?_⟩
  · rw [place_of_ge hc (by omega) (by omega)]
    omega
  · by_cases hw : c + j < m + n
    · rw [place_of_lt (by omega) hw]
      exact htail _ (by omega) hw
    · rw [place_of_ge hc (by omega) (by omega)]
      exact hhead _ (by omega) (by omega)

/-- **A place ahead of the pointer**, when the search finds `p` and the pointer moves
behind it: the place is in use, or it is `p`, or it is nearer than it was, with nothing
new in between. -/
theorem FirstFree.place_cases {used : Finset ℤ} {c p : ℤ} (h : FirstFree m n used c p) (i : ℕ) :
    place m n c i ∈ used ∨ place m n c i = p ∨
      ∃ i', place m n (place m n p 1) i' = place m n c i ∧
        ∀ j' ≤ i', ∃ j ≤ i, place m n (place m n p 1) j' = place m n c j := by
  obtain ⟨-, k, rfl, hused⟩ := h
  rcases lt_trichotomy i k with hi | rfl | hi
  · exact Or.inl (hused i hi)
  · exact Or.inr (Or.inl rfl)
  · refine Or.inr (Or.inr ⟨i - k - 1, ?_, fun j' hj' => ⟨k + 1 + j', by omega, ?_⟩⟩)
    · rw [place_place, place_place]
      congr 1
      omega
    · rw [place_place, place_place, Nat.add_assoc]

end PrismFirewall.Lib.Ring
