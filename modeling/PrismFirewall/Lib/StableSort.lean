import Mathlib.Data.List.Sort
import Mathlib.Data.List.TakeWhile

/-!
# Stable sorting

Insertion sort by a key keeps equal keys in the order of the input.  The elements are
tagged with their places in the input; then the sorted list is the one that is ordered
by key and, for equal keys, by place (`exists_tagged`).  That order is strict, so the
index of an element in the sorted list is the number of elements before it
(`countP_before_eq`), and the first element with some property is the least one that has
it.
-/

namespace PrismFirewall.Lib

variable {α κ : Type*} [LinearOrder κ] (key : α → κ)

/-- By key, and equal keys by place. -/
def Before (x y : α × Nat) : Prop :=
  key x.1 < key y.1 ∨ key x.1 = key y.1 ∧ x.2 < y.2

instance (x y : α × Nat) : Decidable (Before key x y) := inferInstanceAs (Decidable (_ ∨ _ ∧ _))

theorem not_before_self (x : α × Nat) : ¬ Before key x x := by
  rintro (h | h)
  · exact lt_irrefl _ h
  · exact Nat.lt_irrefl _ h.2

theorem Before.asymm {x y : α × Nat} (h : Before key x y) : ¬ Before key y x := by
  rintro (h' | ⟨he, h'⟩)
  · rcases h with h | ⟨he, -⟩
    · exact lt_asymm h h'
    · exact absurd h' (by rw [he]; exact lt_irrefl _)
  · rcases h with h | ⟨-, h⟩
    · exact absurd h (by rw [he]; exact lt_irrefl _)
    · exact Nat.lt_asymm h h'

theorem Before.key_le {x y : α × Nat} (h : Before key x y) : key x.1 ≤ key y.1 := by
  rcases h with h | ⟨h, -⟩
  · exact le_of_lt h
  · exact le_of_eq h

/-- What an insertion leaves in front has a smaller key, and what it pushes back has not. -/
theorem key_of_split {s : List (α × Nat)} (hs : s.Pairwise (Before key)) (a : α) :
    (∀ y ∈ s.takeWhile (fun y => decide (¬ key a ≤ key y.1)), key y.1 < key a) ∧
    ∀ y ∈ s.dropWhile (fun y => decide (¬ key a ≤ key y.1)), key a ≤ key y.1 := by
  constructor
  · intro y hy
    have h := List.mem_takeWhile_imp hy
    rw [decide_eq_true_eq, not_le] at h
    exact h
  · cases hd : s.dropWhile (fun y => decide (¬ key a ≤ key y.1)) with
    | nil => exact fun y hy => absurd hy List.not_mem_nil
    | cons y₀ rest =>
      have h0 : key a ≤ key y₀.1 := by
        have h := List.head?_dropWhile_not (fun y : α × Nat => decide (¬ key a ≤ key y.1)) s
        rw [hd] at h
        simpa using h
      have hpair : (y₀ :: rest).Pairwise (Before key) := by
        rw [← hd]
        exact hs.sublist (List.dropWhile_sublist _)
      intro y hy
      rcases List.mem_cons.mp hy with rfl | hy
      · exact h0
      · exact le_trans h0 ((List.pairwise_cons.mp hpair).1 y hy).key_le

theorem pairwise_insert {front back : List (α × Nat)} {a : α} {start : Nat}
    (hs : (front ++ back).Pairwise (Before key)) (hlt : ∀ y ∈ front ++ back, start < y.2)
    (hfront : ∀ y ∈ front, key y.1 < key a) (hback : ∀ y ∈ back, key a ≤ key y.1) :
    (front ++ (a, start) :: back).Pairwise (Before key) := by
  obtain ⟨h1, h2, h12⟩ := List.pairwise_append.mp hs
  have hnew : ∀ y ∈ back, Before key (a, start) y := by
    intro y hy
    rcases lt_or_eq_of_le (hback y hy) with h | h
    · exact Or.inl h
    · exact Or.inr ⟨h, hlt y (List.mem_append_right front hy)⟩
  refine List.pairwise_append.mpr ⟨h1, List.pairwise_cons.mpr ⟨hnew, h2⟩, fun x hx y hy => ?_⟩
  rcases List.mem_cons.mp hy with rfl | hy
  · exact Or.inl (hfront x hx)
  · exact h12 x hx y hy

/-- **The sorted list, with the places of the input.** -/
theorem exists_tagged (l : List α) : ∀ start, ∃ s : List (α × Nat),
    s.Perm (l.zipIdx start) ∧ s.Pairwise (Before key) ∧
      s.map Prod.fst = l.insertionSort (fun a b => key a ≤ key b) := by
  induction l with
  | nil => exact fun start => ⟨[], List.Perm.refl _, List.Pairwise.nil, rfl⟩
  | cons a l ih =>
    intro start
    obtain ⟨s, hperm, hsorted, hmap⟩ := ih (start + 1)
    have hlt : ∀ y ∈ s, start < y.2 := by
      intro y hy
      exact List.le_snd_of_mem_zipIdx (hperm.mem_iff.mp hy)
    obtain ⟨hfront, hback⟩ := key_of_split key hsorted a
    have hsplit := List.takeWhile_append_dropWhile (p := fun y : α × Nat =>
      decide (¬ key a ≤ key y.1)) (l := s)
    refine ⟨_ ++ (a, start) :: _, ?_, pairwise_insert key (by rw [hsplit]; exact hsorted)
      (by rw [hsplit]; exact hlt) hfront hback, ?_⟩
    · rw [List.zipIdx_cons]
      refine List.perm_middle.trans (List.Perm.cons _ ?_)
      rw [hsplit]
      exact hperm
    · rw [List.insertionSort_cons_eq_take_drop, ← hmap, List.takeWhile_map, List.dropWhile_map,
        List.map_append, List.map_cons]
      rfl

/-- The index of an element in a strictly ordered list is the number of elements before
it. -/
theorem countP_before_eq {s : List (α × Nat)} (hs : s.Pairwise (Before key)) {idx : Nat}
    {x : α × Nat} (hx : s[idx]? = some x) : s.countP (fun y => decide (Before key y x)) = idx := by
  obtain ⟨hlt, hget⟩ := List.getElem?_eq_some_iff.mp hx
  obtain ⟨front, back, rfl, hlen⟩ : ∃ front back, s = front ++ x :: back ∧ front.length = idx := by
    refine ⟨s.take idx, s.drop (idx + 1), ?_, List.length_take_of_le hlt.le⟩
    rw [← hget, List.getElem_cons_drop, List.take_append_drop]
  obtain ⟨-, h2, h12⟩ := List.pairwise_append.mp hs
  have hfront : front.countP (fun y => decide (Before key y x)) = front.length := by
    rw [List.countP_eq_length]
    intro y hy
    exact decide_eq_true (h12 y hy x List.mem_cons_self)
  have hback : (x :: back).countP (fun y => decide (Before key y x)) = 0 := by
    rw [List.countP_eq_zero]
    intro y hy h
    rcases List.mem_cons.mp hy with rfl | hy
    · exact not_before_self key y (of_decide_eq_true h)
    · exact ((List.pairwise_cons.mp h2).1 y hy).asymm key (of_decide_eq_true h)
  rw [List.countP_append, hfront, hback, hlen, Nat.add_zero]

/-- The first element that has a property comes before every other one that has it. -/
theorem before_of_first {s : List (α × Nat)} (hs : s.Pairwise (Before key)) {idx : Nat}
    {x : α × Nat} (hx : s[idx]? = some x) (P : α → Prop)
    (hfirst : ∀ m < idx, ∀ y, s[m]? = some y → ¬ P y.1) :
    ∀ y ∈ s, P y.1 → y = x ∨ Before key x y := by
  intro y hy hP
  obtain ⟨m, hm⟩ := List.mem_iff_getElem?.mp hy
  rcases Nat.lt_trichotomy m idx with hlt | heq | hgt
  · exact absurd hP (hfirst m hlt y hm)
  · subst heq
    exact Or.inl (Option.some.inj (hm.symm.trans hx))
  · obtain ⟨hmlt, hmget⟩ := List.getElem?_eq_some_iff.mp hm
    obtain ⟨hilt, higet⟩ := List.getElem?_eq_some_iff.mp hx
    have h := List.pairwise_iff_getElem.mp hs idx m hilt hmlt hgt
    rw [higet, hmget] at h
    exact Or.inr h

end PrismFirewall.Lib
