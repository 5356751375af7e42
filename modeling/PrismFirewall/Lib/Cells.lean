import Mathlib.Data.List.Basic

/-!
# Arrays that are filled from the front

A C table is an array of a fixed size and a number of cells in use.  `cell` reads a
cell, a write is `Vector.setIfInBounds`, and `shiftDown` is the loop that closes the
gap a removed cell leaves.

`used` is the list such a table stands for.  `used_set` says that writing behind the
last cell appends, and `used_shiftDown` that the loop removes one element and keeps the
order of the others.
-/

namespace PrismFirewall.Lib

variable {α : Type*} [Inhabited α] {size : Nat}

/-- Read a cell. -/
def cell (v : Vector α size) (i : Nat) : α := v[i]?.getD default

/-- The cells in use, in order. -/
def used (v : Vector α size) (n : Nat) : List α := (List.range n).map (cell v)

/-- `for (j = i; j < n - 1; j++) v[j] = v[j + 1];` -/
def shiftDown (v : Vector α size) (i n : Nat) : Vector α size :=
  (List.range' i (n - 1 - i)).foldl (fun v j => v.setIfInBounds j (cell v (j + 1))) v

theorem cell_set (v : Vector α size) {i : Nat} (hi : i < size) (x : α) (j : Nat) :
    cell (v.setIfInBounds i x) j = if j = i then x else cell v j := by
  unfold cell
  rw [Vector.getElem?_setIfInBounds]
  by_cases h : i = j
  · subst h
    simp [hi]
  · simp [h, Ne.symm h]

@[simp] theorem length_used (v : Vector α size) (n : Nat) : (used v n).length = n := by
  simp [used]

theorem getElem?_used {v : Vector α size} {n i : Nat} (h : i < n) :
    (used v n)[i]? = some (cell v i) := by
  simp [used, h]

theorem used_congr {v v' : Vector α size} {n : Nat} (h : ∀ i < n, cell v' i = cell v i) :
    used v' n = used v n :=
  List.map_congr_left (fun i hi => h i (List.mem_range.mp hi))

theorem used_succ (v : Vector α size) (n : Nat) : used v (n + 1) = used v n ++ [cell v n] := by
  simp [used, List.range_succ]

/-- The first cell in use that passes a test. -/
theorem find?_range_cell (v : Vector α size) (n : Nat) (p : α → Bool) :
    (List.range n).find? (fun i => p (cell v i)) = (used v n).findIdx? p := by
  refine Option.ext (fun i => ?_)
  rw [List.find?_range_eq_some, List.findIdx?_eq_some_iff_getElem]
  simp [used, and_left_comm]

/-- Writing behind the last cell in use appends. -/
theorem used_set (v : Vector α size) {n : Nat} (hn : n < size) (x : α) :
    used (v.setIfInBounds n x) (n + 1) = used v n ++ [x] := by
  have hfirst : used (v.setIfInBounds n x) n = used v n := by
    refine used_congr (fun i hi => ?_)
    rw [cell_set v hn, if_neg (by omega)]
  rw [used_succ, hfirst, cell_set v hn, if_pos rfl]

/-- What the loop has done after some rounds. -/
theorem cell_foldl_shift (v : Vector α size) (i k : Nat) (hk : i + k ≤ size) (j : Nat) :
    cell ((List.range' i k).foldl (fun v j => v.setIfInBounds j (cell v (j + 1))) v) j
      = if i ≤ j ∧ j < i + k then cell v (j + 1) else cell v j := by
  induction k generalizing j with
  | zero =>
    rw [if_neg (by omega)]
    rfl
  | succ k ih =>
    have ih' := ih (by omega)
    rw [List.range'_1_concat, List.foldl_append, List.foldl_cons, List.foldl_nil,
      cell_set _ (by omega), ih', ih']
    by_cases hj : j = i + k
    · subst hj
      rw [if_pos rfl, if_neg (by omega), if_pos (by omega)]
    · rw [if_neg hj]
      by_cases hlt : i ≤ j ∧ j < i + k
      · rw [if_pos hlt, if_pos (by omega)]
      · rw [if_neg hlt, if_neg (by omega)]

/-- **Closing the gap** removes one element and keeps the others in order. -/
theorem used_shiftDown (v : Vector α size) {i n : Nat} (hi : i < n) (hn : n ≤ size) :
    used (shiftDown v i n) (n - 1) = (used v n).eraseIdx i := by
  refine List.ext_getElem? (fun j => ?_)
  rw [List.getElem?_eraseIdx]
  by_cases hj : j < n - 1
  · have hcell := cell_foldl_shift v i (n - 1 - i) (by omega) j
    rw [getElem?_used hj]
    show some (cell (shiftDown v i n) j) = _
    rw [shiftDown, hcell]
    by_cases hji : j < i
    · rw [if_neg (by omega), if_pos hji, getElem?_used (by omega)]
    · rw [if_pos (by omega), if_neg hji, getElem?_used (by omega)]
  · have hout : (used (shiftDown v i n) (n - 1))[j]? = none := by
      rw [List.getElem?_eq_none_iff, length_used]
      omega
    rw [hout]
    split
    · omega
    · symm
      rw [List.getElem?_eq_none_iff, length_used]
      omega

/-- Where a key tells the elements apart, the first with a key is the only one. -/
theorem eraseP_eq_filter_of_nodup_map {β γ : Type*} [BEq γ] [LawfulBEq γ] {f : β → γ}
    {l : List β} (h : (l.map f).Nodup) (k : γ) :
    l.eraseP (fun a => f a == k) = l.filter (fun a => f a != k) := by
  induction l with
  | nil => rfl
  | cons a l ih =>
    rw [List.map_cons, List.nodup_cons] at h
    by_cases ha : f a = k
    · rw [List.eraseP_cons_of_pos (by simpa using ha),
        List.filter_cons_of_neg (by simpa using ha), List.filter_eq_self.mpr]
      intro b hb
      rw [bne_iff_ne]
      rintro rfl
      exact h.1 (ha ▸ List.mem_map_of_mem hb)
    · rw [List.eraseP_cons_of_neg (by simpa using ha),
        List.filter_cons_of_pos (by simpa using ha), ih h.2]

end PrismFirewall.Lib
