import Mathlib.Data.List.Basic

/-!
# Reading text

The few text operations that scripts lean on: white space in the sense of
`str.isspace`, `strip`, and the test whether a text starts with another.
Texts are lists of characters here, so that a scan is a recursion on a list.
-/

namespace PrismFirewall.Lib.Text

/-- The characters `str.isspace` and `\s` accept. -/
def isSpace (c : Char) : Bool :=
  let n := c.toNat
  (0x09 ≤ n && n ≤ 0x0d) || (0x1c ≤ n && n ≤ 0x20) || n == 0x85 || n == 0xa0 || n == 0x1680
    || (0x2000 ≤ n && n ≤ 0x200a) || n == 0x2028 || n == 0x2029 || n == 0x202f || n == 0x205f
    || n == 0x3000

/-- What is computed of every character of a text. -/
theorem forall_mem_of_all {P : Char → Prop} [DecidablePred P] {cs : List Char}
    (h : cs.all (fun c => decide (P c)) = true) : ∀ c ∈ cs, P c :=
  fun c hc => of_decide_eq_true (List.all_eq_true.mp h c hc)

/-- A text without the white space at its two ends. -/
def strip (s : String) : String :=
  String.ofList ((s.toList.dropWhile isSpace).reverse.dropWhile isSpace).reverse

theorem dropWhile_isSpace {cs : List Char} (h : ∀ c ∈ cs, isSpace c = false) :
    cs.dropWhile isSpace = cs := by
  cases cs with
  | nil => rfl
  | cons c cs => rw [List.dropWhile_cons_of_neg (by simp [h c List.mem_cons_self])]

/-- A text without white space is left as it is. -/
theorem strip_of_not_isSpace {s : String} (h : ∀ c ∈ s.toList, isSpace c = false) :
    strip s = s := by
  rw [strip, dropWhile_isSpace h, dropWhile_isSpace (fun c hc => h c (List.mem_reverse.mp hc)),
    List.reverse_reverse, String.ofList_toList]

/-- What follows a given start of a text. -/
def dropPrefix? : List Char → List Char → Option (List Char)
  | [], cs => some cs
  | _ :: _, [] => none
  | p :: ps, c :: cs => if p = c then dropPrefix? ps cs else none

/-! ### Fields and separators -/

section

variable {α : Type*} {sep : α} {a b x y : List α}

/-- A field without separators ends where the first separator stands. -/
theorem append_sep_inj (ha : sep ∉ a) (hb : sep ∉ b) :
    a ++ sep :: x = b ++ sep :: y ↔ a = b ∧ x = y := by
  induction a generalizing b with
  | nil =>
    cases b with
    | nil => simp
    | cons c b =>
      have hne : sep ≠ c := fun h => hb (h ▸ List.mem_cons_self)
      simp [hne]
  | cons c a ih =>
    rw [List.mem_cons, not_or] at ha
    cases b with
    | nil => simp [Ne.symm ha.1]
    | cons c' b =>
      rw [List.mem_cons, not_or] at hb
      simp only [List.cons_append, List.cons.injEq, ih ha.2 hb.2, and_assoc]

/-- A field without separators begins where the last separator stands. -/
theorem append_sep_inj' (hx : sep ∉ x) (hy : sep ∉ y) :
    a ++ sep :: x = b ++ sep :: y ↔ a = b ∧ x = y := by
  have hx' : sep ∉ x.reverse := by simpa using hx
  have hy' : sep ∉ y.reverse := by simpa using hy
  have hrev := append_sep_inj (x := a.reverse) (y := b.reverse) hx' hy'
  rw [List.reverse_inj, List.reverse_inj] at hrev
  rw [← List.reverse_inj]
  simp only [List.reverse_append, List.reverse_cons, List.append_assoc, List.singleton_append]
  rw [hrev, and_comm]

/-- **Two fields on either side of a separator** make up the same text as two others if they
are the same, or if a separator inside one of them can be taken for the one in between. -/
theorem append_sep_eq_iff : a ++ sep :: x = b ++ sep :: y ↔
    (a = b ∧ x = y) ∨ (∃ m, b = a ++ sep :: m ∧ x = m ++ sep :: y) ∨
      ∃ m, a = b ++ sep :: m ∧ y = m ++ sep :: x := by
  constructor
  · intro h
    rcases List.append_eq_append_iff.mp h with ⟨m, hb, hx⟩ | ⟨m, ha, hy⟩
    · cases m with
      | nil =>
        rw [List.append_nil] at hb
        rw [List.nil_append, List.cons.injEq] at hx
        exact Or.inl ⟨hb.symm, hx.2⟩
      | cons c m =>
        rw [List.cons_append, List.cons.injEq] at hx
        obtain ⟨rfl, hx⟩ := hx
        exact Or.inr (Or.inl ⟨m, hb, hx⟩)
    · cases m with
      | nil =>
        rw [List.append_nil] at ha
        rw [List.nil_append, List.cons.injEq] at hy
        exact Or.inl ⟨ha, hy.2.symm⟩
      | cons c m =>
        rw [List.cons_append, List.cons.injEq] at hy
        obtain ⟨rfl, hy⟩ := hy
        exact Or.inr (Or.inr ⟨m, ha, hy⟩)
  · rintro (⟨rfl, rfl⟩ | ⟨m, rfl, rfl⟩ | ⟨m, rfl, rfl⟩)
    · rfl
    · simp
    · simp

/-- **Three fields** can be told from the text they make up exactly if none of them holds a
separator: otherwise the text can be cut apart at another one. -/
theorem three_fields_unique_iff {c : List α} :
    (∀ a' b' c', a ++ sep :: (b ++ sep :: c) = a' ++ sep :: (b' ++ sep :: c') →
      a = a' ∧ b = b' ∧ c = c') ↔ sep ∉ a ∧ sep ∉ b ∧ sep ∉ c := by
  classical
  constructor
  · intro h
    refine ⟨fun ha => ?_, fun hb => ?_, fun hc => ?_⟩
    · obtain ⟨l, l', rfl⟩ := List.append_of_mem ha
      have hlen := congrArg List.length (h l l' (b ++ sep :: c) (by simp)).1
      simp at hlen
    · obtain ⟨l, l', rfl⟩ := List.append_of_mem hb
      have hlen := congrArg List.length (h (a ++ sep :: l) l' c (by simp)).1
      simp at hlen
    · obtain ⟨l, l', rfl⟩ := List.append_of_mem hc
      have hlen := congrArg List.length (h (a ++ sep :: b) l l' (by simp)).1
      simp at hlen
  · intro h a' b' c' he
    obtain ⟨ha, hb, hc⟩ := h
    -- the text holds two separators, so the other fields hold none
    have hcount := congrArg (List.count sep) he
    simp only [List.count_append, List.count_cons_self, List.count_eq_zero.mpr ha,
      List.count_eq_zero.mpr hb, List.count_eq_zero.mpr hc] at hcount
    have ha' : sep ∉ a' := List.count_eq_zero.mp (by omega)
    have hb' : sep ∉ b' := List.count_eq_zero.mp (by omega)
    obtain ⟨h1, h2⟩ := (append_sep_inj ha ha').mp he
    exact ⟨h1, (append_sep_inj hb hb').mp h2⟩

end

/-- Lower-case hexadecimal digits, `[0-9a-f]`. -/
def isHexDigit (c : Char) : Bool := ('0' ≤ c && c ≤ '9') || ('a' ≤ c && c ≤ 'f')

theorem digitChar_inj {m n : Nat} (hm : m < 16) (hn : n < 16) (h : m.digitChar = n.digitChar) :
    m = n := by
  have hall : ∀ i j : Fin 16, i.val.digitChar = j.val.digitChar → i = j := by decide
  exact congrArg Fin.val (hall ⟨m, hm⟩ ⟨n, hn⟩ h)

/-- The digits of a number determine it, up to the base sixteen. -/
theorem toDigits_injective {b : Nat} (hb : 1 < b) (hb' : b ≤ 16) :
    Function.Injective (Nat.toDigits b) := by
  intro m
  induction m using Nat.strongRecOn with
  | ind m ih =>
    intro n h
    rw [Nat.toDigits_eq_if hb, Nat.toDigits_eq_if hb (n := n)] at h
    by_cases hm : m < b
    · by_cases hn : n < b
      · rw [if_pos hm, if_pos hn, List.singleton_inj] at h
        exact digitChar_inj (by omega) (by omega) h
      · rw [if_pos hm, if_neg hn] at h
        have hlen := congrArg List.length h
        have hpos := Nat.length_toDigits_pos (b := b) (n := n / b)
        simp only [List.length_append, List.length_singleton] at hlen
        omega
    · by_cases hn : n < b
      · rw [if_neg hm, if_pos hn] at h
        have hlen := congrArg List.length h
        have hpos := Nat.length_toDigits_pos (b := b) (n := m / b)
        simp only [List.length_append, List.length_singleton] at hlen
        omega
      · -- the leading digits and the last one agree
        rw [if_neg hm, if_neg hn] at h
        obtain ⟨hlead, hlast⟩ := List.append_inj' h rfl
        have hdiv := ih (m / b) (Nat.div_lt_self (by omega) hb) hlead
        have hb0 : 0 < b := by omega
        have hmod := digitChar_inj (Nat.lt_of_lt_of_le (Nat.mod_lt m hb0) hb')
          (Nat.lt_of_lt_of_le (Nat.mod_lt n hb0) hb') (List.singleton_inj.mp hlast)
        rw [← Nat.div_add_mod m b, ← Nat.div_add_mod n b, hdiv, hmod]

/-- The decimal text of a number determines it. -/
theorem toString_inj {m n : Nat} : toString m = toString n ↔ m = n := by
  constructor
  · intro h
    exact toDigits_injective (by decide) (by decide) (String.ofList_injective h)
  · intro h
    rw [h]

end PrismFirewall.Lib.Text
