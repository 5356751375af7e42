import Mathlib.Algebra.Order.Ring.Nat
import PrismFirewall.Lib.Text

/-!
# Reading numbers

The number a text stands for, in the sense of `int`: a sign, then decimal digits
of any script, with single underscores between them.  `readInt_toString` says
that a printed number is read back.  A text that breaks off is read as a smaller
number (`readNat_take_lt`), or not at all.
-/

namespace PrismFirewall.Lib.Text

/-- The zeros of the scripts that have decimal digits; the other nine follow each. -/
def decimalZeros : List Nat :=
  [0x30, 0x660, 0x6f0, 0x7c0, 0x966, 0x9e6, 0xa66, 0xae6, 0xb66, 0xbe6, 0xc66, 0xce6, 0xd66,
    0xde6, 0xe50, 0xed0, 0xf20, 0x1040, 0x1090, 0x17e0, 0x1810, 0x1946, 0x19d0, 0x1a80, 0x1a90,
    0x1b50, 0x1bb0, 0x1c40, 0x1c50, 0xa620, 0xa8d0, 0xa900, 0xa9d0, 0xa9f0, 0xaa50, 0xabf0,
    0xff10, 0x104a0, 0x10d30, 0x11066, 0x110f0, 0x11136, 0x111d0, 0x112f0, 0x11450, 0x114d0,
    0x11650, 0x116c0, 0x11730, 0x118e0, 0x11950, 0x11c50, 0x11d50, 0x11da0, 0x16a60, 0x16ac0,
    0x16b50, 0x1d7ce, 0x1d7d8, 0x1d7e2, 0x1d7ec, 0x1d7f6, 0x1e140, 0x1e2f0, 0x1e950, 0x1fbf0]

def digitValue? (c : Char) : Option Nat :=
  (decimalZeros.find? (fun z => z ≤ c.toNat && c.toNat < z + 10)).map (fun z => c.toNat - z)

/-- The digits after the first; an underscore stands only between two digits. -/
def readDigits (acc : Nat) : List Char → Option Nat
  | [] => some acc
  | '_' :: c :: cs => (digitValue? c).bind (fun d => readDigits (10 * acc + d) cs)
  | c :: cs => (digitValue? c).bind (fun d => readDigits (10 * acc + d) cs)

def readNat : List Char → Option Nat
  | [] => none
  | c :: cs => (digitValue? c).bind (fun d => readDigits d cs)

/-- `int(text)`, for a text without white space at its ends. -/
def readInt : List Char → Option Int
  | '-' :: cs => (readNat cs).map (fun n : Nat => -(n : Int))
  | '+' :: cs => (readNat cs).map (fun n : Nat => (n : Int))
  | cs => (readNat cs).map (fun n : Nat => (n : Int))

/-! ### The digits that are printed -/

theorem digitValue?_of_isDigit {c : Char} (h : c.isDigit = true) :
    digitValue? c = some (c.toNat - '0'.toNat) := by
  obtain ⟨h0, h9⟩ := Char.isDigit_iff_toNat.mp h
  have hz : '0'.toNat = 0x30 := rfl
  have hn : '9'.toNat = 0x39 := rfl
  have hfind : decimalZeros.find? (fun z => z ≤ c.toNat && c.toNat < z + 10) = some 0x30 := by
    refine List.find?_cons_of_pos ?_
    simp only [Bool.and_eq_true, decide_eq_true_eq]
    omega
  rw [digitValue?, hfind]
  rfl

theorem isSpace_of_isDigit {c : Char} (h : c.isDigit = true) : isSpace c = false := by
  obtain ⟨h0, h9⟩ := Char.isDigit_iff_toNat.mp h
  have hz : '0'.toNat = 48 := rfl
  have hn : '9'.toNat = 57 := rfl
  simp only [isSpace, Bool.or_eq_false_iff, Bool.and_eq_false_iff, beq_eq_false_iff_ne,
    decide_eq_false_iff_not]
  omega

theorem readDigits_of_isDigit {cs : List Char} (h : ∀ c ∈ cs, c.isDigit = true) :
    ∀ acc, readDigits acc cs = some (Nat.ofDigitChars 10 cs acc) := by
  induction cs with
  | nil => intro acc; rw [readDigits, Nat.ofDigitChars_nil]
  | cons c cs ih =>
    intro acc
    have hc := h c List.mem_cons_self
    have hu : c ≠ '_' := by
      intro hu
      subst hu
      exact absurd hc (by decide)
    rw [readDigits, digitValue?_of_isDigit hc, Option.bind_some,
      ih (fun c' hc' => h c' (List.mem_cons_of_mem c hc')), Nat.ofDigitChars_cons]
    intro c' cs' h1 h2
    exact hu h1

theorem readNat_of_isDigit {cs : List Char} (h : ∀ c ∈ cs, c.isDigit = true) (hne : cs ≠ []) :
    readNat cs = some (Nat.ofDigitChars 10 cs 0) := by
  cases cs with
  | nil => exact absurd rfl hne
  | cons c cs =>
    rw [readNat, digitValue?_of_isDigit (h c List.mem_cons_self), Option.bind_some,
      readDigits_of_isDigit (fun c' hc' => h c' (List.mem_cons_of_mem c hc')),
      Nat.ofDigitChars_cons, Nat.mul_zero, Nat.zero_add]

theorem isDigit_toDigits {n : Nat} : ∀ c ∈ Nat.toDigits 10 n, c.isDigit = true :=
  fun _ hc => Nat.isDigit_of_mem_toDigits (by decide) (by decide) hc

theorem readNat_toDigits (n : Nat) : readNat (Nat.toDigits 10 n) = some n := by
  rw [readNat_of_isDigit isDigit_toDigits Nat.toDigits_ne_nil, Nat.ofDigitChars_ten_toDigits]

/-- What the first digits of a number are read as. -/
theorem readNat_take {n k v : Nat} (h : readNat ((Nat.toDigits 10 n).take k) = some v) :
    10 ^ ((Nat.toDigits 10 n).length - k) * v ≤ n := by
  have hdigit : ∀ c ∈ (Nat.toDigits 10 n).take k, c.isDigit = true :=
    fun c hc => isDigit_toDigits c (List.mem_of_mem_take hc)
  have hne : (Nat.toDigits 10 n).take k ≠ [] := by
    intro hnil
    rw [hnil] at h
    exact absurd h (by simp [readNat])
  rw [readNat_of_isDigit hdigit hne, Option.some.injEq] at h
  have hsplit := Nat.ofDigitChars_ten_toDigits (n := n)
  rw [← List.take_append_drop k (Nat.toDigits 10 n), Nat.ofDigitChars_append, h,
    Nat.ofDigitChars_eq_ofDigitChars_zero, List.length_drop] at hsplit
  omega

theorem readNat_take_le {n k v : Nat} (h : readNat ((Nat.toDigits 10 n).take k) = some v) :
    v ≤ n := by
  have hpos : 0 < 10 ^ ((Nat.toDigits 10 n).length - k) := Nat.pow_pos (by decide)
  exact le_trans (Nat.le_mul_of_pos_left v hpos) (readNat_take h)

/-- **A number that breaks off is read as a smaller one.** -/
theorem readNat_take_lt {n k v : Nat} (hn : 0 < n) (hk : k < (Nat.toDigits 10 n).length)
    (h : readNat ((Nat.toDigits 10 n).take k) = some v) : v < n := by
  have hle := readNat_take h
  obtain ⟨m, hm⟩ : ∃ m, (Nat.toDigits 10 n).length - k = m + 1 :=
    ⟨(Nat.toDigits 10 n).length - k - 1, by omega⟩
  have hpos : 0 < 10 ^ m := Nat.pow_pos (by decide)
  rw [hm, Nat.pow_succ] at hle
  have hten : 10 * v ≤ n := by
    calc 10 * v ≤ 10 ^ m * (10 * v) := Nat.le_mul_of_pos_left _ hpos
      _ = 10 ^ m * 10 * v := (Nat.mul_assoc _ _ _).symm
      _ ≤ n := hle
  omega

/-! ### Signs -/

theorem exists_natCast_or_neg (g : Int) :
    (∃ n : Nat, g = n) ∨ ∃ n : Nat, 0 < n ∧ g = -(n : Int) := by
  rcases Int.eq_nat_or_neg g with ⟨n, hg | hg⟩
  · exact Or.inl ⟨n, hg⟩
  · rcases Nat.eq_zero_or_pos n with hn | hn
    · exact Or.inl ⟨0, by rw [hg, hn]; rfl⟩
    · exact Or.inr ⟨n, hn, hg⟩

theorem toList_toString_natCast (n : Nat) :
    (toString (n : Int)).toList = Nat.toDigits 10 n := by
  rw [Int.toString_eq_repr, Int.repr_eq_if, if_pos (by omega), Int.toNat_natCast,
    Nat.toList_repr]

theorem toList_toString_neg {n : Nat} (hn : 0 < n) :
    (toString (-(n : Int))).toList = '-' :: Nat.toDigits 10 n := by
  rw [Int.toString_eq_repr, Int.repr_eq_if, if_neg (by omega), neg_neg, Int.toNat_natCast,
    String.toList_append, Nat.toList_repr]
  rfl

/-- A text of digits has no sign. -/
theorem readInt_of_isDigit {cs : List Char} (h : ∀ c ∈ cs, c.isDigit = true) :
    readInt cs = (readNat cs).map (fun n : Nat => (n : Int)) := by
  cases cs with
  | nil => rfl
  | cons c cs =>
    have hc := h c List.mem_cons_self
    rw [readInt]
    · intro cs' heq
      rw [List.cons.injEq] at heq
      rw [heq.1] at hc
      exact absurd hc (by decide)
    · intro cs' heq
      rw [List.cons.injEq] at heq
      rw [heq.1] at hc
      exact absurd hc (by decide)

/-- **A printed number is read back.** -/
theorem readInt_toString (g : Int) : readInt (toString g).toList = some g := by
  rcases exists_natCast_or_neg g with ⟨n, rfl⟩ | ⟨n, hn, rfl⟩
  · rw [toList_toString_natCast, readInt_of_isDigit isDigit_toDigits, readNat_toDigits]
    rfl
  · rw [toList_toString_neg hn, readInt, readNat_toDigits]
    rfl

/-- The decimal text of a number determines it. -/
theorem toString_int_inj {g g' : Int} : toString g = toString g' ↔ g = g' := by
  constructor
  · intro h
    have hread := readInt_toString g
    rw [h, readInt_toString] at hread
    exact (Option.some.inj hread).symm
  · intro h
    rw [h]

/-- A printed number is made of digits and perhaps a sign. -/
theorem mem_toString_int {g : Int} {c : Char} (hc : c ∈ (toString g).toList) :
    c.isDigit = true ∨ c = '-' := by
  rcases exists_natCast_or_neg g with ⟨n, rfl⟩ | ⟨n, hn, rfl⟩
  · rw [toList_toString_natCast] at hc
    exact Or.inl (isDigit_toDigits c hc)
  · rw [toList_toString_neg hn] at hc
    rcases List.mem_cons.mp hc with rfl | hc
    · exact Or.inr rfl
    · exact Or.inl (isDigit_toDigits c hc)

theorem readInt_take_lt {g v : Int} {k : Nat} (hg : 0 < g) (hk : k < (toString g).toList.length)
    (h : readInt ((toString g).toList.take k) = some v) : v < g := by
  obtain ⟨n, rfl⟩ := Int.eq_ofNat_of_zero_le hg.le
  rw [toList_toString_natCast] at hk h
  rw [readInt_of_isDigit (fun c hc => isDigit_toDigits c (List.mem_of_mem_take hc)),
    Option.map_eq_some_iff] at h
  obtain ⟨w, hw, rfl⟩ := h
  have hlt := readNat_take_lt (by omega) hk hw
  omega

/-- With a minus sign, a number that breaks off is read as a larger one. -/
theorem le_readInt_take {g v : Int} {k : Nat} (hg : g ≤ 0)
    (h : readInt ((toString g).toList.take k) = some v) : g ≤ v := by
  rcases exists_natCast_or_neg g with ⟨n, rfl⟩ | ⟨n, hn, rfl⟩
  · rw [toList_toString_natCast,
      readInt_of_isDigit (fun c hc => isDigit_toDigits c (List.mem_of_mem_take hc)),
      Option.map_eq_some_iff] at h
    obtain ⟨w, -, rfl⟩ := h
    omega
  · rw [toList_toString_neg hn] at h
    cases k with
    | zero => exact absurd h (by simp [readInt, readNat])
    | succ k =>
      rw [List.take_succ_cons, readInt, Option.map_eq_some_iff] at h
      obtain ⟨w, hw, rfl⟩ := h
      have hle := readNat_take_le hw
      omega

end PrismFirewall.Lib.Text
