import Mathlib.Tactic.IntervalCases
import PrismFirewall.Lib.Decimal

/-!
# Fixed-width words and IPv4 addresses

Arithmetic that overflows does one of two things, depending on how the program was built:
with overflow checks it ends the program, and the result is missing here (`none`); without
them it wraps, and a shift takes the amount modulo the width.  `checked` is that choice.

In C an address is kept as the 32-bit word whose bytes lie in memory in network order, on a
little-endian machine.  `htonl` changes between that word and the number a dotted quad
stands for; it moves bits around (`getLsbD_htonl`), so it is its own inverse and goes
through a bitwise `and`.

`pton` reads a dotted quad, four numbers below 256 without leading zeros; `ntop` prints
one.
-/

namespace PrismFirewall.Lib.Overflow

variable (checked : Bool)

def addU64 (a b : UInt64) : Option UInt64 :=
  if checked ∧ 2 ^ 64 ≤ a.toNat + b.toNat then none else some (a + b)

def subU32 (a b : UInt32) : Option UInt32 :=
  if checked ∧ a < b then none else some (a - b)

def shlU32 (a n : UInt32) : Option UInt32 :=
  if checked ∧ 32 ≤ n then none else some (a <<< n)

@[simp] theorem addU64_false (a b : UInt64) : addU64 false a b = some (a + b) := by
  simp [addU64]

@[simp] theorem subU32_false (a b : UInt32) : subU32 false a b = some (a - b) := by
  simp [subU32]

@[simp] theorem shlU32_false (a n : UInt32) : shlU32 false a n = some (a <<< n) := by
  simp [shlU32]

end PrismFirewall.Lib.Overflow

namespace PrismFirewall.Lib.Inet

/-- `htonl` and `ntohl`: the four bytes in the opposite order. -/
def htonl (x : UInt32) : UInt32 :=
  (x <<< 24) ||| ((x &&& (0xFF00 : UInt32)) <<< 8) ||| ((x >>> 8) &&& (0xFF00 : UInt32))
    ||| (x >>> 24)

/-- Bit `8 a + b` comes from bit `8 (3 - a) + b`. -/
theorem getLsbD_htonl (x : UInt32) {i : Nat} (hi : i < 32) :
    (htonl x).toBitVec.getLsbD i = x.toBitVec.getLsbD (i ^^^ 24) := by
  simp only [htonl, UInt32.toBitVec_or, UInt32.toBitVec_and, UInt32.toBitVec_shiftLeft,
    UInt32.toBitVec_shiftRight]
  interval_cases i <;> simp

theorem xor_lt (i : Nat) (hi : i < 32) : i ^^^ 24 < 32 := by
  interval_cases i <;> decide

@[simp] theorem htonl_htonl (x : UInt32) : htonl (htonl x) = x := by
  refine UInt32.eq_of_toBitVec_eq (BitVec.eq_of_getLsbD_eq (fun i hi => ?_))
  rw [getLsbD_htonl _ hi, getLsbD_htonl _ (xor_lt i hi), Nat.xor_assoc, Nat.xor_self, Nat.xor_zero]

theorem htonl_and (x y : UInt32) : htonl (x &&& y) = htonl x &&& htonl y := by
  refine UInt32.eq_of_toBitVec_eq (BitVec.eq_of_getLsbD_eq (fun i hi => ?_))
  rw [UInt32.toBitVec_and, BitVec.getLsbD_and, getLsbD_htonl _ hi, getLsbD_htonl _ hi,
    getLsbD_htonl _ hi, UInt32.toBitVec_and, BitVec.getLsbD_and]

theorem htonl_inj {x y : UInt32} : htonl x = htonl y ↔ x = y := by
  constructor
  · intro h
    rw [← htonl_htonl x, h, htonl_htonl]
  · intro h
    rw [h]

/-! ### Masks -/

/-- Ones above the lowest `k` bits. -/
def mask (k : Nat) : UInt32 := (0xFFFFFFFF : UInt32) <<< UInt32.ofNat k

theorem getLsbD_mask {k i : Nat} (hk : k < 32) (hi : i < 32) :
    (mask k).toBitVec.getLsbD i = decide (k ≤ i) := by
  interval_cases k <;> interval_cases i <;> decide

/-- **Under a mask** two words agree exactly if they agree above the masked bits. -/
theorem and_mask_eq_iff {x y : UInt32} {k : Nat} (hk : k < 32) :
    x &&& mask k = y &&& mask k ↔ x.toNat / 2 ^ k = y.toNat / 2 ^ k := by
  have hbit : ∀ (w : UInt32) (i : Nat), w.toNat.testBit i = w.toBitVec.getLsbD i := fun _ _ => rfl
  constructor
  · intro h
    refine Nat.eq_of_testBit_eq (fun i => ?_)
    rw [Nat.testBit_div_two_pow, Nat.testBit_div_two_pow, hbit, hbit]
    by_cases hi : i + k < 32
    · have hand := congrArg (fun w : UInt32 => w.toBitVec.getLsbD (i + k)) h
      simpa [UInt32.toBitVec_and, getLsbD_mask hk hi] using hand
    · rw [BitVec.getLsbD_of_ge _ _ (by omega), BitVec.getLsbD_of_ge _ _ (by omega)]
  · intro h
    refine UInt32.eq_of_toBitVec_eq (BitVec.eq_of_getLsbD_eq (fun i hi => ?_))
    rw [UInt32.toBitVec_and, UInt32.toBitVec_and, BitVec.getLsbD_and, BitVec.getLsbD_and,
      getLsbD_mask hk hi]
    by_cases hki : k ≤ i
    · have hdiv := congrArg (fun n : Nat => n.testBit (i - k)) h
      simp only [Nat.testBit_div_two_pow, Nat.sub_add_cancel hki, hbit] at hdiv
      rw [hdiv]
    · simp [hki]

/-! ### Blocks -/

/-- Below `2 ^ 32` there is a number outside any block that is smaller. -/
theorem exists_div_two_pow_ne {k : Nat} (hk : k < 32) (q : Nat) : ∃ v < 2 ^ 32, v / 2 ^ k ≠ q := by
  by_cases hq : q = 0
  · have hpow : 2 ^ k ≤ 2 ^ 31 := Nat.pow_le_pow_right (by decide) (by omega)
    refine ⟨2 ^ 32 - 1, by decide, ?_⟩
    have hpos : 0 < (2 ^ 32 - 1) / 2 ^ k := Nat.div_pos (by omega) (Nat.two_pow_pos k)
    omega
  · refine ⟨0, by decide, ?_⟩
    rw [Nat.zero_div]
    exact Ne.symm hq

/-- **One block lies in another** exactly if it is no larger and starts in it. -/
theorem block_subset_iff {j k b q : Nat} (hj : j ≤ 32) (hb : b < 2 ^ 32) :
    (∀ v < 2 ^ 32, v / 2 ^ j = b / 2 ^ j → v / 2 ^ k = q) ↔ j ≤ k ∧ b / 2 ^ k = q := by
  constructor
  · intro h
    refine ⟨?_, h b hb rfl⟩
    by_contra hlt
    have hj0 := Nat.two_pow_pos j
    have hk0 := Nat.two_pow_pos k
    have hjk : 2 ^ k * 2 ≤ 2 ^ j := by
      rw [← Nat.pow_succ]
      exact Nat.pow_le_pow_right (by decide) (by omega)
    -- the first and the last number of the block
    have hfirst : b / 2 ^ j * 2 ^ j ≤ b := Nat.div_mul_le_self b (2 ^ j)
    have hlast : b / 2 ^ j * 2 ^ j + 2 ^ j ≤ 2 ^ 32 := by
      have hq : b / 2 ^ j < 2 ^ (32 - j) := by
        rw [Nat.div_lt_iff_lt_mul hj0, ← Nat.pow_add, Nat.sub_add_cancel hj]
        exact hb
      calc b / 2 ^ j * 2 ^ j + 2 ^ j = (b / 2 ^ j + 1) * 2 ^ j := (Nat.succ_mul _ _).symm
        _ ≤ 2 ^ (32 - j) * 2 ^ j := Nat.mul_le_mul_right _ hq
        _ = 2 ^ 32 := by rw [← Nat.pow_add, Nat.sub_add_cancel hj]
    have h1 := h (b / 2 ^ j * 2 ^ j) (by omega) (Nat.mul_div_cancel _ hj0)
    have h2 := h (b / 2 ^ j * 2 ^ j + (2 ^ j - 1)) (by omega) (by
      rw [Nat.add_comm, Nat.add_mul_div_right _ _ hj0, Nat.div_eq_of_lt (by omega), Nat.zero_add])
    have hstep : (b / 2 ^ j * 2 ^ j + 2 ^ k) / 2 ^ k = b / 2 ^ j * 2 ^ j / 2 ^ k + 1 :=
      Nat.add_div_right _ hk0
    have hmono : (b / 2 ^ j * 2 ^ j + 2 ^ k) / 2 ^ k
        ≤ (b / 2 ^ j * 2 ^ j + (2 ^ j - 1)) / 2 ^ k := Nat.div_le_div_right (by omega)
    omega
  · rintro ⟨hjk, rfl⟩ v - hv
    have hpow : 2 ^ k = 2 ^ j * 2 ^ (k - j) := by rw [← Nat.pow_add, Nat.add_sub_cancel' hjk]
    rw [hpow, ← Nat.div_div_eq_div_mul, hv, Nat.div_div_eq_div_mul]

/-! ### Dotted quads -/

/-- The byte at the given place in memory. -/
def octet (w : UInt32) (k : Nat) : Nat := w.toNat / 256 ^ k % 256

/-- `inet_ntop`. -/
def ntop (w : UInt32) : String :=
  toString (octet w 0) ++ "." ++ toString (octet w 1) ++ "." ++ toString (octet w 2) ++ "."
    ++ toString (octet w 3)

/-- One of the four numbers. -/
def octet? (cs : List Char) : Option Nat :=
  if cs ≠ [] ∧ cs.all Char.isDigit ∧ cs.length ≤ 3 ∧ (cs.head? = some '0' → cs.length = 1) then
    let n := cs.foldl (fun n c => 10 * n + (c.toNat - '0'.toNat)) 0
    if n < 256 then some n else none
  else none

/-- The number a dotted quad stands for. -/
def quad? (cs : List Char) : Option UInt32 :=
  match cs.splitOn '.' with
  | [a, b, c, d] => do
    let a ← octet? a
    let b ← octet? b
    let c ← octet? c
    let d ← octet? d
    return UInt32.ofNat (((a * 256 + b) * 256 + c) * 256 + d)
  | _ => none

theorem octet?_spec {cs : List Char} {n : Nat} (h : octet? cs = some n) :
    (∀ c ∈ cs, c.isDigit = true) ∧ cs.length ≤ 3 := by
  unfold octet? at h
  split at h
  · rename_i hcs
    obtain ⟨-, hdigits, hlen, -⟩ := hcs
    exact ⟨List.all_eq_true.mp hdigits, hlen⟩
  · exact absurd h (by simp)

/-- A dotted quad is four short digit texts with dots between them. -/
theorem quad?_spec {cs : List Char} {v : UInt32} (h : quad? cs = some v) :
    (∀ c ∈ cs, c.isDigit = true ∨ c = '.') ∧ cs.length ≤ 15 := by
  unfold quad? at h
  split at h
  · rename_i a b c d hsplit
    have hcs : ['.'].intercalate [a, b, c, d] = cs := by
      rw [← hsplit]
      exact List.intercalate_splitOn '.'
    simp only [Option.bind_eq_bind, Option.bind_eq_some_iff] at h
    obtain ⟨na, ha, nb, hb, nc, hc, nd, hd, -⟩ := h
    obtain ⟨ha, hla⟩ := octet?_spec ha
    obtain ⟨hb, hlb⟩ := octet?_spec hb
    obtain ⟨hc, hlc⟩ := octet?_spec hc
    obtain ⟨hd, hld⟩ := octet?_spec hd
    have hflat : cs = a ++ '.' :: (b ++ '.' :: (c ++ '.' :: d)) := by
      rw [← hcs]
      simp [List.intercalate, List.intersperse]
    constructor
    · intro x hx
      rw [hflat] at hx
      simp only [List.mem_append, List.mem_cons] at hx
      rcases hx with hx | hx | hx | hx | hx | hx | hx
      · exact Or.inl (ha x hx)
      · exact Or.inr hx
      · exact Or.inl (hb x hx)
      · exact Or.inr hx
      · exact Or.inl (hc x hx)
      · exact Or.inr hx
      · exact Or.inl (hd x hx)
    · rw [hflat]
      simp only [List.length_append, List.length_cons]
      omega
  · exact absurd h (by simp)

theorem slash_not_mem_of_quad? {cs : List Char} {v : UInt32} (h : quad? cs = some v) :
    '/' ∉ cs := by
  intro hmem
  rcases (quad?_spec h).1 '/' hmem with hd | hd
  · exact absurd hd (by decide)
  · exact absurd hd (by decide)

/-- `inet_pton`: the word, or nothing if the text is not a dotted quad. -/
def pton (cs : List Char) : Option UInt32 := (quad? cs).map htonl

end PrismFirewall.Lib.Inet
