import Mathlib.Algebra.Group.Nat.Defs
import Mathlib.Algebra.Ring.Int.Defs
import Mathlib.Data.List.Basic
import Mathlib.Data.List.TakeWhile

/-!
# Scanning text in C

A C string is the list of its bytes, written as characters, up to the first zero
byte.  A pointer into it is what is left from there on, so `strstr` and `strchr` return
the rest of the text from the place they found.

The integer conversions are those of `strtol` and `strtoul` on 64 bits, which `atoi` and
`scanf` cut down to the width of their target.
-/

namespace PrismFirewall.Lib.CText

/-- The bytes before the first zero byte. -/
def cString (bytes : List Char) : List Char := bytes.takeWhile (fun c => decide (c ≠ '\x00'))

/-- `strstr`. -/
def strstr (needle : List Char) : List Char → Option (List Char)
  | [] => if needle = [] then some [] else none
  | c :: cs => if needle.isPrefixOf (c :: cs) then some (c :: cs) else strstr needle cs

/-- `strchr`, for a character other than the zero byte. -/
def strchr (c : Char) (cs : List Char) : Option (List Char) :=
  match cs.dropWhile (fun x => decide (x ≠ c)) with
  | [] => none
  | rest => some rest

/-- `isspace`, in the C locale. -/
def isCSpace (c : Char) : Bool :=
  c == ' ' || c == '\t' || c == '\n' || c == '\x0b' || c == '\x0c' || c == '\r'

/-- `%n[^c]` of `scanf`: at least one character, at most `width`. -/
def scanUntil (width : Nat) (c : Char) (cs : List Char) : Option (List Char) :=
  match (cs.takeWhile (fun x => decide (x ≠ c))).take width with
  | [] => none
  | text => some text

/-- The sign and the digits of a number at the start of a text, after white space. -/
def scanNumber (cs : List Char) : Option (Bool × Nat) :=
  let cs := cs.dropWhile isCSpace
  let signed := match cs with
    | '-' :: rest => (true, rest)
    | '+' :: rest => (false, rest)
    | cs => (false, cs)
  let digits := signed.2.takeWhile Char.isDigit
  if digits = [] then none
  else some (signed.1, digits.foldl (fun n c => 10 * n + (c.toNat - '0'.toNat)) 0)

/-- The value `strtol` gives to a number. -/
def strtol (number : Bool × Nat) : Int :=
  if number.1 then max (-(number.2 : Int)) (-2 ^ 63) else min (number.2 : Int) (2 ^ 63 - 1)

/-- The value `strtoul` gives to a number. -/
def strtoul (number : Bool × Nat) : Nat :=
  if number.2 ≥ 2 ^ 64 then 2 ^ 64 - 1
  else if number.1 then (2 ^ 64 - number.2) % 2 ^ 64 else number.2

/-- `atoi`. -/
def atoi (cs : List Char) : Int :=
  match scanNumber cs with
  | some number => (Int32.ofInt (strtol number)).toInt
  | none => 0

/-- `%hu`. -/
def scanHu (cs : List Char) : Option UInt16 :=
  (scanNumber cs).map (fun number => UInt16.ofNat (strtoul number))

/-- `%u`. -/
def scanU (cs : List Char) : Option UInt32 :=
  (scanNumber cs).map (fun number => UInt32.ofNat (strtoul number))

/-- `%d`. -/
def scanD (cs : List Char) : Option Int :=
  (scanNumber cs).map (fun number => (Int32.ofInt (strtol number)).toInt)

/-! ### Finding a character -/

theorem strchr_of_not_mem {c : Char} {cs : List Char} (h : c ∉ cs) : strchr c cs = none := by
  have hall : cs.dropWhile (fun x => decide (x ≠ c)) = [] := by
    rw [List.dropWhile_eq_nil_iff]
    intro x hx
    rw [decide_eq_true_eq]
    rintro rfl
    exact h hx
  rw [strchr, hall]

theorem takeWhile_ne_append {c : Char} {l r : List Char} (h : c ∉ l) :
    (l ++ c :: r).takeWhile (fun x => decide (x ≠ c)) = l := by
  induction l with
  | nil => simp
  | cons a l ih =>
    rw [List.mem_cons, not_or] at h
    rw [List.cons_append, List.takeWhile_cons_of_pos (by simpa using Ne.symm h.1), ih h.2]

theorem strchr_append {c : Char} {l r : List Char} (h : c ∉ l) :
    strchr c (l ++ c :: r) = some (c :: r) := by
  have hdrop : (l ++ c :: r).dropWhile (fun x => decide (x ≠ c)) = c :: r := by
    induction l with
    | nil => simp
    | cons a l ih =>
      rw [List.mem_cons, not_or] at h
      rw [List.cons_append, List.dropWhile_cons_of_pos (by simpa using Ne.symm h.1), ih h.2]
  rw [strchr, hdrop]

end PrismFirewall.Lib.CText
