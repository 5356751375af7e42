import Mathlib.Data.List.Infix
import PrismFirewall.Lib.Decimal

/-!
# Patterns in a text

The regular expressions a script reads the output of a program with are made of
literals and of runs of one class of characters (`many1`).  A run is as long as it can
be, and what follows it starts with another class, so there is nothing to go back to.

`search` is the first match in a text and `findAll` all of them; what no match begins in
is passed over (`findAll_append_of_none`).
-/

namespace PrismFirewall.Lib.Text

variable {α : Type*}

theorem dropPrefix?_eq_some_iff {p cs rest : List Char} :
    dropPrefix? p cs = some rest ↔ cs = p ++ rest := by
  induction p generalizing cs with
  | nil => simp [dropPrefix?]
  | cons c p ih =>
    cases cs with
    | nil => simp [dropPrefix?]
    | cons d cs =>
      rw [dropPrefix?]
      by_cases h : c = d
      · subst h
        rw [if_pos rfl, ih, List.cons_append, List.cons.injEq]
        simp
      · rw [if_neg h, List.cons_append, List.cons.injEq]
        simp [Ne.symm h]

theorem dropPrefix?_append (p cs : List Char) : dropPrefix? p (p ++ cs) = some cs :=
  dropPrefix?_eq_some_iff.mpr rfl

/-- A key is found in the first part of a text, or not at all, if the second part begins with
something that is not in it. -/
theorem dropPrefix?_append_of_head {p a b : List Char} (hb : ∀ c ∈ b.head?, c ∉ p) (hp : p ≠ []) :
    dropPrefix? p (a ++ b) = (dropPrefix? p a).map (· ++ b) := by
  induction p generalizing a with
  | nil => exact absurd rfl hp
  | cons c p ih =>
    cases a with
    | nil =>
      cases b with
      | nil => rfl
      | cons d b =>
        have hne : c ≠ d := fun e => hb d rfl (by rw [e]; exact List.mem_cons_self)
        have hnone : dropPrefix? (c :: p) (d :: b) = none := by rw [dropPrefix?, if_neg hne]
        rw [List.nil_append, hnone]
        rfl
    | cons d a =>
      rw [List.cons_append, dropPrefix?, dropPrefix?]
      by_cases hcd : c = d
      · rw [if_pos hcd, if_pos hcd]
        cases p with
        | nil => rfl
        | cons e p =>
          exact ih (fun x hx hmem => hb x hx (List.mem_cons_of_mem c hmem)) (List.cons_ne_nil e p)
      · rw [if_neg hcd, if_neg hcd]
        rfl

/-! ### The parts -/

/-- `p+`, as long as it goes, and what follows. -/
def many1 (p : Char → Bool) (cs : List Char) : Option (List Char × List Char) :=
  if cs.takeWhile p = [] then none else some (cs.takeWhile p, cs.dropWhile p)

/-- What follows `\s+`. -/
def skipSpaces (cs : List Char) : Option (List Char) := (many1 isSpace cs).map Prod.snd

/-- `\d`. -/
def isDecimal (c : Char) : Bool := (digitValue? c).isSome

/-- `int(…)` of a text of digits. -/
def natOfDigits (cs : List Char) : Nat := (readNat cs).getD 0

/-- `key\s+(p+)` at the start of a text, and what follows. -/
def matchField (key : List Char) (p : Char → Bool) (cs : List Char) :
    Option (List Char × List Char) := do
  many1 p (← skipSpaces (← dropPrefix? key cs))

/-- A run that ends where its class does. -/
theorem many1_append {p : Char → Bool} {a b : List Char} (ha : a ≠ []) (hp : ∀ c ∈ a, p c = true)
    (hb : ∀ c ∈ b.head?, p c = false) : many1 p (a ++ b) = some (a, b) := by
  have htake : b.takeWhile p = [] := by
    cases b with
    | nil => rfl
    | cons c b => rw [List.takeWhile_cons_of_neg (by simp [hb c rfl])]
  have hdrop : b.dropWhile p = b := by
    cases b with
    | nil => rfl
    | cons c b => rw [List.dropWhile_cons_of_neg (by simp [hb c rfl])]
  rw [many1, List.takeWhile_append_of_pos hp, List.dropWhile_append_of_pos hp, htake, hdrop,
    List.append_nil, if_neg ha]

theorem many1_eq_none {p : Char → Bool} {cs : List Char} (h : ∀ c ∈ cs.head?, p c = false) :
    many1 p cs = none := by
  cases cs with
  | nil => rfl
  | cons c cs => rw [many1, List.takeWhile_cons_of_neg (by simp [h c rfl]), if_pos rfl]

theorem skipSpaces_append {a b : List Char} (ha : a ≠ []) (hs : ∀ c ∈ a, isSpace c = true)
    (hb : ∀ c ∈ b.head?, isSpace c = false) : skipSpaces (a ++ b) = some b := by
  rw [skipSpaces, many1_append ha hs hb]
  rfl

/-- A key, one space and a run. -/
theorem matchField_append {key a b : List Char} {p : Char → Bool} (ha : a ≠ [])
    (hp : ∀ c ∈ a, p c = true) (hs : ∀ c ∈ a, isSpace c = false)
    (hb : ∀ c ∈ b.head?, p c = false) :
    matchField key p (key ++ ' ' :: (a ++ b)) = some (a, b) := by
  have hhead : ∀ c ∈ (a ++ b).head?, isSpace c = false := by
    cases a with
    | nil => exact absurd rfl ha
    | cons c a =>
      intro d hd
      rw [List.cons_append, List.head?_cons, Option.mem_some_iff] at hd
      exact hs d (by rw [← hd]; exact List.mem_cons_self)
  have hskip : skipSpaces (' ' :: (a ++ b)) = some (a ++ b) :=
    skipSpaces_append (List.cons_ne_nil ' ' []) (forall_mem_of_all rfl) hhead
  rw [matchField, dropPrefix?_append, Option.bind_eq_bind, Option.bind_some, hskip]
  exact many1_append ha hp hb

/-! ### Searching -/

/-- `re.search`: the first match. -/
def search (m : List Char → Option α) : List Char → Option α
  | [] => m []
  | c :: cs => (m (c :: cs)).or (search m cs)

/-- `re.findall`, for a pattern no match of which begins inside another. -/
def findAll (m : List Char → Option α) : List Char → List α
  | [] => (m []).toList
  | c :: cs => (m (c :: cs)).toList ++ findAll m cs

theorem search_eq_head? (m : List Char → Option α) (cs : List Char) :
    search m cs = (findAll m cs).head? := by
  induction cs with
  | nil => rw [search, findAll]; cases m [] <;> rfl
  | cons c cs ih =>
    rw [search, findAll, ih]
    cases m (c :: cs) <;> rfl

/-- What no match begins in is passed over. -/
theorem findAll_append_of_none {m : List Char → Option α} {a b : List Char}
    (h : ∀ suf ∈ a.tails, suf ≠ [] → m (suf ++ b) = none) :
    findAll m (a ++ b) = findAll m b := by
  induction a with
  | nil => rfl
  | cons c a ih =>
    have hc := h (c :: a) (by simp) (List.cons_ne_nil c a)
    rw [List.cons_append] at hc ⊢
    rw [findAll, hc, ih (fun suf hs hne => h suf (by simp [hs]) hne)]
    rfl

/-! ### Printed numbers -/

theorem isDecimal_of_isDigit {c : Char} (h : c.isDigit = true) : isDecimal c = true := by
  rw [isDecimal, digitValue?_of_isDigit h]
  rfl

theorem natOfDigits_toDigits (n : Nat) : natOfDigits (Nat.toDigits 10 n) = n := by
  rw [natOfDigits, readNat_toDigits]
  rfl

/-- A key, one space and a printed number. -/
theorem matchField_toDigits {key b : List Char} (n : Nat)
    (hb : ∀ c ∈ b.head?, isDecimal c = false) :
    matchField key isDecimal (key ++ ' ' :: (Nat.toDigits 10 n ++ b))
      = some (Nat.toDigits 10 n, b) :=
  matchField_append Nat.toDigits_ne_nil (fun c hc => isDecimal_of_isDigit (isDigit_toDigits c hc))
    (fun c hc => isSpace_of_isDigit (isDigit_toDigits c hc)) hb

/-! ### Words between separators -/

section

variable {β : Type*} {sep : β} {w a b : List β}

/-- A word without separators stands on one side of a separator or on the other. -/
theorem word_in_parts (hw : sep ∉ w) {pre suf : List β} :
    pre ++ (w ++ suf) = a ++ sep :: b ↔
      (∃ m, a = pre ++ (w ++ m) ∧ suf = m ++ sep :: b) ∨
        ∃ m, pre = a ++ sep :: m ∧ b = m ++ (w ++ suf) := by
  constructor
  · intro h
    rcases List.append_eq_append_iff.mp h with ⟨m, ha, hs⟩ | ⟨m, hp, hb⟩
    · rcases List.append_eq_append_iff.mp hs with ⟨k, hm, hsuf⟩ | ⟨k, hwk, hk⟩
      · exact Or.inl ⟨k, by rw [ha, hm], hsuf⟩
      · -- the word ends with the first part, or the separator is in it
        cases k with
        | nil =>
          rw [List.append_nil] at hwk
          exact Or.inl ⟨[], by rw [ha, hwk, List.append_nil], hk.symm⟩
        | cons c k =>
          rw [List.cons_append, List.cons.injEq] at hk
          exact absurd (by rw [hwk, hk.1]; simp) hw
    · cases m with
      | nil =>
        cases w with
        | nil => exact Or.inl ⟨[], by simp [hp], hb.symm⟩
        | cons c w =>
          rw [List.nil_append, List.cons_append, List.cons.injEq] at hb
          exact absurd (by rw [hb.1]; exact List.mem_cons_self) hw
      | cons c m =>
        rw [List.cons_append, List.cons.injEq] at hb
        exact Or.inr ⟨m, by rw [hp, hb.1], hb.2⟩
  · rintro (⟨m, rfl, rfl⟩ | ⟨m, rfl, rfl⟩)
    · simp
    · simp

theorem suffix_append_sep (hw : sep ∉ w) : w <:+ a ++ sep :: b ↔ w <:+ b := by
  constructor
  · rintro ⟨t, ht⟩
    rw [← List.append_nil w] at ht
    rcases (word_in_parts hw).mp ht with ⟨m, -, hm⟩ | ⟨m, -, hb⟩
    · simp at hm
    · exact ⟨m, by rw [hb, List.append_nil]⟩
  · rintro ⟨t, rfl⟩
    exact ⟨a ++ sep :: t, by simp⟩

end

end PrismFirewall.Lib.Text
