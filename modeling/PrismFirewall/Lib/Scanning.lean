import PrismFirewall.Lib.CText
import PrismFirewall.Lib.Inet

/-!
# Scanning what was printed

The conversions of `scanf` and `atoi` read a printed number back as far as its width goes
(`scanNumber_toDigits`), and `inet_pton` reads back what `inet_ntop` prints
(`pton_ntop`).

A text is cut at its quotation marks into `first ++ quotedTail segs`.  A search for a name
between quotation marks finds the first segment that is the name (`strstr_quotedTail`):
it cannot start inside a segment, and it cannot end in another.
-/

namespace PrismFirewall.Lib.CText

/-! ### Numbers -/

theorem isDigit_not_isCSpace {c : Char} (h : c.isDigit = true) : isCSpace c = false := by
  obtain ⟨h0, h9⟩ := Char.isDigit_iff_toNat.mp h
  have hz : '0'.toNat = 0x30 := rfl
  have hn : '9'.toNat = 0x39 := rfl
  have hne : ∀ d : Char, d.toNat < 0x30 → (c == d) = false := by
    intro d hd
    rw [beq_eq_false_iff_ne]
    rintro rfl
    omega
  simp only [isCSpace, Bool.or_eq_false_iff]
  refine ⟨⟨⟨⟨⟨hne _ (by decide), hne _ (by decide)⟩, hne _ (by decide)⟩, hne _ (by decide)⟩,
    hne _ (by decide)⟩, hne _ (by decide)⟩

/-- The digits of a number are its first characters, and there is at least one. -/
theorem takeWhile_isDigit_append {n : Nat} {rest : List Char}
    (h : ∀ c ∈ rest.head?, c.isDigit = false) :
    (Nat.toDigits 10 n ++ rest).takeWhile Char.isDigit = Nat.toDigits 10 n := by
  rw [List.takeWhile_append_of_pos (fun c hc => Text.isDigit_toDigits c hc)]
  cases rest with
  | nil => simp
  | cons c rest => rw [List.takeWhile_cons_of_neg (by simp [h c rfl]), List.append_nil]

/-- A text that starts with a digit has no sign. -/
theorem scanNumber_eq {cs cs' ds : List Char} {d : Char} (hcs : cs.dropWhile isCSpace = cs')
    (hd : cs' = d :: ds) (hdigit : d.isDigit = true) :
    scanNumber cs = if cs'.takeWhile Char.isDigit = [] then none
      else some (false, Nat.ofDigitChars 10 (cs'.takeWhile Char.isDigit) 0) := by
  have hminus : d ≠ '-' := fun h => absurd (h ▸ hdigit) (by decide)
  have hplus : d ≠ '+' := fun h => absurd (h ▸ hdigit) (by decide)
  simp only [scanNumber, hcs, hd]
  simp [hminus, hplus, hdigit, Nat.ofDigitChars_eq_foldl]

/-- **A printed number is scanned**, behind blanks and up to what is no digit. -/
theorem scanNumber_toDigits (n : Nat) {blanks rest : List Char}
    (hblanks : ∀ c ∈ blanks, isCSpace c = true) (hrest : ∀ c ∈ rest.head?, c.isDigit = false) :
    scanNumber (blanks ++ (Nat.toDigits 10 n ++ rest)) = some (false, n) := by
  obtain ⟨d, ds, hd⟩ := List.exists_cons_of_ne_nil (Nat.toDigits_ne_nil (n := n) (b := 10))
  have hdigit : d.isDigit = true := Text.isDigit_toDigits d (hd ▸ List.mem_cons_self)
  have hspace : (blanks ++ (Nat.toDigits 10 n ++ rest)).dropWhile isCSpace
      = Nat.toDigits 10 n ++ rest := by
    rw [List.dropWhile_append_of_pos hblanks, hd, List.cons_append,
      List.dropWhile_cons_of_neg (by simp [isDigit_not_isCSpace hdigit])]
  rw [scanNumber_eq hspace (hd ▸ List.cons_append) hdigit, takeWhile_isDigit_append hrest,
    if_neg Nat.toDigits_ne_nil, Nat.ofDigitChars_ten_toDigits]

theorem strtoul_of_lt {n : Nat} (h : n < 2 ^ 64) : strtoul (false, n) = n := by
  rw [strtoul, if_neg (by dsimp only; omega), if_neg (by simp)]

theorem strtol_of_lt {n : Nat} (h : n < 2 ^ 63) : strtol (false, n) = n := by
  rw [strtol, if_neg (by simp)]
  dsimp only
  omega

section Digits

variable {n : Nat} {blanks rest : List Char} (hblanks : ∀ c ∈ blanks, isCSpace c = true)
variable (hrest : ∀ c ∈ rest.head?, c.isDigit = false)
include hblanks hrest

theorem scanHu_toDigits (x : UInt16) :
    scanHu (blanks ++ (Nat.toDigits 10 x.toNat ++ rest)) = some x := by
  have hx := x.toNat_lt
  rw [scanHu, scanNumber_toDigits _ hblanks hrest, Option.map_some, strtoul_of_lt (by omega),
    UInt16.ofNat_toNat]

theorem scanU_toDigits (x : UInt32) :
    scanU (blanks ++ (Nat.toDigits 10 x.toNat ++ rest)) = some x := by
  have hx := x.toNat_lt
  rw [scanU, scanNumber_toDigits _ hblanks hrest, Option.map_some, strtoul_of_lt (by omega),
    UInt32.ofNat_toNat]

/-- `%d` and `atoi` cut a number down to 32 bits. -/
theorem scanD_toDigits (hn : n < 2 ^ 63) :
    scanD (blanks ++ (Nat.toDigits 10 n ++ rest)) = some (Int32.ofInt n).toInt := by
  rw [scanD, scanNumber_toDigits _ hblanks hrest, Option.map_some, strtol_of_lt hn]

end Digits

theorem atoi_toDigits {n : Nat} (hn : n < 2 ^ 63) :
    atoi (Nat.toDigits 10 n) = (Int32.ofInt n).toInt := by
  have h : scanNumber ([] ++ (Nat.toDigits 10 n ++ [])) = some (false, n) :=
    scanNumber_toDigits n (by simp) (by simp)
  rw [List.append_nil, List.nil_append] at h
  rw [atoi, h]
  dsimp only
  rw [strtol_of_lt hn]

/-! ### Words -/

/-- `%ns` of `scanf`: a word, and what follows it. -/
def scanWord (width : Nat) (cs : List Char) : Option (List Char × List Char) :=
  let cs := cs.dropWhile isCSpace
  match (cs.takeWhile (fun c => !isCSpace c)).take width with
  | [] => none
  | word => some (word, cs.drop word.length)

/-- A word is scanned, behind blanks and up to a blank. -/
theorem scanWord_append {width : Nat} {blanks word rest : List Char}
    (hblanks : ∀ c ∈ blanks, isCSpace c = true) (hword : ∀ c ∈ word, isCSpace c = false)
    (hne : word ≠ []) (hwidth : word.length ≤ width)
    (hrest : ∀ c ∈ rest.head?, isCSpace c = true) :
    scanWord width (blanks ++ (word ++ rest)) = some (word, rest) := by
  obtain ⟨d, ds, rfl⟩ := List.exists_cons_of_ne_nil hne
  have hspace : (blanks ++ (d :: ds ++ rest)).dropWhile isCSpace = d :: ds ++ rest := by
    rw [List.dropWhile_append_of_pos hblanks, List.cons_append,
      List.dropWhile_cons_of_neg (by simp [hword d List.mem_cons_self])]
  have htake : (d :: ds ++ rest).takeWhile (fun c => !isCSpace c) = d :: ds := by
    rw [List.takeWhile_append_of_pos (fun c hc => by rw [hword c hc]; rfl)]
    cases rest with
    | nil => simp
    | cons c rest => rw [List.takeWhile_cons_of_neg (by simp [hrest c rfl]), List.append_nil]
  rw [scanWord, hspace, htake, List.take_of_length_le hwidth]
  dsimp only
  rw [List.drop_left]

/-! ### Where a search ends -/

/-- `strchr` finds the first place of the character. -/
theorem strchr_eq_some_iff {c : Char} {cs rest : List Char} :
    strchr c cs = some rest ↔ ∃ l r, cs = l ++ c :: r ∧ c ∉ l ∧ rest = c :: r := by
  constructor
  · intro h
    by_cases hmem : c ∈ cs
    · obtain ⟨l, r, rfl, hl⟩ := List.eq_append_cons_of_mem hmem
      rw [strchr_append hl, Option.some.injEq] at h
      exact ⟨l, r, rfl, hl, h.symm⟩
    · rw [strchr_of_not_mem hmem] at h
      cases h
  · rintro ⟨l, r, rfl, hl, rfl⟩
    exact strchr_append hl

/-- `strstr` finds the first place of the needle. -/
theorem strstr_eq_some_iff {needle cs rest : List Char} (hne : needle ≠ []) :
    strstr needle cs = some rest ↔ ∃ pre, cs = pre ++ rest ∧ needle <+: rest ∧
      ∀ pre' rest', cs = pre' ++ rest' → needle <+: rest' → pre.length ≤ pre'.length := by
  induction cs with
  | nil =>
    rw [strstr, if_neg hne]
    refine iff_of_false (by simp) ?_
    rintro ⟨pre, hcs, hneedle, -⟩
    obtain ⟨-, rfl⟩ := List.append_eq_nil_iff.mp hcs.symm
    exact hne (List.prefix_nil.mp hneedle)
  | cons c cs ih =>
    rw [strstr]
    by_cases hhere : needle.isPrefixOf (c :: cs) = true
    · rw [if_pos hhere, Option.some.injEq]
      rw [List.isPrefixOf_iff_prefix] at hhere
      constructor
      · rintro rfl
        exact ⟨[], rfl, hhere, fun _ _ _ _ => Nat.zero_le _⟩
      · rintro ⟨pre, hcs, -, hfirst⟩
        have hpre := List.length_eq_zero_iff.mp (Nat.le_zero.mp (hfirst [] (c :: cs) rfl hhere))
        rw [hcs, hpre]
        rfl
    · rw [if_neg hhere, ih]
      rw [List.isPrefixOf_iff_prefix] at hhere
      constructor
      · rintro ⟨pre, rfl, hneedle, hfirst⟩
        refine ⟨c :: pre, rfl, hneedle, fun pre' rest' hcs hrest => ?_⟩
        cases pre' with
        | nil => exact absurd (hcs ▸ hrest) hhere
        | cons d pre' =>
          rw [List.cons_append, List.cons.injEq] at hcs
          exact Nat.succ_le_succ (hfirst pre' rest' hcs.2 hrest)
      · rintro ⟨pre, hcs, hneedle, hfirst⟩
        cases pre with
        | nil => exact absurd (hcs ▸ hneedle) hhere
        | cons d pre =>
          rw [List.cons_append, List.cons.injEq] at hcs
          obtain ⟨rfl, rfl⟩ := hcs
          refine ⟨pre, rfl, hneedle, fun pre' rest' hcs' hrest => ?_⟩
          exact Nat.le_of_succ_le_succ (hfirst (c :: pre') rest' (by rw [hcs', List.cons_append])
            hrest)

/-! ### Names between quotation marks -/

/-- What follows the first quotation mark of a text, in segments without quotation marks. -/
def quotedTail (segs : List (List Char)) : List Char := segs.flatMap (fun seg => '"' :: seg)

theorem quotedTail_cons (seg : List Char) (segs : List (List Char)) :
    quotedTail (seg :: segs) = '"' :: (seg ++ quotedTail segs) := rfl

/-- A quoted name does not start before the first quotation mark. -/
theorem strstr_skip {seg name rest : List Char} (h : '"' ∉ seg) :
    strstr ('"' :: name) (seg ++ rest) = strstr ('"' :: name) rest := by
  induction seg with
  | nil => rfl
  | cons c seg ih =>
    rw [List.mem_cons, not_or] at h
    rw [List.cons_append, strstr, if_neg, ih h.2]
    simp [List.isPrefixOf, h.1]

/-- A quoted name that starts at a quotation mark is the whole segment behind it. -/
theorem eq_of_isPrefixOf {name seg : List Char} {segs : List (List Char)} (hname : '"' ∉ name)
    (hseg : '"' ∉ seg)
    (h : ('"' :: (name ++ ['"'])).isPrefixOf ('"' :: (seg ++ quotedTail segs)) = true) :
    seg = name := by
  rw [List.isPrefixOf_iff_prefix, List.cons_prefix_cons] at h
  obtain ⟨rest, hrest⟩ := h.2
  rw [List.append_assoc, List.singleton_append] at hrest
  cases segs with
  | nil =>
    -- there is no second quotation mark
    have hmem : '"' ∈ seg ++ quotedTail [] := hrest ▸ by simp
    simp [quotedTail, hseg] at hmem
  | cons b segs =>
    rw [quotedTail_cons] at hrest
    exact ((Text.append_sep_inj hname hseg).mp hrest).1.symm

/-- **A quoted name is found** where the first segment is the name. -/
theorem strstr_quotedTail {name : List Char} (hname : '"' ∉ name) (b : List Char)
    (post : List (List Char)) (pre : List (List Char))
    (hpre : ∀ seg ∈ pre, '"' ∉ seg ∧ seg ≠ name) :
    strstr ('"' :: (name ++ ['"'])) (quotedTail (pre ++ name :: b :: post))
      = some ('"' :: (name ++ '"' :: (b ++ quotedTail post))) := by
  induction pre with
  | nil =>
    rw [List.nil_append, quotedTail_cons, quotedTail_cons, strstr, if_pos]
    rw [List.isPrefixOf_iff_prefix, List.cons_prefix_cons]
    exact ⟨rfl, b ++ quotedTail post, by simp⟩
  | cons seg pre ih =>
    obtain ⟨hseg, hne⟩ := hpre seg List.mem_cons_self
    rw [List.cons_append, quotedTail_cons, strstr, if_neg, strstr_skip hseg]
    · exact ih (fun seg h => hpre seg (List.mem_cons_of_mem _ h))
    · intro h
      exact hne (eq_of_isPrefixOf hname hseg h)

end PrismFirewall.Lib.CText

namespace PrismFirewall.Lib.Inet

/-! ### Dotted quads -/

/-- A printed number other than zero does not begin with a zero. -/
theorem head?_toDigits {n : Nat} (hn : 0 < n) : (Nat.toDigits 10 n).head? ≠ some '0' := by
  induction n using Nat.strongRecOn with
  | ind n ih =>
    by_cases hlt : n < 10
    · rw [Nat.toDigits_of_lt_base hlt, List.head?_cons]
      intro h
      have hchar : n.digitChar = (0 : Nat).digitChar := Option.some.inj h
      have hzero := Text.digitChar_inj (by omega) (by decide) hchar
      omega
    · rw [Nat.toDigits_of_base_le (by decide) (by omega),
        List.head?_append_of_ne_nil _ Nat.toDigits_ne_nil]
      exact ih (n / 10) (by omega) (by omega)

theorem octet?_toDigits {n : Nat} (h : n < 256) : octet? (Nat.toDigits 10 n) = some n := by
  have hlen : (Nat.toDigits 10 n).length ≤ 3 :=
    (Nat.length_toDigits_le_iff (by decide) (by decide)).mpr (by omega)
  have hzero : (Nat.toDigits 10 n).head? = some '0' → (Nat.toDigits 10 n).length = 1 := by
    intro hhead
    rcases Nat.eq_zero_or_pos n with rfl | hpos
    · rfl
    · exact absurd hhead (head?_toDigits hpos)
  have hdigits : (Nat.toDigits 10 n).all Char.isDigit = true :=
    List.all_eq_true.mpr (fun c hc => Text.isDigit_toDigits c hc)
  have hvalue : (Nat.toDigits 10 n).foldl (fun n c => 10 * n + (c.toNat - '0'.toNat)) 0 = n :=
    Nat.ofDigitChars_ten_toDigits
  rw [octet?, if_pos ⟨Nat.toDigits_ne_nil, hdigits, hlen, hzero⟩, hvalue]
  exact if_pos h

theorem octet_lt (w : UInt32) (k : Nat) : octet w k < 256 := Nat.mod_lt _ (by decide)

theorem toList_ntop (w : UInt32) : (ntop w).toList
    = Nat.toDigits 10 (octet w 0) ++ '.' :: (Nat.toDigits 10 (octet w 1)
      ++ '.' :: (Nat.toDigits 10 (octet w 2) ++ '.' :: Nat.toDigits 10 (octet w 3))) := by
  simp [ntop, String.toList_append, Nat.toString_eq_repr, Nat.toList_repr]

theorem dot_not_mem_toDigits (n : Nat) : '.' ∉ Nat.toDigits 10 n := by
  intro h
  exact absurd (Text.isDigit_toDigits '.' h) (by decide)

theorem testBit_octet (w : UInt32) (k : Nat) {j : Nat} (hj : j < 8) :
    (octet w k).testBit j = w.toBitVec.getLsbD (8 * k + j) := by
  have hpow : 256 ^ k = 2 ^ (8 * k) := by rw [Nat.pow_mul]
  rw [octet, hpow, show (256 : Nat) = 2 ^ 8 from rfl, Nat.testBit_mod_two_pow,
    Nat.testBit_div_two_pow]
  simp only [hj, decide_true, Bool.true_and]
  rw [Nat.add_comm j]
  rfl

/-- The bytes of a word in the opposite order. -/
theorem htonl_eq (w : UInt32) : htonl w = UInt32.ofNat
    (((octet w 0 * 256 + octet w 1) * 256 + octet w 2) * 256 + octet w 3) := by
  refine UInt32.eq_of_toBitVec_eq (BitVec.eq_of_getLsbD_eq (fun i hi => ?_))
  have hsum : ((octet w 0 * 256 + octet w 1) * 256 + octet w 2) * 256 + octet w 3
      = 2 ^ 8 * (2 ^ 8 * (2 ^ 8 * octet w 0 + octet w 1) + octet w 2) + octet w 3 := by omega
  have hbit : (UInt32.ofNat (((octet w 0 * 256 + octet w 1) * 256 + octet w 2) * 256
      + octet w 3)).toBitVec.getLsbD i
        = (2 ^ 8 * (2 ^ 8 * (2 ^ 8 * octet w 0 + octet w 1) + octet w 2)
            + octet w 3).testBit i := by
    rw [UInt32.toBitVec_ofNat', BitVec.getLsbD_ofNat, hsum]
    simp [hi]
  rw [getLsbD_htonl w hi, hbit, Nat.testBit_two_pow_mul_add _ (octet_lt w 3),
    Nat.testBit_two_pow_mul_add _ (octet_lt w 2), Nat.testBit_two_pow_mul_add _ (octet_lt w 1)]
  have hxor : i ^^^ 24 = 8 * (3 - i / 8) + i % 8 := by
    interval_cases i <;> rfl
  rw [hxor]
  split
  · rw [testBit_octet w 3 (by omega)]
    congr 1
    omega
  · split
    · rw [testBit_octet w 2 (by omega)]
      congr 1
      omega
    · split
      · rw [testBit_octet w 1 (by omega)]
        congr 1
        omega
      · rw [testBit_octet w 0 (by omega)]
        congr 1
        omega

/-- **A printed address is read back.** -/
theorem pton_ntop (w : UInt32) : pton (ntop w).toList = some w := by
  have hsplit : (ntop w).toList.splitOn '.' = [Nat.toDigits 10 (octet w 0),
      Nat.toDigits 10 (octet w 1), Nat.toDigits 10 (octet w 2), Nat.toDigits 10 (octet w 3)] := by
    rw [toList_ntop, List.splitOn_append_cons_self_of_not_mem (dot_not_mem_toDigits _),
      List.splitOn_append_cons_self_of_not_mem (dot_not_mem_toDigits _),
      List.splitOn_append_cons_self_of_not_mem (dot_not_mem_toDigits _),
      List.splitOn_eq_singleton (dot_not_mem_toDigits _)]
  have hquad : quad? (ntop w).toList = some (htonl w) := by
    rw [quad?, hsplit, htonl_eq]
    simp only [octet?_toDigits (octet_lt w _)]
    rfl
  rw [pton, hquad, Option.map_some, htonl_htonl]

end PrismFirewall.Lib.Inet
