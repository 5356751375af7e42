import PrismFirewall.Lib.Pattern

/-!
# Words of a text

`words` is `str.split()`.  What is looked for in a text and has no white space in it is found in
a word of the text; `findSome?_words` is the rule behind this, for anything that is found on
one side of a white space or on the other.

A word `key=value` is found by its key (`findSome?_keyValue`): a key that is not the end of
another key is not found in the other key's word.
-/

namespace PrismFirewall.Lib.Text

variable {α : Type*}

/-- The words of a text whose first word has begun with `word`. -/
def wordsFrom (word : List Char) : List Char → List (List Char)
  | [] => if word = [] then [] else [word]
  | c :: cs =>
    if isSpace c then (if word = [] then [] else [word]) ++ wordsFrom [] cs
    else wordsFrom (word ++ [c]) cs

/-- `text.split()`. -/
def words (cs : List Char) : List (List Char) := wordsFrom [] cs

/-- **What is found on one side of a white space or on the other** is found in a word. -/
theorem findSome?_words {f : List Char → Option α} (hnil : f [] = none)
    (happend : ∀ a c b, isSpace c = true → f (a ++ c :: b) = (f a).or (f b)) (cs : List Char) :
    f cs = (words cs).findSome? f := by
  have hword (word : List Char) : (if word = [] then [] else [word]).findSome? f = f word := by
    by_cases hw : word = []
    · rw [if_pos hw, hw, hnil]
      rfl
    · rw [if_neg hw, List.findSome?_singleton]
  suffices h : ∀ word, f (word ++ cs) = (wordsFrom word cs).findSome? f from h []
  induction cs with
  | nil => intro word; rw [List.append_nil, wordsFrom, hword]
  | cons c cs ih =>
    intro word
    rw [wordsFrom]
    by_cases hc : isSpace c = true
    · rw [if_pos hc, happend word c cs hc, List.findSome?_append, hword, ← ih []]
      rfl
    · rw [if_neg hc, ← ih, List.append_assoc]
      rfl

/-- A text without white space is in a text if and only if it is in a word. -/
theorem infix_iff_words {s cs : List Char} (hne : s ≠ []) (hs : ∀ c ∈ s, isSpace c = false) :
    s <:+: cs ↔ ∃ w ∈ words cs, s <:+: w := by
  classical
  have happend (a : List Char) (c : Char) (b : List Char) (hc : isSpace c = true) :
      s <:+: a ++ c :: b ↔ s <:+: a ∨ s <:+: b := by
    have hcs : c ∉ s := fun hmem => Bool.false_ne_true ((hs c hmem).symm.trans hc)
    constructor
    · rintro ⟨pre, suf, h⟩
      rw [List.append_assoc] at h
      rcases (word_in_parts hcs).mp h with ⟨m, rfl, -⟩ | ⟨m, -, rfl⟩
      · exact .inl ⟨pre, m, List.append_assoc ..⟩
      · exact .inr ⟨m, suf, List.append_assoc ..⟩
    · rintro (h | h)
      · exact h.trans (List.prefix_append a _).isInfix
      · exact h.trans ((List.suffix_cons c b).trans (List.suffix_append a _)).isInfix
  have hf (cs : List Char) :
      (if s <:+: cs then some () else none : Option Unit).isSome = true ↔ s <:+: cs := by
    by_cases h : s <:+: cs <;> simp [h]
  have h := findSome?_words (f := fun cs => if s <:+: cs then some () else none)
    (if_neg (fun h => hne (List.infix_nil.mp h))) ?_ cs
  · rw [← hf cs, h, List.findSome?_isSome_iff]
    exact exists_congr (fun w => and_congr_right' (hf w))
  · intro a c b hc
    by_cases ha : s <:+: a
    · rw [if_pos ((happend a c b hc).mpr (.inl ha)), if_pos ha]
      rfl
    · simp [happend a c b hc, ha]

/-- White space is no digit in any script. -/
theorem isDecimal_of_isSpace {c : Char} (h : isSpace c = true) : isDecimal c = false := by
  have hzeros : ∀ z ∈ decimalZeros, (0x21 ≤ z ∧ z + 10 ≤ 0x85) ∨ (0xa1 ≤ z ∧ z + 10 ≤ 0x1680) ∨
      (0x1681 ≤ z ∧ z + 10 ≤ 0x2000) ∨ 0x3001 ≤ z := by
    decide
  simp only [isSpace, Bool.or_eq_true, Bool.and_eq_true, decide_eq_true_eq, beq_iff_eq] at h
  have hnone : decimalZeros.find? (fun z => z ≤ c.toNat && c.toNat < z + 10) = none := by
    rw [List.find?_eq_none]
    intro z hz
    have := hzeros z hz
    simp only [Bool.and_eq_true, decide_eq_true_eq]
    omega
  rw [isDecimal, digitValue?, hnone]
  rfl

/-! ### Keys and values -/

/-- `key(p+)` at the start of a text. -/
def matchValue (key : List Char) (p : Char → Bool) (cs : List Char) : Option (List Char) :=
  (dropPrefix? key cs).bind (fun rest => (many1 p rest).map Prod.fst)

theorem search_append_of_local {m : List Char → Option α} (hnil : m [] = none)
    (hlocal : ∀ a c b, isSpace c = true → m (a ++ c :: b) = m a) (a : List Char) (c : Char)
    (b : List Char) (hc : isSpace c = true) :
    search m (a ++ c :: b) = (search m a).or (search m b) := by
  induction a with
  | nil =>
    have hstart : m (c :: b) = none := (hlocal [] c b hc).trans hnil
    rw [List.nil_append, search, search, hstart, hnil]
  | cons d a ih =>
    rw [List.cons_append, search, search, ih, ← List.cons_append, hlocal _ c b hc, Option.or_assoc]

theorem many1_append_of_local {p : Char → Bool} {c : Char} (hp : p c = false) (a b : List Char) :
    (many1 p (a ++ c :: b)).map Prod.fst = (many1 p a).map Prod.fst := by
  have htake : (a ++ c :: b).takeWhile p = a.takeWhile p := by
    induction a with
    | nil => exact List.takeWhile_cons_of_neg (by simp [hp])
    | cons d a ih => rw [List.cons_append, List.takeWhile_cons, List.takeWhile_cons, ih]
  rw [many1, many1, htake]
  by_cases h : a.takeWhile p = []
  · rw [if_pos h, if_pos h]
  · rw [if_neg h, if_neg h, Option.map_some, Option.map_some]

/-- A key without white space is found in a word of the text. -/
theorem search_matchValue_words {key : List Char} {p : Char → Bool} (hne : key ≠ [])
    (hkey : ∀ c ∈ key, isSpace c = false) (hp : ∀ c, isSpace c = true → p c = false)
    (cs : List Char) :
    search (matchValue key p) cs = (words cs).findSome? (search (matchValue key p)) := by
  have hnil : matchValue key p [] = none := by
    rw [matchValue, dropPrefix?.eq_def]
    cases key with
    | nil => exact absurd rfl hne
    | cons c key => rfl
  have hlocal (a : List Char) (c : Char) (b : List Char) (hc : isSpace c = true) :
      matchValue key p (a ++ c :: b) = matchValue key p a := by
    have hck : c ∉ key := fun hmem => Bool.false_ne_true ((hkey c hmem).symm.trans hc)
    rw [matchValue, matchValue, dropPrefix?_append_of_head (by rintro _ ⟨⟩; exact hck) hne]
    cases dropPrefix? key a with
    | none => rfl
    | some rest => exact many1_append_of_local (hp c hc) rest b
  exact findSome?_words (f := search (matchValue key p)) hnil
    (search_append_of_local hnil hlocal) cs

theorem search_of_start {m : List Char → Option α} {cs : List Char} {x : α} (h : m cs = some x) :
    search m cs = some x := by
  cases cs with
  | nil => exact h
  | cons c cs => rw [search, h, Option.some_or]

theorem search_eq_none {m : List Char → Option α} {cs : List Char}
    (h : ∀ suf, suf <:+ cs → m suf = none) : search m cs = none := by
  induction cs with
  | nil => exact h [] List.suffix_rfl
  | cons c cs ih =>
    rw [search, h _ List.suffix_rfl, Option.none_or]
    exact ih (fun suf hsuf => h suf (hsuf.trans (List.suffix_cons c cs)))

/-- A word `key=value`. -/
def keyValue (kv : List Char × List Char) : List Char := kv.1 ++ '=' :: kv.2

theorem search_keyValue_self {k v : List Char} {p : Char → Bool} (hv : v ≠ [])
    (hp : ∀ c ∈ v, p c = true) :
    search (matchValue (k ++ ['=']) p) (keyValue (k, v)) = some v := by
  refine search_of_start ?_
  have hdrop : dropPrefix? (k ++ ['=']) (k ++ '=' :: v) = some v :=
    dropPrefix?_eq_some_iff.mpr (by simp)
  have hmany := many1_append (b := []) hv hp (fun _ h => nomatch h)
  rw [List.append_nil] at hmany
  rw [matchValue, keyValue, hdrop, Option.bind_some, hmany]
  rfl

/-- A key with its `=` is in no text without one. -/
theorem search_matchValue_of_not_mem {k w : List Char} {p : Char → Bool} (hw : '=' ∉ w) :
    search (matchValue (k ++ ['=']) p) w = none := by
  refine search_eq_none (fun suf hsuf => ?_)
  cases hd : dropPrefix? (k ++ ['=']) suf with
  | none => rw [matchValue, hd]; rfl
  | some rest =>
    rw [dropPrefix?_eq_some_iff.mp hd] at hsuf
    exact absurd (hsuf.subset (by simp)) hw

/-- A key is not found in the word of another key that it is not the end of. -/
theorem search_keyValue_of_ne {k k' v : List Char} {p : Char → Bool} (hk' : '=' ∉ k')
    (hv : '=' ∉ v) (hne : ¬k <:+ k') :
    search (matchValue (k ++ ['=']) p) (keyValue (k', v)) = none := by
  refine search_eq_none (fun suf hsuf => ?_)
  cases hd : dropPrefix? (k ++ ['=']) suf with
  | none => rw [matchValue, hd]; rfl
  | some rest =>
    exfalso
    obtain ⟨pre, hpre⟩ := hsuf
    have hword : (pre ++ k) ++ '=' :: rest = k' ++ '=' :: v := by
      rw [dropPrefix?_eq_some_iff.mp hd] at hpre
      simpa [keyValue] using hpre
    rcases append_sep_eq_iff.mp hword with ⟨h, -⟩ | ⟨m, h, -⟩ | ⟨m, -, h⟩
    · exact hne ⟨pre, h⟩
    · exact hk' (by rw [h]; simp)
    · exact hv (by rw [h]; simp)

/-- **A key is looked up** in the words of a list of keys and values. -/
theorem findSome?_keyValue {k : List Char} {p : Char → Bool} {kvs : List (List Char × List Char)}
    (heq : ∀ kv ∈ kvs, '=' ∉ kv.1 ∧ '=' ∉ kv.2)
    (hself : ∀ kv ∈ kvs, kv.1 = k → kv.2 ≠ [] ∧ ∀ c ∈ kv.2, p c = true)
    (hne : ∀ kv ∈ kvs, kv.1 ≠ k → ¬k <:+ kv.1) :
    (kvs.map keyValue).findSome? (search (matchValue (k ++ ['=']) p)) = kvs.lookup k := by
  induction kvs with
  | nil => rfl
  | cons kv kvs ih =>
    obtain ⟨k', v⟩ := kv
    rw [List.forall_mem_cons] at heq hself hne
    rw [List.map_cons, List.findSome?_cons]
    by_cases hk : k' = k
    · subst hk
      obtain ⟨hv, hp⟩ := hself.1 rfl
      rw [search_keyValue_self hv hp, List.lookup_cons_self]
    · rw [search_keyValue_of_ne heq.1.1 heq.1.2 (hne.1 hk), ih heq.2 hself.2 hne.2,
        List.lookup_cons, beq_eq_false_iff_ne.mpr (Ne.symm hk)]

end PrismFirewall.Lib.Text
