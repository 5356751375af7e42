import PrismFirewall.DocaFirewall.RestServer
import PrismFirewall.Lib.Json

/-!
# What a posted rule admits

A rule that is posted is to be refused when an address in it cannot be read, and to
match only addresses in the block that is written.  `FailsClosed` says so for one
request and one table.  What is written is what the body gives for `src_ip` and `dst_ip`
(`Json.given`); the server does not read the body so, and it does not read all of it: one
`recv` returns at most 4095 bytes of what was sent (`Posting.received`).

The server takes what stands behind the first `"src_ip"` and the next colon (`Stands`),
wherever that is in what it received of the body.  It compares addresses under a mask, which
is right, but only when the address is not zero: zero stands for any address in the
evaluation, and an address that cannot be read stays zero.

So a rule that is added matches a block, or everything (`addressPasses_parseAddress_iff`),
and `posted_rule_fails_closed_iff` says when what it matches is no more than what is written:
for a field whose text the server finds as it is given, when this writes a block and not one of
the address zero (`fieldIsClosed_iff_of_stands`).
-/

namespace PrismFirewall.DocaFirewall

open Lib Lib.CText Lib.Inet

/-! ### What is sent -/

def emptyLine : List Char := ['\r', '\n', '\r', '\n']

/-- A request as it is sent: a head, the first empty line, and a body. -/
structure Posting where
  head : List Char
  body : List Char
  first : strstr emptyLine (head ++ (emptyLine ++ body)) = some (emptyLine ++ body)

/-- `MAX_REQUEST_SIZE`. -/
def maxRequestSize : Nat := 4096

/-- What one `recv` returns of a request when so many bytes of it have arrived. -/
def Posting.received (p : Posting) (arrived : Nat) : List Char :=
  (p.head ++ (emptyLine ++ p.body)).take (min arrived (maxRequestSize - 1))

/-- What is given for a field. -/
def Posting.given (p : Posting) (name : String) : List (List Char) := Json.given name.toList p.body

/-- The text writes the block of an address and a length: a dotted quad alone, or one
with `/n`. -/
inductive Writes : List Char → UInt32 → Nat → Prop
  | host {quad : List Char} {a : UInt32} (h : quad? quad = some a) : Writes quad a 32
  | block {quad : List Char} {a : UInt32} {n : Nat} (h : quad? quad = some a) (hn : n ≤ 32) :
      Writes (quad ++ '/' :: Nat.toDigits 10 n) a n

/-- The address, as a word in memory, lies in the block. -/
def InBlock (a : UInt32) (n : Nat) (w : UInt32) : Prop :=
  (htonl w).toNat / 2 ^ (32 - n) = a.toNat / 2 ^ (32 - n)

/-- The rule is the one the request added. -/
def Added (s s' : Policy) (r : PolicyRule) : Prop :=
  s'.table.nrRules = s.table.nrRules + 1 ∧ cell s'.table.rules s.table.nrRules = r

/-- What the request does fails closed for one of the two address fields: a text that
writes no block adds no rule, and a rule that is added passes only addresses in the
block. -/
structure FieldFailsClosed (s s' : Policy) (given : List (List Char))
    (passes : PolicyRule → UInt32 → Bool) : Prop where
  refused : ∀ x ∈ given, (¬ ∃ a n, Writes x a n) → ¬ ∃ r, Added s s' r
  inBlock : ∀ r, Added s s' r → ∀ x ∈ given, ∀ a n, Writes x a n →
    ∀ w, passes r w = true → InBlock a n w

/-- A posted rule fails closed. -/
def FailsClosed (p : Posting) (m : FwMetrics) (ct : CtMetrics) (s : Policy) (r : Request) : Prop :=
  FieldFailsClosed s (handleRequest m ct s r).2 (p.given "src_ip") PolicyRule.srcIpPasses ∧
  FieldFailsClosed s (handleRequest m ct s r).2 (p.given "dst_ip") PolicyRule.dstIpPasses

/-! ### What is read -/

/-- The body that the server looks at. -/
def Request.ruleBody (r : Request) : List Char := cString (r.body.getD [])

/-- The request adds a rule: it is a `POST` to `/rules` with a body, and the table has room. -/
structure AddsTo (r : Request) (s : Policy) : Prop where
  bytes : r.bytes ≠ []
  post : r.is "POST" "/rules" = true
  body : r.ruleBody ≠ []
  room : s.table.nrRules < maxPolicyRules

def quotedName (name : String) : List Char := '"' :: name.toList ++ ['"']

/-- Behind the first `"name"` in the body and the next colon stands a text: it begins behind
blanks and quotation marks, and goes on to the next quotation mark. -/
def Stands (body : List Char) (name : String) (y : List Char) : Prop :=
  ∃ pre mid skipped rest,
    body = pre ++ (quotedName name ++ (mid ++ ':' :: (skipped ++ (y ++ rest)))) ∧
    (∀ pre' rest', body = pre' ++ (quotedName name ++ rest') → pre.length ≤ pre'.length) ∧
    ':' ∉ mid ∧ (∀ c ∈ skipped, c = ' ' ∨ c = '"') ∧
    y ≠ [] ∧ y.head? ≠ some ' ' ∧ '"' ∉ y ∧ (∀ c ∈ rest.head?, c = '"')

/-- The text is read as the block of an address and a positive length; `atoi` reads the
length. -/
inductive Reads : List Char → UInt32 → Nat → Prop
  | host {quad : List Char} {b : UInt32} (h : quad? quad = some b) : Reads quad b 32
  | block {quad rest : List Char} {b : UInt32} {m : Nat} (h : quad? quad = some b)
      (hm : atoi rest = m) (hpos : 0 < m) (hle : m ≤ 32) : Reads (quad ++ '/' :: rest) b m

/-- **The condition for one field.**  Each text that is given writes a block: the one of
length zero, or one in which the block lies that is read from the first 63 characters of
what stands behind the name, and this is not a block of the address zero. -/
def FieldIsClosed (given : List (List Char)) (body : List Char) (name : String) : Prop :=
  ∀ x ∈ given, ∃ a n, Writes x a n ∧ (n = 0 ∨
    ∃ y b m, Stands body name y ∧ Reads (y.take 63) b m ∧ b ≠ 0 ∧ n ≤ m ∧ InBlock a n (htonl b))

/-! ### Blocks -/

theorem inBlock_of_length_zero (a w : UInt32) : InBlock a 0 w := by
  have hw := (htonl w).toNat_lt
  have ha := a.toNat_lt
  rw [InBlock, Nat.div_eq_of_lt (by simpa using hw), Nat.div_eq_of_lt (by simpa using ha)]

/-- Every number below `2 ^ 32` is an address. -/
theorem exists_toNat_htonl {v : Nat} (hv : v < 2 ^ 32) : ∃ w, (htonl w).toNat = v := by
  refine ⟨htonl (UInt32.ofNat v), ?_⟩
  rw [htonl_htonl, UInt32.toNat_ofNat']
  exact Nat.mod_eq_of_lt hv

/-- A block leaves some address out, unless its length is zero. -/
theorem exists_not_inBlock (a : UInt32) {n : Nat} (h0 : n ≠ 0) (hn : n ≤ 32) :
    ∃ w, ¬ InBlock a n w := by
  obtain ⟨v, hv, hne⟩ := exists_div_two_pow_ne (k := 32 - n) (by omega) (a.toNat / 2 ^ (32 - n))
  obtain ⟨w, rfl⟩ := exists_toNat_htonl hv
  exact ⟨w, hne⟩

/-- A block lies in another one. -/
theorem inBlock_subset_iff {a b : UInt32} {n m : Nat} (hn : n ≤ 32) (hm : m ≤ 32) :
    (∀ w, InBlock b m w → InBlock a n w) ↔ n = 0 ∨ n ≤ m ∧ InBlock a n (htonl b) := by
  by_cases h0 : n = 0
  · subst h0
    exact iff_of_true (fun w _ => inBlock_of_length_zero a w) (Or.inl rfl)
  · have hsub := block_subset_iff (j := 32 - m) (k := 32 - n) (q := a.toNat / 2 ^ (32 - n))
      (by omega) b.toNat_lt
    have hle : 32 - m ≤ 32 - n ↔ n ≤ m := by omega
    rw [or_iff_right h0, InBlock, htonl_htonl, ← hle, ← hsub]
    constructor
    · intro h v hv hvb
      obtain ⟨w, rfl⟩ := exists_toNat_htonl hv
      exact h w hvb
    · intro h w hw
      exact h _ (htonl w).toNat_lt hw

/-! ### Texts -/

/-- A text is cut at its first slash in one way. -/
theorem append_slash_inj {l l' r r' : List Char} (hl : '/' ∉ l) (hl' : '/' ∉ l')
    (h : l ++ '/' :: r = l' ++ '/' :: r') : l = l' ∧ r = r' := by
  have htake := congrArg (List.takeWhile (fun c => decide (c ≠ '/'))) h
  rw [takeWhile_ne_append hl, takeWhile_ne_append hl'] at htake
  subst htake
  exact ⟨rfl, (List.cons.inj (List.append_cancel_left h)).2⟩

theorem Reads.unique {t : List Char} {b b' : UInt32} {m m' : Nat} (h : Reads t b m)
    (h' : Reads t b' m') : b = b' ∧ m = m' := by
  cases h with
  | host hq =>
    cases h' with
    | host hq' => exact ⟨Option.some.inj (hq.symm.trans hq'), rfl⟩
    | block hq' => exact absurd (by simp) (slash_not_mem_of_quad? hq)
  | block hq hm =>
    generalize ht : _ ++ '/' :: _ = t at h'
    cases h' with
    | host hq' => exact absurd (ht ▸ by simp) (slash_not_mem_of_quad? hq')
    | block hq' hm' =>
      obtain ⟨rfl, rfl⟩ := append_slash_inj (slash_not_mem_of_quad? hq)
        (slash_not_mem_of_quad? hq') ht
      exact ⟨Option.some.inj (hq.symm.trans hq'), by omega⟩

theorem Writes.length_le {x : List Char} {a : UInt32} {n : Nat} (h : Writes x a n) : n ≤ 32 := by
  cases h with
  | host h => exact Nat.le_refl 32
  | block h hn => exact hn

theorem Writes.unique {x : List Char} {a a' : UInt32} {n n' : Nat} (h : Writes x a n)
    (h' : Writes x a' n') : a = a' ∧ n = n' := by
  cases h with
  | host hq =>
    cases h' with
    | host hq' => exact ⟨Option.some.inj (hq.symm.trans hq'), rfl⟩
    | block hq' => exact absurd (by simp) (slash_not_mem_of_quad? hq)
  | block hq hn =>
    generalize ht : _ ++ '/' :: _ = t at h'
    cases h' with
    | host hq' => exact absurd (ht ▸ by simp) (slash_not_mem_of_quad? hq')
    | block hq' hn' =>
      obtain ⟨rfl, hdigits⟩ := append_slash_inj (slash_not_mem_of_quad? hq)
        (slash_not_mem_of_quad? hq') ht
      have hnat := congrArg (fun l => Nat.ofDigitChars 10 l 0) hdigits
      simp only [Nat.ofDigitChars_ten_toDigits] at hnat
      exact ⟨Option.some.inj (hq.symm.trans hq'), hnat⟩

/-! ### The check of an address -/

/-- The address check of the evaluation, for either address. -/
def addressPasses (ip ipMask w : UInt32) : Bool :=
  !(ip != 0 && w &&& ipMask != ip &&& ipMask)

/-- Zero lets everything pass. -/
theorem addressPasses_zero (ipMask w : UInt32) : addressPasses 0 ipMask w = true := by
  simp [addressPasses]

/-- No mask lets everything pass. -/
theorem addressPasses_mask_zero (ip w : UInt32) : addressPasses ip 0 w = true := by
  simp [addressPasses]

/-- Another address lets the words of its block pass. -/
theorem addressPasses_htonl {b : UInt32} (hb : b ≠ 0) {m : Nat} (hpos : 0 < m) (hm : m ≤ 32)
    (w : UInt32) : addressPasses (htonl b) (htonl (mask (32 - m))) w = true ↔ InBlock b m w := by
  have hzero : htonl b = 0 ↔ b = 0 := htonl_inj (y := 0)
  have hmask : w &&& htonl (mask (32 - m)) = htonl b &&& htonl (mask (32 - m)) ↔
      htonl w &&& mask (32 - m) = b &&& mask (32 - m) := by
    rw [← htonl_inj (x := htonl w &&& mask (32 - m)), htonl_and, htonl_and, htonl_htonl]
  rw [addressPasses, Bool.not_eq_true', Bool.and_eq_false_iff, bne_eq_false_iff_eq,
    bne_eq_false_iff_eq, hzero, or_iff_right hb, hmask, and_mask_eq_iff (by omega)]
  rfl

/-- The address and the mask of a text that is read. -/
theorem parseAddress_of_reads {t : List Char} {b : UInt32} {m : Nat} (h : Reads t b m) :
    0 < m ∧ m ≤ 32 ∧ parseAddress t = (htonl b, htonl (mask (32 - m))) := by
  cases h with
  | host hq =>
    refine ⟨by decide, Nat.le_refl 32, ?_⟩
    rw [parseAddress, strchr_of_not_mem (slash_not_mem_of_quad? hq)]
    dsimp only
    rw [pton, hq]
    rfl
  | block hq hm hpos hle =>
    have hslash := slash_not_mem_of_quad? hq
    refine ⟨hpos, hle, ?_⟩
    rw [parseAddress, strchr_append hslash]
    dsimp only
    rw [takeWhile_ne_append hslash, pton, hq, List.tail_cons, hm, maskOf,
      if_pos ⟨by omega, by omega⟩]
    rfl

/-- A text that is not read has the address zero, or no mask. -/
theorem parseAddress_of_not_reads {t : List Char} (h : ¬ ∃ b m, Reads t b m) :
    (parseAddress t).1 = 0 ∨ (parseAddress t).2 = 0 := by
  cases hslash : strchr '/' t with
  | none =>
    left
    rw [parseAddress, hslash]
    dsimp only
    cases hq : quad? t with
    | none => rw [pton, hq]; rfl
    | some b => exact absurd ⟨b, 32, .host hq⟩ h
  | some slash =>
    obtain ⟨l, r, rfl, hl, rfl⟩ := strchr_eq_some_iff.mp hslash
    rw [parseAddress, hslash]
    dsimp only
    rw [takeWhile_ne_append hl, List.tail_cons]
    cases hq : quad? l with
    | none => left; rw [pton, hq]; rfl
    | some b =>
      right
      rw [maskOf, if_neg]
      rintro ⟨hpos, hle⟩
      exact h ⟨b, (atoi r).toNat, .block hq (by omega) (by omega) (by omega)⟩

/-- **What the rule of a text lets pass**: the words of the block that is read, or
everything. -/
theorem addressPasses_parseAddress_iff (t : List Char) (w : UInt32) :
    addressPasses (parseAddress t).1 (parseAddress t).2 w = true ↔
      ∀ b m, Reads t b m → b ≠ 0 → InBlock b m w := by
  by_cases h : ∃ b m, Reads t b m
  · obtain ⟨b, m, h⟩ := h
    obtain ⟨hpos, hle, hparse⟩ := parseAddress_of_reads h
    rw [hparse]
    by_cases hb : b = 0
    · subst hb
      refine iff_of_true (addressPasses_zero _ w) (fun b' m' h' hb' => ?_)
      exact absurd (h.unique h').1.symm hb'
    · rw [addressPasses_htonl hb hpos hle]
      constructor
      · intro hw b' m' h' _
        obtain ⟨rfl, rfl⟩ := h.unique h'
        exact hw
      · intro hall
        exact hall b m h hb
  · refine iff_of_true ?_ (fun b m hr => absurd ⟨b, m, hr⟩ h)
    rcases parseAddress_of_not_reads h with hip | hmask
    · rw [hip]
      exact addressPasses_zero _ w
    · rw [hmask]
      exact addressPasses_mask_zero _ w

/-- What passes is in a block that is written exactly if the block that is read is. -/
theorem passes_subset_iff (t : List Char) (a : UInt32) {n : Nat} (hn : n ≤ 32) :
    (∀ w, addressPasses (parseAddress t).1 (parseAddress t).2 w = true → InBlock a n w) ↔
      n = 0 ∨ ∃ b m, Reads t b m ∧ b ≠ 0 ∧ n ≤ m ∧ InBlock a n (htonl b) := by
  simp only [addressPasses_parseAddress_iff]
  by_cases h : ∃ b m, Reads t b m ∧ b ≠ 0
  · obtain ⟨b, m, h, hb⟩ := h
    have hall : ∀ w, (∀ b m, Reads t b m → b ≠ 0 → InBlock b m w) ↔ InBlock b m w := by
      intro w
      constructor
      · intro hw
        exact hw b m h hb
      · intro hw b' m' h' _
        obtain ⟨rfl, rfl⟩ := h.unique h'
        exact hw
    simp only [hall, inBlock_subset_iff hn (parseAddress_of_reads h).2.1]
    refine or_congr_right ⟨fun hsub => ⟨b, m, h, hb, hsub⟩, ?_⟩
    rintro ⟨b', m', h', -, hsub⟩
    obtain ⟨rfl, rfl⟩ := h.unique h'
    exact hsub
  · have hnone : ∀ b m, Reads t b m → ¬ b ≠ 0 := fun b m hr hb => h ⟨b, m, hr, hb⟩
    constructor
    · intro hw
      left
      by_contra h0
      obtain ⟨w, hout⟩ := exists_not_inBlock a h0 hn
      exact hout (hw w (fun b m hr hb => absurd hb (hnone b m hr)))
    · rintro (rfl | ⟨b, m, hr, hb, -⟩)
      · exact fun w _ => inBlock_of_length_zero a w
      · exact absurd hb (hnone b m hr)

/-! ### Scanning the body -/

/-- Behind the first quoted name and the next colon. -/
theorem afterColon_eq_some_iff {body p : List Char} {name : String} (hname : ':' ∉ name.toList) :
    afterColon body name = some p ↔ ∃ pre mid,
      body = pre ++ (quotedName name ++ (mid ++ ':' :: p)) ∧
      (∀ pre' rest', body = pre' ++ (quotedName name ++ rest') → pre.length ≤ pre'.length) ∧
      ':' ∉ mid := by
  have hquoted : ':' ∉ quotedName name := by simpa [quotedName] using hname
  rw [afterColon, ← quotedName, Option.map_eq_some_iff]
  have hne : quotedName name ≠ [] := List.cons_ne_nil _ _
  simp only [Option.bind_eq_some_iff, strstr_eq_some_iff hne, strchr_eq_some_iff]
  constructor
  · rintro ⟨_, ⟨_, ⟨pre, rfl, ⟨s, rfl⟩, hfirst⟩, l, p', hcolon, hl, rfl⟩, rfl⟩
    have hfirst' : ∀ pre' rest', pre ++ (quotedName name ++ s) = pre' ++ (quotedName name ++ rest') →
        pre.length ≤ pre'.length := by
      intro pre' rest' h
      exact hfirst pre' _ h (List.prefix_append _ _)
    rcases List.append_eq_append_iff.mp hcolon with ⟨mid, rfl, rfl⟩ | ⟨c', hsplit, hrest⟩
    · rw [List.mem_append, not_or] at hl
      exact ⟨pre, mid, rfl, hfirst', hl.2⟩
    · -- the quoted name has no colon
      cases c' with
      | nil =>
        refine ⟨pre, [], ?_, hfirst', List.not_mem_nil⟩
        rw [List.nil_append, ← List.nil_append s, ← hrest]
        rfl
      | cons d c' =>
        rw [List.cons_append, List.cons.injEq] at hrest
        obtain ⟨rfl, -⟩ := hrest
        exact absurd (hsplit ▸ by simp) hquoted
  · rintro ⟨pre, mid, rfl, hfirst, hmid⟩
    refine ⟨':' :: p, ⟨_, ⟨pre, rfl, List.prefix_append _ _, ?_⟩, quotedName name ++ mid, p, ?_, ?_,
      rfl⟩, rfl⟩
    · rintro pre' rest' h ⟨s, rfl⟩
      exact hfirst pre' s h
    · rw [List.append_assoc]
    · rw [List.mem_append, not_or]
      exact ⟨hquoted, hmid⟩

/-- Behind blanks and quotation marks, up to the next quotation mark. -/
theorem scanUntil_skipQuotes_iff {p t : List Char} {width : Nat} (hw : 0 < width) :
    scanUntil width '"' (skipQuotes p) = some t ↔ ∃ skipped y rest,
      p = skipped ++ (y ++ rest) ∧ (∀ c ∈ skipped, c = ' ' ∨ c = '"') ∧ y ≠ [] ∧
      y.head? ≠ some ' ' ∧ '"' ∉ y ∧ (∀ c ∈ rest.head?, c = '"') ∧ t = y.take width := by
  have hscan : ∀ cs, scanUntil width '"' cs = some t ↔
      cs.takeWhile (fun x => decide (x ≠ '"')) ≠ [] ∧
        t = (cs.takeWhile (fun x => decide (x ≠ '"'))).take width := by
    intro cs
    rw [scanUntil]
    cases hy : cs.takeWhile (fun x => decide (x ≠ '"')) with
    | nil => simp
    | cons c y =>
      obtain ⟨k, rfl⟩ : ∃ k, width = k + 1 := ⟨width - 1, by omega⟩
      simp [eq_comm]
  rw [hscan, skipQuotes]
  constructor
  · rintro ⟨hne, rfl⟩
    set blank : Char → Bool := fun c => c == ' ' || c == '"'
    set cs := p.dropWhile blank with hcs
    refine ⟨p.takeWhile blank, _, cs.dropWhile (fun x => decide (x ≠ '"')), ?_, ?_, hne, ?_, ?_, ?_,
      rfl⟩
    · rw [List.takeWhile_append_dropWhile, List.takeWhile_append_dropWhile]
    · intro c hc
      simpa [blank] using List.mem_takeWhile_imp hc
    · intro hhead
      have hfirst := List.head?_dropWhile_not blank p
      rw [← hcs] at hfirst
      rw [List.head?_takeWhile] at hhead
      obtain ⟨hhead, -⟩ := Option.filter_eq_some_iff.mp hhead
      rw [hhead] at hfirst
      simp [blank] at hfirst
    · intro hmem
      simpa using List.mem_takeWhile_imp hmem
    · intro c hc
      have hfirst := List.head?_dropWhile_not (fun x => decide (x ≠ '"')) cs
      rw [Option.mem_def.mp hc] at hfirst
      simpa using hfirst
  · rintro ⟨skipped, y, rest, rfl, hskip, hne, hhead, hy, hrest, rfl⟩
    have hdrop : (skipped ++ (y ++ rest)).dropWhile (fun c => c == ' ' || c == '"') = y ++ rest := by
      rw [List.dropWhile_append_of_pos (fun c hc => by simpa using hskip c hc)]
      obtain ⟨c, y, rfl⟩ := List.exists_cons_of_ne_nil hne
      rw [List.head?_cons, ne_eq, Option.some.injEq] at hhead
      rw [List.mem_cons, not_or] at hy
      rw [List.cons_append, List.dropWhile_cons_of_neg (by simp [hhead, Ne.symm hy.1])]
    have htake : (y ++ rest).takeWhile (fun x => decide (x ≠ '"')) = y := by
      have hall : ∀ c ∈ y, decide (c ≠ '"') = true := by
        intro c hc
        rw [decide_eq_true_eq]
        rintro rfl
        exact hy hc
      rw [List.takeWhile_append_of_pos hall]
      cases rest with
      | nil => simp
      | cons c rest => simp [hrest c rfl]
    rw [hdrop, htake]
    exact ⟨hne, rfl⟩

/-- **Scanning a field** reads what stands behind its name. -/
theorem scanText_eq_some_iff {body t : List Char} {name : String} {width : Nat} (hw : 0 < width)
    (hname : ':' ∉ name.toList) :
    scanText body name width = some t ↔ ∃ y, Stands body name y ∧ t = y.take width := by
  rw [scanText, Option.bind_eq_some_iff]
  simp only [afterColon_eq_some_iff hname, scanUntil_skipQuotes_iff hw]
  constructor
  · rintro ⟨_, ⟨pre, mid, hbody, hfirst, hmid⟩, skipped, y, rest, rfl, hskip, hne, hhead, hy, hrest,
      rfl⟩
    exact ⟨y, ⟨pre, mid, skipped, rest, hbody, hfirst, hmid, hskip, hne, hhead, hy, hrest⟩, rfl⟩
  · rintro ⟨y, ⟨pre, mid, skipped, rest, hbody, hfirst, hmid, hskip, hne, hhead, hy, hrest⟩, rfl⟩
    exact ⟨_, ⟨pre, mid, hbody, hfirst, hmid⟩, skipped, y, rest, rfl, hskip, hne, hhead, hy, hrest,
      rfl⟩

/-! ### One field -/

/-- What is read of a field is what stands behind its name: without one nothing is read. -/
theorem reads_scanned_iff {body : List Char} {name : String} (hname : ':' ∉ name.toList)
    (b : UInt32) (m : Nat) :
    Reads ((scanText body name 63).getD "0.0.0.0/0".toList) b m ∧ b ≠ 0 ↔
      ∃ y, Stands body name y ∧ Reads (y.take 63) b m ∧ b ≠ 0 := by
  have hstands : ∀ {y}, Stands body name y → scanText body name 63 = some (y.take 63) :=
    fun hy => (scanText_eq_some_iff (by decide) hname).mpr ⟨_, hy, rfl⟩
  cases htext : scanText body name 63 with
  | none =>
    refine iff_of_false ?_ ?_
    · rintro ⟨hreads, hb⟩
      have hzero : (parseAddress "0.0.0.0/0".toList).1 = 0 := by decide +kernel
      rw [Option.getD_none] at hreads
      rw [(parseAddress_of_reads hreads).2.2] at hzero
      exact hb (htonl_inj (y := 0).mp hzero)
    · rintro ⟨y, hy, -⟩
      rw [hstands hy] at htext
      cases htext
  | some t =>
    obtain ⟨y, hy, rfl⟩ := (scanText_eq_some_iff (by decide) hname).mp htext
    constructor
    · intro h
      exact ⟨y, hy, h⟩
    · rintro ⟨y', hy', h⟩
      rw [hstands hy'] at htext
      rw [Option.getD_some, ← Option.some.inj htext]
      exact h

/-- What passes is in a block that is written exactly if the block that stands there is. -/
theorem scanned_subset_iff {body : List Char} {name : String} (hname : ':' ∉ name.toList)
    (a : UInt32) {n : Nat} (hn : n ≤ 32) :
    (∀ w, addressPasses (parseAddress ((scanText body name 63).getD "0.0.0.0/0".toList)).1
        (parseAddress ((scanText body name 63).getD "0.0.0.0/0".toList)).2 w = true →
      InBlock a n w) ↔
      n = 0 ∨ ∃ y b m, Stands body name y ∧ Reads (y.take 63) b m ∧ b ≠ 0 ∧ n ≤ m ∧
        InBlock a n (htonl b) := by
  rw [passes_subset_iff _ a hn]
  refine or_congr_right ?_
  constructor
  · rintro ⟨b, m, hreads, hb, hsub⟩
    obtain ⟨y, hy, hreads, -⟩ := (reads_scanned_iff hname b m).mp ⟨hreads, hb⟩
    exact ⟨y, b, m, hy, hreads, hb, hsub⟩
  · rintro ⟨y, b, m, hy, hreads, hb, hsub⟩
    obtain ⟨hreads, -⟩ := (reads_scanned_iff hname b m).mpr ⟨y, hy, hreads, hb⟩
    exact ⟨b, m, hreads, hb, hsub⟩

section Field

variable {s s' : Policy} {given : List (List Char)} {passes : PolicyRule → UInt32 → Bool}

theorem fieldFailsClosed_of_not_added (h : ¬ ∃ r, Added s s' r) :
    FieldFailsClosed s s' given passes :=
  ⟨fun _ _ _ => h, fun r hr => absurd ⟨r, hr⟩ h⟩

/-- **A field of a rule that is added** fails closed exactly if what is written is closed. -/
theorem fieldFailsClosed_iff {r : PolicyRule} {body : List Char} {name : String}
    (hname : ':' ∉ name.toList) (hadd : ∀ r', Added s s' r' ↔ r' = r)
    (hpasses : ∀ w, passes r w =
      addressPasses (parseAddress ((scanText body name 63).getD "0.0.0.0/0".toList)).1
        (parseAddress ((scanText body name 63).getD "0.0.0.0/0".toList)).2 w) :
    FieldFailsClosed s s' given passes ↔ FieldIsClosed given body name := by
  have hr : Added s s' r := (hadd r).mpr rfl
  have hsubset := fun a n hn => @scanned_subset_iff body name hname a n hn
  simp only [← hpasses] at hsubset
  constructor
  · intro h x hx
    by_cases hw : ∃ a n, Writes x a n
    · obtain ⟨a, n, hw⟩ := hw
      exact ⟨a, n, hw, (hsubset a n hw.length_le).mp (h.inBlock r hr x hx a n hw)⟩
    · exact absurd ⟨r, hr⟩ (h.refused x hx hw)
  · intro h
    refine ⟨fun x hx hno => ?_, fun r' hr' x hx a n hw => ?_⟩
    · obtain ⟨a, n, hw, -⟩ := h x hx
      exact absurd ⟨a, n, hw⟩ hno
    · obtain ⟨a', n', hw', hsub⟩ := h x hx
      obtain ⟨rfl, rfl⟩ := hw.unique hw'
      rw [(hadd r').mp hr']
      exact (hsubset a n hw.length_le).mpr hsub

end Field

/-- What writes a block of positive length is read as this block. -/
theorem Writes.reads {x : List Char} {a : UInt32} {n : Nat} (h : Writes x a n) (hpos : 0 < n) :
    Reads x a n := by
  cases h with
  | host hq => exact .host hq
  | block hq hn =>
    refine .block hq ?_ hpos hn
    rw [atoi_toDigits (by omega), Int32.toInt_ofInt_of_le (by omega) (by omega)]

/-- **An ordinary field**: what stands behind its name is what is given.  It is closed if it
writes a block, and not one of positive length of the address zero. -/
theorem fieldIsClosed_iff_of_stands {body y : List Char} {name : String}
    (hname : ':' ∉ name.toList) (hy : Stands body name y) (hlen : y.length ≤ 63) :
    FieldIsClosed [y] body name ↔ ∃ a n, Writes y a n ∧ (n = 0 ∨ a ≠ 0) := by
  have hwhole : y.take 63 = y := List.take_of_length_le hlen
  rw [FieldIsClosed, List.forall_mem_singleton]
  refine exists_congr fun a => exists_congr fun n => and_congr_right fun hw => ?_
  by_cases h0 : n = 0
  · exact iff_of_true (Or.inl h0) (Or.inl h0)
  rw [or_iff_right h0, or_iff_right h0]
  have hreads := hw.reads (Nat.pos_of_ne_zero h0)
  constructor
  · rintro ⟨y', b, m, hy', hreads', hb, -⟩
    have htext : scanText body name 63 = some (y'.take 63) :=
      (scanText_eq_some_iff (by decide) hname).mpr ⟨y', hy', rfl⟩
    rw [(scanText_eq_some_iff (by decide) hname).mpr ⟨y, hy, rfl⟩, hwhole] at htext
    rw [← Option.some.inj htext] at hreads'
    rw [(hreads.unique hreads').1]
    exact hb
  · intro ha
    refine ⟨y, a, n, hy, hwhole.symm ▸ hreads, ha, Nat.le_refl n, ?_⟩
    rw [InBlock, htonl_htonl]

/-! ### The request -/

theorem not_added_of_nrRules_le {s s' : Policy} {rule : PolicyRule}
    (h : s'.table.nrRules ≤ s.table.nrRules) : ¬ Added s s' rule := by
  intro hadd
  have hmore := hadd.1
  omega

theorem nrRules_policyRemoveRule_le (s : Policy) (ruleId : UInt32) :
    (policyRemoveRule s ruleId).2.table.nrRules ≤ s.table.nrRules := by
  unfold policyRemoveRule
  split
  · split
    · exact Nat.le_refl _
    · exact Nat.sub_le _ _
  · exact Nat.le_refl _

theorem added_policyAddRule_iff {s : Policy} {new rule : PolicyRule} :
    Added s (policyAddRule s new).2 rule ↔ s.table.nrRules < maxPolicyRules ∧
      rule = { new with id := s.nextRuleId, hitCount := 0 } := by
  by_cases hroom : s.table.nrRules < maxPolicyRules
  · rw [and_iff_right hroom, Added, policyAddRule, if_neg (by omega)]
    dsimp only
    rw [cell_set _ hroom, if_pos rfl, and_iff_right rfl, eq_comm]
  · rw [policyAddRule, if_pos (by omega)]
    exact iff_of_false (not_added_of_nrRules_le (Nat.le_refl _)) (fun h => hroom h.1)

/-- **Which rule a request adds**, if it adds one. -/
theorem added_handleRequest_iff (m : FwMetrics) (ct : CtMetrics) {s : Policy} {r : Request}
    (rule : PolicyRule) :
    Added s (handleRequest m ct s r).2 rule ↔ AddsTo r s ∧
      rule = { parseRuleJson r.proto r.ruleBody with id := s.nextRuleId, hitCount := 0 } := by
  rw [handleRequest_snd, Request.call]
  by_cases hbytes : r.bytes = []
  · rw [if_pos hbytes]
    exact iff_of_false (not_added_of_nrRules_le (Nat.le_refl _)) (fun h => h.1.bytes hbytes)
  rw [if_neg hbytes]
  by_cases hpost : r.is "POST" "/rules" = true
  · rw [if_pos hpost, ← Request.ruleBody]
    by_cases hbody : r.ruleBody = []
    · rw [if_pos hbody]
      exact iff_of_false (not_added_of_nrRules_le (Nat.le_refl _)) (fun h => h.1.body hbody)
    · rw [if_neg hbody, afterCall, policyStep, added_policyAddRule_iff]
      refine and_congr_left' ⟨fun hroom => ⟨hbytes, hpost, hbody, hroom⟩, AddsTo.room⟩
  · rw [if_neg hpost]
    refine iff_of_false (not_added_of_nrRules_le ?_) (fun h => hpost h.1.post)
    cases r.deleteId? with
    | none => exact Nat.le_refl _
    | some ruleId => exact nrRules_policyRemoveRule_le s ruleId

/-- **When a posted rule fails closed.**  For every request, however much of it has arrived,
and every table: a text that is given for `src_ip` or `dst_ip` and is no block keeps the rule
out, and a rule that is added passes only addresses in the blocks that are written, if and
only if the request adds no rule, or for both fields what is written is closed. -/
theorem posted_rule_fails_closed_iff (p : Posting) (arrived : Nat) (m : FwMetrics) (ct : CtMetrics)
    (s : Policy) (r : Request) :
    let r := { r with bytes := p.received arrived }
    FailsClosed p m ct s r ↔ (AddsTo r s →
      FieldIsClosed (p.given "src_ip") r.ruleBody "src_ip" ∧
        FieldIsClosed (p.given "dst_ip") r.ruleBody "dst_ip") := by
  intro r
  by_cases hadds : AddsTo r s
  · rw [forall_prop_of_true hadds]
    have hadd : ∀ rule, Added s (handleRequest m ct s r).2 rule ↔
        rule = { parseRuleJson r.proto r.ruleBody with id := s.nextRuleId, hitCount := 0 } := by
      intro rule
      rw [added_handleRequest_iff]
      exact and_iff_right hadds
    exact and_congr (fieldFailsClosed_iff (by decide) hadd (fun w => rfl))
      (fieldFailsClosed_iff (by decide) hadd (fun w => rfl))
  · have hnone : ¬ ∃ rule, Added s (handleRequest m ct s r).2 rule := by
      rintro ⟨rule, h⟩
      exact hadds ((added_handleRequest_iff m ct rule).mp h).1
    exact iff_of_true ⟨fieldFailsClosed_of_not_added hnone, fieldFailsClosed_of_not_added hnone⟩
      (fun h => absurd h hadds)

/-! ### Requests that fail open -/

/-- A `POST` with the body. -/
def posting (body : String)
    (h : strstr emptyLine ("POST /rules HTTP/1.1".toList ++ (emptyLine ++ body.toList))
      = some (emptyLine ++ body.toList)) : Posting :=
  ⟨"POST /rules HTTP/1.1".toList, body.toList, h⟩

/-- The last number of the address is too large. -/
def brokenAddress : Posting :=
  posting "\x7b\"src_ip\": \"10.0.0.300\", \"action\": \"ALLOW\"\x7d" (by decide +kernel)

/-- The block of the addresses that begin with zero. -/
def zeroBlock : Posting :=
  posting "\x7b\"src_ip\": \"0.0.0.0/8\", \"action\": \"ALLOW\"\x7d" (by decide +kernel)

/-- The name of the field stands further in front, as a value. -/
def misplacedName : Posting :=
  posting ("\x7b\"name\":\"src_ip\",\"id\":\"0.0.0.0/0\",\"src_ip\":\"10.0.0.0/8\"," ++
    "\"action\":\"ALLOW\"\x7d") (by decide +kernel)

/-- The address comes behind the action. -/
def addressBehind : Posting :=
  posting "\x7b\"action\": \"ALLOW\", \"src_ip\": \"10.0.0.0/8\"\x7d" (by decide +kernel)

/-- What one `recv` returns, before empty buffers. -/
def Posting.request (p : Posting) (arrived : Nat) : Request :=
  ⟨p.received arrived, [], [], 0, true⟩

/-- The table of `policy_init` after the request. -/
def Posting.outcome (p : Posting) (arrived : Nat) : Policy :=
  (handleRequest ⟨0, 0, 0⟩ ⟨0, 0, 0, 0, 0⟩ ⟨policyInit, 1⟩ (p.request arrived)).2

theorem not_failsClosed_of_outside {p : Posting} {arrived : Nat} (quad : String) {a : UInt32}
    {n : Nat} (hquad : quad? quad.toList = some a) (hn : n ≤ 32)
    (hgiven : quad.toList ++ '/' :: Nat.toDigits 10 n ∈ p.given "src_ip")
    (hadded : (p.outcome arrived).table.nrRules = 2)
    (hpasses : (cell (p.outcome arrived).table.rules 1).srcIpPasses 0xFFFFFFFF = true)
    (hout : ¬ InBlock a n 0xFFFFFFFF) :
    ¬ FailsClosed p ⟨0, 0, 0⟩ ⟨0, 0, 0, 0, 0⟩ ⟨policyInit, 1⟩ (p.request arrived) := by
  intro h
  have hnew : Added ⟨policyInit, 1⟩ (p.outcome arrived)
      (cell (p.outcome arrived).table.rules 1) := ⟨hadded, rfl⟩
  exact hout (h.1.inBlock _ hnew _ hgiven a n (.block hquad hn) _ hpasses)

/-- **A posted rule fails open**: an address that cannot be read becomes a rule for every
address, and so does the block `0.0.0.0/8`; a value `src_ip` in front of the field is taken
for its name; and what has not arrived is not looked at. -/
theorem posted_rule_fails_open :
    ¬ FailsClosed brokenAddress ⟨0, 0, 0⟩ ⟨0, 0, 0, 0, 0⟩ ⟨policyInit, 1⟩
      (brokenAddress.request 4095) ∧
    ¬ FailsClosed zeroBlock ⟨0, 0, 0⟩ ⟨0, 0, 0, 0, 0⟩ ⟨policyInit, 1⟩ (zeroBlock.request 4095) ∧
    ¬ FailsClosed misplacedName ⟨0, 0, 0⟩ ⟨0, 0, 0, 0, 0⟩ ⟨policyInit, 1⟩
      (misplacedName.request 4095) ∧
    ¬ FailsClosed addressBehind ⟨0, 0, 0⟩ ⟨0, 0, 0, 0, 0⟩ ⟨policyInit, 1⟩
      (addressBehind.request 44) := by
  refine ⟨fun h => ?_, ?_, ?_, ?_⟩
  · have hgiven : "10.0.0.300".toList ∈ brokenAddress.given "src_ip" := by decide +kernel
    have hno : ¬ ∃ a n, Writes "10.0.0.300".toList a n := by
      rintro ⟨a, n, hw⟩
      have hnone : quad? "10.0.0.300".toList = none := by decide +kernel
      generalize ht : "10.0.0.300".toList = t at hw hnone
      cases hw with
      | host hq => exact absurd (hq.symm.trans hnone) (by simp)
      | block hq hn =>
        have hslash : '/' ∉ "10.0.0.300".toList := by decide +kernel
        rw [ht] at hslash
        exact hslash (by simp)
    have hadded : (brokenAddress.outcome 4095).table.nrRules = 2 := by decide +kernel
    exact h.1.refused _ hgiven hno ⟨_, hadded, rfl⟩
  · exact not_failsClosed_of_outside "0.0.0.0" (a := 0) (n := 8) (by decide +kernel)
      (by decide) (by decide +kernel) (by decide +kernel) (by decide +kernel)
      (by unfold InBlock; decide +kernel)
  · exact not_failsClosed_of_outside "10.0.0.0" (a := 0x0A000000) (n := 8)
      (by decide +kernel) (by decide) (by decide +kernel) (by decide +kernel) (by decide +kernel)
      (by unfold InBlock; decide +kernel)
  · exact not_failsClosed_of_outside "10.0.0.0" (a := 0x0A000000) (n := 8)
      (by decide +kernel) (by decide) (by decide +kernel) (by decide +kernel) (by decide +kernel)
      (by unfold InBlock; decide +kernel)

end PrismFirewall.DocaFirewall
