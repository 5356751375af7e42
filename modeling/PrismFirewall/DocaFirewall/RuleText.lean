import PrismFirewall.DocaFirewall.PolicyJson
import PrismFirewall.DocaFirewall.RestParsing
import PrismFirewall.Lib.Scanning

/-!
# A rule that is printed and posted again

`GET /rules` prints a line for each rule, and `POST /rules` reads one.  The line has the
addresses without their masks, and the reader takes an address without a slash for a
single host.  `parseRuleJson_ruleLine` says what the reader makes of the line of any rule:
everything comes back but the masks, the number, the hits, and whether the rule is enabled.

So a table that is saved and restored has narrower blocks: `restored_passes_iff` says for
which rules the restored one passes the same addresses.
-/

namespace PrismFirewall.DocaFirewall

open Lib Lib.CText Lib.Inet

/-- What becomes of a rule that is printed and read. -/
def PolicyRule.restored (r : PolicyRule) : PolicyRule :=
  { r with
    id := 0
    srcIpMask := 0xFFFFFFFF
    dstIpMask := 0xFFFFFFFF
    enabled := true
    hitCount := 0 }

/-! ### The line, cut at its quotation marks -/

def actionText (r : PolicyRule) : List Char :=
  (if r.action = .ALLOW then "ALLOW" else "DENY").toList

/-- The segments of a line behind the first quotation mark. -/
def lineSegments (r : PolicyRule) (separator : String) : List (List Char) :=
  ["id".toList, ": ".toList ++ (Nat.toDigits 10 r.id.toNat ++ ", ".toList),
    "src_ip".toList, ": ".toList, (ntop r.srcIp).toList, ", ".toList,
    "dst_ip".toList, ": ".toList, (ntop r.dstIp).toList, ", ".toList,
    "src_port_min".toList, ": ".toList ++ (Nat.toDigits 10 r.srcPortMin.toNat ++ ", ".toList),
    "src_port_max".toList, ": ".toList ++ (Nat.toDigits 10 r.srcPortMax.toNat ++ ", ".toList),
    "dst_port_min".toList, ": ".toList ++ (Nat.toDigits 10 r.dstPortMin.toNat ++ ", ".toList),
    "dst_port_max".toList, ": ".toList ++ (Nat.toDigits 10 r.dstPortMax.toNat ++ ", ".toList),
    "protocol".toList, ": ".toList ++ (Nat.toDigits 10 r.protocol.toNat ++ ", ".toList),
    "action".toList, ": ".toList, actionText r, ", ".toList,
    "priority".toList, ": ".toList ++ (Nat.toDigits 10 r.priority.toNat ++ ", ".toList),
    "enabled".toList, ": ".toList ++ ((if r.enabled then "true" else "false").toList
      ++ ", ".toList),
    "hit_count".toList, ": ".toList ++ (Nat.toDigits 10 r.hitCount.toNat ++ (" \x7d".toList
      ++ (separator.toList ++ "\n".toList)))]

theorem toList_ruleLine (r : PolicyRule) (separator : String) :
    (ruleLine r separator).toList = "  \x7b ".toList ++ quotedTail (lineSegments r separator) := by
  simp [ruleLine, printf, ruleFormat, ruleValues, lineSegments, quotedTail, actionText]

/-! ### Finding a field -/

theorem afterColon_quotedTail {name : String} (hquote : '"' ∉ name.toList)
    (hcolon : ':' ∉ name.toList) {first : List Char} (hfirst : '"' ∉ first)
    {pre : List (List Char)} (hpre : ∀ seg ∈ pre, '"' ∉ seg ∧ seg ≠ name.toList) (b : List Char)
    (post : List (List Char)) :
    afterColon (first ++ quotedTail (pre ++ name.toList :: (':' :: b) :: post)) name
      = some (b ++ quotedTail post) := by
  have hfree : ':' ∉ '"' :: (name.toList ++ ['"']) := by
    simp [hcolon]
  have htext : '"' :: (name.toList ++ '"' :: (':' :: b ++ quotedTail post))
      = ('"' :: (name.toList ++ ['"'])) ++ ':' :: (b ++ quotedTail post) := by
    simp
  rw [afterColon, List.cons_append, strstr_skip hfirst,
    strstr_quotedTail hquote (':' :: b) post pre hpre, Option.bind_some, htext,
    strchr_append hfree, Option.map_some, List.tail_cons]

theorem quote_not_mem_toDigits (n : Nat) : '"' ∉ Nat.toDigits 10 n := by
  intro h
  exact absurd (Text.isDigit_toDigits '"' h) (by decide)

theorem quote_not_mem_ntop (w : UInt32) : '"' ∉ (ntop w).toList := by
  simp [toList_ntop, quote_not_mem_toDigits]

/-- An address has dots in it, a name has none. -/
theorem ntop_ne {name : List Char} (hname : '.' ∉ name) (w : UInt32) : (ntop w).toList ≠ name := by
  rintro rfl
  rw [toList_ntop] at hname
  simp at hname

/-- **The field of a name** that stands in the line before the separator. -/
theorem afterColon_ruleLine (r : PolicyRule) (separator : String) (name : String)
    (pre post : List (List Char)) (b : List Char)
    (hsegs : lineSegments r separator = pre ++ name.toList :: (':' :: b) :: post)
    (hname : name.toList.all (fun c => c.isAlpha || c == '_') = true)
    (hpre : ∀ seg ∈ pre, '"' ∉ seg ∧ seg ≠ name.toList) :
    afterColon (ruleLine r separator).toList name = some (b ++ quotedTail post) := by
  have hfree : ∀ c : Char, (c.isAlpha || c == '_') = false → c ∉ name.toList := by
    intro c hc hmem
    rw [List.all_eq_true.mp hname c hmem] at hc
    exact absurd hc (by decide)
  rw [toList_ruleLine, hsegs]
  exact afterColon_quotedTail (hfree _ (by decide)) (hfree _ (by decide)) (by decide) hpre b post

section Fields

variable (r : PolicyRule) (separator : String)

/-- The segments before a place of the line hold no quotation mark, and none is the name. -/
def FreeBefore (k : Nat) (name : String) : Prop :=
  ∀ seg ∈ (lineSegments r separator).take k, '"' ∉ seg ∧ seg ≠ name.toList

theorem freeBefore_addresses : FreeBefore r separator 2 "src_ip" ∧
    FreeBefore r separator 6 "dst_ip" := by
  simp [FreeBefore, lineSegments, quote_not_mem_toDigits, quote_not_mem_ntop, ntop_ne]

theorem freeBefore_ports : FreeBefore r separator 10 "src_port_min" ∧
    FreeBefore r separator 12 "src_port_max" ∧ FreeBefore r separator 14 "dst_port_min" ∧
    FreeBefore r separator 16 "dst_port_max" := by
  simp [FreeBefore, lineSegments, quote_not_mem_toDigits, quote_not_mem_ntop, ntop_ne]

theorem actionText_spec : '"' ∉ actionText r ∧ actionText r ≠ "priority".toList := by
  rw [actionText]
  split
  · decide
  · decide

theorem freeBefore_rest : FreeBefore r separator 18 "protocol" ∧
    FreeBefore r separator 20 "action" ∧ FreeBefore r separator 24 "priority" := by
  have haction := actionText_spec r
  simp at haction
  simp [FreeBefore, lineSegments, quote_not_mem_toDigits, quote_not_mem_ntop, ntop_ne, haction]

/-- A number in the line is what is scanned behind its name. -/
theorem afterColon_number {k n : Nat} {name : String} (hname : name.toList.all
    (fun c => c.isAlpha || c == '_') = true) (hfree : FreeBefore r separator k name)
    (hsegs : (lineSegments r separator).drop k = name.toList
      :: (':' :: (" ".toList ++ (Nat.toDigits 10 n ++ ", ".toList)))
      :: (lineSegments r separator).drop (k + 2)) :
    ∃ rest, afterColon (ruleLine r separator).toList name
        = some (" ".toList ++ (Nat.toDigits 10 n ++ rest)) ∧
      ∀ c ∈ rest.head?, c.isDigit = false := by
  have hsplit : lineSegments r separator = (lineSegments r separator).take k ++ name.toList
      :: (':' :: (" ".toList ++ (Nat.toDigits 10 n ++ ", ".toList)))
      :: (lineSegments r separator).drop (k + 2) := by
    rw [← hsegs, List.take_append_drop]
  refine ⟨", ".toList ++ quotedTail ((lineSegments r separator).drop (k + 2)), ?_, ?_⟩
  · rw [afterColon_ruleLine r separator name _ _ _ hsplit hname hfree]
    simp
  · simp

/-- An address in the line is the text that is scanned behind its name. -/
theorem scanText_segment {k width : Nat} {name : String} {text : List Char}
    (hname : name.toList.all (fun c => c.isAlpha || c == '_') = true)
    (hfree : FreeBefore r separator k name)
    (hsegs : (lineSegments r separator).drop k = name.toList :: ": ".toList :: text
      :: (lineSegments r separator).drop (k + 3))
    (htext : '"' ∉ text) (hblank : ' ' ∉ text) (hne : text ≠ []) (hwidth : text.length ≤ width)
    (hmore : (lineSegments r separator).drop (k + 3) ≠ []) :
    scanText (ruleLine r separator).toList name width = some text := by
  have hsplit : lineSegments r separator = (lineSegments r separator).take k ++ name.toList
      :: (':' :: " ".toList) :: (text :: (lineSegments r separator).drop (k + 3)) := by
    conv_lhs => rw [← List.take_append_drop k (lineSegments r separator), hsegs]
    rfl
  obtain ⟨seg, segs, hmore⟩ := List.exists_cons_of_ne_nil hmore
  obtain ⟨c, cs, rfl⟩ := List.exists_cons_of_ne_nil hne
  rw [List.mem_cons, not_or] at htext hblank
  have hskip : skipQuotes (" ".toList ++ quotedTail ((c :: cs) :: seg :: segs))
      = (c :: cs) ++ '"' :: (seg ++ quotedTail segs) := by
    rw [quotedTail_cons, quotedTail_cons]
    have hstart : " ".toList ++ '"' :: (c :: cs ++ '"' :: (seg ++ quotedTail segs))
        = [' ', '"'] ++ (c :: cs ++ '"' :: (seg ++ quotedTail segs)) := rfl
    rw [hstart, skipQuotes, List.dropWhile_append_of_pos (by simp), List.cons_append,
      List.dropWhile_cons_of_neg (by simp [Ne.symm htext.1, Ne.symm hblank.1])]
  have hquote : '"' ∉ c :: cs := by
    rw [List.mem_cons, not_or]
    exact htext
  rw [scanText, afterColon_ruleLine r separator name _ _ _ hsplit hname hfree, Option.bind_some,
    hmore, hskip, scanUntil, takeWhile_ne_append hquote, List.take_of_length_le hwidth]

/-! ### The whole rule -/

theorem length_ntop_le (w : UInt32) : (ntop w).toList.length ≤ 15 := by
  obtain ⟨v, hv, -⟩ := Option.map_eq_some_iff.mp (pton_ntop w)
  exact (quad?_spec hv).2

theorem parseAddress_ntop (w : UInt32) : parseAddress (ntop w).toList = (w, 0xFFFFFFFF) := by
  obtain ⟨v, hv, -⟩ := Option.map_eq_some_iff.mp (pton_ntop w)
  rw [parseAddress, strchr_of_not_mem (slash_not_mem_of_quad? hv)]
  dsimp only
  rw [pton_ntop]
  rfl

theorem blank_not_mem_ntop (w : UInt32) : ' ' ∉ (ntop w).toList := by
  intro h
  obtain ⟨v, hv, -⟩ := Option.map_eq_some_iff.mp (pton_ntop w)
  rcases (quad?_spec hv).1 ' ' h with hdigit | hdot
  · exact absurd hdigit (by decide)
  · exact absurd hdot (by decide)

theorem scanText_ruleLine :
    scanText (ruleLine r separator).toList "src_ip" 63 = some (ntop r.srcIp).toList ∧
    scanText (ruleLine r separator).toList "dst_ip" 63 = some (ntop r.dstIp).toList ∧
    scanText (ruleLine r separator).toList "action" 15 = some (actionText r) := by
  have hlong : ∀ w, (ntop w).toList.length ≤ 63 := fun w => (length_ntop_le w).trans (by decide)
  have hne : ∀ w, (ntop w).toList ≠ [] := ntop_ne (by simp)
  obtain ⟨hsrc, hdst⟩ := freeBefore_addresses r separator
  refine ⟨?_, ?_, ?_⟩
  · exact scanText_segment r separator (by decide) hsrc rfl (quote_not_mem_ntop _)
      (blank_not_mem_ntop _) (hne _) (hlong _) (by simp [lineSegments])
  · exact scanText_segment r separator (by decide) hdst rfl (quote_not_mem_ntop _)
      (blank_not_mem_ntop _) (hne _) (hlong _) (by simp [lineSegments])
  · have haction : ' ' ∉ actionText r ∧ actionText r ≠ [] ∧ (actionText r).length ≤ 15 := by
      rw [actionText]
      split
      · decide
      · decide
    exact scanText_segment r separator (by decide) (freeBefore_rest r separator).2.1 rfl
      (actionText_spec r).1 haction.1 haction.2.1 haction.2.2 (by simp [lineSegments])

/-- **What the reader makes of a printed rule.**  For every rule, wherever its line stands in
the list, everything comes back but the masks, the number, the hits, and whether the rule is
enabled. -/
theorem parseRuleJson_ruleLine (proto : Int) :
    parseRuleJson proto (ruleLine r separator).toList = r.restored := by
  obtain ⟨hsrc, hdst, haction⟩ := scanText_ruleLine r separator
  obtain ⟨hsmin, hsmax, hdmin, hdmax⟩ := freeBefore_ports r separator
  obtain ⟨hproto, -, hprio⟩ := freeBefore_rest r separator
  have hblanks : ∀ c ∈ " ".toList, isCSpace c = true := by simp [isCSpace]
  obtain ⟨rest1, h1, hr1⟩ := afterColon_number r separator (n := r.srcPortMin.toNat) (by decide)
    hsmin rfl
  obtain ⟨rest2, h2, hr2⟩ := afterColon_number r separator (n := r.srcPortMax.toNat) (by decide)
    hsmax rfl
  obtain ⟨rest3, h3, hr3⟩ := afterColon_number r separator (n := r.dstPortMin.toNat) (by decide)
    hdmin rfl
  obtain ⟨rest4, h4, hr4⟩ := afterColon_number r separator (n := r.dstPortMax.toNat) (by decide)
    hdmax rfl
  obtain ⟨rest5, h5, hr5⟩ := afterColon_number r separator (n := r.protocol.toNat) (by decide)
    hproto rfl
  obtain ⟨rest6, h6, hr6⟩ := afterColon_number r separator (n := r.priority.toNat) (by decide)
    hprio rfl
  have hactionEq : (if caseEq (actionText r) "ALLOW".toList || caseEq (actionText r) "allow".toList
      then PolicyAction.ALLOW else .DENY) = r.action := by
    rw [actionText]
    cases r.action with
    | ALLOW => decide
    | DENY => decide
  have hproto8 := r.protocol.toNat_lt
  have hprotoEq : UInt8.ofInt (Int32.ofInt (r.protocol.toNat : Int)).toInt = r.protocol := by
    rw [Int32.toInt_ofInt_of_le (by omega) (by omega), UInt8.ofInt]
    have hmod : ((r.protocol.toNat : Int) % 2 ^ 8).toNat = r.protocol.toNat := by omega
    rw [hmod, UInt8.ofNat_toNat]
  unfold parseRuleJson
  rw [hsrc, hdst, haction, h1, h2, h3, h4, h5, h6]
  simp only [Option.getD_some, Option.bind_some, parseAddress_ntop, hactionEq]
  rw [scanHu_toDigits hblanks hr1, scanHu_toDigits hblanks hr2, scanHu_toDigits hblanks hr3,
    scanHu_toDigits hblanks hr4, scanU_toDigits hblanks hr6, scanD_toDigits hblanks hr5 (by omega)]
  simp only [Option.getD_some, hprotoEq]
  rfl

end Fields

/-! ### Saving and restoring a table -/

theorem and_allOnes (w : UInt32) : w &&& 0xFFFFFFFF = w := by
  rw [← UInt32.neg_one_eq]
  exact UInt32.and_neg_one

theorem addressPasses_iff_and {ip ipMask w : UInt32} :
    addressPasses ip ipMask w = true ↔ ip = 0 ∨ w &&& ipMask = ip &&& ipMask := by
  simp only [addressPasses, Bool.not_eq_true', Bool.and_eq_false_iff, bne_eq_false_iff_eq]

/-- The bits that a mask leaves out can be changed. -/
theorem xor_not_and (ip ipMask : UInt32) : (ip ^^^ ~~~ipMask) &&& ipMask = ip &&& ipMask := by
  refine UInt32.eq_of_toBitVec_eq (BitVec.eq_of_getLsbD_eq (fun i hi => ?_))
  simp only [UInt32.toBitVec_and, UInt32.toBitVec_xor, UInt32.toBitVec_not, BitVec.getLsbD_and,
    BitVec.getLsbD_xor, BitVec.getLsbD_not, hi, decide_true, Bool.true_and]
  cases ipMask.toBitVec.getLsbD i with
  | false => rw [Bool.and_false, Bool.and_false]
  | true => simp

/-- **When a single host passes what a block passes**: for the address zero, which is any
address, and where the block is a single host. -/
theorem addressPasses_host_iff (ip ipMask : UInt32) :
    (∀ w, addressPasses ip 0xFFFFFFFF w = addressPasses ip ipMask w) ↔
      ip = 0 ∨ ipMask = 0xFFFFFFFF := by
  constructor
  · intro h
    by_contra hne
    rw [not_or] at hne
    -- the address with all the bits changed that the mask leaves out
    have hw : addressPasses ip ipMask (ip ^^^ ~~~ipMask) = true :=
      addressPasses_iff_and.mpr (Or.inr (xor_not_and ip ipMask))
    rw [← h, addressPasses_iff_and, and_allOnes, and_allOnes] at hw
    have hxor := (UInt32.xor_right_inj ip (b := 0)).mp
      ((hw.resolve_left hne.1).trans UInt32.xor_zero.symm)
    apply hne.2
    rw [← UInt32.not_not (a := ipMask), hxor]
    rfl
  · rintro (rfl | rfl)
    · intro w
      simp [addressPasses]
    · intro w
      rfl

/-- What the host passes, the block passes. -/
theorem addressPasses_of_host {ip ipMask w : UInt32} (h : addressPasses ip 0xFFFFFFFF w = true) :
    addressPasses ip ipMask w = true := by
  rw [addressPasses_iff_and, and_allOnes, and_allOnes] at h
  rw [addressPasses_iff_and]
  rcases h with h | rfl
  · exact Or.inl h
  · exact Or.inr rfl

theorem zero_not_mem_toDigits (n : Nat) : '\x00' ∉ Nat.toDigits 10 n := by
  intro h
  exact absurd (Text.isDigit_toDigits '\x00' h) (by decide)

/-- The line is a C string. -/
theorem cString_ruleLine (r : PolicyRule) (n i : Nat) :
    cString (ruleLine r (separator n i)).toList = (ruleLine r (separator n i)).toList := by
  rw [cString, List.takeWhile_eq_self_iff]
  intro c hc
  rw [decide_eq_true_eq]
  rintro rfl
  have hsep : '\x00' ∉ (separator n i).toList := by
    rw [separator]
    split
    · decide
    · decide
  have haction : '\x00' ∉ actionText r := by
    rw [actionText]
    split
    · decide
    · decide
  have hsegs : ∀ seg ∈ lineSegments r (separator n i), '\x00' ∉ seg := by
    cases henabled : r.enabled with
    | false => simp [lineSegments, zero_not_mem_toDigits, toList_ntop, hsep, haction, henabled]
    | true => simp [lineSegments, zero_not_mem_toDigits, toList_ntop, hsep, haction, henabled]
  rw [toList_ruleLine, List.mem_append, quotedTail, List.mem_flatMap] at hc
  rcases hc with hc | ⟨seg, hseg, hc⟩
  · exact absurd hc (by decide)
  · exact hsegs seg hseg ((List.mem_cons.mp hc).resolve_left (by decide))

/-- **A rule that is printed and posted again.**  For every rule of a table, at every place
of the list, the request adds the rule without its masks, its number and its hits, and
enabled.  If the rule was enabled, what the new rule passes, the old one passed; and the new
rule passes the same source addresses exactly if the source is any address or a single host,
and so for the destination. -/
theorem printed_rule_posted (proto : Int) (s : Policy) (r : PolicyRule) (n i : Nat) :
    (postRules proto s (ruleLine r (separator n i)).toList).2 = (policyAddRule s r.restored).2 ∧
    (∀ p, r.enabled = true → r.restored.passes p = true → r.passes p = true) ∧
    ((∀ w, r.restored.srcIpPasses w = r.srcIpPasses w) ↔
      r.srcIp = 0 ∨ r.srcIpMask = 0xFFFFFFFF) ∧
    ((∀ w, r.restored.dstIpPasses w = r.dstIpPasses w) ↔
      r.dstIp = 0 ∨ r.dstIpMask = 0xFFFFFFFF) := by
  refine ⟨?_, ?_, addressPasses_host_iff r.srcIp r.srcIpMask,
    addressPasses_host_iff r.dstIp r.dstIpMask⟩
  · have hne : (ruleLine r (separator n i)).toList ≠ [] := by
      rw [toList_ruleLine]
      simp
    rw [postRules, cString_ruleLine]
    dsimp only
    rw [if_neg hne, parseRuleJson_ruleLine]
    split
    · rfl
    · rfl
  · intro p henabled h
    simp only [PolicyRule.passes, Bool.and_eq_true] at h ⊢
    obtain ⟨⟨⟨⟨⟨-, hproto⟩, hsrc⟩, hdst⟩, hsport⟩, hdport⟩ := h
    refine ⟨⟨⟨⟨⟨henabled, hproto⟩, ?_⟩, ?_⟩, hsport⟩, hdport⟩
    · exact addressPasses_of_host hsrc
    · exact addressPasses_of_host hdst

end PrismFirewall.DocaFirewall
