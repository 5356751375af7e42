import PrismFirewall.DocaFirewall.PolicyReference
import PrismFirewall.Lib.Inet

/-!
# Printing the policy table

`policy_to_json` allocates 256 bytes for each rule and 256 more, and prints the table
into that buffer by successive calls of `snprintf`.  A call returns the length of its
whole text, whether it fits or not, so the running offset can pass the end of the
buffer; the size of the next call is then a difference that wraps around, and the call
writes behind the buffer.

A line has 183 characters besides the values of the rule.  `lineWidth` is what the
values take, and `json_offsets_fit_iff` says how much room they have together.
-/

namespace PrismFirewall.DocaFirewall

open Lib Lib.Inet

/-- A format string that is cut at its conversions, with the values in their places. -/
def printf : List String → List String → String
  | piece :: pieces, value :: values => piece ++ value ++ printf pieces values
  | pieces, _ => String.join pieces

/-- The format of a rule. -/
def ruleFormat : List String :=
  ["  \x7b \"id\": ", ", \"src_ip\": \"", "\", \"dst_ip\": \"", "\", \"src_port_min\": ",
    ", \"src_port_max\": ", ", \"dst_port_min\": ", ", \"dst_port_max\": ", ", \"protocol\": ",
    ", \"action\": \"", "\", \"priority\": ", ", \"enabled\": ", ", \"hit_count\": ", " \x7d",
    "\n"]

/-- The values in the line of a rule. -/
def ruleValues (r : PolicyRule) (separator : String) : List String :=
  [toString r.id.toNat, ntop r.srcIp, ntop r.dstIp, toString r.srcPortMin.toNat,
    toString r.srcPortMax.toNat, toString r.dstPortMin.toNat, toString r.dstPortMax.toNat,
    toString r.protocol.toNat, if r.action = .ALLOW then "ALLOW" else "DENY",
    toString r.priority.toNat, if r.enabled then "true" else "false", toString r.hitCount.toNat,
    separator]

/-- The text of one rule. -/
def ruleLine (r : PolicyRule) (separator : String) : String :=
  printf ruleFormat (ruleValues r separator)

/-- `(i < table->nr_rules - 1) ? "," : ""`. -/
def separator (n i : Nat) : String := if i < n - 1 then "," else ""

/-- The texts of the `snprintf` calls of `policy_to_json`, in order. -/
def jsonTexts (t : PolicyTable) : List String :=
  "\x7b \"rules\": [\n"
    :: ((List.range t.nrRules).map (fun i => ruleLine (cell t.rules i) (separator t.nrRules i))
      ++ ["] \x7d"])

/-- `buf_sz`. -/
def bufSz (t : PolicyTable) : Nat := 256 * (t.nrRules + 1)

/-- The running offset when each of the texts is printed. -/
def offsetsFrom (off : Nat) : List String → List Nat
  | [] => []
  | text :: rest => off :: offsetsFrom (off + text.length) rest

/-- `off` at every `snprintf` call. -/
def jsonOffsets (t : PolicyTable) : List Nat := offsetsFrom 0 (jsonTexts t)

/-- `policy_to_json`: what the buffer holds, unless a call has written behind it. -/
def policyToJson (t : PolicyTable) : Option String :=
  if (jsonOffsets t).all (fun off => decide (off ≤ bufSz t)) then
    some (String.ofList ((String.join (jsonTexts t)).toList.take (bufSz t - 1)))
  else none

/-! ### The offsets -/

/-- The offsets only grow, so the last one decides. -/
theorem offsetsFrom_le_iff (l : List String) (last : String) (bound : Nat) : ∀ off,
    (∀ x ∈ offsetsFrom off (l ++ [last]), x ≤ bound) ↔
      off + (l.map String.length).sum ≤ bound := by
  induction l with
  | nil =>
    intro off
    simp [offsetsFrom]
  | cons text rest ih =>
    intro off
    rw [List.cons_append, offsetsFrom, List.forall_mem_cons, ih, List.map_cons, List.sum_cons]
    constructor
    · intro h
      omega
    · intro h
      omega

/-! ### Widths -/

/-- The number of decimal digits. -/
def decimalWidth (n : Nat) : Nat := (Nat.toDigits 10 n).length

/-- The length of a dotted quad. -/
def ipWidth (w : UInt32) : Nat :=
  decimalWidth (octet w 0) + decimalWidth (octet w 1) + decimalWidth (octet w 2)
    + decimalWidth (octet w 3) + 3

/-- What the values of a rule take in its line. -/
def lineWidth (r : PolicyRule) : Nat :=
  decimalWidth r.id.toNat + ipWidth r.srcIp + ipWidth r.dstIp
    + decimalWidth r.srcPortMin.toNat + decimalWidth r.srcPortMax.toNat
    + decimalWidth r.dstPortMin.toNat + decimalWidth r.dstPortMax.toNat
    + decimalWidth r.protocol.toNat + (if r.action = .ALLOW then 5 else 4)
    + decimalWidth r.priority.toNat + (if r.enabled then 4 else 5)
    + decimalWidth r.hitCount.toNat

theorem length_toString_nat (n : Nat) : (toString n).length = decimalWidth n := by
  rw [decimalWidth, ← String.length_toList, Nat.toString_eq_repr, Nat.toList_repr]

theorem length_ntop (w : UInt32) : (ntop w).length = ipWidth w := by
  simp only [ntop, String.length_append, length_toString_nat, ipWidth]
  have hdot : ".".length = 1 := by decide
  omega

theorem length_printf (values : List String) : ∀ pieces : List String,
    values.length ≤ pieces.length →
    (printf pieces values).length
      = (pieces.map String.length).sum + (values.map String.length).sum := by
  induction values with
  | nil =>
    intro pieces _
    have hjoin : printf pieces [] = String.join pieces := by
      cases pieces <;> rfl
    rw [hjoin, String.length_join]
    simp
  | cons value values ih =>
    intro pieces h
    cases pieces with
    | nil => simp at h
    | cons piece pieces =>
      rw [printf, String.length_append, String.length_append, ih pieces (by simpa using h)]
      simp only [List.map_cons, List.sum_cons]
      omega

theorem sum_length_ruleFormat : (ruleFormat.map String.length).sum = 183 := by decide

theorem sum_length_ruleValues (r : PolicyRule) (sep : String) :
    ((ruleValues r sep).map String.length).sum = lineWidth r + sep.length := by
  have haction : (if r.action = .ALLOW then "ALLOW" else "DENY").length
      = if r.action = .ALLOW then 5 else 4 := by
    split
    · decide
    · decide
  have henabled : (if r.enabled then "true" else "false").length
      = if r.enabled then 4 else 5 := by
    split
    · decide
    · decide
  simp only [ruleValues, List.map_cons, List.map_nil, List.sum_cons, List.sum_nil,
    length_toString_nat, length_ntop, haction, henabled, lineWidth, Nat.add_zero, Nat.add_assoc]

/-- **A line has 183 characters besides the values.** -/
theorem length_ruleLine (r : PolicyRule) (sep : String) :
    (ruleLine r sep).length = 183 + lineWidth r + sep.length := by
  rw [ruleLine, length_printf _ _ (by simp [ruleValues, ruleFormat]), sum_length_ruleFormat,
    sum_length_ruleValues, Nat.add_assoc]

/-! ### The bound -/

/-- The lines of the first rules; all but the last rule of the table have a comma. -/
theorem sum_length_lines (t : PolicyTable) (k : Nat) :
    ((List.range k).map (fun i =>
      (ruleLine (cell t.rules i) (separator t.nrRules i)).length)).sum
      = 183 * k + ((used t.rules k).map lineWidth).sum + min k (t.nrRules - 1) := by
  induction k with
  | zero => simp [used]
  | succ k ih =>
    have hsep : (separator t.nrRules k).length = if k < t.nrRules - 1 then 1 else 0 := by
      unfold separator
      split
      · decide
      · decide
    rw [used_succ, List.range_succ, List.map_append, List.sum_append, ih, List.map_append,
      List.sum_append, List.map_singleton, List.map_singleton, List.sum_singleton,
      List.sum_singleton, length_ruleLine, hsep]
    split
    · omega
    · omega

/-- The length of the whole text: a comma behind every line but the last, and 16
characters around the lines. -/
theorem sum_length_jsonTexts {t : PolicyTable} (h : 1 ≤ t.nrRules) :
    ((jsonTexts t).map String.length).sum
      = 184 * t.nrRules + (t.live.map lineWidth).sum + 15 := by
  have hheader : ("\x7b \"rules\": [\n").length = 13 := by decide
  have hfooter : ("] \x7d").length = 3 := by decide
  have hlines := sum_length_lines t t.nrRules
  rw [jsonTexts, List.map_cons, List.map_append, List.map_map, List.sum_cons, List.sum_append,
    List.map_singleton, List.sum_singleton, hheader, hfooter]
  show 13 + (((List.range t.nrRules).map (fun i =>
    (ruleLine (cell t.rules i) (separator t.nrRules i)).length)).sum + 3) = _
  rw [hlines, PolicyTable.live]
  omega

/-- **The offsets stay in the buffer exactly if the values of all rules together have
room in it.** -/
theorem jsonOffsets_le_iff {t : PolicyTable} (h : 1 ≤ t.nrRules) :
    (∀ off ∈ jsonOffsets t, off ≤ bufSz t) ↔
      (t.live.map lineWidth).sum ≤ 72 * t.nrRules + 244 := by
  have htotal := sum_length_jsonTexts h
  have hfooter : ("] \x7d").length = 3 := by decide
  -- the last text is printed at the end of the others
  rw [jsonTexts, ← List.cons_append, List.map_append, List.sum_append, List.map_singleton,
    List.sum_singleton, hfooter] at htotal
  rw [jsonOffsets, jsonTexts, ← List.cons_append, offsetsFrom_le_iff, bufSz]
  omega

/-- **When `policy_to_json` stays in its buffer.**  For every table the engine can
reach, the running offset is at most the size of the buffer at every `snprintf` call if
and only if the values of all rules, as they are printed, take at most 72 characters
for each rule and 244 more. -/
theorem json_offsets_fit_iff (nextRuleId : UInt32) (l : List PolicyCall) :
    (∀ off ∈ jsonOffsets ((policyEngine nextRuleId).run l).table,
      off ≤ bufSz ((policyEngine nextRuleId).run l).table) ↔
    (((policyEngine nextRuleId).run l).table.live.map lineWidth).sum
      ≤ 72 * ((policyEngine nextRuleId).run l).table.nrRules + 244 :=
  jsonOffsets_le_iff (sound_run nextRuleId l).pos

theorem decimalWidth_le {n : Nat} (k : Nat) (hk : 0 < k) (hn : n < 10 ^ k) : decimalWidth n ≤ k :=
  (Nat.length_toDigits_le_iff (by decide) hk).mpr hn

theorem ipWidth_le (w : UInt32) : ipWidth w ≤ 15 := by
  have hoctet : ∀ k, decimalWidth (octet w k) ≤ 3 := by
    intro k
    exact decimalWidth_le 3 (by decide) (Nat.lt_trans (Nat.mod_lt _ (by decide)) (by decide))
  have h0 := hoctet 0
  have h1 := hoctet 1
  have h2 := hoctet 2
  have h3 := hoctet 3
  unfold ipWidth
  omega

/-- No values take more than 103 characters. -/
theorem lineWidth_le (r : PolicyRule) : lineWidth r ≤ 103 := by
  have h32 : ∀ x : UInt32, decimalWidth x.toNat ≤ 10 :=
    fun x => decimalWidth_le 10 (by decide) (Nat.lt_trans x.toNat_lt (by decide))
  have h16 : ∀ x : UInt16, decimalWidth x.toNat ≤ 5 :=
    fun x => decimalWidth_le 5 (by decide) (Nat.lt_trans x.toNat_lt (by decide))
  have h8 : decimalWidth r.protocol.toNat ≤ 3 :=
    decimalWidth_le 3 (by decide) (Nat.lt_trans r.protocol.toNat_lt (by decide))
  have h64 : decimalWidth r.hitCount.toNat ≤ 20 :=
    decimalWidth_le 20 (by decide) (Nat.lt_trans r.hitCount.toNat_lt (by decide))
  have haction : (if r.action = .ALLOW then 5 else 4) ≤ 5 := by
    split <;> decide
  have henabled : (if r.enabled then 4 else 5) ≤ 5 := by
    split <;> decide
  have hid := h32 r.id
  have hpriority := h32 r.priority
  have hsrc := ipWidth_le r.srcIp
  have hdst := ipWidth_le r.dstIp
  have hp1 := h16 r.srcPortMin
  have hp2 := h16 r.srcPortMax
  have hp3 := h16 r.dstPortMin
  have hp4 := h16 r.dstPortMax
  unfold lineWidth
  omega

/-- The default rule takes 47 characters, every other rule at most 103. -/
theorem sum_lineWidth_le {t : PolicyTable} (h : Sound t) :
    (t.live.map lineWidth).sum + 56 ≤ 103 * t.nrRules := by
  have hsum : ∀ k, ((used t.rules (k + 1)).map lineWidth).sum ≤ 47 + 103 * k := by
    intro k
    induction k with
    | zero =>
      have hused : used t.rules (0 + 1) = [defaultDeny] := by
        simp [used, h.first]
      rw [hused]
      decide
    | succ k ih =>
      have hlast := lineWidth_le (cell t.rules (k + 1))
      rw [used_succ, List.map_append, List.sum_append, List.map_singleton, List.sum_singleton]
      omega
  have hpos := h.pos
  have hall := hsum (t.nrRules - 1)
  rw [Nat.sub_add_cancel hpos] at hall
  show ((used t.rules t.nrRules).map lineWidth).sum + 56 ≤ _
  omega

/-- **A small table is printed as a whole**: up to nine rules fit into the buffer,
whatever their values are. -/
theorem policyToJson_of_nrRules_le {t : PolicyTable} (h : Sound t) (hn : t.nrRules ≤ 9) :
    policyToJson t = some (String.join (jsonTexts t)) := by
  have hwidth := sum_lineWidth_le h
  have hfit : ∀ off ∈ jsonOffsets t, off ≤ bufSz t := by
    rw [jsonOffsets_le_iff h.pos]
    omega
  have hlength : (String.join (jsonTexts t)).toList.length ≤ bufSz t - 1 := by
    rw [String.length_toList, String.length_join, sum_length_jsonTexts h.pos, bufSz]
    omega
  rw [policyToJson, if_pos (by simpa using hfit), List.take_of_length_le hlength,
    String.ofList_toList]

/-- A rule for one pair of addresses, with five digits in each port. -/
def wideRule : PolicyRule :=
  ⟨0, 0xFFFFFFFF, 0xFFFFFFFF, 0xFFFFFFFF, 0xFFFFFFFF, 10000, 65535, 10000, 65535, 255, .ALLOW,
    1000000000, true, 0⟩

/-- The table after such a rule has been added several times. -/
def wideTable (n : Nat) : PolicyTable :=
  ((policyEngine 1).run (List.replicate n (.addRule wideRule))).table

/-- **The buffer is overrun**: after 93 additions, the last offset is behind its end. -/
theorem json_buffer_overrun :
    ¬ ∀ off ∈ jsonOffsets (wideTable 93), off ≤ bufSz (wideTable 93) := by
  have hpos : 1 ≤ (wideTable 93).nrRules := by decide +kernel
  rw [jsonOffsets_le_iff hpos]
  decide +kernel

end PrismFirewall.DocaFirewall
