import Mathlib.Algebra.BigOperators.Group.List.Basic
import PrismFirewall.TcFirewall.TcListing

/-!
# Two readers of the counters

With `-s`, tc prints a `Sent` line for each action of a filter, and the filters of the NAT
have two or three actions.  `get_stats` adds up all of them; `_parse_tc_filter_output`
keeps one for each rule, and the last line of the rule wins.

`CountedBlock` is a filter in such a listing: the lines with counters are told from the
others, in which no counter begins (`Quiet`), not even one that would go on in the next
line.  `findAll_listed` and `counters_ruleOf` say what the two readers take from it, and
`getStats_agrees_iff` when the sums are the same: when the lines before the last one of
each filter count nothing.
-/

namespace PrismFirewall.TcFirewall

open Lib Text

/-! ### Lines -/

/-- `Sent\s*(\d|$)` at the start of a text: a counter may begin here. -/
def opensSent (cs : List Char) : Bool :=
  match dropPrefix? "Sent".toList cs with
  | none => false
  | some rest => (rest.dropWhile isSpace).head?.all isDecimal

/-- No counter begins in the text. -/
def Quiet (cs : List Char) : Prop := ∀ suf ∈ cs.tails, opensSent suf = false

instance (cs : List Char) : Decidable (Quiet cs) :=
  inferInstanceAs (Decidable (∀ suf ∈ cs.tails, opensSent suf = false))

/-- The line with the counters of one action. -/
structure SentLine where
  indent : List Char
  bytes : Nat
  packets : Nat
  tail : List Char
  isSpace_indent : ∀ c ∈ indent, isSpace c = true
  quiet_tail : Quiet tail

def SentLine.text (l : SentLine) : List Char :=
  l.indent ++ ("Sent".toList ++ ' ' :: (Nat.toDigits 10 l.bytes ++ ' ' :: ("bytes".toList ++
    ' ' :: (Nat.toDigits 10 l.packets ++ ' ' :: ("pkt".toList ++ l.tail)))))

/-- A line without counters. -/
structure QuietLine where
  text : List Char
  quiet : Quiet text

inductive BodyLine
  | sent (l : SentLine)
  | other (l : QuietLine)

namespace BodyLine

def text : BodyLine → List Char
  | .sent l => l.text
  | .other l => l.text

/-- The bytes and the packets of a line with counters. -/
def sent? : BodyLine → Option (Nat × Nat)
  | .sent l => some (l.bytes, l.packets)
  | .other _ => none

end BodyLine

theorem matchSent_of_ne {c : Char} (hc : c ≠ 'S') (cs : List Char) :
    matchSent (c :: cs) = none := by
  have hdrop : dropPrefix? "Sent".toList (c :: cs) = none := by
    show dropPrefix? ['S', 'e', 'n', 't'] (c :: cs) = none
    rw [dropPrefix?, if_neg (Ne.symm hc)]
  rw [matchSent, matchField, hdrop]
  rfl

theorem matchSent_nil : matchSent [] = none := rfl

/-- Where no counter begins there is none, even if the text goes on in the next line. -/
theorem matchSent_of_not_opens {suf b : List Char} (h : opensSent suf = false)
    (hb : ∀ c ∈ b.head?, c = '\n') : matchSent (suf ++ b) = none := by
  have hkey : ∀ c ∈ b.head?, c ∉ "Sent".toList := by
    intro c hc
    rw [hb c hc]
    decide
  have hdrop := dropPrefix?_append_of_head (a := suf) hkey (by decide)
  rw [opensSent] at h
  cases hs : dropPrefix? "Sent".toList suf with
  | none =>
    rw [hs] at hdrop
    rw [matchSent, matchField, hdrop]
    rfl
  | some rest =>
    rw [hs] at h hdrop
    -- after the white space comes something that is not a digit
    cases hw : rest.dropWhile isSpace with
    | nil => simp [hw] at h
    | cons c cs =>
      have hc : isDecimal c = false := by simpa [hw] using h
      have hwide : (rest ++ b).dropWhile isSpace = c :: (cs ++ b) := by
        rw [List.dropWhile_append, hw]
        rfl
      have hmany : many1 isDecimal (c :: (cs ++ b)) = none :=
        many1_eq_none (fun d hd => by
          rw [List.head?_cons, Option.mem_some_iff] at hd
          exact hd ▸ hc)
      have hfield : matchField "Sent".toList isDecimal (suf ++ b) = none := by
        have hskip : (skipSpaces (rest ++ b)).bind (many1 isDecimal) = none := by
          by_cases hsp : (rest ++ b).takeWhile isSpace = []
          · rw [skipSpaces, many1, if_pos hsp]
            rfl
          · rw [skipSpaces, many1, if_neg hsp, hwide]
            exact hmany
        rw [matchField, hdrop]
        exact hskip
      rw [matchSent, hfield]
      rfl

theorem findAll_quiet {l b : List Char} (h : Quiet l) (hb : ∀ c ∈ b.head?, c = '\n') :
    findAll matchSent (l ++ b) = findAll matchSent b :=
  findAll_append_of_none (fun suf hs _ => matchSent_of_not_opens (h suf hs) hb)

theorem findAll_of_not_mem {a b : List Char} (h : 'S' ∉ a) :
    findAll matchSent (a ++ b) = findAll matchSent b := by
  refine findAll_append_of_none (fun suf hs hne => ?_)
  have hsub := ((List.mem_tails _ _).mp hs).subset
  cases suf with
  | nil => exact absurd rfl hne
  | cons c suf =>
    refine matchSent_of_ne ?_ _
    rintro rfl
    exact h (hsub List.mem_cons_self)

/-- A line of counters is read as it was printed. -/
theorem matchSent_text (bytes packets : Nat) (tail : List Char) :
    matchSent ("Sent".toList ++ ' ' :: (Nat.toDigits 10 bytes ++ ' ' :: ("bytes".toList ++
      ' ' :: (Nat.toDigits 10 packets ++ ' ' :: ("pkt".toList ++ tail)))))
      = some (bytes, packets) := by
  have hskip : ∀ c ∈ ["bytes".toList, "pkt".toList], ∀ rest : List Char,
      skipSpaces (' ' :: (c ++ rest)) = some (c ++ rest) := by
    intro c hc rest
    refine skipSpaces_append (a := [' ']) (List.cons_ne_nil _ _) (forall_mem_of_all rfl) ?_
    simp only [List.mem_cons, List.not_mem_nil, or_false] at hc
    rcases hc with rfl | rfl
    · intro d hd
      cases hd
      decide
    · intro d hd
      cases hd
      decide
  have hspace : ∀ rest : List Char, ∀ c ∈ (' ' :: rest).head?, isDecimal c = false := by
    intro rest c hc
    cases hc
    decide
  rw [matchSent, matchField_toDigits bytes (hspace _)]
  simp only [Option.bind_eq_bind, Option.bind_some]
  rw [hskip _ (by simp), Option.bind_some, matchField_toDigits packets (hspace _),
    Option.bind_some]
  simp only
  rw [hskip _ (by simp), Option.bind_some, dropPrefix?_append, Option.bind_some,
    natOfDigits_toDigits, natOfDigits_toDigits]
  rfl

theorem findAll_sentLine (l : SentLine) {b : List Char} (hb : ∀ c ∈ b.head?, c = '\n') :
    findAll matchSent (l.text ++ b) = (l.bytes, l.packets) :: findAll matchSent b := by
  have hindent : 'S' ∉ l.indent := fun hc => absurd (l.isSpace_indent _ hc) (by decide)
  have hdigits (n : Nat) : 'S' ∉ Nat.toDigits 10 n :=
    fun hc => absurd (isDigit_toDigits _ hc) (by decide)
  -- behind its first letter the counter has no further `S` up to the tail
  have hrest : 'S' ∉ "ent ".toList ++ Nat.toDigits 10 l.bytes ++ " bytes ".toList
      ++ Nat.toDigits 10 l.packets ++ " pkt".toList := by
    simp only [List.mem_append, not_or]
    exact ⟨⟨⟨⟨by decide, hdigits _⟩, by decide⟩, hdigits _⟩, by decide⟩
  have hmatch := matchSent_text l.bytes l.packets (l.tail ++ b)
  have hsplit : "Sent".toList ++ ' ' :: (Nat.toDigits 10 l.bytes ++ ' ' :: ("bytes".toList ++
      ' ' :: (Nat.toDigits 10 l.packets ++ ' ' :: ("pkt".toList ++ (l.tail ++ b)))))
      = 'S' :: ("ent ".toList ++ Nat.toDigits 10 l.bytes ++ " bytes ".toList
        ++ Nat.toDigits 10 l.packets ++ " pkt".toList ++ (l.tail ++ b)) := by
    simp
  have htext : l.text ++ b = l.indent ++ ("Sent".toList ++ ' ' :: (Nat.toDigits 10 l.bytes
      ++ ' ' :: ("bytes".toList ++ ' ' :: (Nat.toDigits 10 l.packets
        ++ ' ' :: ("pkt".toList ++ (l.tail ++ b)))))) := by
    simp [SentLine.text]
  rw [htext, findAll_of_not_mem hindent, hsplit, findAll, ← hsplit, hmatch, findAll_of_not_mem hrest,
    findAll_quiet l.quiet_tail hb]
  rfl

/-- What the search finds in one line. -/
theorem findAll_bodyLine (l : BodyLine) {b : List Char} (hb : ∀ c ∈ b.head?, c = '\n') :
    findAll matchSent (l.text ++ b) = l.sent?.toList ++ findAll matchSent b := by
  cases l with
  | sent l => exact findAll_sentLine l hb
  | other l => exact findAll_quiet l.quiet hb

theorem findAll_newline (cs : List Char) :
    findAll matchSent ('\n' :: cs) = findAll matchSent cs := by
  rw [findAll, matchSent_of_ne (by decide)]
  rfl

theorem findAll_intercalate (lines : List BodyLine) :
    findAll matchSent (['\n'].intercalate (lines.map BodyLine.text))
      = lines.filterMap BodyLine.sent? := by
  induction lines with
  | nil => rfl
  | cons line lines ih =>
    cases lines with
    | nil =>
      have hline := findAll_bodyLine line (b := []) (by simp)
      rw [List.append_nil] at hline
      simp only [List.map_cons, List.map_nil, List.intercalate_singleton]
      rw [hline]
      cases hs : line.sent? <;> simp [findAll, matchSent_nil, hs]
    | cons next lines =>
      have hjoin : ['\n'].intercalate ((line :: next :: lines).map BodyLine.text)
          = line.text ++ '\n' :: ['\n'].intercalate ((next :: lines).map BodyLine.text) := by
        simp [List.intercalate]
      rw [hjoin, findAll_bodyLine line (by simp), findAll_newline, ih]
      cases hs : line.sent? <;> simp [hs]

/-- The parser finds the same counters in a line. -/
theorem search_bodyLine (l : BodyLine) : search matchSent l.text = l.sent? := by
  have hline := findAll_bodyLine l (b := []) (by simp)
  rw [List.append_nil] at hline
  rw [search_eq_head?, hline]
  cases hs : l.sent? <;> simp [findAll, matchSent_nil]

/-! ### Filters -/

/-- A filter with the lines of its actions, one `Sent` line for each of them. -/
structure CountedBlock where
  block : Block
  lines : List BodyLine
  body_eq : block.body = lines.map BodyLine.text
  quiet_line : Quiet block.line
  sent_ne_nil : lines.filterMap BodyLine.sent? ≠ []

namespace CountedBlock

/-- What the `Sent` lines of the filter say, the last one last. -/
def sent (b : CountedBlock) : List (Nat × Nat) := b.lines.filterMap BodyLine.sent?

/-- All the lines of the filter. -/
def allLines (b : CountedBlock) : List BodyLine := .other ⟨b.block.line, b.quiet_line⟩ :: b.lines

theorem text_allLines (b : CountedBlock) : b.allLines.map BodyLine.text = b.block.lines := by
  rw [Block.lines, b.body_eq]
  rfl

theorem sent_allLines (b : CountedBlock) : b.allLines.filterMap BodyLine.sent? = b.sent := rfl

end CountedBlock

def countedText (blocks : List CountedBlock) : String :=
  listingText (blocks.map CountedBlock.block)

/-- **The sum goes over all `Sent` lines.** -/
theorem findAll_listed (blocks : List CountedBlock) :
    findAll matchSent (countedText blocks).toList = blocks.flatMap CountedBlock.sent := by
  have hlines : listedLines (blocks.map CountedBlock.block)
      = (blocks.flatMap CountedBlock.allLines).map BodyLine.text := by
    rw [listedLines, List.flatMap_map, List.map_flatMap]
    exact List.flatMap_congr (fun b _ => b.text_allLines.symm)
  rw [countedText, listingText, String.toList_ofList, hlines, findAll_intercalate,
    List.filterMap_flatMap]
  exact List.flatMap_congr (fun b _ => b.sent_allLines)

/-- **The rule keeps the last `Sent` line.** -/
theorem counters_ruleOf (header : Nat × String) (lines : List BodyLine) :
    ((ruleOf header (lines.map BodyLine.text)).bytes,
      (ruleOf header (lines.map BodyLine.text)).packets)
      = (lines.filterMap BodyLine.sent?).getLast?.getD (0, 0) := by
  induction lines using List.reverseRecOn with
  | nil => rfl
  | append_singleton lines line ih =>
    rw [List.map_append, ruleOf, List.foldl_append, ← ruleOf, List.filterMap_append]
    simp only [List.map_cons, List.map_nil, List.foldl_cons, List.foldl_nil,
      TcRuleStats.readLine, search_bodyLine]
    cases hs : line.sent? with
    | none => simpa [hs] using ih
    | some c => simp [hs]

/-- Of two sums, one of which has more in it, when they are the same. -/
theorem sum_add_eq_iff {α : Type*} (f g : α → Nat) (l : List α) :
    (l.map (fun a => f a + g a)).sum = (l.map g).sum ↔ ∀ a ∈ l, f a = 0 := by
  rw [List.sum_map_add, Nat.add_eq_right, List.sum_eq_zero_iff_forall_eq_nat]
  simp

namespace CountedBlock

variable (b : CountedBlock)

def last : Nat × Nat := b.sent.getLast?.getD (0, 0)

/-- What the `Sent` lines say before the last one. -/
def front : List (Nat × Nat) := b.sent.dropLast

theorem sent_eq : b.sent = b.front ++ [b.last] := by
  have hne : b.sent ≠ [] := b.sent_ne_nil
  rw [front, last, List.getLast?_eq_some_getLast hne, Option.getD_some,
    List.dropLast_append_getLast]

/-- The rule the parser makes of the filter. -/
theorem rule_eq :
    (ruleOf b.block.header b.block.body).bytes = b.last.1 ∧
      (ruleOf b.block.header b.block.body).packets = b.last.2 := by
  have h := counters_ruleOf b.block.header b.lines
  rw [← b.body_eq] at h
  exact ⟨congrArg Prod.fst h, congrArg Prod.snd h⟩

end CountedBlock

/-- A counter of all the lines, filter by filter: what stands before the last line, and the
last. -/
theorem sum_flatMap_sent (f : Nat × Nat → Nat) (blocks : List CountedBlock) :
    ((blocks.flatMap CountedBlock.sent).map f).sum
      = (blocks.map (fun b => (b.front.map f).sum + f b.last)).sum := by
  induction blocks with
  | nil => rfl
  | cons b blocks ih =>
    rw [List.flatMap_cons, List.map_append, List.sum_append, ih, List.map_cons, List.sum_cons,
      b.sent_eq]
    simp

/-- What `get_stats` returns when the listing is shown. -/
theorem wp_getStats_shown (text : String) {port : String} {s : TcState} {stderr : String} {n : Nat}
    (hs : s.replies s.issued.length = .exit 0 text stderr n)
    {Q : PortStats → TcState → Prop} {E : Exc → TcState → Prop} :
    wp (getStats port) s Q E ↔
      Q ⟨((findAll matchSent text.toList).map Prod.snd).sum,
        ((findAll matchSent text.toList).map Prod.fst).sum⟩
        (s.after ["-s", "filter", "show", "dev", port, "ingress"]) := by
  rw [getStats, wp_bind, wp_runTc, hs]
  simp

/-- The result is the sum over the rules that are parsed from the listing. -/
def SumsOver (r : PortStats) (rules : List TcRuleStats) : Prop :=
  r.packets = (rules.map TcRuleStats.packets).sum ∧ r.bytes = (rules.map TcRuleStats.bytes).sum

/-- **When the sum of a port is the sum over its rules.**  For every listing, `get_stats`
returns the sums over the rules of `_parse_tc_filter_output` if and only if in every filter
the `Sent` lines before the last one count nothing. -/
theorem getStats_agrees_iff (blocks : List CountedBlock) (port : String) {s : TcState}
    {stderr : String} {n : Nat}
    (hs : s.replies s.issued.length = .exit 0 (countedText blocks) stderr n) :
    wp (getStats port) s (fun r _ => SumsOver r (parseTcFilterOutput (countedText blocks)))
      (fun _ _ => False) ↔ ∀ b ∈ blocks, ∀ c ∈ b.front, c = (0, 0) := by
  have hbytes : (parseTcFilterOutput (countedText blocks)).map TcRuleStats.bytes
      = blocks.map (fun b => b.last.1) := by
    rw [countedText, parse_listingText, List.map_map, List.map_map]
    exact List.map_congr_left (fun b _ => b.rule_eq.1)
  have hpackets : (parseTcFilterOutput (countedText blocks)).map TcRuleStats.packets
      = blocks.map (fun b => b.last.2) := by
    rw [countedText, parse_listingText, List.map_map, List.map_map]
    exact List.map_congr_left (fun b _ => b.rule_eq.2)
  rw [wp_getStats_shown _ hs, SumsOver, hbytes, hpackets, findAll_listed]
  simp only [sum_flatMap_sent]
  rw [sum_add_eq_iff, sum_add_eq_iff]
  simp only [List.sum_eq_zero_iff_forall_eq_nat, List.mem_map]
  constructor
  · rintro ⟨hp, hb⟩ b hmem c hc
    exact Prod.ext (hb b hmem c.1 ⟨c, hc, rfl⟩) (hp b hmem c.2 ⟨c, hc, rfl⟩)
  · intro h
    constructor
    · rintro b hmem _ ⟨c, hc, rfl⟩
      rw [h b hmem c hc]
    · rintro b hmem _ ⟨c, hc, rfl⟩
      rw [h b hmem c hc]

/-- The counters of one action, as tc indents them. -/
def sentLine (bytes packets : Nat) : BodyLine :=
  .sent ⟨"\t".toList, bytes, packets, [], forall_mem_of_all rfl, by decide⟩

/-- A port forward: three actions, and all packets go through each of them. -/
def natBlock : CountedBlock where
  block :=
    { line := "filter protocol ip pref 20 flower chain 0 handle 0x1".toList
      header := (20, "0x1")
      body := [sentLine 1000 10, sentLine 1000 10, sentLine 1000 10].map BodyLine.text
      headerOf_line := by decide +kernel
      isHeader_body := by decide +kernel
      oneLine := by decide +kernel }
  lines := [sentLine 1000 10, sentLine 1000 10, sentLine 1000 10]
  body_eq := rfl
  quiet_line := by decide +kernel
  sent_ne_nil := by decide

def natState : TcState := ⟨⟨[], []⟩, fun _ => .exit 0 (countedText [natBlock]) "" 0, []⟩

/-- **Three actions are counted three times** by `get_stats`, and once by the parser. -/
theorem getStats_natBlock :
    wp (getStats internetPort) natState (fun r _ => r = ⟨30, 3000⟩) (fun _ _ => False) ∧
    (parseTcFilterOutput (countedText [natBlock])).map (fun r => (r.packets, r.bytes))
      = [(10, 1000)] ∧
    ¬ wp (getStats internetPort) natState
      (fun r _ => SumsOver r (parseTcFilterOutput (countedText [natBlock])))
      (fun _ _ => False) := by
  have hsent : findAll matchSent (countedText [natBlock]).toList
      = [(1000, 10), (1000, 10), (1000, 10)] := findAll_listed [natBlock]
  have hrules : (parseTcFilterOutput (countedText [natBlock])).map (fun r => (r.packets, r.bytes))
      = [(10, 1000)] := by decide +kernel
  have hpackets : (parseTcFilterOutput (countedText [natBlock])).map TcRuleStats.packets
      = [10] := by decide +kernel
  refine ⟨?_, hrules, ?_⟩
  · rw [wp_getStats_shown (countedText [natBlock]) rfl, hsent]
    rfl
  · rw [wp_getStats_shown (countedText [natBlock]) rfl, hsent, SumsOver, hpackets]
    decide

theorem getStats_agrees_iff_natBlock :
    wp (getStats internetPort) natState
      (fun r _ => SumsOver r (parseTcFilterOutput (countedText [natBlock])))
      (fun _ _ => False) ↔ ∀ b ∈ [natBlock], ∀ c ∈ b.front, c = (0, 0) :=
  getStats_agrees_iff [natBlock] internetPort rfl

end PrismFirewall.TcFirewall
