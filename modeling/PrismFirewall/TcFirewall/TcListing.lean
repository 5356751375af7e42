import Mathlib.Data.List.Infix
import PrismFirewall.Lib.Pattern
import PrismFirewall.TcFirewall.TcManager

/-!
# Reading a tc listing

`tc_manager.py` has four readers of what `tc filter show` prints: the last handle and
the offload flag (`TcManager.lean`), the sum of the counters (`get_stats`), and the list
of the rules (`_parse_tc_filter_output`).  The last goes through the lines with one
current rule, which is handed over at the next header and at the end.

`readLines_finish` says what that loop has at the end when it starts anywhere, and
`parse_compositional` that the parser works block by block: the k-th rule is
made of the k-th header and of the lines up to the next one.
-/

namespace PrismFirewall.TcFirewall

open Lib Text

/-! ### The reader of the counters -/

/-- `Sent\s+(\d+)\s+bytes\s+(\d+)\s+pkt` at the start of a text: the bytes and the packets. -/
def matchSent (cs : List Char) : Option (Nat × Nat) := do
  let (bytes, rest) ← matchField "Sent".toList isDecimal cs
  let (packets, rest) ← matchField "bytes".toList isDecimal (← skipSpaces rest)
  let _ ← dropPrefix? "pkt".toList (← skipSpaces rest)
  return (natOfDigits bytes, natOfDigits packets)

/-- What `get_stats` returns. -/
structure PortStats where
  packets : Nat
  bytes : Nat
  deriving DecidableEq

/-- `get_stats`. -/
def getStats (port : String) : TcM PortStats := do
  let result ← runTc ["-s", "filter", "show", "dev", port, "ingress"] false
  if result.returncode != 0 then
    return ⟨0, 0⟩
  let sent := findAll matchSent result.stdout.toList
  return ⟨(sent.map Prod.snd).sum, (sent.map Prod.fst).sum⟩

/-! ### The reader of the rules -/

structure TcRuleStats where
  handle : String
  priority : Nat
  protocol : String
  inHw : Bool
  packets : Nat
  bytes : Nat
  action : String
  matchSrc : Option String
  matchDst : Option String
  matchSport : Option Nat
  matchDport : Option Nat
  deriving DecidableEq

/-- `pref\s+(\d+)\s+flower.*handle\s+(0x[0-9a-f]+)` at the start of a line.  The dot goes
as far as it can, so the handle is the last one. -/
def matchHeader (cs : List Char) : Option (Nat × String) := do
  let (pref, rest) ← matchField "pref".toList isDecimal cs
  let rest ← dropPrefix? "flower".toList (← skipSpaces rest)
  let handle ← (findHandles rest).getLast?
  return (natOfDigits pref, handle)

/-- The preference and the handle that a filter line names. -/
def headerOf (line : List Char) : Option (Nat × String) := search matchHeader line

/-- `"in_hw" in line and "not_in_hw" not in line`. -/
def showsInHw (line : List Char) : Bool :=
  "in_hw".toList <:+: line && !("not_in_hw".toList <:+: line : Bool)

namespace TcRuleStats

/-- The rule a filter line starts. -/
def new (header : Nat × String) : TcRuleStats where
  handle := header.2
  priority := header.1
  protocol := "ip"
  inHw := false
  packets := 0
  bytes := 0
  action := ""
  matchSrc := none
  matchDst := none
  matchSport := none
  matchDport := none

/-- A text field: `key\s+(\S+)`. -/
def textField (key : String) (line : List Char) : Option String :=
  (search (matchField key.toList (fun c => !isSpace c)) line).map (fun m => String.ofList m.1)

/-- A number field: `key\s+(\d+)`. -/
def numberField (key : String) (line : List Char) : Option Nat :=
  (search (matchField key.toList isDecimal) line).map (fun m => natOfDigits m.1)

/-- The action the line names, if it names one; `mirred` is looked for first. -/
def actionOf (line : List Char) : Option String :=
  if "mirred".toList <:+: line then some "redirect"
  else if "action".toList <:+: line.map Char.toLower ∧ "drop".toList <:+: line ∧
      ¬ "dropped".toList <:+: line then some "drop"
  else none

/-- The round of the loop for a line of the current rule. -/
def readLine (r : TcRuleStats) (line : List Char) : TcRuleStats :=
  { r with
    inHw := r.inHw || showsInHw line
    matchSrc := (textField "src_ip" line).or r.matchSrc
    matchDst := (textField "dst_ip" line).or r.matchDst
    matchSport := (numberField "src_port" line).or r.matchSport
    matchDport := (numberField "dst_port" line).or r.matchDport
    action := (actionOf line).getD r.action
    bytes := ((search matchSent line).map Prod.fst).getD r.bytes
    packets := ((search matchSent line).map Prod.snd).getD r.packets }

end TcRuleStats

/-- What the loop carries along. -/
structure Reading where
  rules : List TcRuleStats
  currentRule : Option TcRuleStats

namespace Reading

/-- One round of the loop. -/
def readLine (p : Reading) (line : List Char) : Reading :=
  match headerOf line with
  | some header => ⟨p.rules ++ p.currentRule.toList, some (.new header)⟩
  | none => { p with currentRule := p.currentRule.map (fun r => r.readLine line) }

def readLines (p : Reading) (lines : List (List Char)) : Reading := lines.foldl readLine p

/-- What is returned after the loop. -/
def finish (p : Reading) : List TcRuleStats := p.rules ++ p.currentRule.toList

end Reading

/-- `_parse_tc_filter_output`. -/
def parseTcFilterOutput (output : String) : List TcRuleStats :=
  (Reading.readLines ⟨[], none⟩ (output.toList.splitOn '\n')).finish

/-- `list_rules` of `tc_manager.py`. -/
def TcManager.listRules (port : String) : TcM (List TcRuleStats) := do
  let result ← runTc ["filter", "show", "dev", port, "ingress"] false
  if result.returncode != 0 || Text.strip result.stdout == "" then
    return []
  return parseTcFilterOutput result.stdout

/-! ### The loop -/

/-- The line is a filter line. -/
def isHeader (line : List Char) : Bool := (headerOf line).isSome

namespace Reading

@[simp] theorem readLines_nil (p : Reading) : p.readLines [] = p := rfl

@[simp] theorem readLines_cons (p : Reading) (line : List Char) (lines : List (List Char)) :
    p.readLines (line :: lines) = (p.readLine line).readLines lines := rfl

theorem readLines_append (p : Reading) (a b : List (List Char)) :
    p.readLines (a ++ b) = (p.readLines a).readLines b := by
  rw [readLines, readLines, readLines, List.foldl_append]

/-- The lines up to the next header go to the current rule. -/
theorem readLines_body {body : List (List Char)} (h : ∀ l ∈ body, isHeader l = false)
    (p : Reading) : p.readLines body =
      { p with currentRule := p.currentRule.map (fun r => body.foldl TcRuleStats.readLine r) } := by
  induction body generalizing p with
  | nil => simp
  | cons line body ih =>
    have hline : headerOf line = none := by
      have hh := h line List.mem_cons_self
      rwa [isHeader, Option.isSome_eq_false_iff, Option.isNone_iff_eq_none] at hh
    rw [readLines_cons, ih (fun l hl => h l (List.mem_cons_of_mem line hl)), readLine, hline]
    simp [Function.comp_def]

/-- The rules that are handed over already stay in front. -/
theorem finish_readLines (p : Reading) (lines : List (List Char)) :
    (p.readLines lines).finish = p.rules ++ (readLines ⟨[], p.currentRule⟩ lines).finish := by
  induction lines generalizing p with
  | nil => simp [finish]
  | cons line lines ih =>
    rw [readLines_cons, readLines_cons, ih, ih (readLine ⟨[], p.currentRule⟩ line)]
    unfold readLine
    cases headerOf line with
    | some header => simp
    | none => simp

/-- **A header closes what was read before it**: what comes after it is read as if the text
began there. -/
theorem finish_readLines_header {line : List Char} (h : isHeader line = true) (p : Reading)
    (lines : List (List Char)) : (p.readLines (line :: lines)).finish =
      p.finish ++ (readLines ⟨[], none⟩ (line :: lines)).finish := by
  obtain ⟨header, hh⟩ := Option.isSome_iff_exists.mp h
  rw [readLines_cons, finish_readLines, readLines_cons, readLine, readLine, hh]
  simp [finish]

/-- One rule for each header, and one for the rule that was open. -/
theorem length_finish_readLines (p : Reading) (lines : List (List Char)) :
    (p.readLines lines).finish.length = p.finish.length + lines.countP isHeader := by
  induction lines generalizing p with
  | nil => simp
  | cons line lines ih =>
    rw [readLines_cons, ih]
    cases hh : headerOf line with
    | some header =>
      have hline : isHeader line = true := by rw [isHeader, hh]; rfl
      have hlen : (p.readLine line).finish.length = p.finish.length + 1 := by
        rw [readLine, hh]
        simp [finish, Nat.add_assoc]
      rw [List.countP_cons_of_pos hline, hlen]
      omega
    | none =>
      have hline : ¬ isHeader line = true := by simp [isHeader, hh]
      have hlen : (p.readLine line).finish.length = p.finish.length := by
        rw [readLine, hh]
        cases hc : p.currentRule <;> simp [finish, hc]
      rw [List.countP_cons_of_neg hline, hlen]

end Reading

/-! ### Blocks -/

/-- The lines of a text. -/
def linesOf (output : String) : List (List Char) := output.toList.splitOn '\n'

/-- What the lines after a header make of the rule that it starts. -/
def ruleOf (header : Nat × String) (body : List (List Char)) : TcRuleStats :=
  body.foldl TcRuleStats.readLine (.new header)

/-- A body line leaves the identity of the rule as it is. -/
theorem ruleOf_identity (header : Nat × String) (body : List (List Char)) :
    (ruleOf header body).handle = header.2 ∧ (ruleOf header body).priority = header.1 := by
  induction body using List.reverseRecOn with
  | nil => exact ⟨rfl, rfl⟩
  | append_singleton body line ih =>
    rw [ruleOf, List.foldl_append]
    exact ih

theorem length_parse (output : String) :
    (parseTcFilterOutput output).length = (linesOf output).countP isHeader := by
  rw [parseTcFilterOutput, Reading.length_finish_readLines]
  simp [Reading.finish, linesOf]

theorem parse_append {o₁ o₂ : String} (h : ∀ line ∈ (linesOf o₂).head?, isHeader line = true) :
    parseTcFilterOutput (o₁ ++ "\n" ++ o₂)
      = parseTcFilterOutput o₁ ++ parseTcFilterOutput o₂ := by
  have hlines : (o₁ ++ "\n" ++ o₂).toList.splitOn '\n' = linesOf o₁ ++ linesOf o₂ := by
    rw [String.toList_append, String.toList_append, List.append_assoc]
    exact List.splitOn_append_cons_self _ _
  rw [parseTcFilterOutput, hlines, Reading.readLines_append]
  cases ho : linesOf o₂ with
  | nil => exact absurd ho (List.splitOn_ne_nil '\n' o₂.toList)
  | cons line lines =>
    rw [Reading.finish_readLines_header (h line (by rw [ho]; rfl)), parseTcFilterOutput,
      parseTcFilterOutput, ← linesOf, ← linesOf, ho]

/-- The rule of a block stands behind those of the headers before it. -/
theorem parse_block {output : String} {before body after : List (List Char)} {line : List Char}
    {header : Nat × String} (hl : linesOf output = before ++ line :: (body ++ after))
    (hh : headerOf line = some header) (hbody : ∀ l ∈ body, isHeader l = false)
    (hafter : ∀ l ∈ after.head?, isHeader l = true) :
    (parseTcFilterOutput output)[before.countP isHeader]? = some (ruleOf header body) := by
  have hline : isHeader line = true := by rw [isHeader, hh]; rfl
  have hblock : (Reading.readLines ⟨[], none⟩ (line :: (body ++ after))).finish
      = ruleOf header body :: (Reading.readLines ⟨[], none⟩ after).finish := by
    rw [Reading.readLines_cons, Reading.readLines_append, Reading.readLines_body hbody,
      Reading.readLine, hh]
    cases after with
    | nil => rfl
    | cons next after =>
      rw [Reading.finish_readLines_header (hafter next rfl)]
      rfl
  have hlength : (Reading.readLines ⟨[], none⟩ before).finish.length
      = before.countP isHeader := by
    rw [Reading.length_finish_readLines]
    simp [Reading.finish]
  rw [parseTcFilterOutput, ← linesOf, hl, Reading.readLines_append,
    Reading.finish_readLines_header hline, hblock,
    List.getElem?_append_right (Nat.le_of_eq hlength), hlength, Nat.sub_self]
  rfl

/-- **The parser works block by block.**  A text whose second part begins with a filter
line is parsed in two parts; there are as many rules as filter lines; and the k-th rule is
what the lines between the k-th filter line and the next make of the preference and the
handle of the k-th. -/
theorem parse_compositional :
    (∀ o₁ o₂ : String, (∀ line ∈ (linesOf o₂).head?, isHeader line = true) →
      parseTcFilterOutput (o₁ ++ "\n" ++ o₂)
        = parseTcFilterOutput o₁ ++ parseTcFilterOutput o₂) ∧
    ∀ output : String,
      (parseTcFilterOutput output).length = (linesOf output).countP isHeader ∧
      ∀ before line body after header, linesOf output = before ++ line :: (body ++ after) →
        headerOf line = some header → (∀ l ∈ body, isHeader l = false) →
        (∀ l ∈ after.head?, isHeader l = true) →
        (parseTcFilterOutput output)[before.countP isHeader]? = some (ruleOf header body) ∧
        (ruleOf header body).handle = header.2 ∧ (ruleOf header body).priority = header.1 := by
  refine ⟨fun o₁ o₂ h => parse_append h, fun output => ⟨length_parse output, ?_⟩⟩
  intro before line body after header hl hh hbody hafter
  exact ⟨parse_block hl hh hbody hafter, ruleOf_identity header body⟩

theorem parse_compositional_two :
    linesOf "filter pref 7 flower handle 0x1\n  in_hw" =
      [] ++ "filter pref 7 flower handle 0x1".toList :: (["  in_hw".toList] ++ []) ∧
    parseTcFilterOutput ("filter pref 7 flower handle 0x1\n  in_hw" ++ "\n"
        ++ "filter pref 7 flower handle 0x2")
      = parseTcFilterOutput "filter pref 7 flower handle 0x1\n  in_hw"
        ++ parseTcFilterOutput "filter pref 7 flower handle 0x2" ∧
    (parseTcFilterOutput "filter pref 7 flower handle 0x1\n  in_hw")[0]?
      = some (ruleOf (7, "0x1") ["  in_hw".toList]) := by
  have hlines : linesOf "filter pref 7 flower handle 0x1\n  in_hw" =
      [] ++ "filter pref 7 flower handle 0x1".toList :: (["  in_hw".toList] ++ []) := by
    decide +kernel
  refine ⟨hlines, parse_compositional.1 _ _ (by decide +kernel), ?_⟩
  exact ((parse_compositional.2 _).2 [] _ _ [] (7, "0x1") hlines (by decide +kernel)
    (by decide +kernel) (by simp)).1

/-! ### Listings -/

/-- A filter as tc lists it: a line with its preference and handle, and the lines up to the
next filter. -/
structure Block where
  line : List Char
  header : Nat × String
  body : List (List Char)
  headerOf_line : headerOf line = some header
  isHeader_body : ∀ l ∈ body, isHeader l = false
  oneLine : ∀ l ∈ line :: body, '\n' ∉ l

namespace Block

def handle (b : Block) : String := b.header.2

def lines (b : Block) : List (List Char) := b.line :: b.body

end Block

def listedLines (blocks : List Block) : List (List Char) := blocks.flatMap Block.lines

/-- The text of a listing. -/
def listingText (blocks : List Block) : String :=
  String.ofList (['\n'].intercalate (listedLines blocks))

theorem newline_not_mem_listedLines {blocks : List Block} :
    ∀ l ∈ listedLines blocks, '\n' ∉ l := by
  intro l hl
  obtain ⟨b, -, hb⟩ := List.mem_flatMap.mp hl
  exact b.oneLine l hb

theorem readLines_listed (blocks : List Block) :
    (Reading.readLines ⟨[], none⟩ (listedLines blocks)).finish
      = blocks.map (fun b => ruleOf b.header b.body) := by
  induction blocks with
  | nil => rfl
  | cons b blocks ih =>
    have hfirst : ∀ p : Reading, (p.readLines (listedLines blocks)).finish
        = p.finish ++ (Reading.readLines ⟨[], none⟩ (listedLines blocks)).finish := by
      intro p
      cases blocks with
      | nil => simp [listedLines, Reading.finish]
      | cons next blocks =>
        exact Reading.finish_readLines_header (by rw [isHeader, next.headerOf_line]; rfl) p _
    have hlines : listedLines (b :: blocks) = b.line :: (b.body ++ listedLines blocks) := rfl
    rw [hlines, Reading.readLines_cons, Reading.readLines_append,
      Reading.readLines_body b.isHeader_body, hfirst, ih, Reading.readLine, b.headerOf_line]
    rfl

/-- **A listing is read as its rules.** -/
theorem parse_listingText (blocks : List Block) :
    parseTcFilterOutput (listingText blocks)
      = blocks.map (fun b => ruleOf b.header b.body) := by
  rw [parseTcFilterOutput, listingText, String.toList_ofList]
  by_cases hne : listedLines blocks = []
  · cases blocks with
    | nil => rfl
    | cons b blocks => simp [listedLines, Block.lines] at hne
  · rw [List.splitOn_intercalate '\n' newline_not_mem_listedLines hne, readLines_listed]

end PrismFirewall.TcFirewall
