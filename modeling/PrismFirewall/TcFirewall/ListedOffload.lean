import PrismFirewall.TcFirewall.TcListing

/-!
# Two readers of the offload flag

Whether a rule is offloaded is asked in two ways.  `_parse_tc_filter_output` looks for
`in_hw` in the lines of the rule; `check_in_hw` is called with the handle of a rule and
looks for `in_hw` in everything that is listed at its preference.

`Plain` is what the search of `check_in_hw` finds: an `in_hw` without `not_` in front of
it, and it stands in one of the lines (`plain_intercalate`).  So the two readers agree
on a rule exactly if no other one can be taken for it (`checkInHw_agrees_iff`).
-/

namespace PrismFirewall.TcFirewall

open Lib Text

/-! ### The search -/

/-- The text has an `in_hw` that no `not_` stands in front of. -/
def Plain (cs : List Char) : Prop :=
  ∃ pre suf, cs = pre ++ ("in_hw".toList ++ suf) ∧ ¬ "not_".toList <:+ pre

theorem searchInHw_iff {before cs : List Char} : searchInHw before cs = true ↔
    ∃ pre suf, cs = pre ++ ("in_hw".toList ++ suf) ∧
      ¬ "_ton".toList <+: pre.reverse ++ before := by
  have hprefix : ∀ p l : List Char, (dropPrefix? p l).isNone = true ↔ ¬ p <+: l := by
    intro p l
    rw [Option.isNone_iff_eq_none, Option.eq_none_iff_forall_not_mem]
    simp only [Option.mem_def, dropPrefix?_eq_some_iff]
    exact ⟨fun h ⟨t, ht⟩ => h t ht.symm, fun h t ht => h ⟨t, ht.symm⟩⟩
  induction cs generalizing before with
  | nil => simp [searchInHw]
  | cons c cs ih =>
    rw [searchInHw, Bool.or_eq_true, Bool.and_eq_true, hprefix, Option.isSome_iff_exists]
    simp only [dropPrefix?_eq_some_iff, ih]
    constructor
    · rintro (⟨⟨suf, hsuf⟩, hb⟩ | ⟨pre, suf, hcs, hb⟩)
      · exact ⟨[], suf, hsuf, hb⟩
      · exact ⟨c :: pre, suf, by rw [hcs]; rfl, by simpa using hb⟩
    · rintro ⟨pre, suf, hcs, hb⟩
      cases pre with
      | nil => exact Or.inl ⟨⟨suf, hcs⟩, hb⟩
      | cons d pre =>
        rw [List.cons_append, List.cons.injEq] at hcs
        refine Or.inr ⟨pre, suf, hcs.2, ?_⟩
        rw [hcs.1]
        simpa using hb

theorem searchInHw_iff_plain {cs : List Char} : searchInHw [] cs = true ↔ Plain cs := by
  rw [searchInHw_iff, Plain]
  simp only [List.append_nil]
  have hreverse : ∀ pre : List Char, "_ton".toList <+: pre.reverse ↔ "not_".toList <:+ pre :=
    fun pre => @List.reverse_prefix _ "not_".toList pre
  simp only [hreverse]

theorem plain_append_newline {a b : List Char} :
    Plain (a ++ '\n' :: b) ↔ Plain a ∨ Plain b := by
  constructor
  · rintro ⟨pre, suf, h, hn⟩
    rcases (word_in_parts (by decide)).mp h.symm with ⟨m, ha, -⟩ | ⟨m, hpre, hb⟩
    · exact Or.inl ⟨pre, m, ha, hn⟩
    · rw [hpre, suffix_append_sep (by decide)] at hn
      exact Or.inr ⟨m, suf, hb, hn⟩
  · rintro (⟨pre, suf, rfl, hn⟩ | ⟨pre, suf, rfl, hn⟩)
    · exact ⟨pre, suf ++ '\n' :: b, by simp, hn⟩
    · refine ⟨a ++ '\n' :: pre, suf, by simp, ?_⟩
      rwa [suffix_append_sep (by decide)]

/-- **What is found in a text stands in one of its lines.** -/
theorem plain_intercalate (lines : List (List Char)) :
    Plain (['\n'].intercalate lines) ↔ ∃ l ∈ lines, Plain l := by
  induction lines with
  | nil => simp [Plain]
  | cons line lines ih =>
    cases lines with
    | nil => simp
    | cons next lines =>
      have hjoin : ['\n'].intercalate (line :: next :: lines)
          = line ++ '\n' :: ['\n'].intercalate (next :: lines) := by
        simp [List.intercalate]
      rw [hjoin, plain_append_newline, ih]
      simp

/-- A line the parser takes for the mark of an offloaded rule has one that is found. -/
theorem plain_of_showsInHw {line : List Char} (h : showsInHw line = true) : Plain line := by
  rw [showsInHw, Bool.and_eq_true, decide_eq_true_eq, Bool.not_eq_true', decide_eq_false_iff_not]
    at h
  obtain ⟨⟨pre, suf, rfl⟩, hnot⟩ := h
  refine ⟨pre, suf, List.append_assoc _ _ _, ?_⟩
  rintro ⟨t, rfl⟩
  exact hnot ⟨t, suf, by simp⟩

/-! ### The two readers -/

theorem inHw_ruleOf (header : Nat × String) (body : List (List Char)) :
    (ruleOf header body).inHw = true ↔ ∃ line ∈ body, showsInHw line = true := by
  induction body using List.reverseRecOn with
  | nil => simp [ruleOf, TcRuleStats.new]
  | append_singleton body line ih =>
    rw [ruleOf, List.foldl_append, ← ruleOf]
    simp only [List.foldl_cons, List.foldl_nil, TcRuleStats.readLine, Bool.or_eq_true, ih,
      List.mem_append, List.mem_singleton]
    constructor
    · rintro (⟨l, hl, hs⟩ | hs)
      · exact ⟨l, Or.inl hl, hs⟩
      · exact ⟨line, Or.inr rfl, hs⟩
    · rintro ⟨l, hl | rfl, hs⟩
      · exact Or.inl ⟨l, hl, hs⟩
      · exact Or.inr hs

/-- A listing whose filters have distinct handles. -/
structure Listing where
  blocks : List Block
  distinct : (blocks.map Block.handle).Nodup

namespace Listing

variable (l : Listing)

def text : String := listingText l.blocks

def lines : List (List Char) := listedLines l.blocks

/-- The parser reports the rule with the handle as offloaded. -/
def Reports (handle : String) : Prop :=
  ∃ r ∈ parseTcFilterOutput l.text, r.handle = handle ∧ r.inHw = true

/-- A line of the filter with the handle has `in_hw` and not `not_in_hw`. -/
def Marked (handle : String) : Prop :=
  ∃ b ∈ l.blocks, b.handle = handle ∧ ∃ line ∈ b.body, showsInHw line = true

/-- Wherever `in_hw` stands in the listing, `not_` stands in front of it. -/
def NothingPlain : Prop := ∀ line ∈ l.lines, ¬ Plain line

theorem reports_iff {handle : String} : l.Reports handle ↔ l.Marked handle := by
  rw [Reports, Marked, text, parse_listingText]
  simp only [List.mem_map]
  constructor
  · rintro ⟨_, ⟨b, hb, rfl⟩, hh, hw⟩
    rw [(ruleOf_identity _ _).1] at hh
    exact ⟨b, hb, hh, (inHw_ruleOf _ _).mp hw⟩
  · rintro ⟨b, hb, hh, hw⟩
    exact ⟨_, ⟨b, hb, rfl⟩, (ruleOf_identity _ _).1.trans hh, (inHw_ruleOf _ _).mpr hw⟩

theorem search_iff : searchInHw [] l.text.toList = true ↔ ¬ l.NothingPlain := by
  rw [text, listingText, String.toList_ofList, searchInHw_iff_plain, plain_intercalate,
    NothingPlain, lines]
  push Not
  rfl

theorem plain_of_marked {handle : String} (h : l.Marked handle) : ¬ l.NothingPlain := by
  obtain ⟨b, hb, -, line, hline, hs⟩ := h
  intro hn
  refine hn line (List.mem_flatMap.mpr ⟨b, hb, ?_⟩) (plain_of_showsInHw hs)
  exact List.mem_cons_of_mem _ hline

end Listing

/-- What `check_in_hw` returns when the listing is shown. -/
theorem wp_checkInHw_shown {l : Listing} {port handle : String} {priority : Nat} {s : TcState}
    {stderr : String} {n : Nat} (hs : s.replies s.issued.length = .exit 0 l.text stderr n)
    {Q : Bool → TcState → Prop} {E : Exc → TcState → Prop} :
    wp (checkInHw port handle priority) s Q E ↔
      Q (searchInHw [] l.text.toList)
        (s.after ["filter", "show", "dev", port, "ingress", "prio", toString priority]) := by
  rw [checkInHw, wp_bind, wp_runTc, hs]
  simp

/-- **When `check_in_hw` speaks of the rule it is asked for.**  For every listing and every
handle, it returns what the parser reports of the rule if and only if the rule is marked as
offloaded, or nothing in the listing is. -/
theorem checkInHw_agrees_iff (l : Listing) (port handle : String) (priority : Nat) {s : TcState}
    {stderr : String} {n : Nat} (hs : s.replies s.issued.length = .exit 0 l.text stderr n) :
    wp (checkInHw port handle priority) s (fun r _ => r = true ↔ l.Reports handle)
      (fun _ _ => False) ↔ l.Marked handle ∨ l.NothingPlain := by
  rw [wp_checkInHw_shown hs, l.search_iff, l.reports_iff]
  constructor
  · intro h
    by_cases hn : l.NothingPlain
    · exact Or.inr hn
    · exact Or.inl (h.mp hn)
  · rintro (h | h)
    · exact iff_of_true (l.plain_of_marked h) h
    · exact iff_of_false (not_not_intro h) (fun hm => l.plain_of_marked hm h)

/-- A filter in hardware. -/
def offloadedBlock : Block where
  line := "filter protocol ip pref 100 flower chain 0 handle 0x1".toList
  header := (100, "0x1")
  body := ["  in_hw in_hw_count 1".toList]
  headerOf_line := by decide +kernel
  isHeader_body := by decide +kernel
  oneLine := by decide +kernel

/-- Another filter at the same preference, which is not. -/
def softwareBlock : Block where
  line := "filter protocol ip pref 100 flower chain 0 handle 0x2".toList
  header := (100, "0x2")
  body := ["  not_in_hw".toList]
  headerOf_line := by decide +kernel
  isHeader_body := by decide +kernel
  oneLine := by decide +kernel

def mixedListing : Listing := ⟨[offloadedBlock, softwareBlock], by decide⟩

def mixedState : TcState := ⟨⟨[], []⟩, fun _ => .exit 0 mixedListing.text "" 0, []⟩

/-- **The second rule is taken for the first**: it is not in hardware, and `check_in_hw`
says it is. -/
theorem checkInHw_mixed :
    wp (checkInHw internetPort "0x2" 100) mixedState (fun r _ => r = true) (fun _ _ => False) ∧
    ¬ mixedListing.Reports "0x2" ∧
    ¬ wp (checkInHw internetPort "0x2" 100) mixedState
      (fun r _ => r = true ↔ mixedListing.Reports "0x2") (fun _ _ => False) := by
  have hsearch : searchInHw [] mixedListing.text.toList = true := by decide +kernel
  have hreports : ¬ mixedListing.Reports "0x2" := by
    rw [Listing.Reports]
    decide +kernel
  refine ⟨?_, hreports, ?_⟩
  · rw [wp_checkInHw_shown (l := mixedListing) rfl]
    exact hsearch
  · rw [wp_checkInHw_shown (l := mixedListing) rfl, hsearch]
    exact fun h => hreports (h.mp rfl)

theorem checkInHw_agrees_iff_mixed :
    wp (checkInHw internetPort "0x1" 100) mixedState
      (fun r _ => r = true ↔ mixedListing.Reports "0x1") (fun _ _ => False) ↔
    mixedListing.Marked "0x1" ∨ mixedListing.NothingPlain :=
  checkInHw_agrees_iff mixedListing internetPort "0x1" 100 rfl

end PrismFirewall.TcFirewall
