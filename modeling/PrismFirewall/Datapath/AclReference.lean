import PrismFirewall.Datapath.Cidr
import PrismFirewall.Lib.StableSort

/-!
# The access list and its reference

The reference of `acl.rs` knows nothing of sorting: among the rules that match a packet,
the one with the least priority decides, and of several with that priority the one that
was given first (`LeastMatch`).  `AclEngine::new` sorts by priority and keeps equal
priorities in the given order, so the first match of the sorted list is that rule, and the
index in the verdict is the number of rules that come before it (`rank`).
-/

namespace PrismFirewall.Datapath

open Lib

/-! ### The reference -/

/-- What a rule asks of a packet. -/
structure AclRule.Matches (r : AclRule) (t : FiveTuple) : Prop where
  src : ∀ c ∈ r.srcCidr, Covers c t.srcIp
  dst : ∀ c ∈ r.dstCidr, Covers c t.dstIp
  srcPort : ∀ range ∈ r.srcPortRange, range.1 ≤ t.srcPort ∧ t.srcPort ≤ range.2
  dstPort : ∀ range ∈ r.dstPortRange, range.1 ≤ t.dstPort ∧ t.dstPort ≤ range.2
  protocol : ∀ proto ∈ r.protocol, proto = t.protocol

/-- The networks of a rule are well formed, with lengths up to `32`. -/
def AclRule.WellFormed (r : AclRule) : Prop :=
  ∀ c, c ∈ r.srcCidr ∨ c ∈ r.dstCidr → ∃ a n, IsCidr c a n ∧ n.toNat ≤ 32

/-- The rule at place `i` of the input matches, and no other match has a smaller priority,
or the same one and an earlier place. -/
structure LeastMatch (rules : List AclRule) (t : FiveTuple) (i : Nat) (r : AclRule) : Prop where
  here : rules[i]? = some r
  isMatch : r.Matches t
  least : ∀ j r', rules[j]? = some r' → r'.Matches t →
    r.priority < r'.priority ∨ r.priority = r'.priority ∧ i ≤ j

/-- The number of rules of the input with a smaller priority, or with the same one and an
earlier place. -/
def rank (rules : List AclRule) (i : Nat) (r : AclRule) : Nat :=
  rules.zipIdx.countP (fun y => decide (Before (fun r => r.priority.toNat) y (r, i)))

/-! ### One rule -/

section

variable (checked : Bool)

/-- The answer to a question of the program, which does not panic on it. -/
def Decides (answer : Option Bool) (P : Prop) : Prop := ∃ b, answer = some b ∧ (b = true ↔ P)

theorem addressMatches_spec (ip : UInt32) {cidr : Option String}
    (h : ∀ c ∈ cidr, ∃ a n, IsCidr c a n ∧ n.toNat ≤ 32) :
    Decides (addressMatches checked ip cidr) (∀ c ∈ cidr, Covers c ip) := by
  cases cidr with
  | none => exact ⟨true, rfl, iff_of_true rfl (fun c hc => absurd hc (by simp))⟩
  | some c =>
    obtain ⟨a, n, hc, hn⟩ := h c rfl
    obtain ⟨b, hb, hiff⟩ := ipMatchesCidr_eq_of_le checked c (fun a' n' hc' => by
      obtain ⟨-, rfl⟩ := hc.unique hc'
      exact hn) ip
    refine ⟨b, hb, hiff.trans ⟨fun hcov c' hc' => ?_, fun hall => hall c rfl⟩⟩
    obtain rfl := Option.some.inj hc'
    exact hcov

theorem portMatches_iff (port : UInt16) (range : Option (UInt16 × UInt16)) :
    portMatches port range = true ↔ ∀ r ∈ range, r.1 ≤ port ∧ port ≤ r.2 := by
  cases range with
  | none => simp [portMatches]
  | some r =>
    obtain ⟨lo, hi⟩ := r
    simp [portMatches, UInt16.not_lt]

/-- **A rule with well-formed networks matches what it says.** -/
theorem matchesRule_spec {r : AclRule} (h : r.WellFormed) (t : FiveTuple) :
    Decides (matchesRule checked r t) (r.Matches t) := by
  obtain ⟨src, hsrc, hsiff⟩ := addressMatches_spec checked t.srcIp (fun c hc => h c (Or.inl hc))
  obtain ⟨dst, hdst, hdiff⟩ := addressMatches_spec checked t.dstIp (fun c hc => h c (Or.inr hc))
  cases src with
  | false =>
    refine ⟨false, by simp [matchesRule, hsrc], iff_of_false Bool.false_ne_true (fun hm => ?_)⟩
    exact Bool.false_ne_true (hsiff.mpr hm.src)
  | true =>
    have hrule : matchesRule checked r t = some (dst && portMatches t.srcPort r.srcPortRange
        && portMatches t.dstPort r.dstPortRange
        && r.protocol.all (fun proto => proto == t.protocol)) := by
      simp [matchesRule, hsrc, hdst]
    have hproto : r.protocol.all (fun proto => proto == t.protocol) = true
        ↔ ∀ proto ∈ r.protocol, proto = t.protocol := by
      cases r.protocol <;> simp
    refine ⟨_, hrule, ?_⟩
    rw [Bool.and_eq_true, Bool.and_eq_true, Bool.and_eq_true, portMatches_iff, portMatches_iff,
      hproto, hdiff]
    constructor
    · rintro ⟨⟨⟨hd, hsp⟩, hdp⟩, hp⟩
      exact ⟨hsiff.mp rfl, hd, hsp, hdp, hp⟩
    · intro hm
      exact ⟨⟨⟨hm.dst, hm.srcPort⟩, hm.dstPort⟩, hm.protocol⟩

/-! ### The loop -/

/-- The loop stops at the first rule that matches, or runs to the end. -/
theorem evaluateFrom_first (t : FiveTuple) (rules : List AclRule) :
    ∀ idx, (∀ r ∈ rules, r.WellFormed) →
    (∃ i r, rules[i]? = some r ∧ r.Matches t ∧
      (∀ m < i, ∀ r', rules[m]? = some r' → ¬ r'.Matches t) ∧
      evaluateFrom checked t idx rules = some ⟨r.action, r.offloadEligible, some (idx + i)⟩) ∨
    (∀ r ∈ rules, ¬ r.Matches t) ∧
      evaluateFrom checked t idx rules = some ⟨.Deny, false, none⟩ := by
  induction rules with
  | nil =>
    intro idx _
    exact Or.inr ⟨fun r hr => absurd hr List.not_mem_nil, rfl⟩
  | cons rule rest ih =>
    intro idx hwf
    obtain ⟨b, hb, hiff⟩ := matchesRule_spec checked (hwf rule List.mem_cons_self) t
    cases b with
    | true =>
      refine Or.inl ⟨0, rule, rfl, hiff.mp rfl, fun m hm => absurd hm (Nat.not_lt_zero m), ?_⟩
      simp [evaluateFrom, hb]
    | false =>
      have hnot : ¬ rule.Matches t := fun hm => Bool.false_ne_true (hiff.mpr hm)
      have hstep : evaluateFrom checked t idx (rule :: rest)
          = evaluateFrom checked t (idx + 1) rest := by
        simp [evaluateFrom, hb]
      rcases ih (idx + 1) (fun r hr => hwf r (List.mem_cons_of_mem _ hr)) with
        ⟨i, r, hr, hm, hfirst, he⟩ | ⟨hall, he⟩
      · refine Or.inl ⟨i + 1, r, hr, hm, fun m hlt r' hr' => ?_, ?_⟩
        · cases m with
          | zero =>
            obtain rfl := Option.some.inj hr'
            exact hnot
          | succ m => exact hfirst m (Nat.lt_of_succ_lt_succ hlt) r' hr'
        · rw [hstep, he, Nat.add_assoc, Nat.add_comm 1 i]
      · refine Or.inr ⟨fun r hr => ?_, hstep.trans he⟩
        rcases List.mem_cons.mp hr with rfl | hr
        · exact hnot
        · exact hall r hr

end

/-! ### The sorted list -/

/-- `AclEngine::new`, with the places of the input. -/
theorem exists_tagged_rules (rules : List AclRule) : ∃ s : List (AclRule × Nat),
    s.Perm rules.zipIdx ∧ s.Pairwise (Before (fun r : AclRule => r.priority.toNat)) ∧
      s.map Prod.fst = (AclEngine.new rules).rules := by
  obtain ⟨s, hperm, hsorted, hmap⟩ := exists_tagged (fun r : AclRule => r.priority.toNat) rules 0
  refine ⟨s, hperm, hsorted, hmap.trans ?_⟩
  show _ = rules.insertionSort (fun a b => a.priority ≤ b.priority)
  congr

/-- The first match of the sorted list is the least match of the input. -/
theorem leastMatch_of_first {rules : List AclRule} {t : FiveTuple} {idx : Nat} {r : AclRule}
    (hr : (AclEngine.new rules).rules[idx]? = some r) (hm : r.Matches t)
    (hfirst : ∀ m < idx, ∀ r', (AclEngine.new rules).rules[m]? = some r' → ¬ r'.Matches t) :
    ∃ i, LeastMatch rules t i r ∧ idx = rank rules i r := by
  obtain ⟨s, hperm, hsorted, hmap⟩ := exists_tagged_rules rules
  rw [← hmap, List.getElem?_map, Option.map_eq_some_iff] at hr
  obtain ⟨⟨r₀, i⟩, hx, rfl⟩ := hr
  have hmem : ∀ j r', rules[j]? = some r' ↔ (r', j) ∈ s := by
    intro j r'
    rw [hperm.mem_iff, List.mem_zipIdx_iff_getElem?]
  refine ⟨i, ⟨(hmem i r₀).mpr (List.mem_of_getElem? hx), hm, fun j r' hr' hm' => ?_⟩, ?_⟩
  · have hfirst' : ∀ m < idx, ∀ y, s[m]? = some y → ¬ y.1.Matches t := by
      intro m hlt y hy
      refine hfirst m hlt y.1 ?_
      rw [← hmap, List.getElem?_map, hy]
      rfl
    rcases before_of_first _ hsorted hx (fun r => r.Matches t) hfirst' (r', j)
      ((hmem j r').mp hr') hm' with heq | hlt | h
    · obtain ⟨rfl, rfl⟩ := Prod.mk.inj heq
      exact Or.inr ⟨rfl, Nat.le_refl _⟩
    · exact Or.inl (UInt32.lt_iff_toNat_lt.mpr hlt)
    · exact Or.inr ⟨UInt32.toNat_inj.mp h.1, Nat.le_of_lt h.2⟩
  · rw [rank, ← hperm.countP_eq]
    exact (countP_before_eq _ hsorted hx).symm

/-- **The access list equals its reference**: the rule with the least priority and place
decides, the index of the verdict points to it in the sorted list, and without a match the
packet is denied. -/
theorem acl_evaluates_least_match (checked : Bool) (rules : List AclRule) (t : FiveTuple)
    (hwf : ∀ r ∈ rules, r.WellFormed) :
    (∃ i r, LeastMatch rules t i r ∧
      (AclEngine.new rules).rules[rank rules i r]? = some r ∧
      (AclEngine.new rules).evaluate checked t
        = some ⟨r.action, r.offloadEligible, some (rank rules i r)⟩) ∨
    (∀ r ∈ rules, ¬ r.Matches t) ∧
      (AclEngine.new rules).evaluate checked t = some ⟨.Deny, false, none⟩ := by
  have hmem : ∀ r, r ∈ (AclEngine.new rules).rules ↔ r ∈ rules := fun r =>
    List.mem_insertionSort _
  rcases evaluateFrom_first checked t (AclEngine.new rules).rules 0
    (fun r hr => hwf r ((hmem r).mp hr)) with ⟨idx, r, hr, hm, hfirst, he⟩ | ⟨hall, he⟩
  · obtain ⟨i, hleast, rfl⟩ := leastMatch_of_first hr hm hfirst
    rw [Nat.zero_add] at he
    exact Or.inl ⟨i, r, hleast, hr, he⟩
  · exact Or.inr ⟨fun r hr => hall r ((hmem r).mpr hr), he⟩

/-- A list with a tie: the second and the third rule have one priority. -/
def tiedRules : List AclRule :=
  [⟨"all", 20, none, none, none, none, none, .Deny, false⟩,
   ⟨"web", 10, some "10.0.0.0/8", none, none, some (80, 90), some 6, .Allow, true⟩,
   ⟨"host", 10, some "10.0.0.1/32", none, none, none, none, .Deny, false⟩]

theorem wellFormed_tiedRules : ∀ r ∈ tiedRules, r.WellFormed := by
  intro r hr c hc
  have hnet : IsCidr "10.0.0.0/8" 0x0a000000 8 :=
    ⟨['1', '0', '.', '0', '.', '0', '.', '0'], ['8'], by decide, by decide, by decide⟩
  have hhost : IsCidr "10.0.0.1/32" 0x0a000001 32 :=
    ⟨['1', '0', '.', '0', '.', '0', '.', '1'], ['3', '2'], by decide, by decide, by decide⟩
  simp only [tiedRules, List.mem_cons, List.not_mem_nil, or_false] at hr
  rcases hr with rfl | rfl | rfl
  · simp at hc
  · obtain rfl : "10.0.0.0/8" = c := by simpa using hc
    exact ⟨_, _, hnet, by decide⟩
  · obtain rfl : "10.0.0.1/32" = c := by simpa using hc
    exact ⟨_, _, hhost, by decide⟩

theorem tied_rules_least_match :
    (∃ i r, LeastMatch tiedRules ⟨0x0a000001, 0, 4000, 80, 6⟩ i r ∧
      (AclEngine.new tiedRules).rules[rank tiedRules i r]? = some r ∧
      (AclEngine.new tiedRules).evaluate true ⟨0x0a000001, 0, 4000, 80, 6⟩
        = some ⟨r.action, r.offloadEligible, some (rank tiedRules i r)⟩) ∨
    (∀ r ∈ tiedRules, ¬ r.Matches ⟨0x0a000001, 0, 4000, 80, 6⟩) ∧
      (AclEngine.new tiedRules).evaluate true ⟨0x0a000001, 0, 4000, 80, 6⟩
        = some ⟨.Deny, false, none⟩ :=
  acl_evaluates_least_match true tiedRules ⟨0x0a000001, 0, 4000, 80, 6⟩ wellFormed_tiedRules

example : (AclEngine.new tiedRules).evaluate true ⟨0x0a000001, 0, 4000, 80, 6⟩
    = some ⟨.Allow, true, some 0⟩ := by decide

end PrismFirewall.Datapath
