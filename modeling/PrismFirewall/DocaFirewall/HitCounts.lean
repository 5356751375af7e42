import Mathlib.Data.List.InsertIdx
import PrismFirewall.DocaFirewall.PolicyReference

/-!
# What the hit counts count

The loop of `policy_evaluate` counts a hit whenever a rule beats the best priority so far,
and such a rule may be beaten by a later one.  So a hit is not a decision: `IsHit` is
what the loop counts (`cell_scan`), `IsLeastMatch` the rule that decides.  The default
rule decides where nothing else matches, and it is never hit, as its priority does not
beat the initial one.

`Tallied` keeps beside the table how often each rule has decided since it was added.
`hit_counts_iff` says that the hit counts are these numbers, modulo `2^64`, along exactly
the runs in which the first matching rule with a priority below `UINT32_MAX` decides every
time.
-/

namespace PrismFirewall.DocaFirewall

open Lib

/-! ### The tally -/

instance (r : PolicyRule) (p : FiveTuple) : Decidable (r.Matches p) :=
  decidable_of_iff ((r.protocol = 0 ∨ r.protocol = p.protocol) ∧
      (r.srcIp ≠ 0 → p.srcIp &&& r.srcIpMask = r.srcIp &&& r.srcIpMask) ∧
      (r.dstIp ≠ 0 → p.dstIp &&& r.dstIpMask = r.dstIp &&& r.dstIpMask) ∧
      (r.srcPortMin ≤ p.srcPort ∧ p.srcPort ≤ r.srcPortMax) ∧
      (r.dstPortMin ≤ p.dstPort ∧ p.dstPort ≤ r.dstPortMax))
    ⟨fun ⟨h1, h2, h3, h4, h5⟩ => ⟨h1, h2, h3, h4, h5⟩,
      fun ⟨h1, h2, h3, h4, h5⟩ => ⟨h1, h2, h3, h4, h5⟩⟩

instance (t : PolicyTable) (p : FiveTuple) (i : Nat) : Decidable (IsLeastMatch t p i) :=
  decidable_of_iff (i < t.nrRules ∧ (cell t.rules i).enabled = true ∧ (cell t.rules i).Matches p ∧
      ∀ j < t.nrRules, (cell t.rules j).enabled = true → (cell t.rules j).Matches p →
        (cell t.rules i).priority < (cell t.rules j).priority ∨
          (cell t.rules i).priority = (cell t.rules j).priority ∧ i ≤ j)
    ⟨fun ⟨h1, h2, h3, h4⟩ => ⟨h1, h2, h3, h4⟩, fun ⟨h1, h2, h3, h4⟩ => ⟨h1, h2, h3, h4⟩⟩

/-- The engine, and how often each rule of the table has decided since it was added. -/
structure Tallied where
  policy : Policy
  decided : List Nat

/-- A new rule has decided nothing, a removed one is forgotten, and an evaluation counts for
the least match. -/
def Tallied.tally (s : Tallied) : PolicyCall → List Nat
  | .addRule _ =>
    if maxPolicyRules ≤ s.policy.table.nrRules then s.decided else s.decided ++ [0]
  | .removeRule ruleId =>
    match s.policy.table.indexOf ruleId with
    | some i => if ruleId = 0 then s.decided else s.decided.eraseIdx i
    | none => s.decided
  | .evaluate p =>
    s.decided.mapIdx (fun i n => if IsLeastMatch s.policy.table p i then n + 1 else n)

def talliedEngine (nextRuleId : UInt32) : Machine Tallied PolicyCall PolicyReply where
  init := ⟨⟨policyInit, nextRuleId⟩, [0]⟩
  step s c := ((policyStep s.policy c).1, ⟨(policyStep s.policy c).2, s.tally c⟩)

/-- The tally does not change what the engine does. -/
theorem policy_talliedEngine (nextRuleId : UInt32) (l : List PolicyCall) :
    ((talliedEngine nextRuleId).run l).policy = (policyEngine nextRuleId).run l := by
  induction l using List.reverseRecOn with
  | nil => rfl
  | append_singleton l c ih =>
    rw [Machine.run_append_singleton, Machine.run_append_singleton, ← ih]
    rfl

/-- The hit counts of the table. -/
def PolicyTable.hits (t : PolicyTable) : List UInt64 := t.live.map PolicyRule.hitCount

/-- Each hit count is the number of decisions, modulo `2^64`. -/
def Tallied.Agrees (s : Tallied) : Prop :=
  s.policy.table.hits = s.decided.map UInt64.ofNat

theorem hits_policyInit : policyInit.hits = [0] := by
  rw [PolicyTable.hits, live_policyInit]
  rfl

/-! ### What the loop counts -/

/-- The rule beats the initial priority and every matching rule before it. -/
def IsHit (t : PolicyTable) (p : FiveTuple) (i : Nat) : Prop :=
  (cell t.rules i).passes p = true ∧ (cell t.rules i).priority < uint32Max ∧
    ∀ j < i, (cell t.rules j).passes p = true →
      (cell t.rules i).priority < (cell t.rules j).priority

/-- What it takes to beat the best priority of the first rules. -/
theorem lt_bestPriority_iff {t : PolicyTable} {p : FiveTuple} {n : Nat} {scan : Scan}
    (h : Scanned t p n scan) {x : UInt32} : x < scan.bestPriority ↔
      x < uint32Max ∧ ∀ j < n, (cell t.rules j).passes p = true → x < (cell t.rules j).priority := by
  constructor
  · intro hx
    exact ⟨UInt32.lt_of_lt_of_le hx (le_uint32Max _),
      fun j hj hp => UInt32.lt_of_lt_of_le hx (h.best.bestPriority_le hj hp)⟩
  · rintro ⟨hmax, hall⟩
    cases h.best with
    | none hbest hresult hall' => rw [hbest]; exact hmax
    | some i hi hpasses hbest hresult hall' => rw [hbest]; exact hall i hi hpasses

open Classical in
/-- **The cells after the loop**: a hit for each rule that beat what came before it. -/
theorem cell_scan (t : PolicyTable) (p : FiveTuple) (n : Nat) (hn : n ≤ maxPolicyRules) (i : Nat) :
    cell (t.scan p n).rules i = if i < n ∧ IsHit t p i then
      { cell t.rules i with hitCount := (cell t.rules i).hitCount + 1 } else cell t.rules i := by
  induction n with
  | zero => simp [PolicyTable.scan]
  | succ n ih =>
    have hscan := scanned_scan t p n (by omega)
    have hcell : cell (t.scan p n).rules n = cell t.rules n := hscan.ahead n (Nat.le_refl n)
    have hhit : ((cell t.rules n).passes p &&
        decide ((cell t.rules n).priority < (t.scan p n).bestPriority)) = true ↔ IsHit t p n := by
      rw [Bool.and_eq_true, decide_eq_true_eq, lt_bestPriority_iff hscan]
      rfl
    rw [scan_succ, Scan.step, hcell]
    dsimp only
    by_cases hit : IsHit t p n
    · rw [if_pos (hhit.mpr hit), cell_set _ (by omega)]
      by_cases hi : i = n
      · subst hi
        rw [if_pos rfl, if_pos ⟨by omega, hit⟩]
      · rw [if_neg hi, ih (by omega)]
        by_cases hin : i < n ∧ IsHit t p i
        · rw [if_pos hin, if_pos ⟨by omega, hin.2⟩]
        · rw [if_neg hin, if_neg (fun h => hin ⟨by omega, h.2⟩)]
    · rw [if_neg (fun h => hit (hhit.mp h)), ih (by omega)]
      by_cases hin : i < n ∧ IsHit t p i
      · rw [if_pos hin, if_pos ⟨by omega, hin.2⟩]
      · rw [if_neg hin, if_neg]
        rintro ⟨hlt, hi⟩
        rcases Nat.lt_succ_iff_lt_or_eq.mp hlt with h | rfl
        · exact hin ⟨h, hi⟩
        · exact hit hi

/-! ### When the hit is the decision -/

/-- The rule that decides beats the initial priority, and no matching rule before it does. -/
def FirstDecides (t : PolicyTable) (p : FiveTuple) : Prop :=
  ∃ i, IsLeastMatch t p i ∧ (cell t.rules i).priority < uint32Max ∧
    ∀ j < i, (cell t.rules j).passes p = true → (cell t.rules j).priority = uint32Max

theorem isLeastMatch_unique {t : PolicyTable} {p : FiveTuple} {i j : Nat}
    (hi : IsLeastMatch t p i) (hj : IsLeastMatch t p j) : i = j := by
  have h1 := hi.least j hj.index hj.enabled hj.isMatch
  have h2 := hj.least i hi.index hi.enabled hi.isMatch
  simp only [UInt32.lt_iff_toNat_lt, ← UInt32.toNat_inj] at h1 h2
  omega

theorem isHit_iff_isLeastMatch_iff {t : PolicyTable} (h : Sound t) (p : FiveTuple) :
    (∀ i < t.nrRules, IsHit t p i ↔ IsLeastMatch t p i) ↔ FirstDecides t p := by
  constructor
  · intro hall
    obtain ⟨d, hd, -⟩ := policyEvaluate_spec (s := ⟨t, 0⟩) h p
    refine ⟨d, hd, ((hall d hd.index).mpr hd).2.1, fun j => ?_⟩
    -- the first one below the initial priority would be a hit, and it does not decide
    induction j using Nat.strongRecOn with
    | ind j ih =>
      intro hj hpj
      by_contra hne
      have hlt : (cell t.rules j).priority < uint32Max :=
        UInt32.lt_of_le_of_ne (le_uint32Max _) hne
      have hhit : IsHit t p j := by
        refine ⟨hpj, hlt, fun k hk hpk => ?_⟩
        rw [ih k hk (by omega) hpk]
        exact hlt
      have hd' : d < t.nrRules := hd.index
      have hdj := isLeastMatch_unique hd ((hall j (by omega)).mp hhit)
      omega
  · rintro ⟨d, hd, hlt, hbefore⟩ j hj
    have hpd : (cell t.rules d).passes p = true := passes_iff.mpr ⟨hd.enabled, hd.isMatch⟩
    constructor
    · intro hhit
      obtain ⟨hpj, hltj, hallj⟩ := hhit
      rcases Nat.lt_trichotomy j d with hjd | rfl | hjd
      · rw [hbefore j hjd hpj] at hltj
        exact absurd hltj (UInt32.lt_irrefl _)
      · exact hd
      · obtain ⟨hen, hm⟩ := passes_iff.mp hpj
        have hbeat := hallj d hjd hpd
        have hleast := hd.least j hj hen hm
        simp only [UInt32.lt_iff_toNat_lt, ← UInt32.toNat_inj] at hbeat hleast
        omega
    · intro hleast
      rw [isLeastMatch_unique hleast hd]
      refine ⟨hpd, hlt, fun k hk hpk => ?_⟩
      rw [hbefore k hk hpk]
      exact hlt

/-! ### One call -/

/-- A tally has a place for each rule. -/
def Tallied.Fits (s : Tallied) : Prop :=
  Sound s.policy.table ∧ s.decided.length = s.policy.table.nrRules

theorem Tallied.Fits.exists_decided {s : Tallied} (h : s.Fits) {i : Nat}
    (hi : i < s.policy.table.nrRules) : ∃ n, s.decided[i]? = some n :=
  ⟨_, List.getElem?_eq_getElem (by rw [h.2]; exact hi)⟩

theorem fits_step {s : Tallied} (h : s.Fits) (c : PolicyCall) :
    Tallied.Fits ⟨(policyStep s.policy c).2, s.tally c⟩ := by
  obtain ⟨hsound, hlen⟩ := h
  cases c with
  | addRule rule =>
    refine ⟨sound_policyAddRule hsound rule, ?_⟩
    show (s.tally (.addRule rule)).length = (policyAddRule s.policy rule).2.table.nrRules
    rw [Tallied.tally, policyAddRule]
    by_cases hfull : maxPolicyRules ≤ s.policy.table.nrRules
    · rw [if_pos hfull, if_pos hfull]
      exact hlen
    · rw [if_neg hfull, if_neg hfull]
      simp [hlen]
  | removeRule ruleId =>
    refine ⟨sound_policyRemoveRule hsound ruleId, ?_⟩
    show (s.tally (.removeRule ruleId)).length = (policyRemoveRule s.policy ruleId).2.table.nrRules
    rw [Tallied.tally, policyRemoveRule]
    cases hi : s.policy.table.indexOf ruleId with
    | none => exact hlen
    | some i =>
      dsimp only
      by_cases h0 : ruleId = 0
      · rw [if_pos h0, if_pos h0]
        exact hlen
      · have hlt := (indexOf_spec hsound h0 hi).2
        rw [if_neg h0, if_neg h0, List.length_eraseIdx_of_lt (by omega), hlen]
  | evaluate p =>
    refine ⟨sound_policyEvaluate hsound p, ?_⟩
    show (s.tally (.evaluate p)).length = s.policy.table.nrRules
    rw [Tallied.tally, List.length_mapIdx, hlen]

theorem fits_run (nextRuleId : UInt32) (l : List PolicyCall) :
    ((talliedEngine nextRuleId).run l).Fits :=
  (talliedEngine nextRuleId).run_induction (P := fun _ s => s.Fits) ⟨sound_policyInit, rfl⟩
    (fun _ c _ h => fits_step h c) l

theorem getElem?_hits {t : PolicyTable} {i : Nat} (hi : i < t.nrRules) :
    t.hits[i]? = some (cell t.rules i).hitCount := by
  rw [PolicyTable.hits, PolicyTable.live, List.getElem?_map, getElem?_used hi]
  rfl

theorem length_hits (t : PolicyTable) : t.hits.length = t.nrRules := by
  rw [PolicyTable.hits, PolicyTable.live, List.length_map, length_used]

theorem agrees_iff {s : Tallied} (h : s.Fits) : s.Agrees ↔
    ∀ i < s.policy.table.nrRules, ∀ n, s.decided[i]? = some n →
      (cell s.policy.table.rules i).hitCount = UInt64.ofNat n := by
  constructor
  · intro ha i hi n hn
    have hget := getElem?_hits hi
    rw [ha, List.getElem?_map, hn, Option.map_some, Option.some.injEq] at hget
    exact hget.symm
  · intro hall
    refine List.ext_getElem? (fun i => ?_)
    by_cases hi : i < s.policy.table.nrRules
    · obtain ⟨n, hn⟩ := h.exists_decided hi
      rw [getElem?_hits hi, List.getElem?_map, hn, hall i hi _ hn]
      rfl
    · rw [List.getElem?_eq_none (by rw [length_hits]; omega),
        List.getElem?_eq_none (by rw [List.length_map, h.2]; omega)]

/-- Two counters that were the same are the same afterwards if both or neither went up. -/
theorem bump_eq_iff {P Q : Prop} [Decidable P] [Decidable Q] (n : Nat) :
    (if P then UInt64.ofNat n + 1 else UInt64.ofNat n) = UInt64.ofNat (if Q then n + 1 else n) ↔
      (P ↔ Q) := by
  have hsucc : UInt64.ofNat (n + 1) = UInt64.ofNat n + 1 := UInt64.ofNat_add n 1
  have hne : UInt64.ofNat n + 1 ≠ UInt64.ofNat n := by
    intro h
    have hnat := congrArg UInt64.toNat h
    rw [UInt64.toNat_add] at hnat
    have hlt := (UInt64.ofNat n).toNat_lt
    have hone : (1 : UInt64).toNat = 1 := rfl
    omega
  by_cases hP : P
  · by_cases hQ : Q
    · simp [hP, hQ, hsucc]
    · simp [hP, hQ, hne]
  · by_cases hQ : Q
    · simp [hP, hQ, hsucc, hne.symm]
    · simp [hP, hQ]

/-- The evaluation hits the rule that decides and no other. -/
def HitIsDecision (s : Tallied) : PolicyCall → Prop
  | .evaluate p => FirstDecides s.policy.table p
  | _ => True

open Classical in
theorem agrees_evaluate_iff {s : Tallied} (h : s.Fits) (ha : s.Agrees) (p : FiveTuple) :
    Tallied.Agrees ⟨(policyStep s.policy (.evaluate p)).2, s.tally (.evaluate p)⟩ ↔
      FirstDecides s.policy.table p := by
  rw [← isHit_iff_isLeastMatch_iff h.1 p, agrees_iff (fits_step h _)]
  have hold := (agrees_iff h).mp ha
  -- the two counters of one rule, from what they were before
  have hone : ∀ i, i < s.policy.table.nrRules → ∀ n, s.decided[i]? = some n →
      (s.tally (.evaluate p))[i]?
          = some (if IsLeastMatch s.policy.table p i then n + 1 else n) ∧
        (cell (policyStep s.policy (.evaluate p)).2.table.rules i).hitCount
          = if IsHit s.policy.table p i then UInt64.ofNat n + 1 else UInt64.ofNat n := by
    intro i hi n hn
    constructor
    · rw [Tallied.tally, List.getElem?_mapIdx, hn]
      rfl
    · show (cell (s.policy.table.scan p s.policy.table.nrRules).rules i).hitCount = _
      rw [cell_scan _ _ _ h.1.le, ← hold i hi n hn]
      by_cases hit : IsHit s.policy.table p i
      · rw [if_pos ⟨hi, hit⟩, if_pos hit]
      · rw [if_neg (fun hh => hit hh.2), if_neg hit]
  constructor
  · intro hall i hi
    obtain ⟨n, hn⟩ := h.exists_decided hi
    obtain ⟨htally, hcount⟩ := hone i hi _ hn
    have hnew := hall i hi _ htally
    rw [hcount] at hnew
    exact (bump_eq_iff _).mp hnew
  · intro hall i hi n' hn'
    obtain ⟨n, hn⟩ := h.exists_decided hi
    obtain ⟨htally, hcount⟩ := hone i hi _ hn
    rw [htally, Option.some.injEq] at hn'
    rw [hcount, ← hn']
    exact (bump_eq_iff _).mpr (hall i hi)

theorem agrees_step_iff {s : Tallied} (h : s.Fits) (ha : s.Agrees) (c : PolicyCall) :
    Tallied.Agrees ⟨(policyStep s.policy c).2, s.tally c⟩ ↔ HitIsDecision s c := by
  cases c with
  | evaluate p => exact agrees_evaluate_iff h ha p
  | addRule rule =>
    refine iff_of_true ?_ trivial
    show (policyAddRule s.policy rule).2.table.hits = (s.tally (.addRule rule)).map UInt64.ofNat
    rw [Tallied.tally]
    by_cases hfull : maxPolicyRules ≤ s.policy.table.nrRules
    · rw [if_pos hfull, ← ha, policyAddRule, if_pos hfull]
    · rw [if_neg hfull, List.map_append, ← ha, policyAddRule, if_neg hfull]
      show (used _ _).map PolicyRule.hitCount = _
      rw [used_set _ (by omega), List.map_append]
      rfl
  | removeRule ruleId =>
    refine iff_of_true ?_ trivial
    show (policyRemoveRule s.policy ruleId).2.table.hits
      = (s.tally (.removeRule ruleId)).map UInt64.ofNat
    rw [Tallied.tally, policyRemoveRule]
    cases hi : s.policy.table.indexOf ruleId with
    | none => exact ha
    | some i =>
      dsimp only
      by_cases h0 : ruleId = 0
      · rw [if_pos h0, if_pos h0]
        exact ha
      · rw [if_neg h0, if_neg h0, ← List.eraseIdx_map, ← ha]
        show (used _ _).map PolicyRule.hitCount = _
        rw [used_shiftDown _ (indexOf_spec h.1 h0 hi).2 h.1.le, ← List.eraseIdx_map]
        rfl

/-! ### The result -/

/-- **What the hit counts say.**  Along a run from `policy_init` every hit count is all the
time the number of evaluations its rule has decided, modulo `2^64`, if and only if in every
evaluation the first matching rule with a priority below `UINT32_MAX` decides. -/
theorem hit_counts_iff (nextRuleId : UInt32) (l : List PolicyCall) :
    (∀ l₁ l₂, l = l₁ ++ l₂ → ((talliedEngine nextRuleId).run l₁).Agrees) ↔
      (talliedEngine nextRuleId).Meets HitIsDecision l :=
  (talliedEngine nextRuleId).forall_run_iff_meets (A := Tallied.Agrees) hits_policyInit
    (fun l c ha => agrees_step_iff (fits_run nextRuleId l) ha c) l

/-- A rule for all packets. -/
def anyRule (priority : UInt32) (action : PolicyAction) : PolicyRule :=
  { PolicyRule.zero with
    srcPortMax := 65535
    dstPortMax := 65535
    action := action
    priority := priority
    enabled := true }

/-- Two rules for all packets, the better one after the other, and one packet. -/
def twoRules : List PolicyCall :=
  [.addRule (anyRule 200 .ALLOW), .addRule (anyRule 100 .DENY), .evaluate ⟨1, 2, 3, 4, 6⟩]

/-- **A rule that was overruled is hit**: the rule of priority 100 decides, and both have a hit. -/
theorem overruled_rule_is_hit :
    ((talliedEngine 1).run twoRules).policy.table.hits = [0, 1, 1] ∧
    ((talliedEngine 1).run twoRules).decided = [0, 0, 1] ∧
    ¬ ∀ l₁ l₂, twoRules = l₁ ++ l₂ → ((talliedEngine 1).run l₁).Agrees := by
  have hhits : ((talliedEngine 1).run twoRules).policy.table.hits = [0, 1, 1] := by decide +kernel
  have hdecided : ((talliedEngine 1).run twoRules).decided = [0, 0, 1] := by decide +kernel
  refine ⟨hhits, hdecided, fun h => ?_⟩
  have hagrees := h twoRules [] (List.append_nil _).symm
  rw [Tallied.Agrees, hhits, hdecided] at hagrees
  exact absurd hagrees (by decide)

end PrismFirewall.DocaFirewall
