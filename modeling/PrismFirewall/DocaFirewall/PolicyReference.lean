import PrismFirewall.DocaFirewall.Policy

/-!
# The policy engine and its reference

`policy_evaluate` walks through the array with a running best priority.  The reference
says what it is for: of the enabled rules that match, the one with the least priority
decides, and of several with that priority the one that stands first (`IsLeastMatch`).

The running best starts at `UINT32_MAX` and is improved strictly, so a rule with that
priority never wins.  It does not have to: the default-deny rule has the same priority,
the same action as the initial result and the smallest index, and it is always there
(`Sound`).  `Scanned` is the invariant of the loop, and `policy_engine_reference` is
the result for every table the engine can reach.
-/

namespace PrismFirewall.DocaFirewall

open Lib

/-! ### The reference -/

/-- The rule matches the packet. -/
structure PolicyRule.Matches (r : PolicyRule) (p : FiveTuple) : Prop where
  protocol : r.protocol = 0 ∨ r.protocol = p.protocol
  srcIp : r.srcIp ≠ 0 → p.srcIp &&& r.srcIpMask = r.srcIp &&& r.srcIpMask
  dstIp : r.dstIp ≠ 0 → p.dstIp &&& r.dstIpMask = r.dstIp &&& r.dstIpMask
  srcPort : r.srcPortMin ≤ p.srcPort ∧ p.srcPort ≤ r.srcPortMax
  dstPort : r.dstPortMin ≤ p.dstPort ∧ p.dstPort ≤ r.dstPortMax

/-- The rule with the index is enabled and matches, and it is the least such rule by
priority and index. -/
structure IsLeastMatch (t : PolicyTable) (p : FiveTuple) (i : Nat) : Prop where
  index : i < t.nrRules
  enabled : (cell t.rules i).enabled = true
  isMatch : (cell t.rules i).Matches p
  least : ∀ j < t.nrRules, (cell t.rules j).enabled = true → (cell t.rules j).Matches p →
    (cell t.rules i).priority < (cell t.rules j).priority ∨
      (cell t.rules i).priority = (cell t.rules j).priority ∧ i ≤ j

/-! ### The checks -/

/-- The full range has every port in it, so skipping the check loses nothing. -/
theorem portPasses_iff {lo hi port : UInt16} :
    PolicyRule.portPasses lo hi port = true ↔ lo ≤ port ∧ port ≤ hi := by
  unfold PolicyRule.portPasses
  by_cases h : lo = 0 ∧ hi = 65535
  · obtain ⟨rfl, rfl⟩ := h
    have hlt := port.toNat_lt
    simp only [UInt16.le_iff_toNat_le]
    simp
    omega
  · have hne : (lo != 0 || hi != 65535) = true := by
      simp only [Bool.or_eq_true, bne_iff_ne]
      tauto
    simp [hne]

theorem passes_iff {r : PolicyRule} {p : FiveTuple} :
    r.passes p = true ↔ r.enabled = true ∧ r.Matches p := by
  have hiff : r.passes p = true ↔ r.enabled = true ∧
      (r.protocol = 0 ∨ r.protocol = p.protocol) ∧
      (r.srcIp ≠ 0 → p.srcIp &&& r.srcIpMask = r.srcIp &&& r.srcIpMask) ∧
      (r.dstIp ≠ 0 → p.dstIp &&& r.dstIpMask = r.dstIp &&& r.dstIpMask) ∧
      (r.srcPortMin ≤ p.srcPort ∧ p.srcPort ≤ r.srcPortMax) ∧
      (r.dstPortMin ≤ p.dstPort ∧ p.dstPort ≤ r.dstPortMax) := by
    simp only [PolicyRule.passes, PolicyRule.srcIpPasses, PolicyRule.dstIpPasses, Bool.and_eq_true,
      portPasses_iff, Bool.not_eq_true', Bool.and_eq_false_iff, bne_eq_false_iff_eq]
    tauto
  rw [hiff]
  constructor
  · intro h
    obtain ⟨h1, h2, h3, h4, h5, h6⟩ := h
    exact ⟨h1, h2, h3, h4, h5, h6⟩
  · intro h
    obtain ⟨h1, h2, h3, h4, h5, h6⟩ := h
    exact ⟨h1, h2, h3, h4, h5, h6⟩

/-! ### The loop -/

/-- What the loop knows after the first rules. -/
inductive Best (t : PolicyTable) (p : FiveTuple) (n : Nat) (scan : Scan) : Prop
  | none (hbest : scan.bestPriority = uint32Max) (hresult : scan.result = .DENY)
      (hall : ∀ j < n, (cell t.rules j).passes p = true →
        (cell t.rules j).priority = uint32Max)
  | some (i : Nat) (hi : i < n) (hpasses : (cell t.rules i).passes p = true)
      (hbest : scan.bestPriority = (cell t.rules i).priority)
      (hresult : scan.result = (cell t.rules i).action)
      (hall : ∀ j < n, (cell t.rules j).passes p = true →
        (cell t.rules i).priority < (cell t.rules j).priority ∨
          (cell t.rules i).priority = (cell t.rules j).priority ∧ i ≤ j)

/-- The invariant of the loop: the rules ahead are as they were, those behind may have
one more hit, and only if they beat the initial best. -/
structure Scanned (t : PolicyTable) (p : FiveTuple) (n : Nat) (scan : Scan) : Prop where
  ahead : ∀ i, n ≤ i → cell scan.rules i = cell t.rules i
  hits : ∀ i, cell scan.rules i = cell t.rules i ∨
    (cell t.rules i).priority < uint32Max ∧
      cell scan.rules i = { cell t.rules i with hitCount := (cell t.rules i).hitCount + 1 }
  best : Best t p n scan

theorem le_uint32Max (a : UInt32) : a ≤ uint32Max := by
  have h := a.toNat_lt
  rw [UInt32.le_iff_toNat_le]
  show a.toNat ≤ 4294967295
  omega

theorem Best.bestPriority_le {t : PolicyTable} {p : FiveTuple} {n : Nat} {scan : Scan}
    (h : Best t p n scan) {j : Nat} (hj : j < n) (hp : (cell t.rules j).passes p = true) :
    scan.bestPriority ≤ (cell t.rules j).priority := by
  cases h with
  | none hbest hresult hall =>
    rw [hbest, hall j hj hp]
    exact UInt32.le_refl _
  | some i hi hpasses hbest hresult hall =>
    rw [hbest]
    rcases hall j hj hp with h | ⟨h, -⟩
    · exact UInt32.le_of_lt h
    · rw [h]
      exact UInt32.le_refl _

/-- A rule that does not beat what was found so far changes nothing. -/
theorem Best.skip {t : PolicyTable} {p : FiveTuple} {n : Nat} {scan : Scan} (h : Best t p n scan)
    (hskip : (cell t.rules n).passes p = true → scan.bestPriority ≤ (cell t.rules n).priority) :
    Best t p (n + 1) scan := by
  cases h with
  | none hbest hresult hall =>
    refine .none hbest hresult (fun j hj hpj => ?_)
    rcases Nat.lt_succ_iff_lt_or_eq.mp hj with hj | rfl
    · exact hall j hj hpj
    · have hge := hskip hpj
      rw [hbest] at hge
      exact UInt32.le_antisymm (le_uint32Max _) hge
  | some i hi hpasses hbest hresult hall =>
    refine .some i (by omega) hpasses hbest hresult (fun j hj hpj => ?_)
    rcases Nat.lt_succ_iff_lt_or_eq.mp hj with hj | rfl
    · exact hall j hj hpj
    · have hge := hskip hpj
      rw [hbest] at hge
      rcases UInt32.lt_or_eq_of_le hge with hlt | heq
      · exact Or.inl hlt
      · exact Or.inr ⟨heq, by omega⟩

theorem scanned_step {t : PolicyTable} {p : FiveTuple} {n : Nat} {scan : Scan}
    (hn : n < maxPolicyRules) (h : Scanned t p n scan) :
    Scanned t p (n + 1) (scan.step p n) := by
  have hcell : cell scan.rules n = cell t.rules n := h.ahead n (Nat.le_refl n)
  unfold Scan.step
  rw [hcell]
  dsimp only
  by_cases hit : ((cell t.rules n).passes p &&
      decide ((cell t.rules n).priority < scan.bestPriority)) = true
  · -- a new best rule
    rw [if_pos hit]
    rw [Bool.and_eq_true, decide_eq_true_eq] at hit
    obtain ⟨hp, hlt⟩ := hit
    refine ⟨fun i hi => ?_, fun i => ?_, .some n (by omega) hp rfl rfl (fun j hj hpj => ?_)⟩
    · rw [cell_set _ hn, if_neg (by omega)]
      exact h.ahead i (by omega)
    · rw [cell_set _ hn]
      by_cases hi : i = n
      · subst hi
        rw [if_pos rfl]
        exact Or.inr ⟨UInt32.lt_of_lt_of_le hlt (le_uint32Max _), rfl⟩
      · rw [if_neg hi]
        exact h.hits i
    · rcases Nat.lt_succ_iff_lt_or_eq.mp hj with hj | rfl
      · exact Or.inl (UInt32.lt_of_lt_of_le hlt (h.best.bestPriority_le hj hpj))
      · exact Or.inr ⟨rfl, Nat.le_refl j⟩
  · -- what was found so far is at least as good
    rw [if_neg hit]
    rw [Bool.and_eq_true, decide_eq_true_eq] at hit
    exact ⟨fun i hi => h.ahead i (by omega), h.hits,
      h.best.skip (fun hp => UInt32.not_lt.mp (fun hlt => hit ⟨hp, hlt⟩))⟩

theorem scan_succ (t : PolicyTable) (p : FiveTuple) (n : Nat) :
    t.scan p (n + 1) = (t.scan p n).step p n := by
  simp [PolicyTable.scan, List.range_succ]

/-- **The loop of `policy_evaluate`.** -/
theorem scanned_scan (t : PolicyTable) (p : FiveTuple) (n : Nat) (hn : n ≤ maxPolicyRules) :
    Scanned t p n (t.scan p n) := by
  induction n with
  | zero =>
    exact ⟨fun i _ => rfl, fun i => Or.inl rfl, .none rfl rfl (fun j hj => by omega)⟩
  | succ n ih =>
    rw [scan_succ]
    exact scanned_step (by omega) (ih (by omega))

/-! ### The invariant of the table -/

/-- The default-deny rule stands first and the count fits the array. -/
structure Sound (t : PolicyTable) : Prop where
  first : cell t.rules 0 = defaultDeny
  pos : 1 ≤ t.nrRules
  le : t.nrRules ≤ maxPolicyRules

theorem sound_policyInit : Sound policyInit := by
  refine ⟨?_, Nat.le_refl 1, by decide⟩
  rw [policyInit, cell_set _ (by decide), if_pos rfl]

theorem live_policyInit : policyInit.live = [defaultDeny] := by
  show used policyInit.rules 1 = [defaultDeny]
  rw [used_succ, sound_policyInit.first]
  rfl

theorem sound_policyAddRule {s : Policy} (h : Sound s.table) (rule : PolicyRule) :
    Sound (policyAddRule s rule).2.table := by
  have hpos := h.pos
  unfold policyAddRule
  split
  · exact h
  · rename_i hfull
    refine ⟨?_, by dsimp only; omega, by dsimp only; omega⟩
    dsimp only
    rw [cell_set _ (by omega), if_neg (by omega)]
    exact h.first

/-- A rule that is found under an identifier other than `0` is not the first. -/
theorem indexOf_spec {t : PolicyTable} (h : Sound t) {ruleId : UInt32} (h0 : ruleId ≠ 0) {i : Nat}
    (hi : t.indexOf ruleId = some i) : 0 < i ∧ i < t.nrRules := by
  obtain ⟨hid, hmem, -⟩ := List.find?_range_eq_some.mp hi
  refine ⟨Nat.pos_of_ne_zero (fun hz => ?_), List.mem_range.mp hmem⟩
  subst hz
  rw [h.first, beq_iff_eq] at hid
  exact h0 hid.symm

theorem sound_policyRemoveRule {s : Policy} (h : Sound s.table) (ruleId : UInt32) :
    Sound (policyRemoveRule s ruleId).2.table := by
  unfold policyRemoveRule
  split
  · rename_i i hi
    split
    · exact h
    · rename_i h0
      have hle := h.le
      obtain ⟨hpos, hlt⟩ := indexOf_spec h h0 hi
      refine ⟨?_, by dsimp only; omega, by dsimp only; omega⟩
      dsimp only
      rw [shiftDown, cell_foldl_shift _ _ _ (by omega), if_neg (by omega)]
      exact h.first
  · exact h

theorem sound_policyEvaluate {s : Policy} (h : Sound s.table) (p : FiveTuple) :
    Sound (policyEvaluate s p).2.table := by
  refine ⟨?_, h.pos, h.le⟩
  show cell (s.table.scan p s.table.nrRules).rules 0 = defaultDeny
  rcases (scanned_scan s.table p _ h.le).hits 0 with h0 | ⟨hlt, -⟩
  · rw [h0]
    exact h.first
  · rw [h.first] at hlt
    exact absurd hlt (by decide)

theorem sound_run (nextRuleId : UInt32) (l : List PolicyCall) :
    Sound ((policyEngine nextRuleId).run l).table := by
  refine (policyEngine nextRuleId).run_induction (P := fun _ s => Sound s.table)
    sound_policyInit ?_ l
  intro l c s h
  cases c with
  | addRule rule => exact sound_policyAddRule h rule
  | removeRule ruleId => exact sound_policyRemoveRule h ruleId
  | evaluate p => exact sound_policyEvaluate h p

/-! ### The results -/

/-- **`policy_evaluate` returns the action of the least match.** -/
theorem policyEvaluate_spec {s : Policy} (h : Sound s.table) (p : FiveTuple) :
    ∃ i, IsLeastMatch s.table p i ∧ (policyEvaluate s p).1 = (cell s.table.rules i).action := by
  have hdeny : defaultDeny.passes p = true := by
    rw [passes_iff]
    have hsrc := p.srcPort.toNat_lt
    have hdst := p.dstPort.toNat_lt
    refine ⟨rfl, Or.inl rfl, fun h => absurd rfl h, fun h => absurd rfl h, ?_, ?_⟩
    · simp only [UInt16.le_iff_toNat_le, defaultDeny]
      simp
      omega
    · simp only [UInt16.le_iff_toNat_le, defaultDeny]
      simp
      omega
  cases (scanned_scan s.table p s.table.nrRules h.le).best with
  | none hbest hresult hall =>
    -- nothing beats the default rule
    rw [← h.first, passes_iff] at hdeny
    refine ⟨0, ⟨h.pos, hdeny.1, hdeny.2, fun j hj hen hm => ?_⟩, ?_⟩
    · refine Or.inr ⟨?_, Nat.zero_le j⟩
      rw [hall j hj (passes_iff.mpr ⟨hen, hm⟩), h.first]
      rfl
    · show (s.table.scan p s.table.nrRules).result = _
      rw [hresult, h.first]
      rfl
  | some i hi hpasses hbest hresult hall =>
    obtain ⟨hen, hm⟩ := passes_iff.mp hpasses
    exact ⟨i, ⟨hi, hen, hm, fun j hj hen' hm' => hall j hj (passes_iff.mpr ⟨hen', hm'⟩)⟩, hresult⟩

/-- **`policy_remove_rule` takes out the first rule with the identifier** and leaves the
others in their order. -/
theorem live_policyRemoveRule {s : Policy} (h : Sound s.table) (ruleId : UInt32) :
    (policyRemoveRule s ruleId).2.table.live =
      if ruleId = 0 then s.table.live else s.table.live.eraseP (fun r => r.id == ruleId) := by
  have hindex : s.table.indexOf ruleId = s.table.live.findIdx? (fun r => r.id == ruleId) :=
    find?_range_cell s.table.rules s.table.nrRules (fun r => r.id == ruleId)
  unfold policyRemoveRule
  rw [List.eraseP_eq_eraseIdx, ← hindex]
  cases hi : s.table.indexOf ruleId with
  | none => simp
  | some i =>
    dsimp only
    split
    · rfl
    · rename_i h0
      exact used_shiftDown _ (indexOf_spec h h0 hi).2 h.le

/-- **The policy engine equals its reference.**  In every table the engine reaches from
`policy_init`, the default-deny rule stands first and there are between 1 and 256
rules; the evaluation of any five-tuple returns the action of the least match; and a
removal takes out one rule at most and keeps the order of the others. -/
theorem policy_engine_reference (nextRuleId : UInt32) (l : List PolicyCall) :
    cell ((policyEngine nextRuleId).run l).table.rules 0 = defaultDeny ∧
    1 ≤ ((policyEngine nextRuleId).run l).table.nrRules ∧
    ((policyEngine nextRuleId).run l).table.nrRules ≤ 256 ∧
    (∀ p, ∃ i, IsLeastMatch ((policyEngine nextRuleId).run l).table p i ∧
      (policyEvaluate ((policyEngine nextRuleId).run l) p).1
        = (cell ((policyEngine nextRuleId).run l).table.rules i).action) ∧
    (∀ ruleId, (policyRemoveRule ((policyEngine nextRuleId).run l) ruleId).2.table.live =
      if ruleId = 0 then ((policyEngine nextRuleId).run l).table.live
      else ((policyEngine nextRuleId).run l).table.live.eraseP (fun r => r.id == ruleId)) := by
  have h := sound_run nextRuleId l
  exact ⟨h.first, h.pos, h.le, policyEvaluate_spec h, live_policyRemoveRule h⟩

end PrismFirewall.DocaFirewall
