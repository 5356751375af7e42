import Mathlib.Algebra.Order.Ring.Nat
import PrismFirewall.DocaFirewall.PolicyReference

/-!
# The identifiers of the rules

`policy_add_rule` numbers the rules with a counter of 32 bits that wraps around, and
returns the number as an `int`, where a negative value says that the table is full.
So a number from `2^31` on is taken for a failure, and a number that comes again may be
that of a rule that is still there; the default rule has the number `0`.

`rule_ids_usable_iff` says that there is nothing else: the ids stay usable along
a run exactly if every rule that finds room gets a number below `2^31` that no rule in
the table has.  The counter does reach `2^31` (`nextRuleId_reuse`).
-/

namespace PrismFirewall.DocaFirewall

open Lib

/-- The ids of the rules, in the order of the array. -/
def PolicyTable.ids (t : PolicyTable) : List UInt32 := t.live.map PolicyRule.id

/-- The table has no room. -/
def PolicyTable.Full (t : PolicyTable) : Prop := maxPolicyRules ≤ t.nrRules

/-- A negative answer to `policy_add_rule` says that the table is as it was, and no other does. -/
def AnswersTruly (s : Policy) : PolicyCall → Prop
  | .addRule rule => (policyAddRule s rule).1 < 0 ↔ (policyAddRule s rule).2.table = s.table
  | _ => True

/-- The next number is not negative as an `int`. -/
def Positive (s : Policy) : PolicyCall → Prop
  | .addRule _ => s.table.Full ∨ s.nextRuleId.toNat < 2 ^ 31
  | _ => True

/-- No rule has the next number. -/
def Unused (s : Policy) : PolicyCall → Prop
  | .addRule _ => s.table.Full ∨ s.nextRuleId ∉ s.table.ids
  | _ => True

/-- If there is room, the next number is below `2^31` and no rule has it. -/
def FreshId (s : Policy) : PolicyCall → Prop
  | .addRule _ => s.table.Full ∨ s.nextRuleId.toNat < 2 ^ 31 ∧ s.nextRuleId ∉ s.table.ids
  | _ => True

/-! ### The answer -/

theorem toCInt_neg_iff {id : UInt32} : toCInt id < 0 ↔ 2 ^ 31 ≤ id.toNat := by
  have hlt := id.toNat_lt
  have hcint : toCInt id = id.toBitVec.toInt := rfl
  have hnat : id.toBitVec.toNat = id.toNat := rfl
  rw [hcint, BitVec.toInt_eq_toNat_cond, hnat]
  split
  · omega
  · omega

theorem answersTruly_iff {s : Policy} {c : PolicyCall} : AnswersTruly s c ↔ Positive s c := by
  cases c with
  | addRule rule =>
    rw [AnswersTruly, Positive, policyAddRule, PolicyTable.Full]
    by_cases hfull : maxPolicyRules ≤ s.table.nrRules
    · rw [if_pos hfull]
      simp [hfull]
    · rw [if_neg hfull]
      have hne : PolicyTable.mk (s.table.rules.setIfInBounds s.table.nrRules
          { rule with id := s.nextRuleId, hitCount := 0 }) (s.table.nrRules + 1) ≠ s.table := by
        intro h
        have hn := congrArg PolicyTable.nrRules h
        simp at hn
      dsimp only
      rw [toCInt_neg_iff]
      simp only [hne, iff_false, hfull, false_or]
      omega
  | removeRule ruleId => exact Iff.rfl
  | evaluate p => exact Iff.rfl

/-! ### The ids in the table -/

theorem nodup_ids_policyInit : policyInit.ids.Nodup := by
  rw [PolicyTable.ids, live_policyInit]
  decide

/-- A rule that finds room stands last. -/
theorem live_policyAddRule {s : Policy} (hroom : ¬ s.table.Full) (rule : PolicyRule) :
    (policyAddRule s rule).2.table.live
      = s.table.live ++ [{ rule with id := s.nextRuleId, hitCount := 0 }] := by
  rw [PolicyTable.Full, Nat.not_le] at hroom
  rw [policyAddRule, if_neg (by omega)]
  exact used_set _ hroom _

theorem ids_policyAddRule {s : Policy} (hroom : ¬ s.table.Full) (rule : PolicyRule) :
    (policyAddRule s rule).2.table.ids = s.table.ids ++ [s.nextRuleId] := by
  rw [PolicyTable.ids, live_policyAddRule hroom, List.map_append]
  rfl

theorem nextRuleId_policyAddRule {s : Policy} (hroom : ¬ s.table.Full) (rule : PolicyRule) :
    (policyAddRule s rule).2.nextRuleId = s.nextRuleId + 1 := by
  rw [PolicyTable.Full, Nat.not_le] at hroom
  rw [policyAddRule, if_neg (by omega)]

theorem nextRuleId_policyRemoveRule (s : Policy) (ruleId : UInt32) :
    (policyRemoveRule s ruleId).2.nextRuleId = s.nextRuleId := by
  unfold policyRemoveRule
  split
  · split
    · rfl
    · rfl
  · rfl

theorem ids_policyRemoveRule {s : Policy} (h : Sound s.table) (ruleId : UInt32) :
    List.Sublist (policyRemoveRule s ruleId).2.table.ids s.table.ids := by
  rw [PolicyTable.ids, live_policyRemoveRule h]
  split
  · exact List.Sublist.refl _
  · exact List.eraseP_sublist.map _

/-- A rule without its hits. -/
def PolicyRule.unhit (r : PolicyRule) : PolicyRule := { r with hitCount := 0 }

/-- An evaluation changes nothing but hits. -/
theorem unhit_policyEvaluate {s : Policy} (h : Sound s.table) (p : FiveTuple) :
    (policyEvaluate s p).2.table.live.map PolicyRule.unhit = s.table.live.map PolicyRule.unhit := by
  show (used (s.table.scan p s.table.nrRules).rules s.table.nrRules).map PolicyRule.unhit
    = (used s.table.rules s.table.nrRules).map PolicyRule.unhit
  rw [used, used, List.map_map, List.map_map]
  refine List.map_congr_left (fun i _ => ?_)
  rcases (scanned_scan s.table p _ h.le).hits i with hi | ⟨-, hi⟩
  · exact congrArg PolicyRule.unhit hi
  · exact (congrArg PolicyRule.unhit hi).trans rfl

theorem ids_policyEvaluate {s : Policy} (h : Sound s.table) (p : FiveTuple) :
    (policyEvaluate s p).2.table.ids = s.table.ids := by
  have hids := congrArg (List.map PolicyRule.id) (unhit_policyEvaluate h p)
  rw [List.map_map, List.map_map] at hids
  exact hids

/-- One call keeps the ids distinct exactly if it does not use one again. -/
theorem nodup_step_iff {s : Policy} (h : Sound s.table) (hd : s.table.ids.Nodup) (c : PolicyCall) :
    (policyStep s c).2.table.ids.Nodup ↔ Unused s c := by
  cases c with
  | addRule rule =>
    show (policyAddRule s rule).2.table.ids.Nodup ↔ s.table.Full ∨ s.nextRuleId ∉ s.table.ids
    by_cases hfull : s.table.Full
    · have hsame : (policyAddRule s rule).2 = s := by
        unfold policyAddRule
        exact (if_pos hfull).symm ▸ rfl
      rw [hsame]
      exact iff_of_true hd (Or.inl hfull)
    · rw [ids_policyAddRule hfull, List.nodup_append]
      simp only [hfull, false_or, List.mem_singleton, forall_eq]
      constructor
      · intro hall hmem
        exact hall.2.2 _ hmem rfl
      · intro hmem
        refine ⟨hd, by simp, fun a ha e => ?_⟩
        rw [e] at ha
        exact hmem ha
  | removeRule ruleId => exact iff_of_true (hd.sublist (ids_policyRemoveRule h ruleId)) trivial
  | evaluate p =>
    show (policyEvaluate s p).2.table.ids.Nodup ↔ True
    rw [ids_policyEvaluate h]
    exact iff_of_true hd trivial

/-! ### Runs -/

/-- Every answer of `policy_add_rule` is right, and the ids in the table are all the time
distinct. -/
def IdsUsable (nextRuleId : UInt32) (l : List PolicyCall) : Prop :=
  (policyEngine nextRuleId).Meets AnswersTruly l ∧
    ∀ l₁ l₂, l = l₁ ++ l₂ → ((policyEngine nextRuleId).run l₁).table.ids.Nodup

/-- **When rule ids stay usable**: along a run from `policy_init`, wherever the counter
stands, they do if and only if every rule that finds room gets a fresh id. -/
theorem rule_ids_usable_iff (nextRuleId : UInt32) (l : List PolicyCall) :
    IdsUsable nextRuleId l ↔ (policyEngine nextRuleId).Meets FreshId l := by
  have hids : (∀ l₁ l₂, l = l₁ ++ l₂ → ((policyEngine nextRuleId).run l₁).table.ids.Nodup) ↔
      (policyEngine nextRuleId).Meets Unused l :=
    (policyEngine nextRuleId).forall_run_iff_meets (A := fun s => s.table.ids.Nodup)
      nodup_ids_policyInit
      (fun l c hd => nodup_step_iff (sound_run nextRuleId l) hd c) l
  have hfresh : ∀ s c, FreshId s c ↔ AnswersTruly s c ∧ Unused s c := by
    intro s c
    rw [answersTruly_iff]
    cases c with
    | addRule rule => exact or_and_left
    | removeRule ruleId => exact (and_self_iff (a := True)).symm
    | evaluate p => exact (and_self_iff (a := True)).symm
  rw [IdsUsable, hids]
  constructor
  · rintro ⟨ha, hu⟩ l₁ c l₂ e
    exact (hfresh _ _).mpr ⟨ha l₁ c l₂ e, hu l₁ c l₂ e⟩
  · intro h
    exact ⟨fun l₁ c l₂ e => ((hfresh _ _).mp (h l₁ c l₂ e)).1,
      fun l₁ c l₂ e => ((hfresh _ _).mp (h l₁ c l₂ e)).2⟩

/-! ### The counter gets there -/

/-- Rules are added and removed again, one after the other. -/
def addAndRemove : Nat → List PolicyCall
  | 0 => []
  | n + 1 => addAndRemove n ++ [.addRule .zero] ++ [.removeRule (UInt32.ofNat (n + 1))]

/-- Each pair of calls uses up a number and leaves the table with its default rule. -/
theorem nextRuleId_reuse (n : Nat) (hn : n < 2 ^ 32) :
    ((policyEngine 1).run (addAndRemove n)).nextRuleId = UInt32.ofNat (n + 1) ∧
      ((policyEngine 1).run (addAndRemove n)).table.live = [defaultDeny] := by
  induction n with
  | zero => exact ⟨rfl, live_policyInit⟩
  | succ n ih =>
    obtain ⟨hid, hlive⟩ := ih (by omega)
    rw [addAndRemove, Machine.run_append_singleton, Machine.run_append_singleton]
    generalize hs : (policyEngine 1).run (addAndRemove n) = s at hid hlive
    have hsound : Sound s.table := by
      rw [← hs]
      exact sound_run 1 _
    have hone : s.table.nrRules = 1 := by
      have hlen := congrArg List.length hlive
      rwa [PolicyTable.live, length_used] at hlen
    have hroom : ¬ s.table.Full := by
      rw [PolicyTable.Full, hone]
      decide
    have hzero : UInt32.ofNat (n + 1) ≠ 0 := by
      intro h
      have hnat := congrArg UInt32.toNat h
      rw [UInt32.toNat_ofNat', Nat.mod_eq_of_lt hn] at hnat
      simp at hnat
    show (policyRemoveRule (policyAddRule s .zero).2 (UInt32.ofNat (n + 1))).2.nextRuleId = _ ∧
      (policyRemoveRule (policyAddRule s .zero).2 (UInt32.ofNat (n + 1))).2.table.live = _
    constructor
    · rw [nextRuleId_policyRemoveRule, nextRuleId_policyAddRule hroom, hid,
        UInt32.ofNat_add (n + 1) 1]
      rfl
    · rw [live_policyRemoveRule (sound_policyAddRule hsound .zero), if_neg hzero,
        live_policyAddRule hroom, hlive, hid, List.singleton_append,
        List.eraseP_cons_of_neg (by simpa [defaultDeny] using hzero.symm),
        List.eraseP_cons_of_pos (by simp)]

/-- **A rule is added and reported as refused.**  After `2^31 - 1` rules have been added and
removed, one more finds room, and the answer is negative. -/
theorem added_rule_reported_as_failure :
    (policyAddRule ((policyEngine 1).run (addAndRemove (2 ^ 31 - 1))) .zero).1 = -2147483648 ∧
    (policyAddRule ((policyEngine 1).run (addAndRemove (2 ^ 31 - 1))) .zero).2.table.live
      = [defaultDeny, { PolicyRule.zero with id := 2147483648, hitCount := 0 }] ∧
    ¬ IdsUsable 1 (addAndRemove (2 ^ 31 - 1) ++ [.addRule .zero]) := by
  obtain ⟨hid, hlive⟩ := nextRuleId_reuse (2 ^ 31 - 1) (by omega)
  generalize hs : (policyEngine 1).run (addAndRemove (2 ^ 31 - 1)) = s at hid hlive
  have hroom : ¬ s.table.Full := by
    have hlen := congrArg List.length hlive
    rw [PolicyTable.live, length_used] at hlen
    rw [PolicyTable.Full, hlen]
    decide
  refine ⟨?_, ?_, fun h => ?_⟩
  · rw [PolicyTable.Full, Nat.not_le] at hroom
    rw [policyAddRule, if_neg (by omega), hid]
    show toCInt (UInt32.ofNat (2 ^ 31 - 1 + 1)) = -2147483648
    decide
  · rw [live_policyAddRule hroom, hlive, hid]
    rfl
  · have htruly := h.1 (addAndRemove (2 ^ 31 - 1)) (.addRule .zero) [] rfl
    rw [hs, answersTruly_iff, Positive, hid] at htruly
    rcases htruly with hfull | hlt
    · exact hroom hfull
    · exact absurd hlt (by decide)

end PrismFirewall.DocaFirewall
