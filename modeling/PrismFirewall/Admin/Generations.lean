import Mathlib.Algebra.BigOperators.Group.List.Basic
import Mathlib.Algebra.Order.Ring.Nat
import PrismFirewall.Admin.Integrity

/-!
# The generations of the admin store

Every generation comes from one counter, so the `n`-th one drawn is `n` modulo `2 ^ 64`,
and a stored generation was drawn before (`Counted`).  `drawn` counts the draws of a run:
a call draws nothing when it fails, and a push draws one for each policy and one for the
firewall.
-/

namespace PrismFirewall.Admin

open PrismFirewall.Lib (Dict Machine)

/-- The generations that a call draws. -/
def AppStore.draws (s : AppStore) : Op → Nat
  | .createFirewall _ _ _ => 1
  | .updateFirewall id req _ =>
    match s.checkGeneration id req.generation with
    | .error _ => 0
    | .ok _ => 1
  | .deleteFirewall _ => 0
  | .createPolicy firewallId _ _ => if firewallId ∉ s.firewalls then 0 else 1
  | .createRule _ _ _ => 0
  | .deleteRule _ => 0
  | .applyDesiredState firewallId req _ _ =>
    match s.checkGeneration firewallId req.expectedGeneration with
    | .error _ => 0
    | .ok _ => req.policies.length + 1

/-- The generations drawn along a run. -/
def drawn (ops : List Op) : Nat := (admin.events (fun s op _ => some (s.draws op)) ops).sum

theorem drawn_append_singleton (ops : List Op) (op : Op) :
    drawn (ops ++ [op]) = drawn ops + (admin.run ops).draws op := by
  rw [drawn, Machine.events_append_singleton, List.sum_append, Option.toList_some,
    List.sum_singleton]
  rfl

/-- The counter stands after the `n`-th generation, and every stored one is among these. -/
structure Counted (n : Nat) (s : AppStore) : Prop where
  counter : s.generation = UInt64.ofNat (n + 1)
  stored : ∀ k fw, s.firewalls.get? k = some fw → ∃ m ≤ n, fw.generation = UInt64.ofNat m

namespace Counted

variable {n : Nat} {s s' : AppStore}

theorem draw (h : Counted n s) : Counted (n + 1) s.nextGeneration.2 where
  counter := by
    show s.generation + 1 = UInt64.ofNat (n + 1 + 1)
    rw [h.counter, UInt64.ofNat_add (n + 1) 1]
    rfl
  stored k fw hfw := by
    obtain ⟨m, hm, hgen⟩ := h.stored k fw hfw
    exact ⟨m, by omega, hgen⟩

theorem congr (h : Counted n s) (hf : s'.firewalls = s.firewalls)
    (hg : s'.generation = s.generation) : Counted n s' := by
  refine ⟨hg.trans h.counter, ?_⟩
  rw [hf]
  exact h.stored

/-- A firewall is written with the generation drawn last. -/
theorem putFirewall (h : Counted n s) (id : String) {fw : Firewall}
    (hfw : fw.generation = UInt64.ofNat n) : Counted n (s.putFirewall id fw) where
  counter := h.counter
  stored k fw' hget := by
    simp only [AppStore.putFirewall, Dict.get?_insert] at hget
    split at hget
    · cases hget
      exact ⟨n, Nat.le_refl n, hfw⟩
    · exact h.stored k fw' hget

theorem insertPolicies (uuids : Nat → String) (firewallId : String) (todo : List DesiredPolicy) :
    ∀ i n s, Counted n s →
      Counted (n + todo.length) (AppStore.insertPolicies uuids firewallId i todo s) := by
  induction todo with
  | nil => exact fun i n s h => h
  | cons desired todo ih =>
    intro i n s h
    obtain ⟨hf, -, hg⟩ := insertRules_frame uuids (uuids i) desired.rules (i + 1)
      (s.nextGeneration.2.insertPolicy (uuids i) firewallId s.nextGeneration.1 desired)
    have hnext := ih (i + 1 + desired.rules.length) (n + 1) _ (h.draw.congr hf hg)
    rw [List.length_cons, Nat.add_comm todo.length 1, ← Nat.add_assoc]
    exact hnext

theorem pushed (h : Counted n s) (firewallId : String) (req : DesiredStateRequest)
    (uuids : Nat → String) : Counted (n + req.policies.length) (s.pushed firewallId req uuids) :=
  insertPolicies uuids firewallId req.policies 0 n _ (h.congr rfl rfl)

theorem apply (h : Counted n s) (op : Op) : Counted (n + s.draws op) (s.apply op).2 := by
  cases op with
  | createFirewall req uuid now => exact h.draw.putFirewall _ h.counter
  | updateFirewall id req now =>
    simp only [AppStore.apply, AppStore.updateFirewall, AppStore.draws]
    cases s.checkGeneration id req.generation with
    | error e => exact h
    | ok fw => exact h.draw.putFirewall _ h.counter
  | deleteFirewall id =>
    simp only [AppStore.apply, AppStore.deleteFirewall, AppStore.draws]
    split
    · exact h
    · refine ⟨h.counter, fun k fw hget => ?_⟩
      exact h.stored k fw (Dict.get?_erase_eq_some.mp hget).2
  | createPolicy firewallId req uuid =>
    simp only [AppStore.apply, AppStore.createPolicy, AppStore.draws]
    split
    · exact h
    · exact h.draw.congr rfl rfl
  | createRule policyId req uuid =>
    simp only [AppStore.apply, AppStore.createRule, AppStore.draws]
    split
    · exact h
    · exact h.congr rfl rfl
  | deleteRule id =>
    simp only [AppStore.apply, AppStore.deleteRule, AppStore.draws]
    split
    · exact h
    · exact h.congr rfl rfl
  | applyDesiredState firewallId req uuids now =>
    simp only [AppStore.apply, AppStore.draws]
    cases hc : s.checkGeneration firewallId req.expectedGeneration with
    | error e =>
      rw [applyDesiredState_error hc]
      exact h
    | ok fw =>
      have hloop := h.pushed firewallId req uuids
      rw [applyDesiredState_ok hc, ← pushed_firewalls s firewallId req uuids]
      exact hloop.draw.putFirewall firewallId hloop.counter

end Counted

theorem counted_run (ops : List Op) : Counted (drawn ops) (admin.run ops) := by
  induction ops using List.reverseRecOn with
  | nil => exact ⟨rfl, fun _ _ h => (by cases h)⟩
  | append_singleton ops op ih =>
    rw [drawn_append_singleton, Machine.run_append_singleton]
    exact ih.apply op

/-- **A push answers with a greater generation** as long as the counter has not wrapped. -/
theorem expectedGeneration_lt {ops : List Op} {firewallId : String} {req : DesiredStateRequest}
    {fw : Firewall} {uuids : Nat → String} {now : String}
    (hc : (admin.run ops).checkGeneration firewallId req.expectedGeneration = .ok fw)
    (hwrap : drawn (ops ++ [.applyDesiredState firewallId req uuids now]) < 2 ^ 64) :
    req.expectedGeneration < ((admin.run ops).pushed firewallId req uuids).generation := by
  have hn := counted_run ops
  obtain ⟨hget, hgen⟩ := AppStore.checkGeneration_eq_ok_iff.mp hc
  obtain ⟨m, hm, hstored⟩ := hn.stored firewallId fw hget
  rw [drawn_append_singleton] at hwrap
  simp only [AppStore.draws, hc] at hwrap
  rw [← hgen, hstored, (hn.pushed firewallId req uuids).counter, UInt64.lt_iff_toNat_lt,
    UInt64.toNat_ofNat', UInt64.toNat_ofNat', Nat.mod_eq_of_lt (by omega),
    Nat.mod_eq_of_lt (by omega)]
  omega

end PrismFirewall.Admin
