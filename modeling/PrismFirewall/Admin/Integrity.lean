import PrismFirewall.Admin.Crud

/-!
# Referential integrity of the admin store

Policies name a firewall and rules name a policy.  Every call keeps these references
intact except one: `delete_firewall` removes a firewall and leaves its policies and
their rules behind.  `Unreferenced` asks of a deletion that no policy names the
firewall, and `integrity_iff` says that this is all there is to it.

The references of the rules are never broken (`Anchored`): a push removes the policies of
its firewall by their own ids, and a policy is filed under its id (`Filed`).
-/

namespace PrismFirewall.Admin

open PrismFirewall.Lib (Dict Machine)

/-- Every reference of the store leads somewhere. -/
structure Integrity (s : AppStore) : Prop where
  policy : ∀ k p, s.policies.get? k = some p → p.firewallId ∈ s.firewalls
  rule : ∀ k r, s.rules.get? k = some r → r.policyId ∈ s.policies

/-- No policy names the firewall that the call deletes. -/
def Unreferenced (s : AppStore) : Op → Prop
  | .deleteFirewall id => ∀ p ∈ s.policies.values, p.firewallId ≠ id
  | _ => True

instance (s : AppStore) : (op : Op) → Decidable (Unreferenced s op)
  | .createFirewall _ _ _ => inferInstanceAs (Decidable True)
  | .updateFirewall _ _ _ => inferInstanceAs (Decidable True)
  | .deleteFirewall _ => inferInstanceAs (Decidable (∀ p ∈ _, _ ≠ _))
  | .createPolicy _ _ _ => inferInstanceAs (Decidable True)
  | .createRule _ _ _ => inferInstanceAs (Decidable True)
  | .deleteRule _ => inferInstanceAs (Decidable True)
  | .applyDesiredState _ _ _ _ => inferInstanceAs (Decidable True)

/-- A policy is filed under its id. -/
def Filed (s : AppStore) : Prop := ∀ k p, s.policies.get? k = some p → p.id = k

/-- What every call keeps: policies are filed under their ids, and the policy of a rule is
there. -/
structure Anchored (s : AppStore) : Prop where
  filed : Filed s
  rule : ∀ k r, s.rules.get? k = some r → r.policyId ∈ s.policies

/-- The firewall of every policy is there. -/
def PoliciesReferred (s : AppStore) : Prop :=
  ∀ k p, s.policies.get? k = some p → p.firewallId ∈ s.firewalls

variable {s : AppStore}

/-! ### Writing one resource -/

theorem Anchored.putPolicy (h : Anchored s) (p : Policy) :
    Anchored { s with policies := s.policies.insert p.id p } where
  filed := by
    intro k p' hget
    dsimp only at hget
    rw [Dict.get?_insert] at hget
    split at hget
    · rename_i hk
      cases hget
      exact hk.symm
    · exact h.filed k p' hget
  rule k r hr := Dict.mem_insert.mpr (Or.inr (h.rule k r hr))

theorem Anchored.putRule (h : Anchored s) {k : String} {r : Rule} (hr : r.policyId ∈ s.policies) :
    Anchored { s with rules := s.rules.insert k r } where
  filed := h.filed
  rule k' r' hget := by
    dsimp only at hget
    rw [Dict.get?_insert] at hget
    split at hget
    · cases hget
      exact hr
    · exact h.rule k' r' hget

theorem PoliciesReferred.putPolicy (h : PoliciesReferred s) {k : String} {p : Policy}
    (hp : p.firewallId ∈ s.firewalls) :
    PoliciesReferred { s with policies := s.policies.insert k p } := by
  intro k' p' hget
  dsimp only at hget
  rw [Dict.get?_insert] at hget
  split at hget
  · cases hget
    exact hp
  · exact h k' p' hget

theorem PoliciesReferred.putFirewall (h : PoliciesReferred s) (id : String) (fw : Firewall) :
    PoliciesReferred (s.putFirewall id fw) :=
  fun k p hp => Dict.mem_insert.mpr (Or.inr (h k p hp))

/-! ### A push -/

/-- The inner loop of a push writes rules only. -/
theorem insertRules_frame (uuids : Nat → String) (policyId : String)
    (reqs : List CreateRuleRequest) :
    ∀ n s, (AppStore.insertRules uuids policyId n reqs s).firewalls = s.firewalls ∧
      (AppStore.insertRules uuids policyId n reqs s).policies = s.policies ∧
      (AppStore.insertRules uuids policyId n reqs s).generation = s.generation := by
  induction reqs with
  | nil => exact fun n s => ⟨rfl, rfl, rfl⟩
  | cons req reqs ih => exact fun n s => ih (n + 1) (s.insertRule (uuids n) policyId req)

theorem insertPolicies_firewalls (uuids : Nat → String) (firewallId : String)
    (todo : List DesiredPolicy) : ∀ n s,
      (AppStore.insertPolicies uuids firewallId n todo s).firewalls = s.firewalls := by
  induction todo with
  | nil => exact fun n s => rfl
  | cons desired todo ih =>
    intro n s
    rw [AppStore.insertPolicies, ih, (insertRules_frame _ _ _ _ _).1]
    rfl

/-- The store after the loops of a push. -/
def AppStore.pushed (s : AppStore) (firewallId : String) (req : DesiredStateRequest)
    (uuids : Nat → String) : AppStore :=
  insertPolicies uuids firewallId 0 req.policies
    ((s.retainRules (s.policyIds firewallId)).retainPolicies firewallId)

theorem pushed_firewalls (s : AppStore) (firewallId : String) (req : DesiredStateRequest)
    (uuids : Nat → String) : (s.pushed firewallId req uuids).firewalls = s.firewalls :=
  insertPolicies_firewalls _ _ _ _ _

/-- **A push that passes its check** answers with the counter, and writes it. -/
theorem applyDesiredState_ok {firewallId : String} {req : DesiredStateRequest} {fw : Firewall}
    (hc : s.checkGeneration firewallId req.expectedGeneration = .ok fw) (uuids : Nat → String)
    (now : String) :
    s.applyDesiredState firewallId req uuids now
      = (.ok (s.pushed firewallId req uuids).generation,
          { s.pushed firewallId req uuids with
            generation := (s.pushed firewallId req uuids).generation + 1
            firewalls := s.firewalls.insert firewallId
              { fw with generation := (s.pushed firewallId req uuids).generation,
                        updatedAt := now } }) := by
  have hget := (AppStore.checkGeneration_eq_ok_iff.mp hc).1
  rw [← pushed_firewalls s firewallId req uuids] at hget
  simp only [AppStore.applyDesiredState, hc]
  show (Except.ok (s.pushed firewallId req uuids).generation,
    ((s.pushed firewallId req uuids).nextGeneration.2).writeGeneration firewallId
      (s.pushed firewallId req uuids).generation now) = _
  rw [AppStore.writeGeneration]
  simp only [AppStore.nextGeneration, AppStore.putFirewall, hget]
  rw [pushed_firewalls]

theorem applyDesiredState_error {firewallId : String} {req : DesiredStateRequest} {e : StoreError}
    (hc : s.checkGeneration firewallId req.expectedGeneration = .error e) (uuids : Nat → String)
    (now : String) : s.applyDesiredState firewallId req uuids now = (.error e, s) := by
  simp only [AppStore.applyDesiredState, hc]

theorem Anchored.insertRules (uuids : Nat → String) (policyId : String)
    (reqs : List CreateRuleRequest) : ∀ n s, Anchored s → policyId ∈ s.policies →
      Anchored (AppStore.insertRules uuids policyId n reqs s) := by
  induction reqs with
  | nil => exact fun n s h _ => h
  | cons req reqs ih => exact fun n s h hmem => ih (n + 1) _ (h.putRule hmem) hmem

theorem Anchored.insertPolicies (uuids : Nat → String) (firewallId : String)
    (todo : List DesiredPolicy) : ∀ n s, Anchored s →
      Anchored (AppStore.insertPolicies uuids firewallId n todo s) := by
  induction todo with
  | nil => exact fun n s h => h
  | cons desired todo ih =>
    intro n s h
    refine ih _ _ (Anchored.insertRules uuids (uuids n) desired.rules (n + 1) _ ?_ ?_)
    · exact Anchored.putPolicy (s := s.nextGeneration.2) ⟨h.filed, h.rule⟩ ⟨uuids n, firewallId,
        desired.name, desired.priority, desired.defaultAction, s.nextGeneration.1⟩
    · exact Dict.mem_insert.mpr (Or.inl rfl)

theorem PoliciesReferred.insertPolicies (uuids : Nat → String) (firewallId : String)
    (todo : List DesiredPolicy) : ∀ n s, PoliciesReferred s → firewallId ∈ s.firewalls →
      PoliciesReferred (AppStore.insertPolicies uuids firewallId n todo s) := by
  induction todo with
  | nil => exact fun n s h _ => h
  | cons desired todo ih =>
    intro n s h hmem
    have hframe := insertRules_frame uuids (uuids n) desired.rules (n + 1)
      (s.nextGeneration.2.insertPolicy (uuids n) firewallId s.nextGeneration.1 desired)
    simp only [AppStore.insertPolicies]
    refine ih _ _ ?_ ?_
    · rw [PoliciesReferred, hframe.1, hframe.2.1]
      exact PoliciesReferred.putPolicy (s := s.nextGeneration.2) h hmem
    · rw [hframe.1]
      exact hmem

/-- The rules of a firewall are those whose policy names it. -/
theorem Anchored.mem_policyIds_iff (h : Anchored s) {firewallId id : String} {p : Policy}
    (hp : s.policies.get? id = some p) :
    id ∈ s.policyIds firewallId ↔ p.firewallId = firewallId := by
  constructor
  · intro hid
    obtain ⟨p', hp', rfl⟩ := List.mem_map.mp hid
    obtain ⟨hmem, hfw⟩ := List.mem_filter.mp hp'
    obtain ⟨k, hk⟩ := Dict.mem_values_iff.mp hmem
    rw [h.filed k p' hk, hk] at hp
    rw [← Option.some.inj hp]
    simpa using hfw
  · intro hfw
    rw [← h.filed id p hp]
    refine List.mem_map_of_mem (List.mem_filter.mpr ⟨Dict.mem_values_iff.mpr ⟨id, hp⟩, ?_⟩)
    simpa using hfw

/-- The removals of a push take the rules of the policies they take. -/
theorem Anchored.retain (h : Anchored s) (firewallId : String) :
    Anchored ((s.retainRules (s.policyIds firewallId)).retainPolicies firewallId) where
  filed k p hp := by
    obtain ⟨hp, -⟩ := Dict.get?_filter_eq_some_iff.mp hp
    exact h.filed k p hp
  rule k r hr := by
    obtain ⟨hr, hkeep⟩ := Dict.get?_filter_eq_some_iff.mp hr
    obtain ⟨p, hp⟩ := Dict.mem_iff_get?.mp (h.rule k r hr)
    refine Dict.mem_of_get? (v := p) (Dict.get?_filter_eq_some_iff.mpr ⟨hp, ?_⟩)
    simp only [Bool.not_eq_true', List.contains_eq_mem, decide_eq_false_iff_not] at hkeep
    rw [h.mem_policyIds_iff hp] at hkeep
    simpa using hkeep

theorem Anchored.pushed (h : Anchored s) (firewallId : String) (req : DesiredStateRequest)
    (uuids : Nat → String) : Anchored (s.pushed firewallId req uuids) :=
  Anchored.insertPolicies uuids firewallId req.policies 0 _ (h.retain firewallId)

theorem Anchored.applyDesiredState (h : Anchored s) (firewallId : String)
    (req : DesiredStateRequest) (uuids : Nat → String) (now : String) :
    Anchored (s.applyDesiredState firewallId req uuids now).2 := by
  cases hc : s.checkGeneration firewallId req.expectedGeneration with
  | error e =>
    rw [applyDesiredState_error hc]
    exact h
  | ok fw =>
    rw [applyDesiredState_ok hc]
    exact ⟨(h.pushed firewallId req uuids).filed, (h.pushed firewallId req uuids).rule⟩

theorem PoliciesReferred.applyDesiredState (h : PoliciesReferred s) (firewallId : String)
    (req : DesiredStateRequest) (uuids : Nat → String) (now : String) :
    PoliciesReferred (s.applyDesiredState firewallId req uuids now).2 := by
  cases hc : s.checkGeneration firewallId req.expectedGeneration with
  | error e =>
    rw [applyDesiredState_error hc]
    exact h
  | ok fw =>
    have hmem : firewallId ∈ s.firewalls :=
      Dict.mem_of_get? (AppStore.checkGeneration_eq_ok_iff.mp hc).1
    have hretain : PoliciesReferred
        ((s.retainRules (s.policyIds firewallId)).retainPolicies firewallId) := by
      intro k p hp
      obtain ⟨hp, -⟩ := Dict.get?_filter_eq_some_iff.mp hp
      exact h k p hp
    have hloop := PoliciesReferred.insertPolicies uuids firewallId req.policies 0 _ hretain hmem
    rw [applyDesiredState_ok hc]
    intro k p hp
    have hfw := hloop k p hp
    rw [insertPolicies_firewalls] at hfw
    exact Dict.mem_insert.mpr (Or.inr hfw)

/-! ### One call -/

theorem Anchored.apply (h : Anchored s) (op : Op) : Anchored (s.apply op).2 := by
  cases op with
  | createFirewall req uuid now => exact ⟨h.filed, h.rule⟩
  | updateFirewall id req now =>
    simp only [AppStore.apply, AppStore.updateFirewall]
    split <;> exact ⟨h.filed, h.rule⟩
  | deleteFirewall id =>
    simp only [AppStore.apply, AppStore.deleteFirewall]
    split <;> exact ⟨h.filed, h.rule⟩
  | createPolicy firewallId req uuid =>
    simp only [AppStore.apply, AppStore.createPolicy]
    split
    · exact h
    · exact Anchored.putPolicy (s := s.nextGeneration.2) ⟨h.filed, h.rule⟩ _
  | createRule policyId req uuid =>
    simp only [AppStore.apply, AppStore.createRule]
    split
    · exact h
    · rename_i hmem
      exact h.putRule (not_not.mp hmem)
  | deleteRule id =>
    simp only [AppStore.apply, AppStore.deleteRule]
    split
    · exact h
    · refine ⟨h.filed, fun k r hr => ?_⟩
      exact h.rule k r (Dict.get?_erase_eq_some.mp hr).2
  | applyDesiredState firewallId req uuids now => exact h.applyDesiredState firewallId req uuids now

theorem anchored_run (ops : List Op) : Anchored (admin.run ops) := by
  refine Machine.run_induction (M := admin) (P := fun _ s => Anchored s) ?_
    (fun _ op s h => h.apply op) ops
  exact ⟨fun _ _ h => (by cases h), fun _ _ h => (by cases h)⟩

/-- **A call leaves every policy its firewall exactly if it is no deletion of a firewall
that a policy names.** -/
theorem policiesReferred_apply_iff (h : PoliciesReferred s) (op : Op) :
    PoliciesReferred (s.apply op).2 ↔ Unreferenced s op := by
  cases op with
  | createFirewall req uuid now =>
    exact iff_of_true (PoliciesReferred.putFirewall (s := s.nextGeneration.2) h _ _) trivial
  | updateFirewall id req now =>
    refine iff_of_true ?_ trivial
    simp only [AppStore.apply, AppStore.updateFirewall]
    split
    · exact h
    · exact PoliciesReferred.putFirewall (s := s.nextGeneration.2) h _ _
  | deleteFirewall id =>
    simp only [AppStore.apply, AppStore.deleteFirewall, Unreferenced]
    cases hget : s.firewalls.get? id with
    | none =>
      refine iff_of_true h (fun p hp => ?_)
      obtain ⟨k, hk⟩ := Dict.mem_values_iff.mp hp
      rintro rfl
      exact Dict.get?_eq_none_iff.mp hget (h k p hk)
    | some fw =>
      constructor
      · intro h' p hp
        obtain ⟨k, hk⟩ := Dict.mem_values_iff.mp hp
        exact (Dict.mem_erase.mp (h' k p hk)).1
      · intro hun k p hk
        exact Dict.mem_erase.mpr ⟨hun p (Dict.mem_values_iff.mpr ⟨k, hk⟩), h k p hk⟩
  | createPolicy firewallId req uuid =>
    refine iff_of_true ?_ trivial
    simp only [AppStore.apply, AppStore.createPolicy]
    split
    · exact h
    · rename_i hmem
      exact PoliciesReferred.putPolicy (s := s.nextGeneration.2) h (not_not.mp hmem)
  | createRule policyId req uuid =>
    refine iff_of_true ?_ trivial
    simp only [AppStore.apply, AppStore.createRule]
    split <;> exact h
  | deleteRule id =>
    refine iff_of_true ?_ trivial
    simp only [AppStore.apply, AppStore.deleteRule]
    split <;> exact h
  | applyDesiredState firewallId req uuids now =>
    exact iff_of_true (h.applyDesiredState firewallId req uuids now) trivial

/-! ### Every run -/

/-- **The references stay intact throughout a run exactly if no call of it deletes a
firewall that a policy names.** -/
theorem integrity_iff (ops : List Op) :
    (∀ done todo, ops = done ++ todo → Integrity (admin.run done)) ↔
      admin.Meets Unreferenced ops := by
  have hpolicies := admin.forall_run_iff_meets (A := PoliciesReferred) (C := Unreferenced)
    (fun _ _ h => (by cases h)) (fun _ op h => policiesReferred_apply_iff h op) ops
  rw [← hpolicies]
  constructor
  · exact fun h done todo e => (h done todo e).policy
  · exact fun h done todo e => ⟨h done todo e, (anchored_run done).rule⟩

/-- A firewall with a policy is deleted. -/
def deletedWithPolicy : List Op :=
  [.createFirewall ⟨"fw", "acme", "vpc", 100, .Inline, .Enabled⟩ "f1" "t0",
    .createPolicy "f1" ⟨"default", 10, .Deny⟩ "p1",
    .deleteFirewall "f1"]

/-- The policy names a firewall that is gone. -/
theorem policy_dangling : ¬ Integrity (admin.run deletedWithPolicy) := by
  intro h
  obtain ⟨p, hp, hfw⟩ : ∃ p, (admin.run deletedWithPolicy).policies.get? "p1" = some p ∧
      p.firewallId ∉ (admin.run deletedWithPolicy).firewalls :=
    ⟨⟨"p1", "f1", "default", 10, .Deny, 2⟩, by decide +kernel, by decide +kernel⟩
  exact hfw (h.policy "p1" p hp)

end PrismFirewall.Admin
