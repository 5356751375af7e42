import Mathlib.Data.Multiset.MapFold
import PrismFirewall.Admin.Generations

/-!
# A push on its own

`apply_desired_state` removes the policies of a firewall and the rules of these policies,
and creates the requested ones under new identifiers.  With identifiers that are fresh
(`FreshUuids`) the loops add their entries behind those that are kept
(`entries_insertPolicies`), so the firewall has what was asked for (`contents`) and the
others have what they had.

The generation that a push stores is the number of generations drawn so far, modulo
`2 ^ 64`: it is greater than the one it replaces (`expectedGeneration_lt`) until the
counter wraps, and then it is not.
-/

namespace PrismFirewall.Admin

open PrismFirewall.Lib (Dict Machine)

/-! ### Contents -/

/-- A policy and its rules without their identifiers. -/
abbrev Contents := String × UInt32 × RuleAction × Multiset CreateRuleRequest

def Rule.contents (r : Rule) : CreateRuleRequest :=
  ⟨r.priority, r.srcCidr, r.dstCidr, r.srcPortRange, r.dstPortRange, r.protocol, r.action,
    r.offloadEligible⟩

/-- What a push asks for. -/
def DesiredPolicy.contents (d : DesiredPolicy) : Contents :=
  (d.name, d.priority, d.defaultAction, (d.rules : Multiset CreateRuleRequest))

/-- What a list of rules says about a policy. -/
def Policy.contents (p : Policy) (rules : List Rule) : Contents :=
  (p.name, p.priority, p.defaultAction,
    ((rules.filter (fun r => r.policyId == p.id)).map Rule.contents : Multiset CreateRuleRequest))

/-- What a firewall has. -/
def AppStore.contents (s : AppStore) (firewallId : String) : Multiset Contents :=
  ((s.policies.values.filter (fun p => p.firewallId == firewallId)).map
    (fun p => p.contents s.rules.values) : List Contents)

/-- The policies and rules of the other firewalls are the same in both stores. -/
structure OthersUnchanged (firewallId : String) (s s' : AppStore) : Prop where
  policy : ∀ k p, p.firewallId ≠ firewallId →
    (s'.policies.get? k = some p ↔ s.policies.get? k = some p)
  rule : ∀ k r p, s.policies.get? r.policyId = some p → p.firewallId ≠ firewallId →
    (s'.rules.get? k = some r ↔ s.rules.get? k = some r)

/-- The number of identifiers that the loops draw. -/
def uuidCount (todo : List DesiredPolicy) : Nat := (todo.map (fun d => 1 + d.rules.length)).sum

/-- The first `n` identifiers are different from each other and not in use. -/
structure FreshUuids (s : AppStore) (uuids : Nat → String) (n : Nat) : Prop where
  distinct : ∀ i < n, ∀ j < n, uuids i = uuids j → i = j
  policies : ∀ i < n, uuids i ∉ s.policies
  rules : ∀ i < n, uuids i ∉ s.rules

/-! ### What the loops add -/

/-- The rules that the inner loop creates. -/
def newRules (uuids : Nat → String) (policyId : String) :
    Nat → List CreateRuleRequest → List Rule
  | _, [] => []
  | n, req :: reqs => req.rule (uuids n) policyId :: newRules uuids policyId (n + 1) reqs

/-- The policies that the outer loop creates, from a generation on. -/
def newPolicies (uuids : Nat → String) (firewallId : String) :
    Nat → UInt64 → List DesiredPolicy → List Policy
  | _, _, [] => []
  | n, gen, d :: todo => ⟨uuids n, firewallId, d.name, d.priority, d.defaultAction, gen⟩ ::
      newPolicies uuids firewallId (n + 1 + d.rules.length) (gen + 1) todo

/-- The rules that the outer loop creates. -/
def newRulesAll (uuids : Nat → String) : Nat → List DesiredPolicy → List Rule
  | _, [] => []
  | n, d :: todo => newRules uuids (uuids n) (n + 1) d.rules
      ++ newRulesAll uuids (n + 1 + d.rules.length) todo

/-- An entry under its own id. -/
def Rule.entry (r : Rule) : String × Rule := (r.id, r)

def Policy.entry (p : Policy) : String × Policy := (p.id, p)

variable {uuids : Nat → String} {firewallId policyId : String}

theorem mem_newRules (uuids : Nat → String) (policyId : String) (reqs : List CreateRuleRequest) :
    ∀ n, ∀ r ∈ newRules uuids policyId n reqs,
      r.policyId = policyId ∧ ∃ i, n ≤ i ∧ i < n + reqs.length ∧ r.id = uuids i := by
  induction reqs with
  | nil => exact fun n r hr => absurd hr List.not_mem_nil
  | cons req reqs ih =>
    intro n r hr
    rw [List.length_cons]
    rcases List.mem_cons.mp hr with rfl | hr
    · exact ⟨rfl, n, Nat.le_refl n, by omega, rfl⟩
    · obtain ⟨hp, i, h1, h2, hid⟩ := ih (n + 1) r hr
      exact ⟨hp, i, by omega, by omega, hid⟩

theorem map_contents_newRules (reqs : List CreateRuleRequest) :
    ∀ n, (newRules uuids policyId n reqs).map Rule.contents = reqs := by
  induction reqs with
  | nil => exact fun n => rfl
  | cons req reqs ih =>
    intro n
    rw [newRules, List.map_cons, ih]
    rfl

theorem uuidCount_cons (d : DesiredPolicy) (todo : List DesiredPolicy) :
    uuidCount (d :: todo) = 1 + d.rules.length + uuidCount todo := by
  simp [uuidCount]

/-- Where the policies and the rules of the outer loop have their identifiers from. -/
theorem mem_newRulesAll (todo : List DesiredPolicy) : ∀ n, ∀ r ∈ newRulesAll uuids n todo,
    (∃ i, n ≤ i ∧ i < n + uuidCount todo ∧ r.policyId = uuids i) ∧
    ∃ i, n ≤ i ∧ i < n + uuidCount todo ∧ r.id = uuids i := by
  induction todo with
  | nil => exact fun n r hr => absurd hr List.not_mem_nil
  | cons d todo ih =>
    intro n r hr
    rw [uuidCount_cons]
    rcases List.mem_append.mp hr with hr | hr
    · obtain ⟨hp, i, h1, h2, hid⟩ := mem_newRules uuids (uuids n) d.rules (n + 1) r hr
      exact ⟨⟨n, by omega, by omega, hp⟩, i, by omega, by omega, hid⟩
    · obtain ⟨⟨i, h1, h2, hp⟩, j, h3, h4, hid⟩ := ih _ r hr
      exact ⟨⟨i, by omega, by omega, hp⟩, j, by omega, by omega, hid⟩

theorem mem_newPolicies (todo : List DesiredPolicy) : ∀ n gen,
    ∀ p ∈ newPolicies uuids firewallId n gen todo, p.firewallId = firewallId ∧
      ∃ i, n ≤ i ∧ i < n + uuidCount todo ∧ p.id = uuids i := by
  induction todo with
  | nil => exact fun n gen p hp => absurd hp List.not_mem_nil
  | cons d todo ih =>
    intro n gen p hp
    rw [uuidCount_cons]
    rcases List.mem_cons.mp hp with rfl | hp
    · exact ⟨rfl, n, by omega, by omega, rfl⟩
    · obtain ⟨hfw, i, h1, h2, hid⟩ := ih _ _ p hp
      exact ⟨hfw, i, by omega, by omega, hid⟩

/-! ### The loops -/

/-- The first `N` identifiers are different from each other, and those from the `n`-th on are
not in use. -/
structure Unused (uuids : Nat → String) (n N : Nat) (s : AppStore) : Prop where
  distinct : ∀ i < N, ∀ j < N, uuids i = uuids j → i = j
  policies : ∀ i, n ≤ i → i < N → uuids i ∉ s.policies
  rules : ∀ i, n ≤ i → i < N → uuids i ∉ s.rules

variable {n N : Nat} {s : AppStore}

theorem Unused.insertPolicy (h : Unused uuids n N s) (hn : n < N) (firewallId : String)
    (generation : UInt64) (d : DesiredPolicy) :
    Unused uuids (n + 1) N (s.insertPolicy (uuids n) firewallId generation d) where
  distinct := h.distinct
  policies i hi hiN hmem := by
    rcases Dict.mem_insert.mp hmem with he | hmem
    · have hin := h.distinct i hiN n hn he
      omega
    · exact h.policies i (by omega) hiN hmem
  rules i hi hiN := h.rules i (by omega) hiN

theorem Unused.insertRule (h : Unused uuids n N s) (hn : n < N) (req : CreateRuleRequest) :
    Unused uuids (n + 1) N (s.insertRule (uuids n) policyId req) where
  distinct := h.distinct
  policies i hi hiN := h.policies i (by omega) hiN
  rules i hi hiN hmem := by
    rcases Dict.mem_insert.mp hmem with he | hmem
    · have hin := h.distinct i hiN n hn he
      omega
    · exact h.rules i (by omega) hiN hmem

/-- **The inner loop puts its rules behind the others**, and uses up as many identifiers. -/
theorem entries_insertRules (policyId : String) (reqs : List CreateRuleRequest) :
    ∀ n s, n + reqs.length ≤ N → Unused uuids n N s →
      (AppStore.insertRules uuids policyId n reqs s).rules.entries
        = s.rules.entries ++ (newRules uuids policyId n reqs).map Rule.entry ∧
      Unused uuids (n + reqs.length) N (AppStore.insertRules uuids policyId n reqs s) := by
  induction reqs with
  | nil => exact fun n s _ h => ⟨(List.append_nil _).symm, h⟩
  | cons req reqs ih =>
    intro n s hN h
    rw [List.length_cons] at hN ⊢
    have hone : (s.insertRule (uuids n) policyId req).rules.entries
        = s.rules.entries ++ [(req.rule (uuids n) policyId).entry] :=
      Dict.entries_insert_of_not_mem (h.rules n (Nat.le_refl n) (by omega)) _
    obtain ⟨hentries, hunused⟩ := ih (n + 1) _ (by omega) (h.insertRule (by omega) req)
    refine ⟨?_, ?_⟩
    · rw [AppStore.insertRules, hentries, hone, newRules, List.map_cons, List.append_assoc,
        List.singleton_append]
    · rw [Nat.add_comm reqs.length 1, ← Nat.add_assoc]
      exact hunused

/-- **The outer loop puts its policies and rules behind the others**, and draws a generation
for each policy. -/
theorem entries_insertPolicies (todo : List DesiredPolicy) : ∀ n s, n + uuidCount todo ≤ N →
    Unused uuids n N s →
      (AppStore.insertPolicies uuids firewallId n todo s).policies.entries = s.policies.entries
        ++ (newPolicies uuids firewallId n s.generation todo).map Policy.entry ∧
      (AppStore.insertPolicies uuids firewallId n todo s).rules.entries
        = s.rules.entries ++ (newRulesAll uuids n todo).map Rule.entry := by
  induction todo with
  | nil => exact fun n s _ _ => ⟨(List.append_nil _).symm, (List.append_nil _).symm⟩
  | cons d todo ih =>
    intro n s hN h
    rw [uuidCount_cons] at hN
    -- the store after the policy, and after its rules
    have hpolicy :
        (s.nextGeneration.2.insertPolicy (uuids n) firewallId s.generation d).policies.entries
        = s.policies.entries ++ [Policy.entry ⟨uuids n, firewallId, d.name, d.priority,
            d.defaultAction, s.generation⟩] :=
      Dict.entries_insert_of_not_mem (h.policies n (Nat.le_refl n) (by omega)) _
    have hdrawn : Unused uuids n N s.nextGeneration.2 := ⟨h.distinct, h.policies, h.rules⟩
    obtain ⟨hrules, hunused⟩ := entries_insertRules (uuids n) d.rules (n + 1) _
      (by omega) (hdrawn.insertPolicy (by omega) firewallId s.generation d)
    obtain ⟨-, hpframe, hgframe⟩ := insertRules_frame uuids (uuids n) d.rules (n + 1)
      (s.nextGeneration.2.insertPolicy (uuids n) firewallId s.generation d)
    obtain ⟨hp, hr⟩ := ih (n + 1 + d.rules.length) _ (by omega) hunused
    refine ⟨?_, ?_⟩
    · refine hp.trans ?_
      rw [hpframe, hpolicy, hgframe, newPolicies, List.map_cons, List.append_assoc,
        List.singleton_append]
      rfl
    · refine hr.trans ?_
      rw [hrules, newRulesAll, List.map_append, List.append_assoc]
      rfl

/-! ### What a push leaves -/

/-- **The new policies have what was asked for**, whatever other rules there are, as long as
these name none of the new policies. -/
theorem map_contents_newPolicies {N : Nat} (hinj : ∀ i < N, ∀ j < N, uuids i = uuids j → i = j)
    (todo : List DesiredPolicy) : ∀ n gen (others : List Rule), n + uuidCount todo ≤ N →
      (∀ r ∈ others, ∀ i, n ≤ i → i < N → r.policyId ≠ uuids i) →
      (newPolicies uuids firewallId n gen todo).map
          (fun p => p.contents (others ++ newRulesAll uuids n todo))
        = todo.map DesiredPolicy.contents := by
  induction todo with
  | nil => exact fun n gen others _ _ => rfl
  | cons d todo ih =>
    intro n gen others hN hothers
    rw [uuidCount_cons] at hN
    have hown := mem_newRules uuids (uuids n) d.rules (n + 1)
    rw [newPolicies, List.map_cons, List.map_cons]
    refine congrArg₂ List.cons ?_ ?_
    · -- only the rules of this round name the policy
      have h1 : others.filter (fun r => r.policyId == uuids n) = [] := by
        refine List.filter_eq_nil_iff.mpr (fun r hr => ?_)
        simpa using hothers r hr n (Nat.le_refl n) (by omega)
      have h2 : (newRules uuids (uuids n) (n + 1) d.rules).filter
          (fun r => r.policyId == uuids n) = newRules uuids (uuids n) (n + 1) d.rules := by
        refine List.filter_eq_self.mpr (fun r hr => ?_)
        simpa using (hown r hr).1
      have h3 : (newRulesAll uuids (n + 1 + d.rules.length) todo).filter
          (fun r => r.policyId == uuids n) = [] := by
        refine List.filter_eq_nil_iff.mpr (fun r hr => ?_)
        obtain ⟨⟨i, hi, hiN, hp⟩, -⟩ := mem_newRulesAll todo _ r hr
        rw [beq_iff_eq, hp]
        intro h
        have hin := hinj i (by omega) n (by omega) h
        omega
      rw [newRulesAll, Policy.contents, DesiredPolicy.contents, List.filter_append,
        List.filter_append, h1, h2, h3, List.nil_append, List.append_nil, map_contents_newRules]
    · rw [newRulesAll, ← List.append_assoc]
      refine ih _ _ _ (by omega) (fun r hr i hi hiN => ?_)
      rcases List.mem_append.mp hr with hr | hr
      · exact hothers r hr i (by omega) hiN
      · rw [(hown r hr).1]
        intro h
        have hin := hinj n (by omega) i hiN h
        omega

variable {req : DesiredStateRequest}

/-- The policies and the rules after the loops. -/
theorem entries_pushed (firewallId : String)
    (hfresh : FreshUuids s uuids (uuidCount req.policies)) :
    (s.pushed firewallId req uuids).policies.entries
      = s.policies.entries.filter (fun p => p.2.firewallId != firewallId)
        ++ (newPolicies uuids firewallId 0 s.generation req.policies).map Policy.entry ∧
    (s.pushed firewallId req uuids).rules.entries
      = s.rules.entries.filter (fun r => !(s.policyIds firewallId).contains r.2.policyId)
        ++ (newRulesAll uuids 0 req.policies).map Rule.entry := by
  exact entries_insertPolicies req.policies 0
    ((s.retainRules (s.policyIds firewallId)).retainPolicies firewallId) (by omega)
    ⟨hfresh.distinct, fun i _ hi h => hfresh.policies i hi (Dict.mem_of_mem_filter h),
      fun i _ hi h => hfresh.rules i hi (Dict.mem_of_mem_filter h)⟩

/-- **The firewall has what was asked for.** -/
theorem contents_pushed (h : Anchored s) (firewallId : String)
    (hfresh : FreshUuids s uuids (uuidCount req.policies)) :
    (s.pushed firewallId req uuids).contents firewallId
      = (req.policies.map DesiredPolicy.contents : Multiset Contents) := by
  obtain ⟨hpolicies, hrules⟩ := entries_pushed firewallId hfresh
  rw [AppStore.contents, Dict.values, Dict.values, hpolicies, hrules, List.map_append,
    List.map_append, List.filter_append]
  -- none of the old policies is left
  have hold : ((s.policies.entries.filter (fun p => p.2.firewallId != firewallId)).map
      Prod.snd).filter (fun p => p.firewallId == firewallId) = [] := by
    refine List.filter_eq_nil_iff.mpr (fun p hp => ?_)
    obtain ⟨e, he, rfl⟩ := List.mem_map.mp hp
    simpa using (List.mem_filter.mp he).2
  have hnew : (((newPolicies uuids firewallId 0 s.generation req.policies).map
      Policy.entry).map Prod.snd).filter (fun p => p.firewallId == firewallId)
        = newPolicies uuids firewallId 0 s.generation req.policies := by
    rw [List.map_map, show Prod.snd ∘ Policy.entry = id from rfl, List.map_id]
    refine List.filter_eq_self.mpr (fun p hp => ?_)
    simpa using (mem_newPolicies req.policies 0 _ p hp).1
  rw [hold, hnew, List.nil_append, List.map_map, show Prod.snd ∘ Rule.entry = id from rfl,
    List.map_id, map_contents_newPolicies hfresh.distinct req.policies 0 _ _ (by omega)]
  -- a rule that is left names a policy that is there
  intro r hr i _ hi hid
  obtain ⟨e, he, rfl⟩ := List.mem_map.mp hr
  refine hfresh.policies i hi (hid ▸ h.rule e.1 e.2 (Dict.mem_entries_iff.mp ?_))
  exact (List.mem_filter.mp he).1

/-- **The other firewalls have what they had.** -/
theorem othersUnchanged_pushed (h : Anchored s) (firewallId : String)
    (hfresh : FreshUuids s uuids (uuidCount req.policies)) :
    OthersUnchanged firewallId s (s.pushed firewallId req uuids) := by
  obtain ⟨hpolicies, hrules⟩ := entries_pushed firewallId hfresh
  refine ⟨fun k p hne => ?_, fun k r p hp hne => ?_⟩
  · rw [← Dict.mem_entries_iff, ← Dict.mem_entries_iff, hpolicies, List.mem_append,
      List.mem_filter, or_iff_left, and_iff_left (by simpa using hne)]
    intro hnew
    obtain ⟨p', hp', he⟩ := List.mem_map.mp hnew
    obtain ⟨-, rfl⟩ := Prod.mk.inj he
    exact hne (mem_newPolicies req.policies 0 _ p' hp').1
  · rw [← Dict.mem_entries_iff, ← Dict.mem_entries_iff, hrules, List.mem_append,
      List.mem_filter, or_iff_left, and_iff_left]
    · rw [Bool.not_eq_true', List.contains_eq_mem, decide_eq_false_iff_not,
        h.mem_policyIds_iff hp]
      exact hne
    · intro hnew
      obtain ⟨r', hr', he⟩ := List.mem_map.mp hnew
      obtain ⟨-, rfl⟩ := Prod.mk.inj he
      obtain ⟨⟨i, -, hi, hid⟩, -⟩ := mem_newRulesAll req.policies 0 r' hr'
      exact hfresh.policies i (by omega) (hid ▸ Dict.mem_of_get? hp)

/-! ### Every reachable store -/

/-- **A push is exact and local**: the firewall has what was asked for, the others have what
they had, and the firewall has the new generation, greater than the expected one until
`2 ^ 64` generations have been drawn.  A push that fails leaves everything as it was. -/
theorem push_exact_and_local (ops : List Op) (firewallId : String) (req : DesiredStateRequest)
    (uuids : Nat → String) (now : String)
    (hfresh : FreshUuids (admin.run ops) uuids (uuidCount req.policies)) :
    (∀ g s', (admin.run ops).applyDesiredState firewallId req uuids now = (.ok g, s') →
      s'.contents firewallId = (req.policies.map DesiredPolicy.contents : Multiset Contents) ∧
      OthersUnchanged firewallId (admin.run ops) s' ∧
      (s'.firewalls.get? firewallId).map Firewall.generation = some g ∧
      (drawn (ops ++ [.applyDesiredState firewallId req uuids now]) < 2 ^ 64 →
        req.expectedGeneration < g)) ∧
    ∀ e s', (admin.run ops).applyDesiredState firewallId req uuids now = (.error e, s') →
      s'.firewalls = (admin.run ops).firewalls ∧ s'.policies = (admin.run ops).policies ∧
      s'.rules = (admin.run ops).rules := by
  have hanchored := anchored_run ops
  cases hc : (admin.run ops).checkGeneration firewallId req.expectedGeneration with
  | error e =>
    rw [applyDesiredState_error hc]
    refine ⟨fun g s' h => (by cases h), fun e s' h => ?_⟩
    cases h
    exact ⟨rfl, rfl, rfl⟩
  | ok fw =>
    rw [applyDesiredState_ok hc]
    refine ⟨fun g s' h => ?_, fun e s' h => (by cases h)⟩
    cases h
    have hothers := othersUnchanged_pushed hanchored firewallId hfresh
    refine ⟨contents_pushed hanchored firewallId hfresh, ⟨hothers.policy, hothers.rule⟩, ?_,
      expectedGeneration_lt hc⟩
    rw [Dict.get?_insert_self]
    rfl

/-- Two firewalls, each with a policy and a rule. -/
def twoFirewalls : List Op :=
  [.createFirewall ⟨"fw", "acme", "vpc", 100, .Inline, .Enabled⟩ "f1" "t0",
    .createFirewall ⟨"fw", "acme", "vpc", 200, .Inline, .Enabled⟩ "f2" "t0",
    .createPolicy "f1" ⟨"default", 10, .Deny⟩ "p1",
    .createPolicy "f2" ⟨"default", 10, .Deny⟩ "p2",
    .createRule "p1" ⟨10, none, none, none, some (80, 80), some "tcp", .Allow, true⟩ "r1",
    .createRule "p2" ⟨10, none, none, none, some (80, 80), some "tcp", .Allow, true⟩ "r2"]

/-- A policy with one rule, and one without. -/
def twoPolicies : DesiredStateRequest :=
  ⟨1, [⟨"web", 20, .Allow, [⟨10, none, none, none, some (443, 443), some "tcp", .Allow, false⟩]⟩,
    ⟨"rest", 30, .Deny, []⟩]⟩

def newUuids (i : Nat) : String := ["u0", "u1", "u2"].getD i ""

/-- The push on the first firewall replaces what it had and keeps what the second has. -/
theorem push_exact_and_local_twoFirewalls :
    ∃ s', (admin.run twoFirewalls).applyDesiredState "f1" twoPolicies newUuids "t1" = (.ok 7, s') ∧
      s'.contents "f1" = (twoPolicies.policies.map DesiredPolicy.contents : Multiset Contents) ∧
      OthersUnchanged "f1" (admin.run twoFirewalls) s' ∧
      (s'.firewalls.get? "f1").map Firewall.generation = some 7 ∧
      twoPolicies.expectedGeneration < 7 := by
  have hfresh : FreshUuids (admin.run twoFirewalls) newUuids (uuidCount twoPolicies.policies) :=
    ⟨by decide +kernel, by decide +kernel, by decide +kernel⟩
  have hok : ((admin.run twoFirewalls).applyDesiredState "f1" twoPolicies newUuids "t1").1
      = .ok 7 := by rfl
  have hpush : (admin.run twoFirewalls).applyDesiredState "f1" twoPolicies newUuids "t1"
      = (.ok 7, ((admin.run twoFirewalls).applyDesiredState "f1" twoPolicies newUuids "t1").2) :=
    Prod.ext hok rfl
  obtain ⟨hcontents, hothers, hgen, hlt⟩ :=
    (push_exact_and_local twoFirewalls "f1" twoPolicies newUuids "t1" hfresh).1 7 _ hpush
  exact ⟨_, hpush, hcontents, hothers, hgen, hlt (by decide +kernel)⟩

/-- A firewall, updated `n` times. -/
def updates : Nat → List Op
  | 0 => [.createFirewall ⟨"fw", "acme", "vpc", 100, .Inline, .Enabled⟩ "f1" "t0"]
  | n + 1 => updates n ++ [.updateFirewall "f1" ⟨none, none, none, UInt64.ofNat (n + 1)⟩ "t0"]

theorem generation_updates : ∀ n, (admin.run (updates n)).generation = UInt64.ofNat (n + 2) ∧
    ∃ fw, (admin.run (updates n)).checkGeneration "f1" (UInt64.ofNat (n + 1)) = .ok fw := by
  intro n
  induction n with
  | zero =>
    refine ⟨rfl, ⟨"f1", "fw", "acme", "vpc", 100, .Inline, .Enabled, 1, "t0", "t0"⟩, ?_⟩
    exact AppStore.checkGeneration_eq_ok_iff.mpr ⟨by decide +kernel, rfl⟩
  | succ n ih =>
    obtain ⟨hgen, fw, hc⟩ := ih
    rw [updates, Machine.run_append_singleton]
    show (AppStore.apply _ _).2.generation = _ ∧
      ∃ fw, (AppStore.apply _ _).2.checkGeneration _ _ = _
    simp only [AppStore.apply, AppStore.updateFirewall, hc]
    refine ⟨?_, _, AppStore.checkGeneration_eq_ok_iff.mpr ⟨Dict.get?_insert_self _ _ _, ?_⟩⟩
    · show (admin.run (updates n)).generation + 1 = _
      rw [hgen, UInt64.ofNat_add (n + 2) 1]
      rfl
    · exact hgen

theorem push_updates (n : Nat) : ((admin.run (updates n)).applyDesiredState "f1"
    ⟨UInt64.ofNat (n + 1), []⟩ newUuids "t1").1 = .ok (UInt64.ofNat (n + 2)) := by
  obtain ⟨hgen, fw, hc⟩ := generation_updates n
  rw [applyDesiredState_ok hc, ← hgen]
  rfl

/-- The counter has wrapped: the push answers with generation `0`. -/
theorem push_generation_wrapped :
    FreshUuids (admin.run (updates 18446744073709551614)) newUuids 0 ∧
    ((admin.run (updates 18446744073709551614)).applyDesiredState "f1"
      ⟨18446744073709551615, []⟩ newUuids "t1").1 = .ok 0 ∧
    ¬ (18446744073709551615 : UInt64) < 0 := by
  have hpush := push_updates 18446744073709551614
  rw [show UInt64.ofNat (18446744073709551614 + 1) = 18446744073709551615 from rfl,
    show UInt64.ofNat (18446744073709551614 + 2) = 0 from rfl] at hpush
  exact ⟨⟨by omega, by omega, by omega⟩, hpush, by decide⟩

end PrismFirewall.Admin
