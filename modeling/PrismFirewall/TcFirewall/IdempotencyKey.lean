import PrismFirewall.TcFirewall.Requests

/-!
# Which rule an idempotency key names

`_find_existing_rule` asks the key index first, so a key that leads to a live rule is
answered with that rule, whatever else the request says.  Such a key keeps leading to the
rule for as long as the rule lives: an entry is overwritten only when the rule it leads to
is gone (`ruleByKey_step`).

The key is written down when a rule is created.  It is not when the rule was found by its
signature: the request succeeds and its key is forgotten (`ruleByKey_serve_iff`).
-/

namespace PrismFirewall.TcFirewall

open Lib

/-- A request for a rule that carries the key. -/
def Carries (c : Call) (key : String) : Prop :=
  ∃ request, c.request = .addRule request ∧ request.idempotencyKey = some key

/-- The request succeeds and the answer shows the rule. -/
def Answers (d : Daemon) (c : Call) (rule : FirewallRule) : Prop :=
  (serve d c).1 = ⟨200, .existingRule rule⟩ ∨ (serve d c).1 = ⟨201, .rule rule⟩

instance (d : Daemon) (c : Call) (rule : FirewallRule) : Decidable (Answers d c rule) :=
  inferInstanceAs (Decidable (_ ∨ _))

/-- A request whose key leads to no live rule does not find one by its signature either. -/
def KeyKept (d : Daemon) (c : Call) : Prop :=
  ∀ t request key, IsTenant d.stores c.tenantHeader t → c.request = .addRule request →
    request.idempotencyKey = some key → key ≠ "" → ruleByKey d.stores (some key) = none →
    liveRule d.stores d.stores.ruleSignatureIndex (computeRuleSignature t request) = none

/-! ### One request -/

/-- What a successful request for a rule shows. -/
theorem addRule_answers {d : Daemon} {c : Call} {request : FirewallRuleRequest}
    {rule : FirewallRule} (hreq : c.request = .addRule request) (h : Answers d c rule) :
    ∃ t, IsTenant d.stores c.tenantHeader t ∧
      ((findExistingRule d.stores t request = some rule ∧ (serve d c).2.stores = d.stores) ∨
        (findExistingRule d.stores t request = none ∧ ∃ installed log,
          rule = newRule c.newId t request installed ∧
          (serve d c).2.stores = { storeRule t request rule d.stores with audit := log })) := by
  revert h
  unfold Answers
  refine serve_of_wp (P := fun r d' => r = ⟨200, .existingRule rule⟩ ∨ r = ⟨201, .rule rule⟩ →
    ∃ t, IsTenant d.stores c.tenantHeader t ∧
      ((findExistingRule d.stores t request = some rule ∧ d'.stores = d.stores) ∨
        (findExistingRule d.stores t request = none ∧ ∃ installed log,
          rule = newRule c.newId t request installed ∧
          d'.stores = { storeRule t request rule d.stores with audit := log }))) ?_
  rw [handler, hreq]
  refine wp_mono wp_addRule ?_ ?_
  · intro r s h hr
    obtain ⟨t, ht, ⟨existing, hf, rfl, hs⟩ | ⟨hf, -, -, installed, rfl, -, hs⟩⟩ := h
    · have he : existing = rule := by simpa using hr
      exact ⟨t, ht, Or.inl ⟨he ▸ hf, hs⟩⟩
    · have he : newRule c.newId t request installed = rule := by simpa using hr
      subst he
      exact ⟨t, ht, Or.inr ⟨hf, installed, _, rfl, hs⟩⟩
  · intro e s h hr
    obtain ⟨he, -⟩ := h
    rcases hr with hr | hr
    · rw [hr] at he
      exact absurd he (by simp)
    · rw [hr] at he
      exact absurd he (by simp)

/-- A key that leads to a live rule decides the lookup. -/
theorem findExistingRule_of_ruleByKey {s : Stores} {t key : String}
    {request : FirewallRuleRequest} {rule : FirewallRule} (hk : request.idempotencyKey = some key)
    (h : ruleByKey s (some key) = some rule) : findExistingRule s t request = some rule := by
  unfold findExistingRule
  rw [hk, h]

/-- A key that leads to none leaves it to the signature. -/
theorem findExistingRule_of_ruleByKey_eq_none {s : Stores} {t key : String}
    {request : FirewallRuleRequest} (hk : request.idempotencyKey = some key)
    (h : ruleByKey s (some key) = none) : findExistingRule s t request
      = liveRule s s.ruleSignatureIndex (computeRuleSignature t request) := by
  unfold findExistingRule
  rw [hk, h]

theorem ruleByKey_eq_some {s : Stores} {key : String} {rule : FirewallRule} (hne : key ≠ "") :
    ruleByKey s (some key) = some rule ↔
      ∃ id, s.idempotencyKeyIndex.get? key = some id ∧ id ≠ "" ∧ s.rulesDb.get? id = some rule := by
  rw [ruleByKey, if_neg hne, liveRule]
  cases s.idempotencyKeyIndex.get? key with
  | none => simp
  | some id =>
    by_cases hid : id = ""
    · simp [hid]
    · simp [hid]

theorem ruleByKey_storeRule {s : Stores} {t key : String} {request : FirewallRuleRequest}
    {rule : FirewallRule} (hk : request.idempotencyKey = some key) (hne : key ≠ "")
    (hid : rule.id ≠ "") : ruleByKey (storeRule t request rule s) (some key) = some rule := by
  rw [ruleByKey_eq_some hne]
  refine ⟨rule.id, ?_, hid, Dict.get?_insert_self _ _ _⟩
  simp only [storeRule, hk, if_neg hne]
  exact Dict.get?_insert_self _ _ _

/-- **When a key is written down**: after a successful request its key leads to the rule in
the answer exactly if the rule was not found by its signature only. -/
theorem ruleByKey_serve_iff {d : Daemon} {c : Call} {key : String} {rule : FirewallRule}
    (hne : key ≠ "") (hc : Carries c key) (h : Answers d c rule) :
    ruleByKey (serve d c).2.stores (some key) = some rule ↔ KeyKept d c := by
  obtain ⟨request, hreq, hk⟩ := hc
  obtain ⟨t, ht, ⟨hf, hs⟩ | ⟨hf, installed, log, hrule, hs⟩⟩ := addRule_answers hreq h
  · rw [hs]
    constructor
    · intro hkey t' request' key' ht' hreq' hk' hne' hnone
      rw [hreq, Request.addRule.injEq] at hreq'
      subst hreq'
      rw [hk, Option.some.injEq] at hk'
      rw [hk', hnone] at hkey
      exact absurd hkey (by simp)
    · intro hkept
      cases hkey : ruleByKey d.stores (some key) with
      | some rule' =>
        rw [findExistingRule_of_ruleByKey hk hkey] at hf
        exact hf
      | none =>
        rw [findExistingRule_of_ruleByKey_eq_none hk hkey] at hf
        rw [hkept t request key ht hreq hk hne hkey] at hf
        exact absurd hf (by simp)
  · have hid : rule.id ≠ "" := by
      rw [hrule]
      exact c.newId.ne_empty
    have hafter : ruleByKey (serve d c).2.stores (some key) = some rule := by
      rw [hs]
      exact ruleByKey_storeRule (t := t) hk hne hid
    refine iff_of_true hafter (fun t' request' key' ht' hreq' hk' _ hnone => ?_)
    rw [hreq, Request.addRule.injEq] at hreq'
    subst hreq'
    rw [ht.eq ht', ← findExistingRule_of_ruleByKey_eq_none hk' hnone]
    exact hf

/-! ### A run -/

/-- Every rule is stored under its own identifier. -/
def RulesKeyed (s : Stores) : Prop := ∀ id rule, s.rulesDb.get? id = some rule → rule.id = id

theorem rulesKeyed_step {c : Call} {s s' : Stores} (h : RulesKeyed s) (hs : RuleStep c s s') :
    RulesKeyed s' := by
  have hgone : ∀ {ids : List String}, s'.rulesDb = s.rulesDb.eraseAll ids → RulesKeyed s' := by
    intro ids e id rule hr
    rw [e] at hr
    exact h id rule (Dict.get?_eraseAll_eq_some.mp hr).1
  cases hs with
  | same e =>
    simp only [Stores.ruleStore, Prod.mk.injEq] at e
    unfold RulesKeyed
    rw [e.1]
    exact h
  | stored t request installed hreq hten hnone e =>
    simp only [Stores.ruleStore, storeRule, Prod.mk.injEq] at e
    intro id rule hr
    rw [e.1, Dict.get?_insert] at hr
    split at hr
    · rename_i hid
      rw [hid, ← Option.some.inj hr]
    · exact h id rule hr
  | removed ids e =>
    simp only [Stores.ruleStore, Prod.mk.injEq] at e
    exact hgone e.1
  | dangling ids e =>
    simp only [Stores.ruleStore, Prod.mk.injEq] at e
    exact hgone e.1

theorem rulesKeyed_run (calls : List Call) : RulesKeyed (daemon.run calls).stores := by
  refine daemon.run_induction (P := fun _ d => RulesKeyed d.stores) ?_ ?_ calls
  · intro id rule hr
    simp [daemon, Daemon.init] at hr
  · intro l c d ih
    exact rulesKeyed_step ih (ruleStep_serve d c)

/-- **A key keeps leading to its rule** while the rule is in the store. -/
theorem ruleByKey_step {c : Call} {s s' : Stores} (hs : RuleStep c s s') (hkeyed : RulesKeyed s)
    {key : String} (hne : key ≠ "") {rule : FirewallRule}
    (h : ruleByKey s (some key) = some rule) (hlive : s'.rulesDb.get? rule.id = some rule) :
    ruleByKey s' (some key) = some rule := by
  obtain ⟨id, hi, hid, hr⟩ := (ruleByKey_eq_some hne).mp h
  obtain rfl := hkeyed id rule hr
  refine (ruleByKey_eq_some hne).mpr ⟨rule.id, ?_, hid, hlive⟩
  cases hs with
  | same e =>
    simp only [Stores.ruleStore, Prod.mk.injEq] at e
    rw [e.2.2]
    exact hi
  | stored t request installed hreq hten hnone e =>
    simp only [Stores.ruleStore, storeRule, Prod.mk.injEq] at e
    rw [e.2.2]
    cases hk : request.idempotencyKey with
    | none => exact hi
    | some key' =>
      by_cases hk' : key' = ""
      · simp only [if_pos hk']
        exact hi
      · simp only [if_neg hk']
        -- a request with this key would have been answered with the rule
        have hkey : key ≠ key' := by
          intro he
          rw [← he] at hk
          rw [findExistingRule_of_ruleByKey hk h] at hnone
          exact absurd hnone (by simp)
        rw [Dict.get?_insert, if_neg hkey]
        exact hi
  | removed ids e =>
    simp only [Stores.ruleStore, Prod.mk.injEq] at e
    rw [e.2.2, get?_dropStale_eq_some]
    refine ⟨hi, fun hmem => ?_⟩
    rw [e.1, Dict.get?_eraseAll, if_pos hmem] at hlive
    exact absurd hlive (by simp)
  | dangling ids e =>
    simp only [Stores.ruleStore, Prod.mk.injEq] at e
    rw [e.2.2]
    exact hi

/-- The rule is in `rules_db` after `before` and after each of the calls that follow. -/
def StaysStored (before calls : List Call) (rule : FirewallRule) : Prop :=
  ∀ l l', calls = l ++ l' → (daemon.run (before ++ l)).stores.rulesDb.get? rule.id = some rule

theorem ruleByKey_run {before calls : List Call} {key : String} (hne : key ≠ "")
    {rule : FirewallRule} (h : ruleByKey (daemon.run before).stores (some key) = some rule)
    (hstays : StaysStored before calls rule) :
    ruleByKey (daemon.run (before ++ calls)).stores (some key) = some rule :=
  daemon.run_append_induction (P := fun d => ruleByKey d.stores (some key) = some rule)
    (Q := fun d => d.stores.rulesDb.get? rule.id = some rule) h
    (fun l c ih _ hlive => ruleByKey_step (ruleStep_serve _ c) (rulesKeyed_run l) hne ih hlive)
    calls hstays

/-- **A key names one rule, if it was written down.**  After a successful request its key
leads to the rule in the answer exactly if the rule was not found by its signature only.  If
so, every later successful request with the key is answered with the same rule, as long as
the rule is in the store, whatever happens in between. -/
theorem key_names_one_rule (before : List Call) (first : Call) (key : String)
    (rule : FirewallRule) (hne : key ≠ "") (hfirst : Carries first key)
    (h : Answers (daemon.run before) first rule) :
    (ruleByKey (serve (daemon.run before) first).2.stores (some key) = some rule ↔
      KeyKept (daemon.run before) first) ∧
    (KeyKept (daemon.run before) first → ∀ (between : List Call) (second : Call)
      (rule' : FirewallRule), Carries second key →
      Answers (daemon.run (before ++ first :: between)) second rule' →
      StaysStored (before ++ [first]) between rule → rule'.id = rule.id) := by
  refine ⟨ruleByKey_serve_iff hne hfirst h, ?_⟩
  intro hkept between second rule' hsecond h' hstays
  have hkey := (ruleByKey_serve_iff hne hfirst h).mpr hkept
  have hafter : ruleByKey (daemon.run (before ++ [first])).stores (some key) = some rule := by
    rw [Machine.run_append_singleton]
    exact hkey
  have hlast := ruleByKey_run hne hafter hstays
  rw [List.append_assoc, List.singleton_append] at hlast
  obtain ⟨request, hreq, hk⟩ := hsecond
  obtain ⟨t, -, ⟨hf, -⟩ | ⟨hf, -⟩⟩ := addRule_answers hreq h'
  · rw [findExistingRule_of_ruleByKey hk hlast, Option.some.injEq] at hf
    rw [hf]
  · rw [findExistingRule_of_ruleByKey hk hlast] at hf
    exact absurd hf (by simp)

/-- The rule that a sample request creates. -/
def createdRule (newId : ShortId) (request : FirewallRuleRequest) : FirewallRule :=
  newRule newId "a" request ("", "", false)

/-- Tenant `a` creates a rule under a key, then another one without a key; asking for this one
under the key, it is answered with the first. -/
theorem key_names_one_rule_retry :
    let first := sampleCall (.addRule (sampleRule port80 (some "k"))) "a" firstId
    let other := sampleCall (.addRule (sampleRule port443 none)) "a" secondId
    let second := sampleCall (.addRule (sampleRule port443 (some "k"))) "a" secondId
    let rule := createdRule firstId (sampleRule port80 (some "k"))
    Answers (daemon.run [sampleTenant "a"]) first rule ∧
      Answers (daemon.run [sampleTenant "a", first, other]) second rule ∧
      ∀ rule', Answers (daemon.run [sampleTenant "a", first, other]) second rule' →
        rule'.id = "3f2a91c0" := by
  intro first other second rule
  have hfirst : Answers (daemon.run [sampleTenant "a"]) first rule := by decide +kernel
  have hsecond : Answers (daemon.run [sampleTenant "a", first, other]) second rule := by
    decide +kernel
  have hnone : liveRule (daemon.run [sampleTenant "a"]).stores
      (daemon.run [sampleTenant "a"]).stores.ruleSignatureIndex
      (computeRuleSignature "a" (sampleRule port80 (some "k"))) = none := by decide +kernel
  have hkept : KeyKept (daemon.run [sampleTenant "a"]) first := by
    intro t request key ht hreq _ _ _
    obtain rfl : "a" = t := Option.some.inj ht.1
    obtain rfl : sampleRule port80 (some "k") = request := Request.addRule.inj hreq
    exact hnone
  have hstays : StaysStored [sampleTenant "a", first] [other] rule := by
    intro l l' e
    rcases List.singleton_eq_append_iff.mp e with ⟨rfl, -⟩ | ⟨rfl, -⟩
    · decide +kernel
    · decide +kernel
  have hone := key_names_one_rule [sampleTenant "a"] first "k" rule (by decide) ⟨_, rfl, rfl⟩ hfirst
  refine ⟨hfirst, hsecond, fun rule' hrule' => ?_⟩
  exact hone.2 hkept [other] second rule' ⟨_, rfl, rfl⟩ hrule' hstays

/-- **A key is forgotten.**  Tenant `a` has a rule without a key, asks for the same rule with
the key `k` and gets it; then it asks for another rule with the key `k` and gets another
one, while the first is still there. -/
theorem key_forgotten :
    ¬ ∀ (before between : List Call) (first second : Call) (t key : String)
      (rule rule' : FirewallRule), key ≠ "" → first.tenantHeader = some t →
      second.tenantHeader = some t → Carries first key → Carries second key →
      Answers (daemon.run before) first rule →
      Answers (daemon.run (before ++ first :: between)) second rule' →
      StaysStored (before ++ [first]) between rule → rule'.id = rule.id := by
  intro h
  have hid := h [sampleTenant "a", sampleCall (.addRule (sampleRule port80 none)) "a" firstId] []
    (sampleCall (.addRule (sampleRule port80 (some "k"))) "a" secondId)
    (sampleCall (.addRule (sampleRule port443 (some "k"))) "a" secondId) "a" "k"
    (createdRule firstId (sampleRule port80 none))
    (createdRule secondId (sampleRule port443 (some "k"))) (by decide) rfl rfl
    ⟨_, rfl, rfl⟩ ⟨_, rfl, rfl⟩ (by decide +kernel) (by decide +kernel) ?_
  · exact absurd hid (by decide)
  · refine Machine.forall_beginning_nil ?_
    rw [List.append_nil]
    decide +kernel

end PrismFirewall.TcFirewall
