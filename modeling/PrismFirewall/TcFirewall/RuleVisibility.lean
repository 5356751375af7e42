import PrismFirewall.TcFirewall.RuleIndex

/-!
# Which rules a tenant is shown

`GET /rules` filters by tenant.  `POST /rules` shows the rule it created or the
one `_find_existing_rule` found.  The signature names the tenant, so that path
stays with the tenant unless two signatures collide.  The idempotency key does
not: the index of the keys is one map for all tenants.

`rules_shown_are_own_iff` says exactly when every rule in the answer belongs to
the tenant that asked, and `foreign_rule_shown` is a request that gets the rule
of another tenant.
-/

namespace PrismFirewall.TcFirewall

open Lib

/-- The live rule a non-empty key leads to is the tenant's. -/
def OwnKey (s : Stores) (t : String) (request : FirewallRuleRequest) : Prop :=
  ∀ rule, ruleByKey s request.idempotencyKey = some rule → rule.tenantId = some t

/-- The live rule the signature index leads to is the tenant's. -/
def OwnSignature (s : Stores) (t : String) (request : FirewallRuleRequest) : Prop :=
  ∀ rule, liveRule s s.ruleSignatureIndex (computeRuleSignature t request) = some rule →
    rule.tenantId = some t

/-- Every live rule with the signature of the request is the tenant's. -/
def NoCollision (s : Stores) (t : String) (request : FirewallRuleRequest) : Prop :=
  ∀ id rule, s.rulesDb.get? id = some rule → rule.signature = computeRuleSignature t request →
    rule.tenantId = some t

/-- The two lookups of `_find_existing_rule`. -/
theorem forall_findExistingRule_iff {s : Stores} {t : String} {request : FirewallRuleRequest} :
    (∀ rule, findExistingRule s t request = some rule → rule.tenantId = some t) ↔
      OwnKey s t request ∧
      (ruleByKey s request.idempotencyKey = none → OwnSignature s t request) := by
  unfold findExistingRule OwnKey OwnSignature
  cases ruleByKey s request.idempotencyKey with
  | some rule => simp
  | none => simp

/-- In a coherent store the signature index leads to the live rule with the
signature. -/
theorem liveRule_eq_some_iff {used : List String} {s : Stores} (h : Coherent used s)
    {sig : String} {rule : FirewallRule} :
    liveRule s s.ruleSignatureIndex sig = some rule ↔
      ∃ id, s.rulesDb.get? id = some rule ∧ rule.signature = sig := by
  unfold liveRule
  constructor
  · intro hl
    split at hl
    · rename_i id hs
      split at hl
      · exact absurd hl (by simp)
      · exact ⟨id, hl, (h.indexed id rule hl sig).mp hs⟩
    · exact absurd hl (by simp)
  · intro h
    obtain ⟨id, hr, hs⟩ := h
    rw [(h.indexed id rule hr sig).mpr hs]
    show (if id = "" then none else s.rulesDb.get? id) = some rule
    rw [if_neg (h.live id rule hr).2.2, hr]

theorem ownSignature_iff {used : List String} {s : Stores} (h : Coherent used s) {t : String}
    {request : FirewallRuleRequest} : OwnSignature s t request ↔ NoCollision s t request := by
  unfold OwnSignature NoCollision
  constructor
  · intro ho id rule hr hs
    exact ho rule ((liveRule_eq_some_iff h).mpr ⟨id, hr, hs⟩)
  · intro hn rule hl
    obtain ⟨id, hr, hs⟩ := (liveRule_eq_some_iff h).mp hl
    exact hn id rule hr hs

/-- `GET /rules` shows the rules of the tenant only. -/
theorem listRules_shows_own {d : Daemon} {c : Call} {t : String} (hr : c.request = .listRules)
    (ht : c.tenantHeader = some t) : ∀ rule ∈ (serve d c).1.rules, rule.tenantId = some t := by
  refine serve_of_wp (P := fun r _ => ∀ rule ∈ r.rules, rule.tenantId = some t) ?_
  rw [handler, hr]
  refine wp_mono wp_listRules ?_ (fun e _ _ => by simp [rules_errorResponse])
  intro r s h rule hmem
  obtain ⟨-, t', ht', hrules⟩ := h
  rw [ht] at ht'
  rw [hrules, List.mem_filter, decide_eq_true_eq] at hmem
  rw [hmem.2, ht']

/-- `POST /rules` shows a rule of another tenant exactly when it finds one. -/
theorem addRule_shows_own_iff {d : Daemon} {c : Call} {t : String}
    {request : FirewallRuleRequest} (hr : c.request = .addRule request)
    (ht : c.tenantHeader = some t) :
    (∀ rule ∈ (serve d c).1.rules, rule.tenantId = some t) ↔
      (IsTenant d.stores c.tenantHeader t →
        ∀ rule, findExistingRule d.stores t request = some rule → rule.tenantId = some t) := by
  refine serve_of_wp (P := fun r _ => (∀ rule ∈ r.rules, rule.tenantId = some t) ↔ _) ?_
  rw [handler, hr]
  refine wp_mono wp_addRule ?_ ?_
  · intro r s h
    obtain ⟨t', ht', h⟩ := h
    obtain rfl : t = t' := Option.some.inj (ht.symm.trans ht'.1)
    rcases h with ⟨existing, hf, rfl, -⟩ | ⟨hf, -, -, installed, rfl, -⟩
    · have hf' : findExistingRule d.stores t request = some existing := hf
      simp only [Response.rules, List.mem_singleton, forall_eq, hf', Option.some.injEq,
        forall_eq']
      exact ⟨fun h _ => h, fun h => h ht'⟩
    · have hf' : findExistingRule d.stores t request = none := hf
      simp [Response.rules, hf', newRule]
  · intro e s h
    obtain ⟨-, -, hn, -⟩ := h
    refine ⟨fun _ hten rule hrule => ?_, fun _ => by simp [rules_errorResponse]⟩
    have hnone : findExistingRule d.stores t request = none := hn t hten
    rw [hnone] at hrule
    exact absurd hrule (by simp)

/-- **Whose rules an answer shows.**  After any run, every rule in the answer to
`GET /rules` or `POST /rules` of tenant `t` is `t`'s if and only if, for a
creation by a registered tenant, the live rule its key leads to is `t`'s and,
when the key leads to none, so is the one its signature leads to.  As long as no
rule identifier has been drawn twice, the latter means that no live rule of
another tenant has the same signature. -/
theorem rules_shown_are_own_iff (calls : List Call) (c : Call) (t : String)
    (hc : c.request = .listRules ∨ ∃ request, c.request = .addRule request)
    (ht : c.tenantHeader = some t) :
    ((∀ rule ∈ (serve (daemon.run calls) c).1.rules, rule.tenantId = some t) ↔
      ∀ request, c.request = .addRule request →
        IsTenant (daemon.run calls).stores c.tenantHeader t →
        OwnKey (daemon.run calls).stores t request ∧
        (ruleByKey (daemon.run calls).stores request.idempotencyKey = none →
          OwnSignature (daemon.run calls).stores t request)) ∧
    ((drawnRuleIds calls).Nodup → ∀ request,
      (OwnSignature (daemon.run calls).stores t request ↔
        NoCollision (daemon.run calls).stores t request)) := by
  refine ⟨?_, fun h request => ownSignature_iff (coherent_run calls h)⟩
  rcases hc with hr | ⟨request, hr⟩
  · refine iff_of_true (listRules_shows_own hr ht) (fun request hr' => ?_)
    rw [hr] at hr'
    exact absurd hr' (by simp)
  · rw [addRule_shows_own_iff hr ht, forall_findExistingRule_iff]
    constructor
    · intro h request' hr'
      rw [hr, Request.addRule.injEq] at hr'
      exact hr' ▸ h
    · intro h
      exact h request hr

/-- Tenant `b` repeats its request and is shown its own rule. -/
theorem rules_shown_are_own_iff_sameRuleTwice :
    let c := sampleCall (.addRule (sampleRule port80 none)) "b"
      ⟨"c0ffee00", rfl⟩
    ((serve (daemon.run sameRuleTwice) c).1.rules.map FirewallRule.tenantId = [some "b"]) ∧
    ((∀ rule ∈ (serve (daemon.run sameRuleTwice) c).1.rules, rule.tenantId = some "b") ↔
      ∀ request, c.request = .addRule request →
        IsTenant (daemon.run sameRuleTwice).stores c.tenantHeader "b" →
        OwnKey (daemon.run sameRuleTwice).stores "b" request ∧
        (ruleByKey (daemon.run sameRuleTwice).stores request.idempotencyKey = none →
          OwnSignature (daemon.run sameRuleTwice).stores "b" request)) ∧
    ∀ request, OwnSignature (daemon.run sameRuleTwice).stores "b" request ↔
      NoCollision (daemon.run sameRuleTwice).stores "b" request := by
  intro c
  have h := rules_shown_are_own_iff sameRuleTwice c "b" (Or.inr ⟨_, rfl⟩) rfl
  exact ⟨by decide +kernel, h.1, h.2 (by decide)⟩

/-- Tenant `a` creates a rule under the key `k`. -/
def keyOfA : List Call :=
  [sampleTenant "a", sampleTenant "b",
    sampleCall (.addRule (sampleRule port80 (some "k"))) "a"
      firstId]

/-- Tenant `b` asks for another rule under the same key. -/
def keyUsedByB : Call :=
  sampleCall (.addRule (sampleRule port443 (some "k"))) "b" secondId

/-- **A foreign rule is shown**: tenant `b` gets the rule of `a`. -/
theorem foreign_rule_shown :
    (serve (daemon.run keyOfA) keyUsedByB).1.rules.map FirewallRule.tenantId = [some "a"] ∧
    ¬ ∀ (calls : List Call) (c : Call) (t : String),
      (c.request = .listRules ∨ ∃ request, c.request = .addRule request) →
      c.tenantHeader = some t →
      ∀ rule ∈ (serve (daemon.run calls) c).1.rules, rule.tenantId = some t := by
  have hshown : (serve (daemon.run keyOfA) keyUsedByB).1.rules.map FirewallRule.tenantId
      = [some "a"] := by decide +kernel
  refine ⟨hshown, fun h => ?_⟩
  have hown := h keyOfA keyUsedByB "b" (Or.inr ⟨_, rfl⟩) rfl
  obtain ⟨rule, hrule, hten⟩ := List.mem_map.mp (hshown ▸ List.mem_singleton_self (some "a"))
  rw [hown rule hrule] at hten
  exact absurd hten (by decide)

end PrismFirewall.TcFirewall
