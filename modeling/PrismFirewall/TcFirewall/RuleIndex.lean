import PrismFirewall.Lib.Index
import PrismFirewall.TcFirewall.Requests

/-!
# The signature index of the rule store

`_rule_signature_index` is to lead from the signature of a rule to the rule.
`Coherent` is the invariant: the index is right about every live rule, and no
identifier is in the store or in the index that was not drawn before.  The
second half is what makes a dangling entry harmless: a later creation either
overwrites it or draws another identifier.

`coherent_step` checks the four cases of `RuleStep`, `coherent_run` goes along a
run, and `rule_index_coherent` reads the result off.
-/

namespace PrismFirewall.TcFirewall

open Lib

/-- The signature of a rule, from its stored tenant and fields. -/
def FirewallRule.signature (r : FirewallRule) : String :=
  shortHash (ruleSigStr (r.tenantId.getD "") r.srcIp r.dstIp r.srcPort r.dstPort r.protocol
    r.action r.priority)

theorem signature_newRule (newId : ShortId) (tenantId : String) (request : FirewallRuleRequest)
    (installed : String × String × Bool) :
    (newRule newId tenantId request installed).signature = computeRuleSignature tenantId request :=
  rfl

/-- The rule identifier a call may draw. -/
def Call.drawnRuleId (c : Call) : Option String :=
  match c.request with
  | .addRule _ => some c.newId.val
  | _ => none

/-- The rule identifiers drawn along a run. -/
def drawnRuleIds (calls : List Call) : List String := calls.filterMap Call.drawnRuleId

theorem drawnRuleIds_snoc (calls : List Call) (c : Call) :
    drawnRuleIds (calls ++ [c]) = drawnRuleIds calls ++ c.drawnRuleId.toList := by
  rw [drawnRuleIds, List.filterMap_append]
  cases h : c.drawnRuleId <;> simp [drawnRuleIds, h]

/-! ### The invariant -/

structure Coherent (used : List String) (s : Stores) : Prop where
  indexed : Indexes s.ruleSignatureIndex s.rulesDb FirewallRule.signature
  live : ∀ id rule, s.rulesDb.get? id = some rule → rule.id = id ∧ id ∈ used ∧ id ≠ ""
  drawn : ∀ sig id, s.ruleSignatureIndex.get? sig = some id → id ∈ used

namespace Coherent

variable {used : List String} {s s' : Stores}

theorem of_ruleStore_eq (h : Coherent used s) (e : s'.ruleStore = s.ruleStore) :
    Coherent used s' := by
  simp only [Stores.ruleStore, Prod.mk.injEq] at e
  obtain ⟨e1, e2, -⟩ := e
  refine ⟨?_, ?_, ?_⟩
  · rw [e1, e2]
    exact h.indexed
  · rw [e1]
    exact h.live
  · rw [e2]
    exact h.drawn

theorem mono (h : Coherent used s) (more : List String) : Coherent (used ++ more) s where
  indexed := h.indexed
  live id rule hr :=
    ⟨(h.live id rule hr).1, List.mem_append_left _ (h.live id rule hr).2.1, (h.live id rule hr).2.2⟩
  drawn sig id hs := List.mem_append_left _ (h.drawn sig id hs)

/-- Rules may go, with or without their index entries. -/
theorem remove (h : Coherent used s) {ids : List String}
    (hdb : s'.rulesDb = s.rulesDb.eraseAll ids)
    (hindex : s'.ruleSignatureIndex = dropStale s.ruleSignatureIndex ids ∨
      s'.ruleSignatureIndex = s.ruleSignatureIndex) : Coherent used s' := by
  have hget : ∀ id rule, s'.rulesDb.get? id = some rule →
      s.rulesDb.get? id = some rule ∧ id ∉ ids := by
    intro id rule hr
    rw [hdb] at hr
    exact Dict.get?_eraseAll_eq_some.mp hr
  have hsub := h.indexed.of_get?_imp (fun id rule hr => (hget id rule hr).1)
  refine ⟨?_, fun id rule hr => h.live id rule (hget id rule hr).1, ?_⟩
  · rcases hindex with e | e
    · refine hsub.of_agree (fun id hid sig => ?_)
      obtain ⟨rule, hr⟩ := Dict.mem_iff_get?.mp hid
      rw [e, get?_dropStale_eq_some]
      exact and_iff_left (hget id rule hr).2
    · rw [e]
      exact hsub
  · intro sig id hs
    rcases hindex with e | e
    · rw [e, get?_dropStale_eq_some] at hs
      exact h.drawn sig id hs.1
    · rw [e] at hs
      exact h.drawn sig id hs

/-- A lookup that failed leads to no live rule: live identifiers are not empty. -/
theorem not_live_of_liveRule_eq_none (h : Coherent used s) {sig : String}
    (hn : liveRule s s.ruleSignatureIndex sig = none) :
    ∀ id, s.ruleSignatureIndex.get? sig = some id → id ∉ s.rulesDb := by
  intro id hs hid
  obtain ⟨rule, hr⟩ := Dict.mem_iff_get?.mp hid
  simp only [liveRule, hs] at hn
  rw [if_neg (h.live id rule hr).2.2, hr] at hn
  exact absurd hn (by simp)

theorem store (h : Coherent used s) {tenantId : String} {request : FirewallRuleRequest}
    {newId : ShortId} {installed : String × String × Bool} (hnew : newId.val ∉ used)
    (hn : findExistingRule s tenantId request = none) :
    Coherent (used ++ [newId.val])
      (storeRule tenantId request (newRule newId tenantId request installed) s) := by
  have hlive : liveRule s s.ruleSignatureIndex (computeRuleSignature tenantId request) = none := by
    unfold findExistingRule at hn
    split at hn
    · exact absurd hn (by simp)
    · exact hn
  refine ⟨?_, ?_, ?_⟩
  · have hi := h.indexed.insert (k := newId.val) (v := newRule newId tenantId request installed)
      (fun sig hs => hnew (h.drawn sig _ hs))
    rw [signature_newRule] at hi
    exact hi (h.not_live_of_liveRule_eq_none hlive)
  · intro id rule hr
    rw [storeRule, Dict.get?_insert] at hr
    split at hr
    · rename_i hid
      rw [Option.some.injEq] at hr
      subst hid hr
      exact ⟨rfl, by simp [newRule], newId.ne_empty⟩
    · exact (h.mono [newId.val]).live id rule hr
  · intro sig id hs
    rw [storeRule, Dict.get?_insert] at hs
    split at hs
    · rw [Option.some.injEq] at hs
      exact List.mem_append_right _ (by rw [← hs]; exact List.mem_singleton_self _)
    · exact (h.mono [newId.val]).drawn sig id hs

end Coherent

/-- One request keeps the invariant, if the identifier it draws is new. -/
theorem coherent_step {used : List String} {c : Call} {s s' : Stores} (h : Coherent used s)
    (hs : RuleStep c s s') (hnew : ∀ id, c.drawnRuleId = some id → id ∉ used) :
    Coherent (used ++ c.drawnRuleId.toList) s' := by
  cases hs with
  | same e => exact (h.mono _).of_ruleStore_eq e
  | stored tenantId request installed hreq hten hn e =>
    have hd : c.drawnRuleId = some c.newId.val := by rw [Call.drawnRuleId, hreq]
    rw [hd]
    exact (h.store (hnew _ hd) hn).of_ruleStore_eq e
  | removed ids e =>
    simp only [Stores.ruleStore, Prod.mk.injEq] at e
    exact (h.mono _).remove e.1 (Or.inl e.2.1)
  | dangling ids e =>
    simp only [Stores.ruleStore, Prod.mk.injEq] at e
    exact (h.mono _).remove e.1 (Or.inr e.2.1)

/-- **Every run keeps the invariant**, as long as no identifier is drawn twice. -/
theorem coherent_run (calls : List Call) (h : (drawnRuleIds calls).Nodup) :
    Coherent (drawnRuleIds calls) (daemon.run calls).stores := by
  refine daemon.run_induction
    (P := fun l d => (drawnRuleIds l).Nodup → Coherent (drawnRuleIds l) d.stores) ?_ ?_ calls h
  · intro _
    exact ⟨Indexes.empty _ _, fun id rule hr => by simp [daemon, Daemon.init] at hr,
      fun sig id hs => by simp [daemon, Daemon.init] at hs⟩
  · intro l c d ih hl
    rw [drawnRuleIds_snoc, List.nodup_append] at hl
    rw [drawnRuleIds_snoc]
    refine coherent_step (ih hl.1) (ruleStep_serve d c) (fun id hid hmem => ?_)
    exact hl.2.2 id hmem id (by simp [hid]) rfl

/-- **The rule store and its signature index are coherent.**  After every run
the index, restricted to the identifiers in `rules_db`, sends the signature of
each live rule to its identifier, and no two live rules share a signature. -/
theorem rule_index_coherent (calls : List Call) (h : (drawnRuleIds calls).Nodup) :
    (∀ sig id, ((daemon.run calls).stores.ruleSignatureIndex.get? sig = some id ∧
        id ∈ (daemon.run calls).stores.rulesDb) ↔
      ∃ rule, (daemon.run calls).stores.rulesDb.get? id = some rule ∧ rule.id = id ∧
        rule.signature = sig) ∧
    (∀ id id' rule rule', (daemon.run calls).stores.rulesDb.get? id = some rule →
      (daemon.run calls).stores.rulesDb.get? id' = some rule' →
      rule.signature = rule'.signature → id = id') := by
  have hc := coherent_run calls h
  refine ⟨fun sig id => ?_,
    fun id id' rule rule' hr hr' he => hc.indexed.key_eq_of_sig_eq hr hr' he⟩
  rw [hc.indexed.live_iff]
  constructor
  · intro h
    obtain ⟨rule, hr, hs⟩ := h
    exact ⟨rule, hr, (hc.live id rule hr).1, hs⟩
  · intro h
    obtain ⟨rule, hr, -, hs⟩ := h
    exact ⟨rule, hr, hs⟩

/-- Two tenants that ask for the same rule. -/
def sameRuleTwice : List Call :=
  [sampleTenant "a", sampleTenant "b",
    sampleCall (.addRule (sampleRule port80 none)) "a" firstId,
    sampleCall (.addRule (sampleRule port80 none)) "b" secondId]

theorem rule_index_coherent_sameRuleTwice :
    (drawnRuleIds sameRuleTwice).Nodup ∧
    (daemon.run sameRuleTwice).stores.rulesDb.keys = ["3f2a91c0", "b7e4005d"] ∧
    ∀ sig id, ((daemon.run sameRuleTwice).stores.ruleSignatureIndex.get? sig = some id ∧
        id ∈ (daemon.run sameRuleTwice).stores.rulesDb) ↔
      ∃ rule, (daemon.run sameRuleTwice).stores.rulesDb.get? id = some rule ∧ rule.id = id ∧
        rule.signature = sig :=
  ⟨by decide, by decide +kernel, (rule_index_coherent sameRuleTwice (by decide)).1⟩

end PrismFirewall.TcFirewall
