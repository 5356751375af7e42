import PrismFirewall.TcFirewall.Handlers

/-!
# What a request does to the stores

The specifications of the endpoints that work on rules and tenants, and then
`StoresStep`: the complete list of what one request can do to the stores.
`storesStep_serve` says that the list is complete, so an invariant of the stores is
checked on the cases of `StoresStep` and never on the handlers.

The rule store is `rules_db` with its signature index and its idempotency-key index.
`RuleStep` lists what one request can do to the three: nothing, store and index one new
rule, remove rules together with their index entries, or, when a subprocess times out in
the middle of a flush, remove rules and leave their index entries dangling.

A request that creates a rule puts one filter on each port.  `Adds` says which: it looks
at the tables before and after the request, so it holds of what `add_rule` really did and
not of what was stored about it.
-/

namespace PrismFirewall.TcFirewall

open Lib

/-! ### Removing rules -/

theorem wp_removeHandle {dev : String} {handle : Option String} {priority : Nat} {t : TcState} :
    wp (removeHandle dev handle priority) t (fun _ t' => t'.replies = t.replies)
      (fun e t' => t'.replies = t.replies ∧
        ((∃ message, e = .tcError message) ∨ ∃ i, (t.replies i).timesOut = true)) := by
  unfold removeHandle removeRule
  split
  · rw [wp_bind, wp_runTc]
    cases hr : t.replies t.issued.length with
    | timeout => exact ⟨rfl, Or.inr ⟨t.issued.length, by rw [hr]; rfl⟩⟩
    | exit returncode stdout stderr h =>
      dsimp only
      split
      · exact ⟨rfl, Or.inl ⟨_, rfl⟩⟩
      · exact rfl
  · exact rfl

/-- Removing the filters of a rule raises only when a command times out. -/
theorem wp_removeFilters {rule : FirewallRule} {s : Session} :
    wp (removeFilters rule) s
      (fun _ s' => s'.stores = s.stores ∧ s'.tc.replies = s.tc.replies)
      (fun _ s' => s'.stores = s.stores ∧ ∃ i, (s.tc.replies i).timesOut = true) := by
  unfold removeFilters
  refine wp_catchTcError_of (F := fun e s' => s'.stores = s.stores ∧
    s'.tc.replies = s.tc.replies ∧
    ((∃ message, e = .tcError message) ∨ ∃ i, (s.tc.replies i).timesOut = true)) ?_ ?_ ?_
  · rw [wp_tc, wp_bind]
    refine wp_mono wp_removeHandle ?_ (fun e t h => ⟨rfl, h⟩)
    intro _ t h
    refine wp_mono wp_removeHandle (fun _ t' h' => ⟨rfl, h'.trans h⟩) (fun e t' h' => ?_)
    rw [h] at h'
    exact ⟨rfl, h'⟩
  · intro message s' h
    obtain ⟨hs, hreplies, -⟩ := h
    exact ⟨hs, hreplies⟩
  · intro e s' hne h
    obtain ⟨hs, -, ⟨message, he⟩ | hto⟩ := h
    · exact absurd he (hne message)
    · exact ⟨hs, hto⟩

/-- The loop over rule identifiers removes them one by one; a time-out leaves it
after some of them. -/
theorem wp_flushRuleIds (ids : List String) (s : Session) :
    wp (flushRuleIds ids) s
      (fun _ s' => s'.stores = { s.stores with rulesDb := s.stores.rulesDb.eraseAll ids } ∧
        s'.tc.replies = s.tc.replies)
      (fun _ s' => (∃ done, (∀ id ∈ done, id ∈ ids) ∧
          s'.stores = { s.stores with rulesDb := s.stores.rulesDb.eraseAll done }) ∧
        (ids.Nodup → (∀ id ∈ ids, id ∈ s.stores.rulesDb) →
          ∃ i, (s.tc.replies i).timesOut = true)) := by
  refine wp_forM (I := fun done s' =>
    s'.stores = { s.stores with rulesDb := s.stores.rulesDb.eraseAll done } ∧
      s'.tc.replies = s.tc.replies) ids ?_ s ⟨rfl, rfl⟩
  intro done id rest s' hl h
  obtain ⟨hs', hreplies⟩ := h
  have hdone : ∀ x ∈ done, x ∈ ids := fun x hx => by rw [hl]; exact List.mem_append_left _ hx
  rw [wp_bind, wp_getStores, wp_bind]
  cases hr : s'.stores.rulesDb.get? id with
  | none =>
    rw [wp_item, hr]
    refine ⟨⟨done, hdone, hs'⟩, fun hnd hin => ?_⟩
    -- the identifiers are those of live rules, and none is met twice
    have hnot : id ∉ done := by
      rw [hl, List.nodup_append] at hnd
      exact fun h => hnd.2.2 id h id List.mem_cons_self rfl
    obtain ⟨rule, hrule⟩ := Dict.mem_iff_get?.mp (hin id (by rw [hl]; simp))
    rw [hs', Dict.get?_eraseAll, if_neg hnot, hrule] at hr
    exact absurd hr (by simp)
  | some rule =>
    rw [wp_item_of_get? hr, wp_bind]
    refine wp_mono wp_removeFilters (fun _ s'' h => ?_) (fun _ s'' h => ?_)
    · rw [wp_modifyStores, h.1, hs']
      refine ⟨?_, h.2.trans hreplies⟩
      simp only [Dict.eraseAll, List.foldl_append, List.foldl_cons, List.foldl_nil]
    · rw [hreplies] at h
      exact ⟨⟨done, hdone, h.1.trans hs'⟩, fun _ _ => h.2⟩

/-! ### The requests one by one -/

/-- The stores after rules have been removed together with their index entries. -/
def Stores.withoutRules (s : Stores) (ids : List String) : Stores :=
  { s with
    rulesDb := s.rulesDb.eraseAll ids
    ruleSignatureIndex := dropStale s.ruleSignatureIndex ids
    idempotencyKeyIndex := dropStale s.idempotencyKeyIndex ids }

/-- The tenant has room for another rule. -/
def RuleQuotaFree (s : Stores) (tenantId : String) : Prop :=
  ∀ config, s.tenants.get? tenantId = some config →
    (countTenantRules s tenantId : Int) < config.maxRules

/-- The request passes every check before the first command. -/
def RuleReaches (s : Stores) (header : Option String) (request : FirewallRuleRequest) : Prop :=
  ∃ t, IsTenant s header t ∧ findExistingRule s t request = none ∧ RuleQuotaFree s t

/-- What `add_rule` does: it shows an existing rule, or installs and stores a
new one and shows it, or fails without touching the stores; it does not fail
when there is an existing rule. -/
theorem wp_addRule {header client : Option String} {newId : ShortId}
    {request : FirewallRuleRequest} {s : Session} :
    wp (addRule header client newId request) s
      (fun r s' => ∃ t, IsTenant s.stores header t ∧
        ((∃ existing, findExistingRule s.stores t request = some existing ∧
            r = ⟨200, .existingRule existing⟩ ∧ s'.stores = s.stores) ∨
          findExistingRule s.stores t request = none ∧ RuleQuotaFree s.stores t ∧
            s.tc.RuleInstalls ∧ ∃ installed,
            r = ⟨201, .rule (newRule newId t request installed)⟩ ∧
            FiltersAdded request s.tc.kernel s'.tc.kernel ∧
            s'.stores =
              { storeRule t request (newRule newId t request installed) s.stores with
                audit := s.stores.audit ++ [auditEntry "rule.created" "firewall_rule" newId.val
                  (ruleDetails request) client] }))
      (fun e s' => 400 ≤ (errorResponse e).status ∧ s'.stores = s.stores ∧
        (∀ t, IsTenant s.stores header t → findExistingRule s.stores t request = none) ∧
        CreationFailed (RuleReaches s.stores header request) s.tc.RuleInstalls s s') := by
  unfold addRule
  rw [wp_bind]
  refine wp_mono wp_getTenantId ?_ ?_
  · intro t s' h
    obtain ⟨rfl, ht⟩ := h
    have hu : ∀ t', IsTenant s'.stores header t' → t' = t := fun _ ht' => ht.eq ht'
    rw [wp_bind, wp_getStores]
    cases hf : findExistingRule s'.stores t request with
    | some existing => exact ⟨t, ht, Or.inl ⟨existing, hf, rfl, rfl⟩⟩
    | none =>
      have hnone : ∀ t', IsTenant s'.stores header t' →
          findExistingRule s'.stores t' request = none := fun t' ht' => hu t' ht' ▸ hf
      obtain ⟨config, hc⟩ := Dict.mem_iff_get?.mp ht.2.2
      simp only [wp_bind, wp_item_of_get? hc]
      split
      · rename_i hq
        refine ⟨by simp [errorResponse], rfl, hnone, .refused ?_ rfl⟩
        intro h
        obtain ⟨t', ht', -, hfree⟩ := h
        obtain rfl := hu t' ht'
        have hlt := hfree config hc
        omega
      · rename_i hq
        have hfree : RuleQuotaFree s'.stores t := by
          intro config' hc'
          rw [hc, Option.some.injEq] at hc'
          subst hc'
          omega
        have hreach : RuleReaches s'.stores header request := ⟨t, ht, hf, hfree⟩
        rw [wp_bind, wp_catchTcError, wp_tc]
        refine wp_mono wp_installRule ?_ ?_
        · intro installed t' h
          obtain ⟨hi, hk⟩ := h
          simp only [wp_bind, wp_modifyStores, wp_auditLog, wp_pure]
          exact ⟨t, ht, Or.inr ⟨hf, hfree, hi, installed, rfl, hk, rfl⟩⟩
        · intro e t' h
          obtain ⟨he, hi, hk⟩ := h
          have hfail : ∀ s'', s''.tc = t' →
              CreationFailed (RuleReaches s'.stores header request) s'.tc.RuleInstalls s' s'' := by
            intro s'' h
            subst h
            exact .of_reaches hreach hi hk
          cases e with
          | tcError message => exact ⟨by simp [errorResponse], rfl, hnone, hfail _ rfl⟩
          | timeoutExpired => exact ⟨by simp [errorResponse], rfl, hnone, hfail _ rfl⟩
          | _ => exact he.elim
  · intro e s' h
    obtain ⟨rfl, he, hn⟩ := h
    have hnot : ¬ RuleReaches s'.stores header request := by
      intro h
      obtain ⟨t, ht, -⟩ := h
      exact hn t ht
    exact ⟨he, rfl, fun t ht => absurd ht (hn t), .refused hnot rfl⟩

theorem wp_deleteRule {header client : Option String} {ruleId : String} {s : Session} :
    wp (deleteRule header client ruleId) s
      (fun _ s' => ruleId ∈ s.stores.rulesDb ∧
        s'.stores = { s.stores.withoutRules [ruleId] with
          audit := s.stores.audit ++ [auditEntry "rule.deleted" "firewall_rule" ruleId [] client] })
      (fun _ s' => s'.stores = s.stores) := by
  unfold deleteRule
  rw [wp_bind]
  refine wp_mono wp_getTenantId ?_ (fun _ s' h => by rw [h.1])
  intro t s' h
  obtain ⟨rfl, -⟩ := h
  rw [wp_bind, wp_getStores]
  by_cases hid : ruleId ∈ s'.stores.rulesDb
  · obtain ⟨rule, hr⟩ := Dict.mem_iff_get?.mp hid
    rw [if_neg (not_not.mpr hid), wp_bind, wp_item_of_get? hr]
    by_cases hown : rule.tenantId = some t
    · rw [if_neg (not_not.mpr hown), wp_bind]
      refine wp_mono (keepsStores_removeFilters rule s') (fun _ s'' h => ?_) (fun _ s'' h => h)
      simp only [wp_bind, cleanRuleIndexes, wp_modifyStores, wp_auditLog, wp_pure, h]
      exact ⟨hid, rfl⟩
    · rw [if_pos hown, wp_bind, wp_throw]
  · rw [if_pos hid, wp_bind, wp_throw]

theorem nodup_tenantRuleIds (s : Stores) (tenantId : String) :
    (tenantRuleIds s tenantId).Nodup :=
  s.rulesDb.nodup.sublist (List.filter_sublist.map Prod.fst)

theorem mem_tenantRuleIds {s : Stores} {tenantId id : String} :
    id ∈ tenantRuleIds s tenantId ↔
      ∃ rule, s.rulesDb.get? id = some rule ∧ rule.tenantId = some tenantId := by
  simp only [tenantRuleIds, List.mem_map, List.mem_filter, decide_eq_true_eq, Prod.exists]
  constructor
  · intro h
    obtain ⟨id', rule, ⟨hmem, hown⟩, rfl⟩ := h
    exact ⟨rule, Dict.mem_entries_iff.mp hmem, hown⟩
  · intro h
    obtain ⟨rule, hrule, hown⟩ := h
    exact ⟨id, rule, ⟨Dict.mem_entries_iff.mpr hrule, hown⟩, rfl⟩

theorem mem_of_mem_tenantRuleIds (s : Stores) (tenantId : String) :
    ∀ id ∈ tenantRuleIds s tenantId, id ∈ s.rulesDb := by
  intro id hid
  obtain ⟨rule, hrule, -⟩ := mem_tenantRuleIds.mp hid
  exact Dict.mem_of_get? hrule

theorem wp_flushRules {header client : Option String} {s : Session} :
    wp (flushRules header client) s
      (fun _ s' => ∃ t, IsTenant s.stores header t ∧
        s'.stores = { s.stores.withoutRules (tenantRuleIds s.stores t) with
          audit := s.stores.audit ++ [auditEntry "rules.flushed" "firewall_rule" "*"
            [("rules_removed", .int (tenantRuleIds s.stores t).length)] client] })
      (fun _ s' => (∃ ids,
          s'.stores = { s.stores with rulesDb := s.stores.rulesDb.eraseAll ids }) ∧
        (s'.stores = s.stores ∨ ∃ i, (s.tc.replies i).timesOut = true)) := by
  unfold flushRules
  rw [wp_bind]
  refine wp_mono wp_getTenantId ?_ (fun _ s' h => ⟨⟨[], by rw [h.1]; rfl⟩, Or.inl (by rw [h.1])⟩)
  intro t s' h
  obtain ⟨rfl, ht⟩ := h
  rw [wp_bind, wp_getStores, wp_bind]
  refine wp_mono (wp_flushRuleIds _ s') ?_ ?_
  · intro _ s'' h
    simp only [wp_bind, cleanRuleIndexes, wp_modifyStores, wp_auditLog, wp_pure, h.1]
    exact ⟨t, ht, rfl⟩
  · intro _ s'' h
    obtain ⟨⟨done, _, h⟩, hto⟩ := h
    exact ⟨⟨done, h⟩, Or.inr (hto (nodup_tenantRuleIds _ _) (mem_of_mem_tenantRuleIds _ _))⟩

/-- `delete_tenant` removes everything of a registered tenant; only a time-out
while it removes rules keeps it from doing so. -/
theorem wp_deleteTenant {tenantId : String} {s : Session} :
    wp (deleteTenant tenantId) s
      (fun _ s' => tenantId ∈ s.stores.tenants ∧ ∃ s'',
        NatIdsRemoved s.stores (tenantNatIds s.stores tenantId) s'' ∧
        s'.stores = { s''.withoutRules (tenantRuleIds s.stores tenantId) with
          tenants := s.stores.tenants.erase tenantId })
      (fun _ s' => (∃ ids,
          s'.stores = { s.stores with rulesDb := s.stores.rulesDb.eraseAll ids }) ∧
        (tenantId ∈ s.stores.tenants → ∃ i, (s.tc.replies i).timesOut = true) ∧
        (tenantId ∉ s.stores.tenants → s'.stores = s.stores)) := by
  unfold deleteTenant
  rw [wp_bind, wp_getStores]
  by_cases ht : tenantId ∈ s.stores.tenants
  · rw [if_neg (not_not.mpr ht), wp_bind, wp_getStores, wp_bind]
    refine wp_mono (wp_flushRuleIds _ s) ?_ ?_
    · intro _ s' h
      rw [wp_bind, wp_getStores, wp_bind]
      refine wp_mono (wp_flushNatIds _ s') (fun _ s'' h' => ?_) (fun _ _ hf => hf.elim)
      obtain ⟨⟨index', hi, h'⟩, -⟩ := h'
      simp only [wp_bind, cleanRuleIndexes, wp_modifyStores, wp_pure, h', h.1] at hi ⊢
      exact ⟨ht, _, ⟨index', hi, rfl⟩, rfl⟩
    · intro _ s' h
      obtain ⟨⟨done, _, h⟩, hto⟩ := h
      exact ⟨⟨done, h⟩, fun _ => hto (nodup_tenantRuleIds _ _) (mem_of_mem_tenantRuleIds _ _),
        fun hnot => absurd ht hnot⟩
  · rw [if_pos ht, wp_bind, wp_throw]
    exact ⟨⟨[], rfl⟩, fun h => absurd h ht, fun _ => rfl⟩

/-! ### One request -/

/-- What one call can do to the stores. -/
inductive StoresStep (c : Call) (s s' : Stores) : Prop
  | same (h : s' = s)
  | registered (request : TenantRegistrationRequest) (hreq : c.request = .registerTenant request)
      (hnew : request.tenantId ∉ s.tenants)
      (h : s' = { s with tenants := s.tenants.insert request.tenantId request.config })
  | tenantDeleted (tenantId : String) (s'' : Stores) (hreq : c.request = .deleteTenant tenantId)
      (hin : tenantId ∈ s.tenants) (hrem : NatIdsRemoved s (tenantNatIds s tenantId) s'')
      (h : s' = { s''.withoutRules (tenantRuleIds s tenantId) with
        tenants := s.tenants.erase tenantId })
  | ruleStored (tenantId : String) (request : FirewallRuleRequest)
      (installed : String × String × Bool) (log : List AuditEntry)
      (hreq : c.request = .addRule request) (hten : IsTenant s c.tenantHeader tenantId)
      (hnone : findExistingRule s tenantId request = none) (hquota : RuleQuotaFree s tenantId)
      (h : s' = { storeRule tenantId request (newRule c.newId tenantId request installed) s with
        audit := log })
  | rulesRemoved (ids : List String) (log : List AuditEntry)
      (h : s' = { s.withoutRules ids with audit := log })
  | rulesDangling (ids : List String) (h : s' = { s with rulesDb := s.rulesDb.eraseAll ids })
  | natClaimed (template : NATEntry) (tenantId : String) (e : NATEntry) (log : List AuditEntry)
      (hreq : c.request.natTemplate c.newId = some template)
      (hadm : Admitted s c.tenantHeader c.request.ValidMode tenantId)
      (hf : findExistingNat s template.signature = some e)
      (h : s' = { recordNatOwner tenantId e s with audit := log })
  | natCreated (template : NATEntry) (tenantId : String) (inHw : Bool) (log : List AuditEntry)
      (hreq : c.request.natTemplate c.newId = some template)
      (hadm : Admitted s c.tenantHeader c.request.ValidMode tenantId)
      (hf : findExistingNat s template.signature = none)
      (h : s' = { recordNatOwner tenantId { template with inHw := inHw } { s with
        natDb := s.natDb.insert c.newId.val { template with inHw := inHw }
        natSignatureIndex := s.natSignatureIndex.insert template.signature c.newId.val } with
        audit := log })
  | natFlushed (tenantId : String) (s'' : Stores) (log : List AuditEntry)
      (hreq : c.request = .flushNatRules) (hten : IsTenant s c.tenantHeader tenantId)
      (hrem : NatIdsRemoved s (tenantNatIds s tenantId) s'')
      (h : s' = { s'' with audit := log })
  | natDeleted (id tenantId : String) (e : NATEntry) (log : List AuditEntry)
      (hreq : c.request = .deleteNatRule id) (hdel : DeletesNat s c.tenantHeader id tenantId e)
      (h : s' = { s.withoutNat id with
        natEntriesDb := s.natEntriesDb.erase id
        audit := log })
  | natStranded (id tenantId : String) (e : NATEntry) (hreq : c.request = .deleteNatRule id)
      (hdel : DeletesNat s c.tenantHeader id tenantId e) (h : s' = s.withoutNat id)

/-- **One request and the stores**: the cases of `StoresStep` are all that can
happen. -/
theorem storesStep_serve (d : Daemon) (c : Call) :
    StoresStep c d.stores (serve d c).2.stores := by
  refine serve_of_wp (P := fun _ d' => StoresStep c d.stores d'.stores) ?_
  have hsame : ∀ (e : Exc) (s : Session), s.stores = d.stores → StoresStep c d.stores s.stores :=
    fun _ _ h => .same h
  have hnat : ∀ {template}, c.request.natTemplate c.newId = some template →
      wp (handler c) (c.session d) (fun _ s => StoresStep c d.stores s.stores)
        (fun _ s => StoresStep c d.stores s.stores) := by
    intro template ht
    refine wp_mono (wp_natCreation ht) ?_ (fun e s h => hsame e s h.2.1)
    intro r s h
    rcases h with ⟨-, t, e, log, hadm, ⟨hf, h⟩ | ⟨hf, -, -, inHw, rfl, h⟩⟩
    · exact .natClaimed template t e log ht hadm hf h
    · exact .natCreated template t inHw log ht hadm hf h
  cases hr : c.request with
  | registerTenant request =>
    rw [handler, hr]
    exact wp_mono wp_registerTenant (fun _ s h => .registered request hr h.1 h.2) hsame
  | deleteTenant tenantId =>
    rw [handler, hr]
    refine wp_mono wp_deleteTenant ?_ ?_
    · intro _ s h
      obtain ⟨hin, s'', hrem, h⟩ := h
      exact .tenantDeleted tenantId s'' hr hin hrem h
    · intro _ s h
      obtain ⟨⟨ids, h⟩, -⟩ := h
      exact .rulesDangling ids h
  | listRules =>
    rw [handler, hr]
    exact wp_mono wp_listRules (fun _ s h => .same h.1) hsame
  | addRule request =>
    rw [handler, hr]
    refine wp_mono wp_addRule ?_ (fun e s h => hsame e s h.2.1)
    intro r s h
    rcases h with ⟨t, ht, ⟨_, -, -, h⟩ | ⟨hf, hq, -, installed, -, -, h⟩⟩
    · exact .same h
    · exact .ruleStored t request installed _ hr ht hf hq h
  | deleteRule ruleId =>
    rw [handler, hr]
    refine wp_mono wp_deleteRule ?_ hsame
    intro _ s h
    exact .rulesRemoved [ruleId] _ h.2
  | flushRules =>
    rw [handler, hr]
    refine wp_mono wp_flushRules ?_ ?_
    · intro _ s h
      obtain ⟨t, -, h⟩ := h
      exact .rulesRemoved _ _ h
    · intro _ s h
      obtain ⟨⟨ids, h⟩, -⟩ := h
      exact .rulesDangling ids h
  | addSnatRule r => exact hnat (by rw [hr]; rfl)
  | addDnatRule r => exact hnat (by rw [hr]; rfl)
  | addPortForwardRule r => exact hnat (by rw [hr]; rfl)
  | listNatRules =>
    rw [handler, hr]
    exact wp_mono wp_listNatRules (fun _ s h => .same h) hsame
  | deleteNatRule ruleId =>
    rw [handler, hr]
    refine wp_mono wp_deleteNatRule ?_ ?_
    · intro _ s h
      obtain ⟨⟨t, e, hdel, h⟩, -⟩ := h
      exact .natDeleted ruleId t e _ hr hdel h
    · intro _ s h
      rcases h with ⟨h, -⟩ | ⟨⟨t, e, hdel⟩, -, -, h⟩
      · exact .same (by rw [h]; rfl)
      · exact .natStranded ruleId t e hr hdel h
  | flushNatRules =>
    rw [handler, hr]
    refine wp_mono wp_flushNatRules ?_ (fun e s h => hsame e s (by rw [h.1]; rfl))
    intro _ s h
    obtain ⟨t, s'', ht, hrem, h, -⟩ := h
    exact .natFlushed t s'' _ hr ht hrem h

/-! ### The rule store -/

/-- The store and its two indexes. -/
def Stores.ruleStore (s : Stores) :
    Dict String FirewallRule × Dict String String × Dict String String :=
  (s.rulesDb, s.ruleSignatureIndex, s.idempotencyKeyIndex)

/-- What one call can do to the rule store. -/
inductive RuleStep (c : Call) (s s' : Stores) : Prop
  | same (h : s'.ruleStore = s.ruleStore)
  | stored (tenantId : String) (request : FirewallRuleRequest)
      (installed : String × String × Bool)
      (hreq : c.request = .addRule request) (hten : c.tenantHeader = some tenantId)
      (hnone : findExistingRule s tenantId request = none)
      (h : s'.ruleStore = (storeRule tenantId request
        (newRule c.newId tenantId request installed) s).ruleStore)
  | removed (ids : List String)
      (h : s'.ruleStore = (s.rulesDb.eraseAll ids, dropStale s.ruleSignatureIndex ids,
        dropStale s.idempotencyKeyIndex ids))
  | dangling (ids : List String)
      (h : s'.ruleStore = (s.rulesDb.eraseAll ids, s.ruleSignatureIndex, s.idempotencyKeyIndex))

/-- **One request and the rule store**: the four cases of `RuleStep` are all
that can happen. -/
theorem ruleStep_serve (d : Daemon) (c : Call) : RuleStep c d.stores (serve d c).2.stores := by
  cases storesStep_serve d c with
  | same h => exact .same (by rw [h])
  | registered request hreq hnew h => exact .same (by rw [h]; rfl)
  | tenantDeleted tenantId s'' hreq hin hrem h =>
    obtain ⟨index', -, rfl⟩ := hrem
    exact .removed _ (by rw [h]; rfl)
  | ruleStored tenantId request installed log hreq hten hnone hquota h =>
    exact .stored tenantId request installed hreq hten.1 hnone (by rw [h]; rfl)
  | rulesRemoved ids log h => exact .removed ids (by rw [h]; rfl)
  | rulesDangling ids h => exact .dangling ids (by rw [h]; rfl)
  | natClaimed template tenantId e log hreq hadm hf h => exact .same (by rw [h]; rfl)
  | natCreated template tenantId inHw log hreq hadm hf h => exact .same (by rw [h]; rfl)
  | natFlushed tenantId s'' log hreq hten hrem h =>
    obtain ⟨index', -, rfl⟩ := hrem
    exact .same (by rw [h]; rfl)
  | natDeleted id tenantId e log hreq hdel h => exact .same (by rw [h]; rfl)
  | natStranded id tenantId e hreq hdel h => exact .same (by rw [h]; rfl)

/-! ### The filters of a rule -/

/-- The call created the rule, and the filter is what it added to the device. -/
def Adds (d : Daemon) (c : Call) (rule : FirewallRule) (dev : String) (f : Filter) : Prop :=
  (serve d c).1 = ⟨201, .rule rule⟩ ∧
    (serve d c).2.kernel.filters dev = d.kernel.filters dev ++ [f]

instance (d : Daemon) (c : Call) (rule : FirewallRule) (dev : String) (f : Filter) :
    Decidable (Adds d c rule dev f) :=
  inferInstanceAs (Decidable (_ ∧ _))

end PrismFirewall.TcFirewall
