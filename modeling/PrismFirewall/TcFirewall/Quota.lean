import Mathlib.Order.Lattice
import PrismFirewall.TcFirewall.NatStore

/-!
# Quotas

A creation is let through only while the tenant owns fewer entries than it may.
The count can also change in other ways: a NAT creation takes over an entry that
exists, a tenant is deleted and registered again with smaller limits, a removal
stops half way.  None of them brings a tenant above its limit, because a tenant that
is not registered owns nothing (`WithinQuota`).
-/

namespace PrismFirewall.TcFirewall

open Lib

/-- How many rules a tenant may own; one that is not registered may own none. -/
def ruleLimit (s : Stores) (tenantId : String) : Int :=
  (s.tenants.get? tenantId).elim 0 (fun config => max 0 config.maxRules)

/-- How many NAT entries a tenant may own. -/
def natLimit (s : Stores) (tenantId : String) : Int :=
  (s.tenants.get? tenantId).elim 0 (fun config => max 0 config.maxNatEntries)

/-- No tenant owns more than it may. -/
structure WithinQuota (s : Stores) : Prop where
  rules : ∀ t, (countTenantRules s t : Int) ≤ ruleLimit s t
  nat : ∀ t, (countTenantNatEntries s t : Int) ≤ natLimit s t

/-! ### Registrations -/

/-- With fewer entries and the same registrations every tenant stays within its
limits. -/
theorem WithinQuota.of_le {s s' : Stores} (h : WithinQuota s) (ht : s'.tenants = s.tenants)
    (hr : ∀ t, countTenantRules s' t ≤ countTenantRules s t)
    (hn : ∀ t, countTenantNatEntries s' t ≤ countTenantNatEntries s t) : WithinQuota s' := by
  refine ⟨fun t => ?_, fun t => ?_⟩
  · rw [ruleLimit, ht, ← ruleLimit]
    exact le_trans (Int.ofNat_le.mpr (hr t)) (h.rules t)
  · rw [natLimit, ht, ← natLimit]
    exact le_trans (Int.ofNat_le.mpr (hn t)) (h.nat t)

theorem WithinQuota.register {s : Stores} (h : WithinQuota s) {t : String}
    (hnew : t ∉ s.tenants) (config : TenantConfig) :
    WithinQuota { s with tenants := s.tenants.insert t config } := by
  have hnone : s.tenants.get? t = none := Dict.get?_eq_none_iff.mpr hnew
  refine ⟨fun t' => ?_, fun t' => ?_⟩
  · have hle := h.rules t'
    rw [ruleLimit] at hle ⊢
    rw [Dict.get?_insert]
    split
    · rename_i heq
      subst heq
      rw [hnone] at hle
      exact le_trans hle (le_max_left 0 config.maxRules)
    · exact hle
  · have hle := h.nat t'
    rw [natLimit] at hle ⊢
    rw [Dict.get?_insert]
    split
    · rename_i heq
      subst heq
      rw [hnone] at hle
      exact le_trans hle (le_max_left 0 config.maxNatEntries)
    · exact hle

/-- A tenant that owns nothing may be taken off the register. -/
theorem WithinQuota.unregister {s : Stores} (h : WithinQuota s) {t : String}
    (hr : countTenantRules s t = 0) (hn : countTenantNatEntries s t = 0) :
    WithinQuota { s with tenants := s.tenants.erase t } := by
  refine ⟨fun t' => ?_, fun t' => ?_⟩
  · have hle := h.rules t'
    rw [ruleLimit] at hle ⊢
    rw [Dict.get?_erase]
    split
    · rename_i heq
      show (countTenantRules s t' : Int) ≤ 0
      rw [heq, hr]
      exact le_refl _
    · exact hle
  · have hle := h.nat t'
    rw [natLimit] at hle ⊢
    rw [Dict.get?_erase]
    split
    · rename_i heq
      show (countTenantNatEntries s t' : Int) ≤ 0
      rw [heq, hn]
      exact le_refl _
    · exact hle

/-! ### Entries -/

/-- Every entry of the tenant has been removed. -/
theorem countP_owner_eq_zero {ν : Type} {db : Dict String ν} {ids : List String} {p : ν → Bool}
    (h : ∀ id v, db.get? id = some v → p v = true → id ∈ ids) :
    (db.eraseAll ids).values.countP p = 0 := by
  rw [List.countP_eq_zero]
  intro v hv hp
  obtain ⟨id, hid⟩ := Dict.mem_values_iff.mp hv
  obtain ⟨hget, hnot⟩ := Dict.get?_eraseAll_eq_some.mp hid
  exact hnot (h id v hget hp)

theorem WithinQuota.storeRule {s : Stores} (h : WithinQuota s) {t : String} {c : Call}
    (request : FirewallRuleRequest) (installed : String × String × Bool)
    (ht : IsTenant s c.tenantHeader t) (hq : RuleQuotaFree s t) :
    WithinQuota (TcFirewall.storeRule t request (newRule c.newId t request installed) s) := by
  obtain ⟨config, hconfig⟩ := Dict.mem_iff_get?.mp ht.2.2
  refine ⟨fun t' => ?_, h.nat⟩
  have hadd := Dict.countP_values_insert_le s.rulesDb c.newId.val
    (newRule c.newId t request installed) (fun r => decide (r.tenantId = some t'))
  have hle := h.rules t'
  show (((s.rulesDb.insert c.newId.val (newRule c.newId t request installed)).values.countP
    (fun r => decide (r.tenantId = some t')) : Nat) : Int) ≤ ruleLimit s t'
  rw [countTenantRules] at hle
  by_cases heq : t' = t
  · subst heq
    have hlt := hq config hconfig
    rw [countTenantRules] at hlt
    have hmax : config.maxRules ≤ ruleLimit s t' := by
      rw [ruleLimit, hconfig]
      exact le_max_right 0 config.maxRules
    split at hadd <;> omega
  · have hno : decide ((newRule c.newId t request installed).tenantId = some t') = false := by
      simp [newRule, Ne.symm heq]
    rw [hno, if_neg (by simp)] at hadd
    omega

/-- An entry is written with a new owner, who has room for it. -/
theorem WithinQuota.writeNat {s s' : Stores} (h : WithinQuota s) {t : String} {e : NATEntry}
    {header : Option String} {valid : Prop} (hadm : Admitted s header valid t)
    (ho : e.tenantId = some t) (hten : s'.tenants = s.tenants) (hrules : s'.rulesDb = s.rulesDb)
    (hnat : s'.natEntriesDb = s.natEntriesDb.insert e.id e) : WithinQuota s' := by
  obtain ⟨config, hconfig⟩ := Dict.mem_iff_get?.mp hadm.tenant.2.2
  refine ⟨fun t' => ?_, fun t' => ?_⟩
  · rw [countTenantRules, hrules, ruleLimit, hten]
    exact h.rules t'
  · have hadd := Dict.countP_values_insert_le s.natEntriesDb e.id e
      (fun x => decide (x.tenantId = some t'))
    have hle := h.nat t'
    rw [countTenantNatEntries, hnat, natLimit, hten, ← natLimit]
    rw [countTenantNatEntries] at hle
    by_cases heq : t' = t
    · subst heq
      have hlt := hadm.quota config hconfig
      rw [countTenantNatEntries] at hlt
      have hmax : config.maxNatEntries ≤ natLimit s t' := by
        rw [natLimit, hconfig]
        exact le_max_right 0 config.maxNatEntries
      split at hadd <;> omega
    · have hno : decide (e.tenantId = some t') = false := by
        simp [ho, Ne.symm heq]
      rw [hno, if_neg (by simp)] at hadd
      omega

/-! ### One request, and all of them -/

theorem withinQuota_step {c : Call} {s s' : Stores} (h : WithinQuota s)
    (hs : StoresStep c s s') : WithinQuota s' := by
  cases hs with
  | same e => exact e ▸ h
  | registered request hreq hnew e => exact e ▸ h.register hnew _
  | tenantDeleted tenantId s'' hreq hin hrem e =>
    obtain ⟨index', -, rfl⟩ := hrem
    subst e
    have hbase : WithinQuota { s with
        rulesDb := s.rulesDb.eraseAll (tenantRuleIds s tenantId)
        natEntriesDb := s.natEntriesDb.eraseAll (tenantNatIds s tenantId) } :=
      h.of_le rfl (fun t => Dict.countP_values_eraseAll_le _ _ _)
        (fun t => Dict.countP_values_eraseAll_le _ _ _)
    have hgone := hbase.unregister (t := tenantId) ?_ ?_
    · exact ⟨hgone.rules, hgone.nat⟩
    · refine countP_owner_eq_zero (fun id rule hid hown => ?_)
      exact mem_tenantRuleIds.mpr ⟨rule, hid, of_decide_eq_true hown⟩
    · refine countP_owner_eq_zero (fun id entry hid hown => ?_)
      exact mem_tenantNatIds.mpr ⟨entry, hid, of_decide_eq_true hown⟩
  | ruleStored tenantId request installed log hreq hten hnone hquota e =>
    have hstored := h.storeRule request installed hten hquota
    exact e ▸ ⟨hstored.rules, hstored.nat⟩
  | rulesRemoved ids log e =>
    exact e ▸ h.of_le rfl (fun t => Dict.countP_values_eraseAll_le _ _ _) (fun t => le_refl _)
  | rulesDangling ids e =>
    exact e ▸ h.of_le rfl (fun t => Dict.countP_values_eraseAll_le _ _ _) (fun t => le_refl _)
  | natClaimed template tenantId entry log hreq hadm hf e =>
    exact e ▸ h.writeNat (e := { entry with tenantId := some tenantId }) hadm rfl rfl rfl rfl
  | natCreated template tenantId inHw log hreq hadm hf e =>
    exact e ▸ h.writeNat (e := { template with tenantId := some tenantId, inHw := inHw }) hadm
      rfl rfl rfl rfl
  | natFlushed tenantId s'' log hreq hten hrem e =>
    obtain ⟨index', -, rfl⟩ := hrem
    exact e ▸ h.of_le rfl (fun t => le_refl _) (fun t => Dict.countP_values_eraseAll_le _ _ _)
  | natDeleted id tenantId entry log hreq hdel e =>
    exact e ▸ h.of_le rfl (fun t => le_refl _)
      (fun t => Dict.countP_values_eraseAll_le s.natEntriesDb [id] _)
  | natStranded id tenantId entry hreq hdel e =>
    exact e ▸ h.of_le rfl (fun t => le_refl _) (fun t => le_refl _)

theorem withinQuota_run (calls : List Call) : WithinQuota (daemon.run calls).stores := by
  refine daemon.run_induction (P := fun _ d => WithinQuota d.stores) ?_ ?_ calls
  · refine ⟨fun t => ?_, fun t => ?_⟩
    · exact le_refl _
    · exact le_refl _
  · intro _ c d h
    exact withinQuota_step h (storesStep_serve d c)

/-- **Quota safety.**  After any sequence of requests, whatever the tc commands
answer, every registered tenant owns at most `max(0, max_rules)` rules and at most
`max(0, max_nat_entries)` NAT entries. -/
theorem quota_safety (calls : List Call) (t : String) (config : TenantConfig)
    (ht : (daemon.run calls).stores.tenants.get? t = some config) :
    (countTenantRules (daemon.run calls).stores t : Int) ≤ max 0 config.maxRules ∧
    (countTenantNatEntries (daemon.run calls).stores t : Int) ≤ max 0 config.maxNatEntries := by
  have h := withinQuota_run calls
  have hr := h.rules t
  have hn := h.nat t
  rw [ruleLimit, ht] at hr
  rw [natLimit, ht] at hn
  exact ⟨hr, hn⟩

/-- Tenant `b`, registered for one NAT entry, takes over that of `a`. -/
def quotaTakenOver : List Call :=
  [sampleTenant "a", sampleCall (.registerTenant ⟨"b", [], 0, 1⟩) "" firstId,
    sampleCall (.addSnatRule ⟨"10.0.0.5", "203.0.113.7", snatModeStatic, none⟩) "a" firstId,
    sampleCall (.addSnatRule ⟨"10.0.0.5", "203.0.113.7", snatModeStatic, none⟩) "b" secondId]

theorem quota_safety_quotaTakenOver :
    countTenantNatEntries (daemon.run quotaTakenOver).stores "b" = 1 ∧
    (countTenantRules (daemon.run quotaTakenOver).stores "b" : Int) ≤ max 0 0 ∧
    (countTenantNatEntries (daemon.run quotaTakenOver).stores "b" : Int) ≤ max 0 1 :=
  ⟨by decide +kernel, quota_safety quotaTakenOver "b" ⟨"b", [], 0, 1⟩ (by decide +kernel)⟩

end PrismFirewall.TcFirewall
