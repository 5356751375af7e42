import PrismFirewall.TcFirewall.NatStore

/-!
# Deleting a tenant

`delete_tenant` walks over the rules of the tenant, then over its NAT entries, then
over the indexes, and takes the tenant off the register last.  An error of a tc
command does not stop it, a time-out while it removes rules does.

`TenantPruned` says what should be left: exactly what does not belong to the
tenant.
-/

namespace PrismFirewall.TcFirewall

open Lib

/-- The rule belongs to the tenant. -/
def OwnsRule (s : Stores) (tenantId id : String) : Prop :=
  ∃ rule, s.rulesDb.get? id = some rule ∧ rule.tenantId = some tenantId

/-- Every store and every index holds what it held, less what belonged to the
tenant, and of the registrations only that of the tenant is gone. -/
structure TenantPruned (t : String) (s s' : Stores) : Prop where
  rulesDb : ∀ id rule, s'.rulesDb.get? id = some rule ↔
    s.rulesDb.get? id = some rule ∧ rule.tenantId ≠ some t
  natEntriesDb : ∀ id e, s'.natEntriesDb.get? id = some e ↔
    s.natEntriesDb.get? id = some e ∧ e.tenantId ≠ some t
  natDb : ∀ id e, s'.natDb.get? id = some e ↔ s.natDb.get? id = some e ∧ e.tenantId ≠ some t
  tenants : ∀ t', s'.tenants.get? t' = if t' = t then none else s.tenants.get? t'
  ruleSignatureIndex : ∀ sig id, s'.ruleSignatureIndex.get? sig = some id ↔
    s.ruleSignatureIndex.get? sig = some id ∧ ¬ OwnsRule s t id
  idempotencyKeyIndex : ∀ key id, s'.idempotencyKeyIndex.get? key = some id ↔
    s.idempotencyKeyIndex.get? key = some id ∧ ¬ OwnsRule s t id
  natSignatureIndex : ∀ sig id, s'.natSignatureIndex.get? sig = some id ↔
    s.natSignatureIndex.get? sig = some id ∧ ¬ OwnedBy s t id

/-! ### The NAT index leads to live entries -/

/-- Every entry of the signature index names an entry of `nat_db`. -/
def NatIndexLive (s : Stores) : Prop :=
  ∀ sig id, s.natSignatureIndex.get? sig = some id → id ∈ s.natDb

theorem natIndexLive_of_natIdsRemoved {s s' : Stores} {ids : List String} (hl : NatIndexLive s)
    (h : NatIdsRemoved s ids s') : NatIndexLive s' := by
  obtain ⟨index', hi, rfl⟩ := h
  intro sig id hid
  obtain ⟨hold, hnot⟩ := (hi sig id).mp hid
  have hmem := hl sig id hold
  exact Dict.mem_eraseAll.mpr ⟨hmem, fun h => hnot ⟨h, hmem⟩⟩

theorem natIndexLive_withoutNat {s : Stores} (hl : NatIndexLive s) (id : String) :
    NatIndexLive (s.withoutNat id) := by
  intro sig id' hid
  obtain ⟨hold, hne⟩ := get?_dropStale_eq_some.mp hid
  rw [List.mem_singleton] at hne
  exact Dict.mem_erase.mpr ⟨hne, hl sig id' hold⟩

theorem natIndexLive_step {c : Call} {s s' : Stores} (hl : NatIndexLive s)
    (h : StoresStep c s s') : NatIndexLive s' := by
  cases h with
  | same h => exact h ▸ hl
  | registered request hreq hnew h => exact h ▸ hl
  | tenantDeleted tenantId s'' hreq hin hrem h =>
    have hl' := natIndexLive_of_natIdsRemoved hl hrem
    exact h ▸ hl'
  | ruleStored tenantId request installed log hreq hten hnone hquota h => exact h ▸ hl
  | rulesRemoved ids log h => exact h ▸ hl
  | rulesDangling ids h => exact h ▸ hl
  | natClaimed template tenantId e log hreq hadm hf h =>
    subst h
    intro sig id hid
    exact Dict.mem_insert.mpr (Or.inr (hl sig id hid))
  | natCreated template tenantId inHw log hreq hadm hf h =>
    subst h
    intro sig id hid
    refine Dict.mem_insert.mpr (Or.inr (Dict.mem_insert.mpr ?_))
    have hid' : (s.natSignatureIndex.insert template.signature c.newId.val).get? sig = some id :=
      hid
    rw [Dict.get?_insert] at hid'
    split at hid'
    · exact Or.inl (Option.some.inj hid').symm
    · exact Or.inr (hl sig id hid')
  | natFlushed tenantId s'' log hreq hten hrem h =>
    have hl' := natIndexLive_of_natIdsRemoved hl hrem
    exact h ▸ hl'
  | natDeleted id tenantId e log hreq hdel h =>
    have hl' := natIndexLive_withoutNat hl id
    exact h ▸ hl'
  | natStranded id tenantId e hreq hdel h => exact h ▸ natIndexLive_withoutNat hl id

theorem natIndexLive_run (calls : List Call) : NatIndexLive (daemon.run calls).stores := by
  refine daemon.run_induction (P := fun _ d => NatIndexLive d.stores) ?_ ?_ calls
  · intro sig id hid
    simp [daemon, Daemon.init] at hid
  · intro _ c d ih
    exact natIndexLive_step ih (storesStep_serve d c)

/-! ### What is left -/

/-- Without the keys of the values that have a property, the values that do not
have it are left. -/
theorem get?_eraseAll_eq_some_iff {ν : Type} {db : Dict String ν} {ids : List String}
    {P : ν → Prop} (hids : ∀ id v, db.get? id = some v → (id ∈ ids ↔ P v)) (id : String) (v : ν) :
    (db.eraseAll ids).get? id = some v ↔ db.get? id = some v ∧ ¬ P v := by
  rw [Dict.get?_eraseAll_eq_some]
  exact and_congr_right (fun h => not_congr (hids id v h))

theorem tenantPruned_of_removed {t : String} {s s'' : Stores} (ho : NatOwned s)
    (hl : NatIndexLive s) (hrem : NatIdsRemoved s (tenantNatIds s t) s'') :
    TenantPruned t s { s''.withoutRules (tenantRuleIds s t) with
      tenants := s.tenants.erase t } := by
  obtain ⟨index', hi, rfl⟩ := hrem
  refine ⟨get?_eraseAll_eq_some_iff (fun id rule hid => ?_),
    get?_eraseAll_eq_some_iff (fun id e hid => ?_),
    get?_eraseAll_eq_some_iff (fun id e hid => ?_), fun t' => Dict.get?_erase _ _ _,
    fun sig id => ?_, fun key id => ?_, fun sig id => ?_⟩
  · rw [mem_tenantRuleIds, hid]
    simp
  · rw [mem_tenantNatIds, OwnedBy, hid]
    simp
  · -- what `nat_db` holds, the other store holds too
    rw [mem_tenantNatIds, OwnedBy, (ho.mirrored id e hid).2]
    simp
  · show (dropStale s.ruleSignatureIndex (tenantRuleIds s t)).get? sig = some id ↔ _
    rw [get?_dropStale_eq_some, mem_tenantRuleIds, OwnsRule]
  · show (dropStale s.idempotencyKeyIndex (tenantRuleIds s t)).get? key = some id ↔ _
    rw [get?_dropStale_eq_some, mem_tenantRuleIds, OwnsRule]
  · show index'.get? sig = some id ↔ _
    rw [hi sig id, mem_tenantNatIds]
    constructor
    · intro h
      exact ⟨h.1, fun hown => h.2 ⟨hown, hl sig id h.1⟩⟩
    · intro h
      exact ⟨h.1, fun hown => h.2 hown.1⟩

/-- **Deleting a tenant is complete and local.**  After any run, when a registered
tenant is deleted and no command times out, every store and index is left with
exactly what did not belong to the tenant, and only its registration is gone. -/
theorem tenant_deletion_complete_and_local (calls : List Call) (c : Call) (t : String)
    (hreq : c.request = .deleteTenant t) (hreg : t ∈ (daemon.run calls).stores.tenants)
    (hanswer : ∀ i, (c.replies i).timesOut = false) :
    TenantPruned t (daemon.run calls).stores (serve (daemon.run calls) c).2.stores := by
  refine serve_of_wp (P := fun _ d' => TenantPruned t (daemon.run calls).stores d'.stores) ?_
  rw [handler, hreq]
  refine wp_mono wp_deleteTenant ?_ ?_
  · intro _ s h
    obtain ⟨-, s'', hrem, h⟩ := h
    show TenantPruned t _ s.stores
    rw [h]
    exact tenantPruned_of_removed (natOwned_run calls) (natIndexLive_run calls) hrem
  · intro _ s h
    obtain ⟨i, hi⟩ := h.2.1 hreg
    have hfalse : (c.replies i).timesOut = true := hi
    rw [hanswer i] at hfalse
    exact absurd hfalse (by simp)

/-- Two tenants with a rule and a NAT entry each. -/
def twoTenants : List Call :=
  [sampleTenant "a", sampleTenant "b",
    sampleCall (.addRule (sampleRule port80 (some "k"))) "a" firstId,
    sampleCall (.addRule (sampleRule port443 none)) "b" secondId,
    sampleCall (.addSnatRule ⟨"10.0.0.5", "203.0.113.7", snatModeStatic, none⟩) "a" firstId,
    sampleCall (.addSnatRule ⟨"10.0.0.6", "203.0.113.8", snatModeStatic, none⟩) "b" secondId]

/-- Tenant `a` is deleted while every command is refused by the kernel. -/
def deletionOfA : Call :=
  { sampleCall (.deleteTenant "a") "" firstId with
    replies := fun _ => .exit 2 "" "RTNETLINK answers: No such file or directory" 0 }

theorem tenant_deletion_complete_and_local_twoTenants :
    (serve (daemon.run twoTenants) deletionOfA).2.stores.rulesDb.keys = [secondId.val] ∧
    (serve (daemon.run twoTenants) deletionOfA).2.stores.natDb.keys = [secondId.val] ∧
    TenantPruned "a" (daemon.run twoTenants).stores
      (serve (daemon.run twoTenants) deletionOfA).2.stores :=
  ⟨by decide +kernel, by decide +kernel, tenant_deletion_complete_and_local twoTenants deletionOfA
    "a" rfl (by decide +kernel) (fun _ => rfl)⟩

end PrismFirewall.TcFirewall
