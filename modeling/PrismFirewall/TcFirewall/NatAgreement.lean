import PrismFirewall.TcFirewall.NatStore

/-!
# The two NAT stores

`nat_manager` keeps its entries in `nat_db`, and the endpoints keep them in
`nat_entries_db`.  Every request writes to both or to neither, with one exception:
`remove_nat` takes the entry out of `nat_db` before it rebuilds the band, and the
endpoint takes it out of `nat_entries_db` afterwards.  The endpoint is prepared for a
`TcError`, which a rebuild never raises, and not for the time-out it can raise.

`nat_stores_agree_iff` says that this is the only way the two come apart.
-/

namespace PrismFirewall.TcFirewall

open Lib

/-- The two stores have the same identifiers. -/
def NatAgree (s : Stores) : Prop := ∀ id, id ∈ s.natDb ↔ id ∈ s.natEntriesDb

/-- The condition of a call: when a tenant deletes an entry of its own, none of the
commands that rebuild the band times out. -/
def DeletesInTime (d : Daemon) (c : Call) : Prop :=
  ∀ id, c.request = .deleteNatRule id → (∃ t e, DeletesNat d.stores c.tenantHeader id t e) →
    RebuildsInTime (c.session d) id

theorem natAgree_of_natIdsRemoved {s s' : Stores} {ids : List String} (ha : NatAgree s)
    (h : NatIdsRemoved s ids s') : NatAgree s' := by
  obtain ⟨index', -, rfl⟩ := h
  intro id
  rw [Dict.mem_eraseAll, Dict.mem_eraseAll, ha id]

/-- Every request but the deletion of one entry keeps the two alike. -/
theorem natAgree_of_storesStep {c : Call} {s s' : Stores} (ha : NatAgree s)
    (hc : ∀ id, c.request ≠ .deleteNatRule id) (h : StoresStep c s s') : NatAgree s' := by
  cases h with
  | same h => exact h ▸ ha
  | registered request hreq hnew h => exact h ▸ ha
  | tenantDeleted tenantId s'' hreq hin hrem h =>
    have h' := natAgree_of_natIdsRemoved ha hrem
    exact h ▸ h'
  | ruleStored tenantId request installed log hreq hten hnone hquota h => exact h ▸ ha
  | rulesRemoved ids log h => exact h ▸ ha
  | rulesDangling ids h => exact h ▸ ha
  | natClaimed template tenantId e log hreq hadm hf h =>
    intro id
    rw [h]
    show id ∈ s.natDb.insert e.id _ ↔ id ∈ s.natEntriesDb.insert e.id _
    rw [Dict.mem_insert, Dict.mem_insert, ha id]
  | natCreated template tenantId inHw log hreq hadm hf h =>
    intro id
    rw [h, ← id_of_natTemplate hreq]
    show id ∈ (s.natDb.insert template.id _).insert template.id _
      ↔ id ∈ s.natEntriesDb.insert template.id _
    rw [Dict.mem_insert, Dict.mem_insert, Dict.mem_insert, ha id]
    tauto
  | natFlushed tenantId s'' log hreq hten hrem h =>
    have h' := natAgree_of_natIdsRemoved ha hrem
    exact h ▸ h'
  | natDeleted id tenantId e log hreq hdel h => exact absurd hreq (hc id)
  | natStranded id tenantId e hreq hdel h => exact absurd hreq (hc id)

/-- **One request keeps the two stores alike exactly if it deletes in time.** -/
theorem natAgree_serve_iff {d : Daemon} {c : Call} (ha : NatAgree d.stores) :
    NatAgree (serve d c).2.stores ↔ DeletesInTime d c := by
  by_cases hc : ∃ id, c.request = .deleteNatRule id
  · obtain ⟨id, hr⟩ := hc
    have hiff : DeletesInTime d c ↔ ((∃ t e, DeletesNat d.stores c.tenantHeader id t e) →
        RebuildsInTime (c.session d) id) := by
      refine ⟨fun h => h id hr, fun h id' hr' => ?_⟩
      rw [hr, Request.deleteNatRule.injEq] at hr'
      exact hr' ▸ h
    rw [hiff]
    refine serve_of_wp (P := fun _ d' => NatAgree d'.stores ↔ _) ?_
    rw [handler, hr]
    refine wp_mono wp_deleteNatRule ?_ ?_
    · intro _ s h
      obtain ⟨⟨t, e, hdel, h⟩, hmem, hin, -⟩ := h
      refine iff_of_true (fun x => ?_) (fun _ => hin)
      show x ∈ s.stores.natDb ↔ x ∈ s.stores.natEntriesDb
      rw [h]
      show x ∈ d.stores.natDb.erase id ↔ x ∈ d.stores.natEntriesDb.erase id
      rw [Dict.mem_erase, Dict.mem_erase, ha x]
    · intro _ s h
      rcases h with ⟨rfl, hnot⟩ | ⟨⟨t, e, hdel⟩, hmem, hlate, h⟩
      · refine iff_of_true ha (fun hdel entry he => ?_)
        exact absurd (Dict.mem_of_get? he) (hnot hdel)
      · refine iff_of_false (fun hag => ?_) (fun hin => hlate (hin ⟨t, e, hdel⟩))
        have hid := hag id
        have hstores : s.stores = d.stores.withoutNat id := h
        rw [hstores] at hid
        have hgone : id ∈ d.stores.natDb.erase id := hid.mpr (Dict.mem_of_get? hdel.entry)
        rw [Dict.mem_erase] at hgone
        exact hgone.1 rfl
  · have hno : ∀ id, c.request ≠ .deleteNatRule id := fun id hr => hc ⟨id, hr⟩
    exact iff_of_true (natAgree_of_storesStep ha hno (storesStep_serve d c))
      (fun id hr => absurd hr (hno id))

/-- **When the two NAT stores agree.**  Along any sequence of requests, whatever
the subprocesses answer, the two stores have the same identifiers after every
request if and only if no deletion of an entry by its tenant is hit by a time-out
while the band is rebuilt. -/
theorem nat_stores_agree_iff (calls : List Call) :
    (∀ l₁ l₂, calls = l₁ ++ l₂ → ∀ id,
      id ∈ (daemon.run l₁).stores.natDb ↔ id ∈ (daemon.run l₁).stores.natEntriesDb) ↔
    daemon.Meets DeletesInTime calls :=
  daemon.forall_run_iff_meets (A := fun d => NatAgree d.stores) (fun _ => Iff.rfl)
    (fun _ _ ha => natAgree_serve_iff ha) calls

/-- A tenant with one NAT entry deletes it, and the command that empties the band
does not answer. -/
def deletionTimesOut : List Call :=
  [sampleTenant "a",
    sampleCall (.addSnatRule ⟨"10.0.0.5", "203.0.113.7", snatModeStatic, none⟩) "a" firstId,
    { sampleCall (.deleteNatRule firstId.val) "a" secondId with replies := fun _ => .timeout }]

/-- **The stores come apart**: the entry is gone from `nat_db` and still in
`nat_entries_db`. -/
theorem nat_stores_disagree :
    firstId.val ∉ (daemon.run deletionTimesOut).stores.natDb ∧
    firstId.val ∈ (daemon.run deletionTimesOut).stores.natEntriesDb ∧
    ¬ ∀ id, id ∈ (daemon.run deletionTimesOut).stores.natDb ↔
      id ∈ (daemon.run deletionTimesOut).stores.natEntriesDb := by
  have hgone : firstId.val ∉ (daemon.run deletionTimesOut).stores.natDb := by decide +kernel
  have hkept : firstId.val ∈ (daemon.run deletionTimesOut).stores.natEntriesDb := by
    decide +kernel
  exact ⟨hgone, hkept, fun h => hgone ((h firstId.val).mpr hkept)⟩

end PrismFirewall.TcFirewall
