import PrismFirewall.Lib.Index
import PrismFirewall.TcFirewall.Requests

/-!
# What a request does to the NAT stores

`nat_db` of the manager and `nat_entries_db` of the endpoints hold the same
objects.  `NatStep` lists what one request can do to the two and to the
signature index: nothing, write one entry with its new owner, or remove entries
of one tenant.

Two invariants follow.  `NatOwned` needs no assumption: every entry has an
owner, and what `nat_db` holds, `nat_entries_db` holds as well.  `NatCoherent`,
for runs in which no identifier is drawn twice, says that the signature index
leads to the live entry with the signature.
-/

namespace PrismFirewall.TcFirewall

open Lib

/-- The two stores and the index. -/
def Stores.natStore (s : Stores) :
    Dict String NATEntry × Dict String NATEntry × Dict String String :=
  (s.natDb, s.natEntriesDb, s.natSignatureIndex)

/-- The tenant in whose name a call removes NAT entries. -/
def Call.actor (c : Call) : Option String :=
  match c.request with
  | .deleteTenant tenantId => some tenantId
  | _ => c.tenantHeader

/-- An entry of the tenant, in the store of the endpoints. -/
def OwnedBy (s : Stores) (tenantId id : String) : Prop :=
  ∃ e, s.natEntriesDb.get? id = some e ∧ e.tenantId = some tenantId

/-- What one call can do to the NAT stores. -/
inductive NatStep (c : Call) (s s' : Stores) : Prop
  | same (h : s'.natStore = s.natStore)
  | claimed (template : NATEntry) (tenantId : String) (e : NATEntry)
      (hreq : c.request.natTemplate c.newId = some template)
      (hf : findExistingNat s template.signature = some e)
      (h : s'.natStore = (recordNatOwner tenantId e s).natStore)
  | created (template : NATEntry) (tenantId : String) (inHw : Bool)
      (hreq : c.request.natTemplate c.newId = some template)
      (hf : findExistingNat s template.signature = none)
      (h : s'.natStore = (recordNatOwner tenantId { template with inHw := inHw } { s with
        natDb := s.natDb.insert c.newId.val { template with inHw := inHw }
        natSignatureIndex :=
          s.natSignatureIndex.insert template.signature c.newId.val }).natStore)
  | removed (tenantId : String) (ids entryIds : List String) (index' : Dict String String)
      (hact : c.actor = some tenantId) (hown : ∀ id ∈ ids, OwnedBy s tenantId id)
      (hsub : ∀ id ∈ entryIds, id ∈ ids)
      (hindex : ∀ sig id, index'.get? sig = some id → s.natSignatureIndex.get? sig = some id)
      (hkept : ∀ sig id, id ∉ ids → s.natSignatureIndex.get? sig = some id →
        index'.get? sig = some id)
      (h : s'.natStore = (s.natDb.eraseAll ids, s.natEntriesDb.eraseAll entryIds, index'))

/-! ### Every request is such a step -/

theorem ownedBy_tenantNatIds (s : Stores) (tenantId : String) :
    ∀ id ∈ tenantNatIds s tenantId, OwnedBy s tenantId id := by
  intro id hid
  obtain ⟨⟨k, e⟩, he, rfl⟩ := List.mem_map.mp hid
  rw [List.mem_filter, decide_eq_true_eq] at he
  exact ⟨e, Dict.mem_entries_iff.mp he.1, he.2⟩

theorem mem_tenantNatIds {s : Stores} {t id : String} :
    id ∈ tenantNatIds s t ↔ OwnedBy s t id := by
  refine ⟨ownedBy_tenantNatIds s t id, fun h => ?_⟩
  obtain ⟨e, he, hown⟩ := h
  rw [tenantNatIds, List.mem_map]
  exact ⟨(id, e), List.mem_filter.mpr ⟨Dict.mem_entries_iff.mpr he, decide_eq_true hown⟩, rfl⟩

theorem natStep_of_natIdsRemoved {c : Call} {s s' s'' : Stores} {tenantId : String}
    (hact : c.actor = some tenantId) (h : NatIdsRemoved s (tenantNatIds s tenantId) s'')
    (he : s'.natStore = s''.natStore) : NatStep c s s' := by
  obtain ⟨index', hi, rfl⟩ := h
  refine .removed tenantId _ _ index' hact (ownedBy_tenantNatIds s tenantId) (fun _ h => h)
    (fun sig id h => ((hi sig id).mp h).1) (fun sig id hid h => ?_) he
  exact (hi sig id).mpr ⟨h, fun h' => hid h'.1⟩

theorem natStep_of_withoutNat {c : Call} {s s' : Stores} {tenantId id : String}
    (entryIds : List String) (hact : c.actor = some tenantId) (hown : OwnedBy s tenantId id)
    (hsub : ∀ x ∈ entryIds, x ∈ [id])
    (h : s'.natStore = (s.natDb.eraseAll [id], s.natEntriesDb.eraseAll entryIds,
      dropStale s.natSignatureIndex [id])) : NatStep c s s' := by
  refine .removed tenantId [id] entryIds _ hact ?_ hsub
    (fun _ _ h' => (get?_dropStale_eq_some.mp h').1)
    (fun _ _ hid h' => get?_dropStale_eq_some.mpr ⟨h', hid⟩) h
  intro x hx
  rw [List.mem_singleton.mp hx]
  exact hown

/-- **One request and the NAT stores**: the cases of `NatStep` are all that can
happen. -/
theorem natStep_serve (d : Daemon) (c : Call) : NatStep c d.stores (serve d c).2.stores := by
  cases storesStep_serve d c with
  | same h => exact .same (by rw [h])
  | registered request hreq hnew h => exact .same (by rw [h]; rfl)
  | tenantDeleted tenantId s'' hreq hin hrem h =>
    exact natStep_of_natIdsRemoved (by rw [Call.actor, hreq]) hrem (by rw [h]; rfl)
  | ruleStored tenantId request installed log hreq hten hnone hquota h =>
    exact .same (by rw [h]; rfl)
  | rulesRemoved ids log h => exact .same (by rw [h]; rfl)
  | rulesDangling ids h => exact .same (by rw [h]; rfl)
  | natClaimed template tenantId e log hreq hadm hf h =>
    exact .claimed template tenantId e hreq hf (by rw [h]; rfl)
  | natCreated template tenantId inHw log hreq hadm hf h =>
    exact .created template tenantId inHw hreq hf (by rw [h]; rfl)
  | natFlushed tenantId s'' log hreq hten hrem h =>
    have hact : c.actor = c.tenantHeader := by rw [Call.actor, hreq]
    exact natStep_of_natIdsRemoved (hact.trans hten.1) hrem (by rw [h]; rfl)
  | natDeleted id tenantId e log hreq hdel h =>
    have hact : c.actor = c.tenantHeader := by rw [Call.actor, hreq]
    exact natStep_of_withoutNat [id] (hact.trans hdel.tenant.1) ⟨e, hdel.entry, hdel.owner⟩
      (fun _ hx => hx) (by rw [h]; rfl)
  | natStranded id tenantId e hreq hdel h =>
    have hact : c.actor = c.tenantHeader := by rw [Call.actor, hreq]
    exact natStep_of_withoutNat [] (hact.trans hdel.tenant.1) ⟨e, hdel.entry, hdel.owner⟩
      (by simp) (by rw [h]; rfl)

/-! ### Lookups after a step -/

theorem id_of_natTemplate {request : Request} {newId : ShortId} {template : NATEntry}
    (h : request.natTemplate newId = some template) : template.id = newId.val := by
  unfold Request.natTemplate at h
  split at h
  · rw [← Option.some.inj h]
  · rw [← Option.some.inj h]
  · rw [← Option.some.inj h]
  · exact absurd h (by simp)

theorem findExistingNat_eq_some {s : Stores} {sig : String} {e : NATEntry}
    (h : findExistingNat s sig = some e) :
    ∃ id, s.natSignatureIndex.get? sig = some id ∧ s.natDb.get? id = some e := by
  unfold findExistingNat at h
  split at h
  · rename_i id hid
    split at h
    · exact absurd h (by simp)
    · exact ⟨id, hid, h⟩
  · exact absurd h (by simp)

/-- One entry has been written to both stores. -/
structure NatWritten (s s' : Stores) (e : NATEntry) : Prop where
  natDb : ∀ id, s'.natDb.get? id = if id = e.id then some e else s.natDb.get? id
  entries : ∀ id, s'.natEntriesDb.get? id = if id = e.id then some e else s.natEntriesDb.get? id

theorem natWritten_of_claimed {s s' : Stores} {tenantId : String} {e : NATEntry}
    (h : s'.natStore = (recordNatOwner tenantId e s).natStore) :
    NatWritten s s' { e with tenantId := some tenantId } := by
  simp only [Stores.natStore, recordNatOwner, Prod.mk.injEq] at h
  refine ⟨fun id => ?_, fun id => ?_⟩
  · rw [h.1, Dict.get?_insert]
  · rw [h.2.1, Dict.get?_insert]

theorem natWritten_of_created {s s' : Stores} {tenantId : String} {e : NATEntry}
    {index' : Dict String String} (h : s'.natStore = (recordNatOwner tenantId e { s with
      natDb := s.natDb.insert e.id e
      natSignatureIndex := index' }).natStore) :
    NatWritten s s' { e with tenantId := some tenantId } := by
  simp only [Stores.natStore, recordNatOwner, Prod.mk.injEq] at h
  refine ⟨fun id => ?_, fun id => ?_⟩
  · rw [h.1, Dict.get?_insert, Dict.get?_insert]
    by_cases hid : id = e.id <;> simp [hid]
  · rw [h.2.1, Dict.get?_insert]

/-- What holds of every entry, and of the one that is written, holds after it. -/
theorem NatWritten.forall_natDb {s s' : Stores} {e : NATEntry} (hw : NatWritten s s' e)
    {P : String → NATEntry → Prop} (h : ∀ id x, s.natDb.get? id = some x → P id x)
    (he : P e.id e) : ∀ id x, s'.natDb.get? id = some x → P id x := by
  intro id x hx
  rw [hw.natDb] at hx
  split at hx
  · rename_i hid
    rw [hid, ← Option.some.inj hx]
    exact he
  · exact h id x hx

/-! ### Every entry has an owner -/

/-- What `nat_db` holds, `nat_entries_db` holds under the same identifier, and
every entry has an owner. -/
structure NatOwned (s : Stores) : Prop where
  mirrored : ∀ id e, s.natDb.get? id = some e → e.id = id ∧ s.natEntriesDb.get? id = some e
  owner : ∀ id e, s.natEntriesDb.get? id = some e → ∃ t, e.tenantId = some t

theorem NatOwned.write {s s' : Stores} (h : NatOwned s) {e : NATEntry} {t : String}
    (ht : e.tenantId = some t) (hw : NatWritten s s' e) : NatOwned s' := by
  refine ⟨fun id e' he' => ?_, fun id e' he' => ?_⟩
  · rw [hw.natDb] at he'
    rw [hw.entries]
    split at he'
    · rename_i hid
      rw [if_pos hid]
      rw [Option.some.injEq] at he'
      exact ⟨by rw [← he', hid], by rw [he']⟩
    · rename_i hid
      rw [if_neg hid]
      exact h.mirrored id e' he'
  · rw [hw.entries] at he'
    split at he'
    · rw [Option.some.injEq] at he'
      exact ⟨t, he' ▸ ht⟩
    · exact h.owner id e' he'

theorem natOwned_step {c : Call} {s s' : Stores} (h : NatOwned s) (hs : NatStep c s s') :
    NatOwned s' := by
  cases hs with
  | same e =>
    simp only [Stores.natStore, Prod.mk.injEq] at e
    refine ⟨?_, ?_⟩
    · rw [e.1, e.2.1]
      exact h.mirrored
    · rw [e.2.1]
      exact h.owner
  | claimed template tenantId e hreq hf he => exact h.write rfl (natWritten_of_claimed he)
  | created template tenantId inHw hreq hf he =>
    rw [← id_of_natTemplate hreq] at he
    exact h.write rfl (natWritten_of_created he)
  | removed tenantId ids entryIds index' hact hown hsub hindex hkept he =>
    simp only [Stores.natStore, Prod.mk.injEq] at he
    refine ⟨fun id e hid => ?_, fun id e hid => ?_⟩
    · rw [he.1] at hid
      obtain ⟨hget, hni⟩ := Dict.get?_eraseAll_eq_some.mp hid
      obtain ⟨hide, hent⟩ := h.mirrored id e hget
      refine ⟨hide, ?_⟩
      rw [he.2.1, Dict.get?_eraseAll, if_neg (fun hx => hni (hsub id hx))]
      exact hent
    · rw [he.2.1] at hid
      exact h.owner id e (Dict.get?_eraseAll_eq_some.mp hid).1

theorem natOwned_run (calls : List Call) : NatOwned (daemon.run calls).stores := by
  refine daemon.run_induction (P := fun _ d => NatOwned d.stores) ?_ ?_ calls
  · exact ⟨fun id e he => by simp [daemon, Daemon.init] at he,
      fun id e he => by simp [daemon, Daemon.init] at he⟩
  · intro l c d ih
    exact natOwned_step ih (natStep_serve d c)

/-! ### The signature index -/

/-- The NAT identifier a call may draw. -/
def Call.drawnNatId (c : Call) : Option String := (c.request.natTemplate c.newId).map NATEntry.id

/-- The NAT identifiers drawn along a run. -/
def drawnNatIds (calls : List Call) : List String := calls.filterMap Call.drawnNatId

theorem drawnNatIds_snoc (calls : List Call) (c : Call) :
    drawnNatIds (calls ++ [c]) = drawnNatIds calls ++ c.drawnNatId.toList := by
  rw [drawnNatIds, List.filterMap_append]
  cases h : c.drawnNatId <;> simp [drawnNatIds, h]

/-- The index is right about every live entry, and only drawn identifiers are in
use. -/
structure NatCoherent (used : List String) (s : Stores) : Prop where
  indexed : Indexes s.natSignatureIndex s.natDb NATEntry.signature
  live : ∀ id e, s.natDb.get? id = some e → id ≠ ""
  entries : ∀ id, id ∈ s.natEntriesDb → id ∈ used
  drawn : ∀ sig id, s.natSignatureIndex.get? sig = some id → id ∈ used

namespace NatCoherent

variable {used : List String} {s s' : Stores}

theorem mono (h : NatCoherent used s) (more : List String) : NatCoherent (used ++ more) s where
  indexed := h.indexed
  live := h.live
  entries id hid := List.mem_append_left _ (h.entries id hid)
  drawn sig id hs := List.mem_append_left _ (h.drawn sig id hs)

theorem of_natStore_eq (h : NatCoherent used s) (e : s'.natStore = s.natStore) :
    NatCoherent used s' := by
  simp only [Stores.natStore, Prod.mk.injEq] at e
  obtain ⟨e1, e2, e3⟩ := e
  refine ⟨?_, ?_, ?_, ?_⟩
  · rw [e1, e3]
    exact h.indexed
  · rw [e1]
    exact h.live
  · rw [e2]
    exact h.entries
  · rw [e3]
    exact h.drawn

/-- The entry a lookup finds is the live one with the signature. -/
theorem findExistingNat_iff (h : NatCoherent used s) {sig : String} {e : NATEntry} :
    findExistingNat s sig = some e ↔ ∃ id, s.natDb.get? id = some e ∧ e.signature = sig := by
  constructor
  · intro hf
    obtain ⟨id, hs, hid⟩ := findExistingNat_eq_some hf
    exact ⟨id, hid, (h.indexed id e hid sig).mp hs⟩
  · intro h
    obtain ⟨id, hid, hs⟩ := h
    simp only [findExistingNat, (h.indexed id e hid sig).mpr hs]
    rw [if_neg (h.live id e hid), hid]

theorem not_live_of_findExistingNat_eq_none (h : NatCoherent used s) {sig : String}
    (hn : findExistingNat s sig = none) :
    ∀ id, s.natSignatureIndex.get? sig = some id → id ∉ s.natDb := by
  intro id hs hid
  obtain ⟨e, he⟩ := Dict.mem_iff_get?.mp hid
  have hf := h.findExistingNat_iff.mpr ⟨id, he, (h.indexed id e he sig).mp hs⟩
  rw [hn] at hf
  exact absurd hf (by simp)

/-- A new owner does not change the signature. -/
theorem claim (h : NatCoherent used s) (ho : NatOwned s) {sig tenantId : String} {e : NATEntry}
    (hf : findExistingNat s sig = some e) : NatCoherent used (recordNatOwner tenantId e s) := by
  obtain ⟨id, -, hid⟩ := findExistingNat_eq_some hf
  obtain ⟨rfl, hent⟩ := ho.mirrored id e hid
  have hu : e.id ∈ used := h.entries e.id (Dict.mem_of_get? hent)
  refine ⟨h.indexed.replace hid rfl, ?_, ?_, h.drawn⟩
  · intro id' e' he'
    rw [recordNatOwner, Dict.get?_insert] at he'
    split at he'
    · rename_i hid'
      rw [hid']
      exact h.live e.id e hid
    · exact h.live id' e' he'
  · intro id' hid'
    rw [recordNatOwner, Dict.mem_insert] at hid'
    rcases hid' with rfl | hid'
    · exact hu
    · exact h.entries id' hid'

theorem create (h : NatCoherent used s) {e : NATEntry} {tenantId : String} (hne : e.id ≠ "")
    (hnew : e.id ∉ used) (hn : findExistingNat s e.signature = none) :
    NatCoherent (used ++ [e.id]) (recordNatOwner tenantId e { s with
      natDb := s.natDb.insert e.id e
      natSignatureIndex := s.natSignatureIndex.insert e.signature e.id }) := by
  have hi := h.indexed.insert (k := e.id) (v := e) (fun sig hs => hnew (h.drawn sig _ hs))
    (h.not_live_of_findExistingNat_eq_none hn)
  refine ⟨hi.replace (Dict.get?_insert_self _ _ _) rfl, ?_, ?_, ?_⟩
  · intro id' e' he'
    rw [recordNatOwner, Dict.get?_insert] at he'
    split at he'
    · rename_i hid'
      rw [hid']
      exact hne
    · rename_i hid'
      rw [Dict.get?_insert, if_neg hid'] at he'
      exact h.live id' e' he'
  · intro id' hid'
    rw [recordNatOwner, Dict.mem_insert] at hid'
    rcases hid' with rfl | hid'
    · exact List.mem_append_right _ (List.mem_singleton_self _)
    · exact List.mem_append_left _ (h.entries id' hid')
  · intro sig id' hs
    rw [recordNatOwner, Dict.get?_insert] at hs
    split at hs
    · rw [← Option.some.inj hs]
      exact List.mem_append_right _ (List.mem_singleton_self _)
    · exact List.mem_append_left _ (h.drawn sig id' hs)

end NatCoherent

theorem natCoherent_step {used : List String} {c : Call} {s s' : Stores}
    (h : NatCoherent used s) (ho : NatOwned s) (hs : NatStep c s s')
    (hnew : ∀ id, c.drawnNatId = some id → id ∉ used) :
    NatCoherent (used ++ c.drawnNatId.toList) s' := by
  cases hs with
  | same e => exact (h.mono _).of_natStore_eq e
  | claimed template tenantId e hreq hf he =>
    exact ((h.claim ho hf).mono _).of_natStore_eq he
  | created template tenantId inHw hreq hf he =>
    have hd : c.drawnNatId = some template.id := by rw [Call.drawnNatId, hreq]; rfl
    have hne : template.id ≠ "" := by
      rw [id_of_natTemplate hreq]
      exact c.newId.ne_empty
    rw [← id_of_natTemplate hreq] at he
    rw [hd]
    exact (h.create (e := { template with inHw := inHw }) hne (hnew _ hd) hf).of_natStore_eq he
  | removed tenantId ids entryIds index' hact hown hsub hindex hkept he =>
    simp only [Stores.natStore, Prod.mk.injEq] at he
    obtain ⟨he1, he2, he3⟩ := he
    have hget : ∀ id e, s'.natDb.get? id = some e → s.natDb.get? id = some e ∧ id ∉ ids := by
      intro id e hid
      rw [he1] at hid
      exact Dict.get?_eraseAll_eq_some.mp hid
    refine (NatCoherent.mk ?_ ?_ ?_ ?_ : NatCoherent used s').mono _
    · refine (h.indexed.of_get?_imp (fun id e hid => (hget id e hid).1)).of_agree
        (fun id hid sig => ?_)
      obtain ⟨e, hid'⟩ := Dict.mem_iff_get?.mp hid
      rw [he3]
      exact ⟨hindex sig id, hkept sig id (hget id e hid').2⟩
    · exact fun id e hid => h.live id e (hget id e hid).1
    · intro id hid
      obtain ⟨e, hid'⟩ := Dict.mem_iff_get?.mp hid
      rw [he2] at hid'
      exact h.entries id (Dict.mem_of_get? (Dict.get?_eraseAll_eq_some.mp hid').1)
    · intro sig id hid
      rw [he3] at hid
      exact h.drawn sig id (hindex sig id hid)

theorem natCoherent_run (calls : List Call) (h : (drawnNatIds calls).Nodup) :
    NatCoherent (drawnNatIds calls) (daemon.run calls).stores := by
  suffices hboth : ∀ l, (drawnNatIds l).Nodup → NatOwned (daemon.run l).stores ∧
      NatCoherent (drawnNatIds l) (daemon.run l).stores from (hboth calls h).2
  refine daemon.run_induction (P := fun l d => (drawnNatIds l).Nodup → NatOwned d.stores ∧
    NatCoherent (drawnNatIds l) d.stores) ?_ ?_
  · intro _
    refine ⟨natOwned_run [], Indexes.empty _ _, ?_, ?_, ?_⟩
    · exact fun id e he => by simp [daemon, Daemon.init] at he
    · exact fun id hid => by simp [Dict.mem_iff_get?, daemon, Daemon.init] at hid
    · exact fun sig id hs => by simp [daemon, Daemon.init] at hs
  · intro l c d ih hl
    rw [drawnNatIds_snoc, List.nodup_append] at hl
    rw [drawnNatIds_snoc]
    obtain ⟨ho, hc⟩ := ih hl.1
    refine ⟨natOwned_step ho (natStep_serve d c), ?_⟩
    refine natCoherent_step hc ho (natStep_serve d c) (fun id hid hmem => ?_)
    exact hl.2.2 id hmem id (by simp [hid]) rfl

end PrismFirewall.TcFirewall
