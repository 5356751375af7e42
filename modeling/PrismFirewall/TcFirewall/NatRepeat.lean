import PrismFirewall.TcFirewall.NatOwnership

/-!
# Repeating a NAT creation

A NAT request that succeeded has left its signature in the index, whether the entry was
created or found, and the index keeps leading to the entry while it is in `nat_db`
(`leadsTo_step`): an entry of the index is overwritten only when what it leads to is gone.
So a repetition gets to the entry, and recording the owner again writes what is there
already.

It gets there if it gets past the quota.  The endpoints count the entries of the tenant
before they ask `nat_manager` whether there is anything to create, so a tenant with all its
entries in use cannot repeat a request.
-/

namespace PrismFirewall.TcFirewall

open Lib

/-! ### The answer to a creation -/

/-- A NAT creation is answered with its entry, or fails and leaves the stores alone. -/
theorem serve_natCreation {d : Daemon} {c : Call} {template : NATEntry}
    (h : c.request.natTemplate c.newId = some template) :
    (∃ details t e, (serve d c).1 = ⟨201, .nat { e with tenantId := some t }⟩ ∧
      NatAnswered c.tenantHeader c.newId template c.request.ValidMode
        (Request.PoolFree · c.request) (natCreatedEntry template.type details c.client)
        (c.session d) (serve d c).2.stores t e) ∨
    (400 ≤ (serve d c).1.status ∧ ((∃ t, Admitted d.stores c.tenantHeader c.request.ValidMode t) →
      findExistingNat d.stores template.signature = none)) := by
  refine serve_of_wp (P := fun r d' => (∃ details t e, r = ⟨201, .nat { e with
    tenantId := some t }⟩ ∧ NatAnswered c.tenantHeader c.newId template c.request.ValidMode
      (Request.PoolFree · c.request) (natCreatedEntry template.type details c.client)
      (c.session d) d'.stores t e) ∨ (400 ≤ r.status ∧ _)) ?_
  refine wp_mono (wp_natCreation_answered h) (fun r s h' => Or.inl h') (fun e s h' => ?_)
  exact Or.inr ⟨h'.1, h'.2.2.1⟩

/-- A request that finds its entry issues no command. -/
theorem wp_addNatRule_of_found {header client : Option String} {natType : NatType}
    {add : DaemonM NATEntry} {details : List (String × AuditValue)} {s : Session}
    (hadd : wp add s (fun _ s' => s' = s) (fun _ s' => s' = s)) :
    wp (addNatRule header client natType add details) s (fun _ s' => s'.tc = s.tc)
      (fun _ s' => s'.tc = s.tc) := by
  unfold addNatRule
  rw [wp_bind]
  refine wp_mono wp_getTenantId ?_ (fun _ s' h => by rw [h.1])
  intro t s' h
  obtain ⟨rfl, ht⟩ := h
  obtain ⟨config, hc⟩ := Dict.mem_iff_get?.mp ht.2.2
  rw [wp_bind, wp_getStores]
  simp only [wp_bind, wp_item_of_get? hc]
  split
  · rfl
  · rw [wp_bind]
    refine wp_catchTcError_of (F := fun _ s'' => s'' = s') (wp_mono hadd (fun e s'' h => ?_)
      (fun _ _ h => h)) (fun _ s'' h => by rw [h]; rfl) (fun _ s'' _ h => by rw [h])
    subst h
    simp only [wp_bind, wp_modifyStores, wp_auditLog, wp_pure]

theorem wp_addSnat_of_found {newId : ShortId} {privateIp publicIp mode : String} {s : Session}
    {e : NATEntry} (hf : findExistingNat s.stores
      (computeNatSignature .snat privateIp publicIp 0 0 "") = some e) :
    wp (addSnat newId privateIp publicIp mode) s (fun _ s' => s' = s) (fun _ s' => s' = s) := by
  unfold addSnat
  split
  · rfl
  · simp only [wp_bind, wp_getStores, wp_pure, hf]

theorem wp_addPortNat_of_found {natType : NatType} {cmd : List String} {newId : ShortId}
    {publicIp privateIp protocol : String} {publicPort privatePort : Nat} {s : Session}
    {e : NATEntry} (hf : findExistingNat s.stores (computeNatSignature natType privateIp publicIp
      publicPort privatePort protocol) = some e) :
    wp (addPortNat natType cmd newId publicIp publicPort privateIp privatePort protocol) s
      (fun _ s' => s' = s) (fun _ s' => s' = s) := by
  unfold addPortNat
  simp only [wp_bind, wp_getStores, wp_pure, hf]

theorem kernel_natCreation_of_found {d : Daemon} {c : Call} {template e : NATEntry}
    (h : c.request.natTemplate c.newId = some template)
    (hf : findExistingNat d.stores template.signature = some e) :
    (serve d c).2.kernel = d.kernel := by
  have hkernel : ∀ {m : DaemonM Response}, wp m (c.session d)
      (fun _ s => s.tc = (c.session d).tc) (fun _ s => s.tc = (c.session d).tc) →
      wp m (c.session d) (fun _ s => s.tc.kernel = d.kernel) (fun _ s => s.tc.kernel = d.kernel) :=
    fun h => wp_mono h (fun _ s h => by rw [h]; rfl) (fun _ s h => by rw [h]; rfl)
  refine serve_of_wp (P := fun _ d' => d'.kernel = d.kernel) ?_
  unfold handler
  cases hr : c.request with
  | addSnatRule r =>
    rw [hr, Request.natTemplate, Option.some.injEq] at h
    subst h
    exact hkernel (wp_addNatRule_of_found (wp_addSnat_of_found hf))
  | addDnatRule r =>
    rw [hr, Request.natTemplate, Option.some.injEq] at h
    subst h
    exact hkernel (wp_addNatRule_of_found (wp_addPortNat_of_found hf))
  | addPortForwardRule r =>
    rw [hr, Request.natTemplate, Option.some.injEq] at h
    subst h
    exact hkernel (wp_addNatRule_of_found (wp_addPortNat_of_found hf))
  | _ => simp [hr, Request.natTemplate] at h

/-! ### The owners are registered -/

/-- The owner of a live NAT entry is a registered tenant. -/
def OwnersRegistered (s : Stores) : Prop :=
  ∀ id e t, s.natDb.get? id = some e → e.tenantId = some t → t ∈ s.tenants

theorem OwnersRegistered.write {s s' : Stores} (h : OwnersRegistered s) {e : NATEntry}
    {t : String} (ht : e.tenantId = some t) (hin : t ∈ s.tenants) (hw : NatWritten s s' e)
    (htenants : s'.tenants = s.tenants) : OwnersRegistered s' := by
  unfold OwnersRegistered
  rw [htenants]
  have hstored : ∀ id x, s'.natDb.get? id = some x → ∀ t, x.tenantId = some t → t ∈ s.tenants := by
    refine hw.forall_natDb (fun id x hx t' ht' => h id x t' hx ht') (fun t' ht' => ?_)
    rw [ht, Option.some.injEq] at ht'
    exact ht' ▸ hin
  exact fun id x t' hx ht' => hstored id x hx t' ht'

theorem OwnersRegistered.of_natDb {s s' : Stores} (h : OwnersRegistered s)
    (hdb : ∀ id e, s'.natDb.get? id = some e → s.natDb.get? id = some e)
    (htenants : s'.tenants = s.tenants) : OwnersRegistered s' := by
  intro id e t he ht
  rw [htenants]
  exact h id e t (hdb id e he) ht

theorem ownersRegistered_step {c : Call} {s s' : Stores} (h : OwnersRegistered s)
    (ho : NatOwned s) (hs : StoresStep c s s') : OwnersRegistered s' := by
  have hremoved : ∀ {ids : List String} {s'' : Stores}, NatIdsRemoved s ids s'' →
      ∀ id e, s''.natDb.get? id = some e → s.natDb.get? id = some e ∧ id ∉ ids := by
    intro ids s'' hrem id e he
    obtain ⟨index', -, rfl⟩ := hrem
    exact Dict.get?_eraseAll_eq_some.mp he
  have hwithout : ∀ id id' e, (s.withoutNat id).natDb.get? id' = some e →
      s.natDb.get? id' = some e := by
    intro id id' e he
    exact (Dict.get?_erase_eq_some.mp he).2
  cases hs with
  | same e => exact e ▸ h
  | registered request hreq hnew e =>
    subst e
    intro id e t he ht
    exact Dict.mem_insert.mpr (Or.inr (h id e t he ht))
  | tenantDeleted tenantId s'' hreq hin hrem e =>
    subst e
    intro id e t he ht
    obtain ⟨hold, hid⟩ := hremoved hrem id e he
    -- the entries of the tenant that goes are gone
    have hne : t ≠ tenantId := by
      rintro rfl
      exact hid (mem_tenantNatIds.mpr ⟨e, (ho.mirrored id e hold).2, ht⟩)
    exact Dict.mem_erase.mpr ⟨hne, h id e t hold ht⟩
  | ruleStored tenantId request installed log hreq hten hnone hquota e => exact e ▸ h
  | rulesRemoved ids log e => exact e ▸ h
  | rulesDangling ids e => exact e ▸ h
  | natClaimed template tenantId e log hreq hadm hf he =>
    subst he
    exact h.write rfl hadm.tenant.2.2 (natWritten_of_claimed rfl) rfl
  | natCreated template tenantId inHw log hreq hadm hf he =>
    rw [← id_of_natTemplate hreq] at he
    have hstore : s'.natStore = (recordNatOwner tenantId { template with inHw := inHw } { s with
        natDb := s.natDb.insert template.id { template with inHw := inHw }
        natSignatureIndex :=
          s.natSignatureIndex.insert template.signature template.id }).natStore := by
      rw [he]
      rfl
    exact h.write rfl hadm.tenant.2.2 (natWritten_of_created hstore) (by rw [he]; rfl)
  | natFlushed tenantId s'' log hreq hten hrem e =>
    subst e
    exact h.of_natDb (fun id e he => (hremoved hrem id e he).1)
      (by obtain ⟨index', -, rfl⟩ := hrem; rfl)
  | natDeleted id tenantId e log hreq hdel he =>
    subst he
    exact h.of_natDb (hwithout id) rfl
  | natStranded id tenantId e hreq hdel he =>
    subst he
    exact h.of_natDb (hwithout id) rfl

theorem ownersRegistered_run (calls : List Call) :
    OwnersRegistered (daemon.run calls).stores := by
  refine (daemon.run_induction (P := fun _ d => NatOwned d.stores ∧ OwnersRegistered d.stores)
    ⟨natOwned_run [], fun id e t he => by simp [daemon, Daemon.init] at he⟩ ?_ calls).2
  intro l c d ih
  exact ⟨natOwned_step ih.1 (natStep_serve d c),
    ownersRegistered_step ih.2 ih.1 (storesStep_serve d c)⟩

/-! ### The index keeps leading to the entry -/

/-- The signature index leads to the identifier. -/
def LeadsTo (s : Stores) (sig id : String) : Prop :=
  s.natSignatureIndex.get? sig = some id ∧ id ≠ ""

theorem LeadsTo.findExistingNat {s : Stores} {sig id : String} (h : LeadsTo s sig id) :
    findExistingNat s sig = s.natDb.get? id := by
  simp only [TcFirewall.findExistingNat, h.1, if_neg h.2]

theorem leadsTo_of_findExistingNat {s : Stores} (ho : NatOwned s) {sig : String} {e : NATEntry}
    (h : findExistingNat s sig = some e) : LeadsTo s sig e.id := by
  unfold TcFirewall.findExistingNat at h
  split at h
  · rename_i id hid
    split at h
    · exact absurd h (by simp)
    · rename_i hne
      rw [(ho.mirrored id e h).1]
      exact ⟨hid, hne⟩
  · exact absurd h (by simp)

/-- **An entry of the index stays** while the entry it leads to is in `nat_db`. -/
theorem leadsTo_step {c : Call} {s s' : Stores} (hs : NatStep c s s') {sig id : String}
    (h : LeadsTo s sig id) (hin : id ∈ s.natDb) (hin' : id ∈ s'.natDb) : LeadsTo s' sig id := by
  refine ⟨?_, h.2⟩
  cases hs with
  | same e =>
    simp only [Stores.natStore, Prod.mk.injEq] at e
    rw [e.2.2]
    exact h.1
  | claimed template t e hreq hf hw =>
    simp only [Stores.natStore, recordNatOwner, Prod.mk.injEq] at hw
    rw [hw.2.2]
    exact h.1
  | created template t inHw hreq hf hw =>
    simp only [Stores.natStore, recordNatOwner, Prod.mk.injEq] at hw
    -- a request with this signature would have found the entry
    have hne : sig ≠ template.signature := by
      rintro rfl
      obtain ⟨e, he⟩ := Dict.mem_iff_get?.mp hin
      rw [h.findExistingNat, he] at hf
      exact absurd hf (by simp)
    rw [hw.2.2, Dict.get?_insert, if_neg hne]
    exact h.1
  | removed t ids entryIds index' hact hown hsub hindex hkept hw =>
    simp only [Stores.natStore, Prod.mk.injEq] at hw
    rw [hw.1] at hin'
    rw [hw.2.2]
    exact hkept sig id (Dict.mem_eraseAll.mp hin').2 h.1

/-- The entry is in `nat_db` after `before` and after each of the calls that follow. -/
def StaysInNatDb (before calls : List Call) (id : String) : Prop :=
  ∀ l l', calls = l ++ l' → id ∈ (daemon.run (before ++ l)).stores.natDb

theorem leadsTo_run {before calls : List Call} {sig id : String}
    (h : LeadsTo (daemon.run before).stores sig id) (hstays : StaysInNatDb before calls id) :
    LeadsTo (daemon.run (before ++ calls)).stores sig id :=
  daemon.run_append_induction (P := fun d => LeadsTo d.stores sig id)
    (Q := fun d => id ∈ d.stores.natDb) h
    (fun _ c ih hin hin' => leadsTo_step (natStep_serve _ c) ih hin hin') calls hstays

/-- After a creation that was answered, the index leads to the entry in the answer. -/
theorem leadsTo_of_answer {d : Daemon} {c : Call} {template e : NATEntry} (ho : NatOwned d.stores)
    (h : c.request.natTemplate c.newId = some template)
    (hanswer : (serve d c).1 = ⟨201, .nat e⟩) :
    (∃ t, Admitted d.stores c.tenantHeader c.request.ValidMode t) ∧
      LeadsTo (serve d c).2.stores template.signature e.id := by
  rcases serve_natCreation (d := d) h with ⟨details, t, e', hr, hadm, hcase⟩ | ⟨hstatus, -⟩
  · rw [hr, Response.mk.injEq, Body.nat.injEq] at hanswer
    rw [← hanswer.2]
    refine ⟨⟨t, hadm⟩, ?_⟩
    rcases hcase with ⟨hf, hs⟩ | ⟨-, -, -, inHw, he, hs⟩
    · rw [hs]
      have hlead := leadsTo_of_findExistingNat ho hf
      exact hlead
    · rw [hs, he]
      have hid := id_of_natTemplate h
      refine ⟨?_, by rw [hid]; exact c.newId.ne_empty⟩
      rw [← hid]
      exact Dict.get?_insert_self _ _ _
  · rw [hanswer] at hstatus
    exact absurd hstatus (by simp)

/-! ### The repetition -/

/-- What a request asks for does not depend on the identifier it draws. -/
theorem natTemplate_of_request {request : Request} {newId newId' : ShortId} {template : NATEntry}
    (h : request.natTemplate newId = some template) :
    request.natTemplate newId' = some { template with id := newId'.val } := by
  cases request with
  | addSnatRule r =>
    obtain rfl := Option.some.inj h
    rfl
  | addDnatRule r =>
    obtain rfl := Option.some.inj h
    rfl
  | addPortForwardRule r =>
    obtain rfl := Option.some.inj h
    rfl
  | _ => simp [Request.natTemplate] at h

/-- The request is answered with the entry `id`, and the NAT stores and the kernel stay as
they are. -/
structure Repeats (d : Daemon) (c : Call) (id : String) : Prop where
  answer : ∃ e, (serve d c).1 = ⟨201, .nat e⟩ ∧ e.id = id
  natDb : (serve d c).2.stores.natDb = d.stores.natDb
  natEntriesDb : (serve d c).2.stores.natEntriesDb = d.stores.natEntriesDb
  kernel : (serve d c).2.kernel = d.kernel

/-- A request that gets to its own entry repeats. -/
theorem repeats_of_found {d : Daemon} {c : Call} {template e : NATEntry} {t : String}
    (ho : NatOwned d.stores) (h : c.request.natTemplate c.newId = some template)
    (hadm : Admitted d.stores c.tenantHeader c.request.ValidMode t)
    (hf : findExistingNat d.stores template.signature = some e) (hown : e.tenantId = some t) :
    Repeats d c e.id := by
  have hsame : { e with tenantId := some t } = e := by rw [← hown]
  obtain ⟨id, -, hget⟩ := findExistingNat_eq_some hf
  obtain ⟨rfl, hent⟩ := ho.mirrored id e hget
  rcases serve_natCreation (d := d) h with ⟨details, t', e', hr, hadm', hcase⟩ | ⟨-, hnone⟩
  · obtain rfl := hadm.tenant.eq hadm'.tenant
    rcases hcase with ⟨hf', hs⟩ | ⟨hf', -⟩
    · obtain rfl : e = e' := Option.some.inj (hf.symm.trans hf')
      refine ⟨⟨_, hr, rfl⟩, ?_, ?_, kernel_natCreation_of_found h hf⟩
      · rw [hs]
        show d.stores.natDb.insert e.id { e with tenantId := some t' } = d.stores.natDb
        rw [hsame, Dict.insert_of_get? hget]
      · rw [hs]
        show d.stores.natEntriesDb.insert e.id { e with tenantId := some t' } = d.stores.natEntriesDb
        rw [hsame, Dict.insert_of_get? hent]
    · exact absurd (hf.symm.trans hf') (by simp)
  · rw [hnone ⟨t, hadm⟩] at hf
    exact absurd hf (by simp)

/-- **When a NAT creation can be repeated.**  A creation of tenant `t` was answered with an
entry, and the entry has been in `nat_db` since and belongs to `t`.  Then the same request
is answered with the same entry and changes neither the NAT stores nor the kernel, exactly
if the tenant has room for one more entry. -/
theorem nat_creation_idempotent_iff (before between : List Call) (first again : Call) (t : String)
    (template e : NATEntry) (hnat : first.request.natTemplate first.newId = some template)
    (hheader : first.tenantHeader = some t)
    (hfirst : (serve (daemon.run before) first).1 = ⟨201, .nat e⟩)
    (hstays : StaysInNatDb (before ++ [first]) between e.id)
    (howner : ∃ e', (daemon.run (before ++ first :: between)).stores.natDb.get? e.id = some e' ∧
      e'.tenantId = some t)
    (hagain : again.request = first.request ∧ again.tenantHeader = first.tenantHeader) :
    Repeats (daemon.run (before ++ first :: between)) again e.id ↔
      NatQuotaFree (daemon.run (before ++ first :: between)).stores t := by
  obtain ⟨⟨t', hadm⟩, hlead⟩ := leadsTo_of_answer (natOwned_run before) hnat hfirst
  obtain rfl : t = t' := Option.some.inj (hheader.symm.trans hadm.tenant.1)
  have hafter : LeadsTo (daemon.run (before ++ [first])).stores template.signature e.id := by
    rw [Machine.run_append_singleton]
    exact hlead
  have hlast := leadsTo_run hafter hstays
  rw [List.append_assoc, List.singleton_append] at hlast
  have hnat' : again.request.natTemplate again.newId
      = some { template with id := again.newId.val } := by
    rw [hagain.1]
    exact natTemplate_of_request hnat
  obtain ⟨e', he', hown⟩ := howner
  generalize hd : daemon.run (before ++ first :: between) = d at hlast he' ⊢
  have ho : NatOwned d.stores := hd ▸ natOwned_run _
  have hregistered : t ∈ d.stores.tenants := by
    rw [← hd] at he' ⊢
    exact ownersRegistered_run _ e.id e' t he' hown
  have hten : IsTenant d.stores again.tenantHeader t :=
    ⟨hagain.2.trans hheader, hadm.tenant.2.1, hregistered⟩
  constructor
  · intro h
    obtain ⟨x, hx, -⟩ := h.answer
    rcases serve_natCreation (d := d) hnat' with ⟨-, t'', -, -, hadm', -⟩ | ⟨hstatus, -⟩
    · obtain rfl := hten.eq hadm'.tenant
      exact hadm'.quota
    · rw [hx] at hstatus
      exact absurd hstatus (by simp)
  · intro hquota
    have hf : findExistingNat d.stores template.signature = some e' := by
      rw [hlast.findExistingNat]
      exact he'
    rw [← (ho.mirrored e.id e' he').1]
    refine repeats_of_found ho hnat' ⟨hten, hquota, ?_⟩ hf hown
    rw [hagain.1]
    exact hadm.mode

/-- The entry that the sample request of tenant `a` creates. -/
def entryOfA : NATEntry :=
  ⟨firstId.val, some "a", .snat, some "static", "203.0.113.7", none, "10.0.0.5", none, none, false⟩

theorem staysInNatDb_nil {before : List Call} {id : String}
    (h : id ∈ (daemon.run before).stores.natDb) : StaysInNatDb before [] id := by
  refine Machine.forall_beginning_nil ?_
  rw [List.append_nil]
  exact h

/-- A tenant with room for ten entries asks for the same one twice. -/
theorem nat_creation_idempotent_iff_twice :
    let ask (newId : ShortId) := sampleCall (.addSnatRule (sampleSnat "10.0.0.5")) "a" newId
    NatQuotaFree (daemon.run [sampleTenant "a", ask firstId]).stores "a" ∧
      Repeats (daemon.run [sampleTenant "a", ask firstId]) (ask secondId) entryOfA.id := by
  intro ask
  have hfree : NatQuotaFree (daemon.run [sampleTenant "a", ask firstId]).stores "a" := by
    intro config hc
    have hten : (daemon.run [sampleTenant "a", ask firstId]).stores.tenants.get? "a"
        = some ⟨"a", [], 10, 10⟩ := by decide +kernel
    rw [hten, Option.some.injEq] at hc
    subst hc
    decide +kernel
  refine ⟨hfree, (nat_creation_idempotent_iff [sampleTenant "a"] [] (ask firstId) (ask secondId)
    "a" { entryOfA with tenantId := none } entryOfA (by decide) rfl (by decide +kernel)
    (staysInNatDb_nil (by decide +kernel)) ⟨entryOfA, by decide +kernel, rfl⟩
    ⟨rfl, rfl⟩).mpr hfree⟩

/-- **A repetition is refused**: tenant `a` may have one NAT entry, has it, and asks for it
again. -/
theorem nat_repetition_refused :
    ¬ ∀ (before between : List Call) (first again : Call) (t : String) (template e : NATEntry),
      first.request.natTemplate first.newId = some template → first.tenantHeader = some t →
      (serve (daemon.run before) first).1 = ⟨201, .nat e⟩ →
      StaysInNatDb (before ++ [first]) between e.id →
      (∃ e', (daemon.run (before ++ first :: between)).stores.natDb.get? e.id = some e' ∧
        e'.tenantId = some t) →
      (again.request = first.request ∧ again.tenantHeader = first.tenantHeader) →
      Repeats (daemon.run (before ++ first :: between)) again e.id := by
  intro h
  let ask (newId : ShortId) := sampleCall (.addSnatRule (sampleSnat "10.0.0.5")) "a" newId
  let register : Call := sampleCall (.registerTenant ⟨"a", [], 10, 1⟩) "" ⟨"00000000", rfl⟩
  have hrepeats := h [register] [] (ask firstId) (ask secondId) "a"
    { entryOfA with tenantId := none } entryOfA (by decide) rfl (by decide +kernel)
    (staysInNatDb_nil (by decide +kernel)) ⟨entryOfA, by decide +kernel, rfl⟩ ⟨rfl, rfl⟩
  have hstatus : (serve (daemon.run [register, ask firstId]) (ask secondId)).1.status = 429 := by
    decide +kernel
  obtain ⟨e, he, -⟩ := hrepeats.answer
  have hlist : [register] ++ ask firstId :: [] = [register, ask firstId] := rfl
  rw [hlist] at he
  rw [he] at hstatus
  exact absurd hstatus (by simp)

end PrismFirewall.TcFirewall
