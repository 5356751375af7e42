import PrismFirewall.TcFirewall.KernelImage
import PrismFirewall.TcFirewall.NatStore

/-!
# The kernel shows what is stored

A request that meets `Orderly`, and whose commands all succeed, keeps the kernel the image
of the stores (`mirrors_serve`), whichever of the endpoints it goes to and however it is
answered; `kernel_mirrors_stores` says it of every run.

The assumptions are those without which it fails.  A command that fails leaves its filter
or loses it, an identifier that is drawn twice overwrites a rule or an entry and leaves its
filter behind, a rule in the band goes with the band, a handle that is not the largest is
not the one that is recorded, and an entry without a protocol is added again as a TCP one.
-/

namespace PrismFirewall.TcFirewall

open Lib

/-! ### The requests -/

/-- What `add_rule` is assumed to find: an identifier that is not in use, a preference
outside the band, and a kernel that gives the rule the largest handles there. -/
structure RuleOrderly (d : Daemon) (c : Call) (request : FirewallRuleRequest) : Prop where
  unused : c.newId.val ∉ d.stores.rulesDb
  outside : request.priority.val ≠ natPriority
  internet : KernelGives d.kernel.internet request.priority.val (c.replies 0) (c.replies 1) ∧
    GivesLargest d.kernel.internet request.priority.val (c.replies 0) (c.replies 1)
  client : KernelGives d.kernel.client request.priority.val (c.replies 2) (c.replies 3) ∧
    GivesLargest d.kernel.client request.priority.val (c.replies 2) (c.replies 3)

instance (d : Daemon) (c : Call) (request : FirewallRuleRequest) :
    Decidable (RuleOrderly d c request) :=
  decidable_of_iff (c.newId.val ∉ d.stores.rulesDb ∧ request.priority.val ≠ natPriority ∧
      (KernelGives d.kernel.internet request.priority.val (c.replies 0) (c.replies 1) ∧
        GivesLargest d.kernel.internet request.priority.val (c.replies 0) (c.replies 1)) ∧
      KernelGives d.kernel.client request.priority.val (c.replies 2) (c.replies 3) ∧
        GivesLargest d.kernel.client request.priority.val (c.replies 2) (c.replies 3))
    ⟨fun h => ⟨h.1, h.2.1, h.2.2.1, h.2.2.2⟩, fun h => ⟨h.1, h.2, h.3, h.4⟩⟩

/-- The rule that a request asks for. -/
def Request.rule? : Request → Option FirewallRuleRequest
  | .addRule request => some request
  | _ => none

/-- What is assumed of the requests that install something.  A NAT entry, too, draws an
identifier that is not in use, and the protocol of its request is not empty. -/
def Orderly (d : Daemon) (c : Call) : Prop :=
  (∀ request ∈ c.request.rule?, RuleOrderly d c request) ∧
    ∀ template ∈ c.request.natTemplate c.newId, c.newId.val ∉ d.stores.natDb ∧
      (template.type ≠ .snat → template.protocol ≠ some "")

instance (d : Daemon) (c : Call) : Decidable (Orderly d c) :=
  inferInstanceAs (Decidable ((∀ request ∈ _, _) ∧ ∀ template ∈ _, _))

/-- A filter and the query for its handle, when every command succeeds. -/
theorem wp_addFilter_succeeds {action : List String} {dev : String} {srcIp dstIp : Option String}
    {srcPort dstPort : Option Nat} {protocol : String} {priority : Nat} {t : TcState}
    (h : t.AllSucceed) :
    wp (addFilter action dev srcIp dstIp srcPort dstPort protocol priority) t
      (fun text t' => t.Moved 2 t' ∧ text = (t.reply 1).lastHandle ∧
        t'.kernel = t.kernel.modifyDev dev (fun l => l ++ [⟨toString priority, (t.reply 0).handle,
          flowerKeys srcIp dstIp srcPort dstPort protocol ++ action⟩]))
      (fun _ _ => False) := by
  refine wp_mono wp_addFilter (fun _ _ h' => h'.2.2) ?_
  rintro e t' ⟨-, ⟨h0, -⟩ | ⟨-, h1, -⟩⟩
  · exact h0 (h.reply 0)
  · exact h.not_timesOut 1 h1

/-- **A rule is installed**: what is recorded for it are its filters, with their handles. -/
theorem wp_installRule_orderly {d : Daemon} {c : Call} {request : FirewallRuleRequest}
    (hs : ∀ i, (c.replies i).succeeds = true) (h : RuleOrderly d c request) :
    wp (installRule request) (c.session d).tc
      (fun installed t => t.AllSucceed ∧
        (∀ t, (forwardFilter request (c.replies 0).handle).listed
          = (newRule c.newId t request installed).forward) ∧
        (∀ t, (reverseFilter request (c.replies 2).handle).listed
          = (newRule c.newId t request installed).reverse) ∧
        t.kernel = ⟨d.kernel.internet ++ [forwardFilter request (c.replies 0).handle],
          d.kernel.client ++ [reverseFilter request (c.replies 2).handle]⟩)
      (fun _ _ => False) := by
  have hall : (c.session d).tc.AllSucceed := hs
  have hreply : ∀ i, (c.session d).tc.reply i = c.replies i := by
    intro i
    show c.replies (0 + i) = c.replies i
    rw [Nat.zero_add]
  have hfwd := lastHandle_of_givesLargest (hs 0) h.internet.1 h.internet.2
  have hrev := lastHandle_of_givesLargest (hs 2) h.client.1 h.client.2
  rw [installRule_eq, wp_bind]
  refine wp_mono (wp_addFilter_succeeds hall) ?_ (fun _ _ hf => hf)
  rintro fwdHandle t1 ⟨hm1, hf, hk1⟩
  rw [hreply, hfwd] at hf
  rw [hreply, Kernel.modifyDev_internet] at hk1
  rw [wp_bind]
  refine wp_mono (wp_addFilter_succeeds (hm1.allSucceed hall)) ?_ (fun _ _ hf => hf)
  rintro revHandle t2 ⟨hm2, hr, hk2⟩
  rw [hm1.reply, hreply, hrev] at hr
  rw [hm1.reply, hreply, hk1, Kernel.modifyDev_client] at hk2
  rw [wp_bind]
  refine wp_mono wp_checkInHw ?_ ?_
  · rintro inHw t3 ⟨-, hm3, hk3⟩
    refine ⟨hm3.allSucceed (hm2.allSucceed (hm1.allSucceed hall)), fun t => ?_, fun t => ?_,
      hk3.trans hk2⟩
    · rw [hf]
      rfl
    · rw [hr]
      rfl
  · rintro e t3 ⟨-, h0, -⟩
    exact (hm2.allSucceed (hm1.allSucceed hall)).not_timesOut 0 h0

/-- A rule that has been installed may be stored. -/
theorem mirrors_stored {d : Daemon} (h : Mirrors d.stores d.kernel) {c : Call}
    {request : FirewallRuleRequest} (ho : RuleOrderly d c request)
    (hs : ∀ i, (c.replies i).succeeds = true) (tenantId : String) {rule : FirewallRule}
    (hid : rule.id = c.newId.val) (hprio : rule.priority = request.priority.val)
    (hf : (forwardFilter request (c.replies 0).handle).listed = rule.forward)
    (hr : (reverseFilter request (c.replies 2).handle).listed = rule.reverse) :
    Mirrors (storeRule tenantId request rule d.stores)
      ⟨d.kernel.internet ++ [forwardFilter request (c.replies 0).handle],
        d.kernel.client ++ [reverseFilter request (c.replies 2).handle]⟩ := by
  have hout : toString request.priority.val ≠ toString natPriority :=
    fun he => ho.outside (Text.toString_inj.mp he)
  have hunused : rule.id ∉ d.stores.rulesDb := hid ▸ ho.unused
  have hkernel : (⟨d.kernel.internet ++ [forwardFilter request (c.replies 0).handle],
      d.kernel.client ++ [reverseFilter request (c.replies 2).handle]⟩ : Kernel)
      = (d.kernel.modifyDev internetPort
          (fun l => l ++ [forwardFilter request (c.replies 0).handle])).modifyDev clientPort
        (fun l => l ++ [reverseFilter request (c.replies 2).handle]) := rfl
  have hne : clientPort ≠ internetPort := by decide
  -- a handle that is not in use at its preference is not in use outside the band
  have hnew : ∀ {l : List Filter} {handle : Nat} {prio : String}, handle ∉ handlesAt l prio →
      handle ∉ handlesAt (l.filter (fun f => f.prio != toString natPriority)) prio := by
    intro l handle prio hnot hmem
    obtain ⟨f, hf, hfp, hfh⟩ := mem_handlesAt.mp hmem
    exact hnot (mem_handlesAt.mpr ⟨f, (List.mem_filter.mp hf).1, hfp, hfh⟩)
  rw [hkernel]
  refine ⟨?_, ?_, ?_, ?_, h.reappliable⟩
  · rw [ruleFilters_append (Or.inr rfl) hout, ruleFilters_append (Or.inl rfl) hout, if_pos rfl,
      if_neg hne.symm, List.append_nil]
    exact h.internet.insert hunused hf (hnew (ho.internet.1 (hs 0)).1)
  · rw [ruleFilters_append (Or.inr rfl) hout, ruleFilters_append (Or.inl rfl) hout, if_pos rfl,
      if_neg hne, List.append_nil]
    exact h.client.insert hunused hr (hnew (ho.client.1 (hs 2)).1)
  · intro rule' hr'
    obtain ⟨id, hget⟩ := Dict.mem_values_iff.mp hr'
    rw [show (storeRule tenantId request rule d.stores).rulesDb
      = d.stores.rulesDb.insert rule.id rule from rfl, Dict.get?_insert] at hget
    split at hget
    · rw [← Option.some.inj hget, hprio]
      exact ho.outside
    · exact h.outside rule' (Dict.mem_values_iff.mpr ⟨id, hget⟩)
  · intro dev
    rw [natBand_append _ _ hout, natBand_append _ _ hout]
    exact h.nat dev

theorem mirrored_addRule {d : Daemon} (h : Mirrors d.stores d.kernel) {c : Call}
    {request : FirewallRuleRequest} (ho : RuleOrderly d c request)
    (hs : ∀ i, (c.replies i).succeeds = true) :
    wp (addRule c.tenantHeader c.client c.newId request) (c.session d)
      (fun _ s => Mirrors s.stores s.tc.kernel) (fun _ s => Mirrors s.stores s.tc.kernel) := by
  unfold addRule
  rw [wp_bind]
  refine wp_mono wp_getTenantId ?_ ?_
  · rintro t s ⟨rfl, ht⟩
    obtain ⟨config, hconfig⟩ := Dict.mem_iff_get?.mp ht.2.2
    rw [wp_bind, wp_getStores]
    cases findExistingRule (c.session d).stores t request with
    | some existing => exact h
    | none =>
      simp only [wp_bind, wp_item_of_get? hconfig]
      split
      · exact h
      · rw [wp_bind, wp_catchTcError, wp_tc]
        refine wp_mono (wp_installRule_orderly hs ho) ?_ (fun _ _ hf => hf.elim)
        rintro installed t' ⟨-, hf, hr, hk⟩
        simp only [wp_bind, wp_modifyStores, wp_auditLog, wp_pure]
        rw [hk]
        exact (mirrors_stored h ho hs t rfl rfl (hf t) (hr t)).congr rfl rfl
  · rintro e s ⟨rfl, -⟩
    exact h

/-- What an `add_*` function of `nat_manager` does when its commands succeed: it returns the
entry with the same signature, or installs and stores a new one, or refuses. -/
def AddsEntry (newId : ShortId) (template : NATEntry) (add : DaemonM NATEntry) : Prop :=
  ∀ s : Session, s.tc.AllSucceed → wp add s
    (fun e s' => ((∃ id, s.stores.natDb.get? id = some e) ∧ s' = s) ∨
      ∃ inHw, e = { template with inHw := inHw } ∧
        s'.stores.rulesDb = s.stores.rulesDb ∧
        s'.stores.natDb = s.stores.natDb.insert newId.val e ∧
        s'.tc = s.tc.afterAll e.installCommands)
    (fun _ s' => s' = s)

/-- The end of an `add_*` function. -/
theorem wp_addNat_installs {s : Session} (h : s.tc.AllSucceed) {newId : ShortId}
    {sig port : String} {cmd : List String} {entry : Bool → NATEntry} (template : NATEntry)
    (hentry : ∀ inHw, entry inHw = { template with inHw := inHw })
    (hcmd : template.addCommand = cmd) (hport : template.port = port) :
    wp (addNat newId sig port cmd entry) s
      (fun e s' => ∃ inHw, e = { template with inHw := inHw } ∧
        s'.stores.rulesDb = s.stores.rulesDb ∧
        s'.stores.natDb = s.stores.natDb.insert newId.val e ∧
        s'.tc = s.tc.afterAll e.installCommands)
      (fun _ s' => s' = s) := by
  have hinstall : ∀ inHw, ({ template with inHw := inHw } : NATEntry).installCommands
      = [cmd, showCmd port natPriority, showCmd port natPriority] := by
    intro inHw
    rw [← hcmd, ← hport]
    rfl
  unfold addNat
  rw [wp_bind, wp_tc]
  refine wp_mono (issues_installNat h) ?_ (fun _ _ hf => hf.elim)
  rintro inHw t rfl
  refine ⟨inHw, hentry inHw, rfl, rfl, ?_⟩
  rw [hentry, hinstall]

theorem get?_of_findExistingNat {s : Stores} {sig : String} {e : NATEntry}
    (h : findExistingNat s sig = some e) : ∃ id, s.natDb.get? id = some e := by
  unfold findExistingNat at h
  split at h
  · split at h
    · cases h
    · exact ⟨_, h⟩
  · cases h

theorem addsEntry_addSnat (newId : ShortId) (r : SNATRule) :
    AddsEntry newId
      ⟨newId.val, none, .snat, some r.mode, r.publicIp, none, r.privateIp, none, none, false⟩
      (addSnat newId r.privateIp r.publicIp r.mode) := by
  intro s hs
  unfold addSnat
  split
  · rfl
  · simp only [wp_bind, wp_getStores]
    split
    · rename_i e he
      exact Or.inl ⟨get?_of_findExistingNat he, rfl⟩
    · split
      · rfl
      · exact wp_mono (wp_addNat_installs hs ⟨newId.val, none, .snat, some r.mode, r.publicIp,
            none, r.privateIp, none, none, false⟩ (fun _ => rfl) rfl rfl) (fun _ _ h => Or.inr h)
          (fun _ _ h => h)

theorem addsEntry_addPortNat {natType : NatType} (ht : natType ≠ .snat) (newId : ShortId)
    {cmd : List String} (publicIp : String) (publicPort : Nat) (privateIp : String)
    (privatePort : Nat) (protocol : String)
    (hcmd : NATEntry.addCommand ⟨newId.val, none, natType, none, publicIp, some publicPort,
      privateIp, some privatePort, some protocol, false⟩ = cmd) :
    AddsEntry newId ⟨newId.val, none, natType, none, publicIp, some publicPort, privateIp,
      some privatePort, some protocol, false⟩
      (addPortNat natType cmd newId publicIp publicPort privateIp privatePort protocol) := by
  intro s hs
  unfold addPortNat
  simp only [wp_bind, wp_getStores]
  split
  · rename_i e he
    exact Or.inl ⟨get?_of_findExistingNat he, rfl⟩
  · exact wp_mono (wp_addNat_installs hs _ (fun _ => rfl) hcmd (if_neg ht))
      (fun _ _ h => Or.inr h) (fun _ _ h => h)

/-- An endpoint looks up its tenant first. -/
theorem Session.Mirrored.wp_forTenant {α : Type} {s : Session} (h : s.Mirrored)
    {header : Option String} {body : String → DaemonM α}
    (hbody : ∀ t, IsTenant s.stores header t →
      wp (body t) s (fun _ s' => s'.Mirrored) (fun _ s' => s'.Mirrored)) :
    wp (getTenantId header >>= body) s
      (fun _ s' => s'.Mirrored) (fun _ s' => s'.Mirrored) := by
  rw [wp_bind]
  refine wp_mono wp_getTenantId ?_ (fun _ s' h' => h'.1 ▸ h)
  rintro t s' ⟨rfl, ht⟩
  exact hbody t ht

/-- **The common body of the NAT creation endpoints.** -/
theorem Session.Mirrored.wp_addNatRule {s : Session} (h : s.Mirrored) (howned : NatOwned s.stores)
    {header client : Option String} {natType : NatType} {newId : ShortId} {template : NATEntry}
    {add : DaemonM NATEntry} {details : List (String × AuditValue)}
    (hadd : AddsEntry newId template add) (hid : template.id = newId.val)
    (hre : template.Reappliable) (hnew : newId.val ∉ s.stores.natDb) :
    wp (addNatRule header client natType add details) s
      (fun _ s' => s'.Mirrored) (fun _ s' => s'.Mirrored) := by
  unfold addNatRule
  refine h.wp_forTenant (fun t ht => ?_)
  obtain ⟨config, hconfig⟩ := Dict.mem_iff_get?.mp ht.2.2
  rw [wp_bind, wp_getStores]
  simp only [wp_bind, wp_item_of_get? hconfig]
  split
  · exact h
  · rw [wp_bind, wp_catchTcError]
    refine wp_mono (hadd s h.succeed) ?_ ?_
    · intro e s' h'
      simp only [wp_bind, wp_modifyStores, wp_auditLog, wp_pure]
      have hstored : s'.Mirrored ∧ s'.stores.natDb.get? e.id = some e := by
        rcases h' with ⟨⟨id, hget⟩, rfl⟩ | ⟨inHw, rfl, hrules, hdb, htc⟩
        · exact ⟨h, (howned.mirrored id e hget).1.symm ▸ hget⟩
        · have hmirrored := h.installed (e := { template with inHw := inHw }) hre hnew
          rw [← htc] at hmirrored
          refine ⟨hmirrored.congr rfl hrules hdb, ?_⟩
          rw [hdb]
          show (s.stores.natDb.insert newId.val _).get? template.id = _
          rw [hid, Dict.get?_insert_self]
      have howner := hstored.1.reowned hstored.2 t
      exact howner.congr rfl rfl rfl
    · intro e s' h'
      rw [h']
      cases e <;> exact h

theorem reappliable_of_natTemplate {request : Request} {newId : ShortId} {template : NATEntry}
    (h : request.natTemplate newId = some template)
    (hp : template.type ≠ .snat → template.protocol ≠ some "") : template.Reappliable := by
  have hport : ∀ n : Field16, n.val ≠ 0 := fun n => Nat.one_le_iff_ne_zero.mp n.ge
  intro ht
  have hproto := hp ht
  unfold Request.natTemplate at h
  split at h
  · obtain rfl := Option.some.inj h
    exact absurd rfl ht
  · rename_i r
    obtain rfl := Option.some.inj h
    exact ⟨⟨_, hport _, rfl⟩, ⟨_, hport _, rfl⟩, r.protocol, fun he => hproto (congrArg some he),
      rfl⟩
  · rename_i r
    obtain rfl := Option.some.inj h
    exact ⟨⟨_, hport _, rfl⟩, ⟨_, hport _, rfl⟩, r.protocol, fun he => hproto (congrArg some he),
      rfl⟩
  · cases h

theorem Session.Mirrored.natCreation {s : Session} (h : s.Mirrored) (howned : NatOwned s.stores)
    {c : Call} {template : NATEntry} (ht : c.request.natTemplate c.newId = some template)
    (hnew : c.newId.val ∉ s.stores.natDb)
    (hp : template.type ≠ .snat → template.protocol ≠ some "") :
    wp (handler c) s (fun _ s' => s'.Mirrored) (fun _ s' => s'.Mirrored) := by
  have hre := reappliable_of_natTemplate ht hp
  have hid := id_of_natTemplate ht
  unfold handler
  cases hr : c.request with
  | addSnatRule r =>
    rw [hr, Request.natTemplate, Option.some.injEq] at ht
    subst ht
    exact h.wp_addNatRule howned (addsEntry_addSnat c.newId r) hid hre hnew
  | addDnatRule r =>
    rw [hr, Request.natTemplate, Option.some.injEq] at ht
    subst ht
    exact h.wp_addNatRule howned (addsEntry_addPortNat (by decide) c.newId r.publicIp
      r.publicPort.val r.privateIp r.privatePort.val r.protocol rfl) hid hre hnew
  | addPortForwardRule r =>
    rw [hr, Request.natTemplate, Option.some.injEq] at ht
    subst ht
    exact h.wp_addNatRule howned (addsEntry_addPortNat (by decide) c.newId r.publicIp
      r.publicPort.val r.privateIp r.privatePort.val r.protocol rfl) hid hre hnew
  | _ => simp [hr, Request.natTemplate] at ht

theorem Session.Mirrored.wp_deleteRule {s : Session} (h : s.Mirrored)
    (header client : Option String) (ruleId : String) :
    wp (deleteRule header client ruleId) s (fun _ s' => s'.Mirrored) (fun _ s' => s'.Mirrored) := by
  unfold deleteRule
  refine h.wp_forTenant (fun t _ => ?_)
  rw [wp_bind, wp_getStores]
  by_cases hid : ruleId ∈ s.stores.rulesDb
  · obtain ⟨rule, hr⟩ := Dict.mem_iff_get?.mp hid
    rw [if_neg (not_not.mpr hid), wp_bind, wp_item_of_get? hr]
    by_cases hown : rule.tenantId = some t
    · rw [if_neg (not_not.mpr hown), wp_bind]
      refine wp_mono (h.wp_removeFilters hr) ?_ (fun _ _ hf => hf.elim)
      rintro - s' ⟨hstores, hm⟩
      simp only [wp_bind, cleanRuleIndexes, wp_modifyStores, wp_auditLog, wp_pure, hstores]
      exact hm.congr rfl rfl rfl
    · rw [if_pos hown, wp_bind, wp_throw]
      exact h
  · rw [if_pos hid, wp_bind, wp_throw]
    exact h

theorem Session.Mirrored.wp_flushRules {s : Session} (h : s.Mirrored)
    (header client : Option String) :
    wp (flushRules header client) s (fun _ s' => s'.Mirrored) (fun _ s' => s'.Mirrored) := by
  unfold flushRules
  refine h.wp_forTenant (fun t _ => ?_)
  rw [wp_bind, wp_getStores, wp_bind]
  refine wp_mono (h.wp_flushRuleIds _) ?_ (fun _ _ h' => h')
  intro _ s' h'
  simp only [wp_bind, cleanRuleIndexes, wp_modifyStores, wp_auditLog, wp_pure]
  exact h'.congr rfl rfl rfl

theorem Session.Mirrored.wp_deleteTenant {s : Session} (h : s.Mirrored) (tenantId : String) :
    wp (deleteTenant tenantId) s (fun _ s' => s'.Mirrored) (fun _ s' => s'.Mirrored) := by
  unfold deleteTenant
  rw [wp_bind, wp_getStores]
  by_cases ht : tenantId ∈ s.stores.tenants
  · rw [if_neg (not_not.mpr ht), wp_bind, wp_getStores, wp_bind]
    refine wp_mono (h.wp_flushRuleIds _) ?_ (fun _ _ h' => h')
    intro _ s' h'
    rw [wp_bind, wp_getStores, wp_bind]
    refine wp_mono (h'.wp_flushNatIds _) ?_ (fun _ _ h'' => h'')
    intro _ s'' h''
    simp only [wp_bind, cleanRuleIndexes, wp_modifyStores, wp_pure]
    exact h''.congr rfl rfl rfl
  · rw [if_pos ht, wp_bind, wp_throw]
    exact h

theorem Session.Mirrored.wp_deleteNatRule {s : Session} (h : s.Mirrored)
    (header client : Option String) (ruleId : String) :
    wp (deleteNatRule header client ruleId) s
      (fun _ s' => s'.Mirrored) (fun _ s' => s'.Mirrored) := by
  unfold deleteNatRule
  refine h.wp_forTenant (fun t _ => ?_)
  rw [wp_bind, wp_getStores]
  by_cases hid : ruleId ∈ s.stores.natEntriesDb
  · obtain ⟨e, he⟩ := Dict.mem_iff_get?.mp hid
    rw [if_neg (not_not.mpr hid), wp_bind, wp_item_of_get? he]
    by_cases hown : e.tenantId = some t
    · rw [if_neg (not_not.mpr hown), wp_bind, wp_catchTcError]
      refine wp_mono (h.wp_removeNat ruleId) ?_ ?_
      · intro _ s' h'
        simp only [wp_bind, wp_modifyStores, wp_auditLog, wp_pure]
        exact h'.congr rfl rfl rfl
      · intro exc s' h'
        cases exc <;> exact h'
    · rw [if_pos hown, wp_bind, wp_throw]
      exact h
  · rw [if_pos hid, wp_bind, wp_throw]
    exact h

theorem Session.Mirrored.wp_flushNatRules {s : Session} (h : s.Mirrored)
    (header client : Option String) :
    wp (flushNatRules header client) s (fun _ s' => s'.Mirrored) (fun _ s' => s'.Mirrored) := by
  unfold flushNatRules
  refine h.wp_forTenant (fun t _ => ?_)
  rw [wp_bind, wp_getStores, wp_bind]
  refine wp_mono (h.wp_flushNatIds _) ?_ (fun _ _ h' => h')
  intro _ s' h'
  simp only [wp_bind, wp_auditLog, wp_pure]
  exact h'.congr rfl rfl rfl

/-- A request that does not talk to tc and leaves the two databases. -/
theorem Session.Mirrored.wp_registerTenant {s : Session} (h : s.Mirrored)
    (request : TenantRegistrationRequest) :
    wp (registerTenant request) s (fun _ s' => s'.Mirrored) (fun _ s' => s'.Mirrored) := by
  unfold registerTenant
  rw [wp_bind, wp_getStores]
  split
  · exact h
  · simp only [wp_bind, wp_modifyStores, wp_pure]
    exact h.congr rfl rfl rfl

/-! ### Runs -/

/-- **One request**: the kernel stays the image of the stores. -/
theorem mirrors_serve {d : Daemon} (h : Mirrors d.stores d.kernel) (howned : NatOwned d.stores)
    {c : Call} (hs : ∀ i, (c.replies i).succeeds = true) (ho : Orderly d c) :
    Mirrors (serve d c).2.stores (serve d c).2.kernel := by
  have hm : (c.session d).Mirrored := ⟨hs, h⟩
  refine serve_of_wp (P := fun _ d' => Mirrors d'.stores d'.kernel) ?_
  suffices hw : wp (handler c) (c.session d) (fun _ s => Mirrors s.stores s.tc.kernel)
      (fun _ s => Mirrors s.stores s.tc.kernel) from hw
  have hof : wp (handler c) (c.session d) (fun _ s => s.Mirrored) (fun _ s => s.Mirrored) →
      wp (handler c) (c.session d) (fun _ s => Mirrors s.stores s.tc.kernel)
        (fun _ s => Mirrors s.stores s.tc.kernel) :=
    fun hw => wp_mono hw (fun _ _ h' => h'.mirrors) (fun _ _ h' => h'.mirrors)
  have hnat : ∀ {template}, c.request.natTemplate c.newId = some template →
      wp (handler c) (c.session d) (fun _ s => Mirrors s.stores s.tc.kernel)
        (fun _ s => Mirrors s.stores s.tc.kernel) := by
    intro template ht
    obtain ⟨hnew, hp⟩ := ho.2 template ht
    exact hof (hm.natCreation howned ht hnew hp)
  cases hr : c.request with
  | registerTenant request =>
    refine hof ?_
    rw [handler, hr]
    exact hm.wp_registerTenant request
  | deleteTenant tenantId =>
    refine hof ?_
    rw [handler, hr]
    exact hm.wp_deleteTenant tenantId
  | listRules =>
    refine hof ?_
    rw [handler, hr]
    exact hm.wp_forTenant (fun _ _ => hm)
  | addRule request =>
    rw [handler, hr]
    exact mirrored_addRule h (ho.1 request (by rw [hr]; rfl)) hs
  | deleteRule ruleId =>
    refine hof ?_
    rw [handler, hr]
    exact hm.wp_deleteRule _ _ ruleId
  | flushRules =>
    refine hof ?_
    rw [handler, hr]
    exact hm.wp_flushRules _ _
  | addSnatRule r => exact hnat (by rw [hr]; rfl)
  | addDnatRule r => exact hnat (by rw [hr]; rfl)
  | addPortForwardRule r => exact hnat (by rw [hr]; rfl)
  | listNatRules =>
    refine hof ?_
    rw [handler, hr]
    exact hm.wp_forTenant (fun _ _ => hm)
  | deleteNatRule ruleId =>
    refine hof ?_
    rw [handler, hr]
    exact hm.wp_deleteNatRule _ _ ruleId
  | flushNatRules =>
    refine hof ?_
    rw [handler, hr]
    exact hm.wp_flushNatRules _ _

theorem shows_nil (part : FirewallRule → Listed) : Shows [] part .empty where
  listed := rfl
  apart := List.nodup_nil

theorem mirrors_init : Mirrors Daemon.init.stores Daemon.init.kernel where
  internet := shows_nil _
  client := shows_nil _
  outside := fun _ hr => absurd hr List.not_mem_nil
  nat := by
    intro dev
    have hfilters : Daemon.init.kernel.filters dev = [] := by
      unfold Kernel.filters
      split
      · rfl
      · split <;> rfl
    rw [natBand, hfilters]
    rfl
  reappliable := fun _ he => absurd he List.not_mem_nil

theorem mirrors_run (calls : List Call) (hs : ∀ c ∈ calls, ∀ i, (c.replies i).succeeds = true)
    (h : daemon.Meets Orderly calls) :
    Mirrors (daemon.run calls).stores (daemon.run calls).kernel := by
  induction calls using List.reverseRecOn with
  | nil => exact mirrors_init
  | append_singleton calls c ih =>
    obtain ⟨hbefore, hc⟩ := daemon.meets_append_singleton.mp h
    have hm := ih (fun c' hc' => hs c' (List.mem_append_left _ hc')) hbefore
    rw [Machine.run_append_singleton]
    exact mirrors_serve hm (natOwned_run calls)
      (hs c (List.mem_append_right _ (List.mem_singleton.mpr rfl))) hc

/-- **The kernel shows what is stored.**  In a run whose commands all succeed and whose
requests are orderly, each port holds the filters of the stored rules, with the handles that
are recorded for them, and those of the stored NAT entries, and no others. -/
theorem kernel_mirrors_stores (calls : List Call)
    (hs : ∀ c ∈ calls, ∀ i, (c.replies i).succeeds = true) (h : daemon.Meets Orderly calls) :
    (ruleFilters (daemon.run calls).kernel internetPort).map Filter.listed
        = (daemon.run calls).stores.rulesDb.values.map FirewallRule.forward ∧
      (ruleFilters (daemon.run calls).kernel clientPort).map Filter.listed
        = (daemon.run calls).stores.rulesDb.values.map FirewallRule.reverse ∧
      ∀ dev, natBand (daemon.run calls).kernel dev
        = (entriesOn dev (daemon.run calls).stores.natDb.values).map NATEntry.spec := by
  have hm := mirrors_run calls hs h
  exact ⟨hm.internet.listed, hm.client.listed, hm.nat⟩

/-- A tenant, a rule with the handle 1, a source NAT entry and a rule with the handle 2; then
the first rule is deleted. -/
def ruleReplaced : List Call :=
  [sampleTenant "a",
    { sampleCall (.addRule (sampleRule port80 none)) "a" firstId with
      replies := sampleReplies 1 "flower chain 0 handle 0x1" },
    sampleCall (.addSnatRule ⟨"10.0.0.5", "203.0.113.7", snatModeStatic, none⟩) "a" firstId,
    { sampleCall (.addRule (sampleRule port443 none)) "a" secondId with
      replies := sampleReplies 2 "flower chain 0 handle 0x1 handle 0x2" },
    sampleCall (.deleteRule firstId.val) "a" firstId]

theorem ruleReplaced_succeeds :
    ∀ c ∈ ruleReplaced, ∀ i, (c.replies i).succeeds = true := by
  have hsample : ∀ handle listing i, (sampleReplies handle listing i).succeeds = true := by
    intro handle listing i
    unfold sampleReplies
    split <;> rfl
  intro c hc i
  simp only [ruleReplaced, List.mem_cons, List.not_mem_nil, or_false] at hc
  rcases hc with rfl | rfl | rfl | rfl | rfl
  · rfl
  · exact hsample _ _ i
  · rfl
  · exact hsample _ _ i
  · rfl

theorem ruleReplaced_orderly : daemon.Meets Orderly ruleReplaced :=
  daemon.meets_of_meetsFrom (by decide +kernel)

/-- The rule that is left. -/
theorem ruleReplaced_values : ∃ rule : FirewallRule,
    (daemon.run ruleReplaced).stores.rulesDb.values = [rule] ∧ rule.action = .ALLOW ∧
      rule.protocol = .TCP ∧ rule.srcIp = none ∧ rule.dstIp = none ∧ rule.srcPort = none ∧
      rule.dstPort = some 443 := by
  have hlength : (daemon.run ruleReplaced).stores.rulesDb.values.length = 1 := by decide +kernel
  have hfields : ∀ r ∈ (daemon.run ruleReplaced).stores.rulesDb.values, r.action = .ALLOW ∧
      r.protocol = .TCP ∧ r.srcIp = none ∧ r.dstIp = none ∧ r.srcPort = none ∧
      r.dstPort = some 443 := by decide +kernel
  obtain ⟨rule, hvalues⟩ := List.length_eq_one_iff.mp hlength
  exact ⟨rule, hvalues, hfields rule (hvalues ▸ List.mem_singleton.mpr rfl)⟩

theorem kernel_mirrors_stores_ruleReplaced :
    (∀ c ∈ ruleReplaced, ∀ i, (c.replies i).succeeds = true) ∧
    daemon.Meets Orderly ruleReplaced ∧
    ∃ rule : FirewallRule, rule.dstPort = some 443 ∧
      (ruleFilters (daemon.run ruleReplaced).kernel internetPort).map Filter.listed
        = [rule.forward] ∧
      natBand (daemon.run ruleReplaced).kernel clientPort
        = [(snatCmd "10.0.0.5" "203.0.113.7").drop 10] := by
  refine ⟨ruleReplaced_succeeds, ruleReplaced_orderly, ?_⟩
  obtain ⟨hinternet, -, hnat⟩ := kernel_mirrors_stores ruleReplaced ruleReplaced_succeeds
    ruleReplaced_orderly
  obtain ⟨rule, hvalues, -, -, -, -, -, hport⟩ := ruleReplaced_values
  refine ⟨rule, hport, ?_, ?_⟩
  · rw [hinternet, hvalues]
    rfl
  · rw [hnat]
    decide +kernel

end PrismFirewall.TcFirewall
