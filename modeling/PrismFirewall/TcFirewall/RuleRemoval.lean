import PrismFirewall.TcFirewall.Commands
import PrismFirewall.TcFirewall.HandleMap
import PrismFirewall.TcFirewall.NatBand

/-!
# Removing both filters of a rule

`delete_rule`, `flush_rules` and `delete_tenant` delete the forward filter of a rule and then
the reverse one, inside one error scope: a forward deletion that fails skips the reverse one.
`deletionsFrom` is the list of commands this gives, and `reverseReached` are the rules whose
reverse deletion is reached.

`mem_filters_afterAll_iff` says which filters a list of such commands leaves, and
`both_directions_removed_iff` when a filter that stays behind is one whose own deletion
failed.
-/

namespace PrismFirewall.TcFirewall

open Lib

/-! ### The commands of a removal -/

/-- The command of `remove_rule`. -/
def delFilterCmd (dev prio handle : String) : List String :=
  ["filter", "del", "dev", dev, "ingress", "prio", prio, "handle", handle, "flower"]

/-- The deletion of a recorded handle. -/
def handleDeletion (dev : String) (handle : Option String) (priority : Nat) :
    List (List String) :=
  if handle.getD "" ≠ "" then [delFilterCmd dev (toString priority) (handle.getD "")] else []

/-- The forward half raises no error: there is nothing to delete, or the deletion gets this
answer and it is a success. -/
def FirewallRule.ForwardGone (rule : FirewallRule) (reply : TcReply) : Prop :=
  rule.tcHandleFwd.getD "" ≠ "" → reply.succeeds = true

instance (rule : FirewallRule) (reply : TcReply) : Decidable (rule.ForwardGone reply) :=
  inferInstanceAs (Decidable (_ → _))

/-- The commands that remove a rule, the first of which gets this answer. -/
def FirewallRule.deletions (rule : FirewallRule) (reply : TcReply) : List (List String) :=
  handleDeletion internetPort rule.tcHandleFwd rule.priority ++
    if rule.ForwardGone reply then handleDeletion clientPort rule.tcHandleRev rule.priority else []

/-- The commands that remove rules one after the other, from the `i`-th answer on. -/
def deletionsFrom (replies : Nat → TcReply) : Nat → List FirewallRule → List (List String)
  | _, [] => []
  | i, rule :: rules => rule.deletions (replies i)
      ++ deletionsFrom replies (i + (rule.deletions (replies i)).length) rules

/-- The rules whose reverse deletion is reached. -/
def reverseReached (replies : Nat → TcReply) : Nat → List FirewallRule → List FirewallRule
  | _, [] => []
  | i, rule :: rules => (if rule.ForwardGone (replies i) then [rule] else [])
      ++ reverseReached replies (i + (rule.deletions (replies i)).length) rules

/-- The deletion of one direction, in time. -/
theorem wp_removeHandle_inTime {dev : String} {handle : Option String} {priority : Nat}
    {t : TcState} (h : t.InTime) :
    wp (removeHandle dev handle priority) t
      (fun _ t' => t' = t.afterAll (handleDeletion dev handle priority) ∧
        (handle.getD "" ≠ "" → (t.replies t.issued.length).succeeds = true))
      (fun e t' => (∃ message, e = .tcError message) ∧
        t' = t.afterAll (handleDeletion dev handle priority) ∧
        ¬ (handle.getD "" ≠ "" → (t.replies t.issued.length).succeeds = true)) := by
  unfold removeHandle handleDeletion
  by_cases hh : handle.getD "" = ""
  · rw [if_neg (not_not.mpr hh), if_neg (not_not.mpr hh)]
    exact ⟨rfl, fun hne => absurd hh hne⟩
  · rw [if_pos hh, if_pos hh, removeRule, if_neg hh, wp_bind]
    refine wp_mono (wp_runTc_inTime h) ?_ ?_
    · rintro - t' ⟨rfl, hok⟩
      exact ⟨rfl, fun _ => hok⟩
    · rintro e t' ⟨he, rfl, hfail⟩
      refine ⟨he, rfl, fun hok => ?_⟩
      rw [hok hh] at hfail
      cases hfail

/-- **One rule**: the error of a failed deletion is only logged. -/
theorem wp_removeFilters_inTime {rule : FirewallRule} {s : Session} (h : s.tc.InTime) :
    wp (removeFilters rule) s
      (fun _ s' => s' = ⟨s.stores,
        s.tc.afterAll (rule.deletions (s.tc.replies s.tc.issued.length))⟩)
      (fun _ _ => False) := by
  have hscope : wp (do
      removeHandle internetPort rule.tcHandleFwd rule.priority
      removeHandle clientPort rule.tcHandleRev rule.priority) s.tc
      (fun _ t => t = s.tc.afterAll (rule.deletions (s.tc.replies s.tc.issued.length)))
      (fun e t => (∃ message, e = .tcError message) ∧
        t = s.tc.afterAll (rule.deletions (s.tc.replies s.tc.issued.length))) := by
    rw [wp_bind]
    refine wp_mono (wp_removeHandle_inTime h) ?_ ?_
    · rintro - t ⟨rfl, hrun⟩
      have hgone : rule.ForwardGone (s.tc.replies s.tc.issued.length) := hrun
      have hcmds : rule.deletions (s.tc.replies s.tc.issued.length)
          = handleDeletion internetPort rule.tcHandleFwd rule.priority
            ++ handleDeletion clientPort rule.tcHandleRev rule.priority := by
        rw [FirewallRule.deletions, if_pos hgone]
      rw [hcmds, TcState.afterAll_append]
      exact wp_mono (wp_removeHandle_inTime (h.afterAll _)) (fun _ _ h => h.1)
        (fun _ _ h => ⟨h.1, h.2.1⟩)
    · rintro e t ⟨he, rfl, hraised⟩
      have hnot : ¬ rule.ForwardGone (s.tc.replies s.tc.issued.length) := hraised
      refine ⟨he, ?_⟩
      rw [FirewallRule.deletions, if_neg hnot, List.append_nil]
  refine wp_catchTcError_of (F := fun e s' => (∃ message, e = .tcError message) ∧
    s' = ⟨s.stores, s.tc.afterAll (rule.deletions (s.tc.replies s.tc.issued.length))⟩)
    ?_ (fun message s' hs => hs.2) (fun e s' hne hs => absurd hs.1 (by simpa using hne))
  rw [wp_tc]
  refine wp_mono hscope (fun _ t ht => by rw [ht]) (fun e t ht => ⟨ht.1, by rw [ht.2]⟩)

/-- **The loop over rules** removes them all. -/
theorem wp_flushRuleIds_inTime (rules : List (String × FirewallRule)) {s : Session}
    (h : s.tc.InTime) (hnd : (rules.map Prod.fst).Nodup)
    (hget : ∀ e ∈ rules, s.stores.rulesDb.get? e.1 = some e.2) :
    wp (flushRuleIds (rules.map Prod.fst)) s
      (fun _ s' => s' = ⟨{ s.stores with
          rulesDb := s.stores.rulesDb.eraseAll (rules.map Prod.fst) },
        s.tc.afterAll (deletionsFrom s.tc.replies s.tc.issued.length (rules.map Prod.snd))⟩)
      (fun _ _ => False) := by
  induction rules generalizing s with
  | nil => rfl
  | cons e rules ih =>
    obtain ⟨id, rule⟩ := e
    rw [List.map_cons, List.nodup_cons] at hnd
    have hrule : s.stores.rulesDb.get? id = some rule := hget _ List.mem_cons_self
    rw [flushRuleIds, List.map_cons, List.forM_cons, wp_bind, wp_bind, wp_getStores, wp_bind,
      wp_item_of_get? hrule, wp_bind]
    refine wp_mono (wp_removeFilters_inTime h) ?_ (fun _ _ hf => hf)
    rintro - s' rfl
    rw [wp_modifyStores]
    refine wp_mono (ih (h.afterAll _) hnd.2 (fun e he => ?_)) ?_ (fun _ _ hf => hf)
    · -- another rule, so it is still there
      have hne : e.1 ≠ id := fun heq => hnd.1 (List.mem_map.mpr ⟨e, he, heq⟩)
      show (s.stores.rulesDb.erase id).get? e.1 = _
      rw [Dict.get?_erase, if_neg hne]
      exact hget e (List.mem_cons_of_mem _ he)
    · rintro - s'' rfl
      congr 1
      rw [TcState.replies_afterAll, TcState.length_issued_afterAll, ← TcState.afterAll_append]
      rfl

/-- The commands that remove NAT entries one after the other. -/
def natCommands : Dict String NATEntry → List String → List (List String)
  | _, [] => []
  | db, id :: ids => match db.get? id with
    | none => natCommands db ids
    | some e => rebuildCommands e.port (db.erase id).values ++ natCommands (db.erase id) ids

theorem wp_flushNatIds_inTime (ids : List String) {s : Session} (h : s.tc.InTime) :
    wp (flushNatIds ids) s
      (fun _ s' => s'.stores.rulesDb = s.stores.rulesDb ∧
        s'.tc = s.tc.afterAll (natCommands s.stores.natDb ids))
      (fun _ _ => False) := by
  induction ids generalizing s with
  | nil => exact ⟨rfl, rfl⟩
  | cons id ids ih =>
    rw [flushNatIds, List.forM_cons, wp_bind, wp_bind, wp_tryCatch, natCommands]
    refine wp_mono (wp_removeNat_inTime h) ?_ ?_
    · rintro - s' ⟨e, he, rfl⟩
      rw [he, wp_modifyStores, TcState.afterAll_append]
      exact ih (h.afterAll _)
    · rintro - s' ⟨hid, rfl⟩
      rw [Dict.get?_eq_none_iff.mpr hid, wp_pure, wp_modifyStores]
      exact ih h

/-! ### The three requests -/

/-- The requests that remove rules. -/
def Request.RemovesRules : Request → Prop
  | .deleteRule _ | .flushRules | .deleteTenant _ => True
  | _ => False

/-- The header names a registered tenant, whichever. -/
def HasTenant (s : Stores) (header : Option String) : Prop :=
  IsTenant s header (header.getD "")

instance (s : Stores) (header : Option String) : Decidable (HasTenant s header) :=
  inferInstanceAs (Decidable (IsTenant _ _ _))

theorem hasTenant_of_isTenant {s : Stores} {header : Option String} {t : String}
    (h : IsTenant s header t) : HasTenant s header := by
  obtain ⟨rfl, h⟩ := h
  exact ⟨rfl, h⟩

/-- The rules a request removes, with their identifiers. -/
def removedRules (s : Stores) (c : Call) : List (String × FirewallRule) :=
  match c.request with
  | .deleteRule ruleId => match s.rulesDb.get? ruleId with
    | some rule => if HasTenant s c.tenantHeader ∧ rule.tenantId = c.tenantHeader then
        [(ruleId, rule)] else []
    | none => []
  | .flushRules => if HasTenant s c.tenantHeader then
      s.rulesDb.entries.filter (fun e => decide (e.2.tenantId = c.tenantHeader)) else []
  | .deleteTenant tenantId => if tenantId ∈ s.tenants then
      s.rulesDb.entries.filter (fun e => decide (e.2.tenantId = some tenantId)) else []
  | _ => []

/-- The NAT entries that go with a tenant. -/
def removedNatIds (s : Stores) (c : Call) : List String :=
  match c.request with
  | .deleteTenant tenantId => if tenantId ∈ s.tenants then tenantNatIds s tenantId else []
  | _ => []

/-- The commands of a request that removes rules. -/
def removalCommands (d : Daemon) (c : Call) : List (List String) :=
  deletionsFrom c.replies 0 ((removedRules d.stores c).map Prod.snd)
    ++ natCommands d.stores.natDb (removedNatIds d.stores c)

theorem get?_of_mem_removedRules {s : Stores} {c : Call} {e : String × FirewallRule}
    (he : e ∈ removedRules s c) : s.rulesDb.get? e.1 = some e.2 := by
  unfold removedRules at he
  cases hr : c.request with
  | deleteRule ruleId =>
    simp only [hr] at he
    cases hg : s.rulesDb.get? ruleId with
    | none =>
      rw [hg] at he
      cases he
    | some rule =>
      simp only [hg] at he
      split at he
      · rw [List.mem_singleton.mp he]
        exact hg
      · cases he
  | flushRules =>
    simp only [hr] at he
    split at he
    · exact Dict.mem_entries_iff.mp (List.mem_filter.mp he).1
    · cases he
  | deleteTenant tenantId =>
    simp only [hr] at he
    split at he
    · exact Dict.mem_entries_iff.mp (List.mem_filter.mp he).1
    · cases he
  | _ => simp [hr] at he

/-- How a request that removes rules ends. -/
structure Removal (d : Daemon) (c : Call) (s : Session) : Prop where
  rules : s.stores.rulesDb
    = d.stores.rulesDb.eraseAll ((removedRules d.stores c).map Prod.fst)
  tc : s.tc = (c.session d).tc.afterAll (removalCommands d c)

/-- A request that is refused removes nothing. -/
theorem Removal.refused {d : Daemon} {c : Call} (hrules : removedRules d.stores c = [])
    (hnat : removedNatIds d.stores c = []) : Removal d c (c.session d) where
  rules := by rw [hrules]; rfl
  tc := by
    unfold removalCommands
    rw [hrules, hnat]
    rfl

theorem removal_deleteRule {d : Daemon} {c : Call} {ruleId : String}
    (hc : c.request = .deleteRule ruleId) (hin : (c.session d).tc.InTime) :
    wp (deleteRule c.tenantHeader c.client ruleId) (c.session d)
      (fun _ s => Removal d c s) (fun _ s => Removal d c s) := by
  have hnat : removedNatIds d.stores c = [] := by
    unfold removedNatIds
    simp only [hc]
  have hrules : removedRules d.stores c = match d.stores.rulesDb.get? ruleId with
      | some rule => if HasTenant d.stores c.tenantHeader ∧ rule.tenantId = c.tenantHeader then
          [(ruleId, rule)] else []
      | none => [] := by
    unfold removedRules
    simp only [hc]
  unfold deleteRule
  rw [wp_bind]
  refine wp_mono wp_getTenantId ?_ ?_
  · rintro t s ⟨rfl, ht⟩
    have htenant := hasTenant_of_isTenant ht
    rw [wp_bind, wp_getStores]
    by_cases hid : ruleId ∈ (c.session d).stores.rulesDb
    · obtain ⟨rule, hget⟩ := Dict.mem_iff_get?.mp hid
      rw [show d.stores.rulesDb.get? ruleId = some rule from hget] at hrules
      rw [if_neg (not_not.mpr hid), wp_bind, wp_item_of_get? hget]
      by_cases howner : rule.tenantId = some t
      · have hrules' : removedRules d.stores c = [(ruleId, rule)] :=
          hrules.trans (if_pos ⟨htenant, howner.trans ht.1.symm⟩)
        rw [if_neg (not_not.mpr howner), wp_bind]
        refine wp_mono (wp_removeFilters_inTime hin) ?_ (fun _ _ hf => hf.elim)
        rintro - s rfl
        refine ⟨?_, ?_⟩
        · rw [hrules']
          rfl
        · unfold removalCommands
          rw [hrules', hnat]
          show _ = (c.session d).tc.afterAll ((rule.deletions (c.replies 0) ++ []) ++ [])
          rw [List.append_nil, List.append_nil]
          rfl
      · rw [if_pos howner, wp_bind, wp_throw]
        refine .refused (hrules.trans (if_neg (fun h => howner ?_))) hnat
        exact h.2.trans ht.1
    · rw [if_pos hid, wp_bind, wp_throw]
      rw [show d.stores.rulesDb.get? ruleId = none from Dict.get?_eq_none_iff.mpr hid] at hrules
      exact .refused hrules hnat
  · rintro e s ⟨rfl, -, hnone⟩
    refine .refused ?_ hnat
    rw [hrules]
    split
    · exact if_neg (fun h => hnone _ h.1)
    · rfl

theorem removal_flushRules {d : Daemon} {c : Call} (hc : c.request = .flushRules)
    (hin : (c.session d).tc.InTime) :
    wp (flushRules c.tenantHeader c.client) (c.session d)
      (fun _ s => Removal d c s) (fun _ s => Removal d c s) := by
  have hnat : removedNatIds d.stores c = [] := by
    unfold removedNatIds
    simp only [hc]
  have hrules : removedRules d.stores c = if HasTenant d.stores c.tenantHeader then
      d.stores.rulesDb.entries.filter (fun e => decide (e.2.tenantId = c.tenantHeader))
      else [] := by
    unfold removedRules
    simp only [hc]
  unfold flushRules
  rw [wp_bind]
  refine wp_mono wp_getTenantId ?_ ?_
  · rintro t s ⟨rfl, ht⟩
    have hids : tenantRuleIds (c.session d).stores t
        = (removedRules d.stores c).map Prod.fst := by
      have htenant : HasTenant d.stores c.tenantHeader := hasTenant_of_isTenant ht
      rw [hrules, if_pos htenant, ht.1]
      rfl
    have hnd : ((removedRules d.stores c).map Prod.fst).Nodup := by
      rw [← hids]
      exact nodup_tenantRuleIds _ _
    rw [wp_bind, wp_getStores, hids, wp_bind]
    refine wp_mono (wp_flushRuleIds_inTime _ hin hnd (fun e he => get?_of_mem_removedRules he))
      ?_ (fun _ _ hf => hf.elim)
    rintro - s rfl
    refine ⟨rfl, ?_⟩
    unfold removalCommands
    rw [hnat, natCommands, List.append_nil]
    rfl
  · rintro e s ⟨rfl, -, hnone⟩
    exact .refused (hrules.trans (if_neg (hnone _))) hnat

theorem removal_deleteTenant {d : Daemon} {c : Call} {tenantId : String}
    (hc : c.request = .deleteTenant tenantId) (hin : (c.session d).tc.InTime) :
    wp (deleteTenant tenantId) (c.session d)
      (fun _ s => Removal d c s) (fun _ s => Removal d c s) := by
  have hnat : removedNatIds d.stores c
      = if tenantId ∈ d.stores.tenants then tenantNatIds d.stores tenantId else [] := by
    unfold removedNatIds
    simp only [hc]
  have hrules : removedRules d.stores c = if tenantId ∈ d.stores.tenants then
      d.stores.rulesDb.entries.filter (fun e => decide (e.2.tenantId = some tenantId))
      else [] := by
    unfold removedRules
    simp only [hc]
  unfold deleteTenant
  simp only [wp_bind, wp_getStores]
  by_cases ht : tenantId ∈ d.stores.tenants
  · have hids : tenantRuleIds (c.session d).stores tenantId
        = (removedRules d.stores c).map Prod.fst := by
      rw [hrules, if_pos ht]
      rfl
    have hnd : ((removedRules d.stores c).map Prod.fst).Nodup := by
      rw [← hids]
      exact nodup_tenantRuleIds _ _
    have ht' : tenantId ∈ (c.session d).stores.tenants := ht
    rw [if_neg (not_not.mpr ht')]
    simp only [wp_bind, wp_getStores, hids]
    refine wp_mono (wp_flushRuleIds_inTime _ hin hnd (fun e he => get?_of_mem_removedRules he))
      ?_ (fun _ _ hf => hf.elim)
    rintro - s rfl
    refine wp_mono (wp_flushNatIds_inTime _ (hin.afterAll _)) ?_ (fun _ _ hf => hf.elim)
    rintro - s' ⟨hdb, htc⟩
    refine ⟨hdb, ?_⟩
    show s'.tc = _
    unfold removalCommands
    rw [htc, hnat, if_pos ht, TcState.afterAll_append]
    rfl
  · have ht' : tenantId ∉ (c.session d).stores.tenants := ht
    rw [if_pos ht', wp_bind, wp_throw]
    exact .refused (hrules.trans (if_neg ht)) (hnat.trans (if_neg ht))

/-- **One request in time** issues its commands and drops its rules. -/
theorem removal_request {d : Daemon} {c : Call} (hc : c.request.RemovesRules)
    (hin : ∀ i, ¬ (c.replies i).timesOut) :
    Removal d c (finalSession (handler c (c.session d))) := by
  refine finalSession_of_wp ?_
  unfold handler
  cases hr : c.request with
  | deleteRule ruleId => exact removal_deleteRule hr hin
  | flushRules => exact removal_flushRules hr hin
  | deleteTenant tenantId => exact removal_deleteTenant hr hin
  | _ =>
    rw [hr] at hc
    exact hc.elim

/-! ### What the commands leave -/

/-- The command deletes this filter of the port: by its handle, or with the NAT band. -/
def Deletes (cmd : List String) (dev : String) (f : Filter) : Prop :=
  delFilterCmd dev f.prio f.handleText = cmd ∨
    (delCommand dev = cmd ∧ f.prio = toString natPriority)

/-- The commands that a removal issues. -/
inductive RemovalCommand : List String → Prop
  | filter (dev prio handle : String) : RemovalCommand (delFilterCmd dev prio handle)
  | band (dev : String) : RemovalCommand (delCommand dev)
  | reapply (e : NATEntry) : RemovalCommand e.reapplyCommand

theorem delFilterCmd_inj {dev dev' prio prio' handle handle' : String} :
    delFilterCmd dev prio handle = delFilterCmd dev' prio' handle'
      ↔ dev = dev' ∧ prio = prio' ∧ handle = handle' := by
  simp [delFilterCmd]

theorem delCommand_inj {dev dev' : String} : delCommand dev = delCommand dev' ↔ dev = dev' := by
  simp [delCommand]

theorem delFilterCmd_ne_delCommand (dev prio handle dev' : String) :
    delFilterCmd dev prio handle ≠ delCommand dev' := by
  simp [delFilterCmd, delCommand]

/-- The second word of the commands that add an entry again. -/
theorem reapplyCommand_getElem (e : NATEntry) : e.reapplyCommand[1]? = some "add" := by
  unfold NATEntry.reapplyCommand
  split
  · rfl
  · split
    · rfl
    · rfl

theorem reapplyCommand_ne_delFilterCmd (e : NATEntry) (dev prio handle : String) :
    e.reapplyCommand ≠ delFilterCmd dev prio handle := by
  intro h
  have hword := reapplyCommand_getElem e
  rw [h] at hword
  exact absurd hword (by simp [delFilterCmd])

theorem reapplyCommand_ne_delCommand (e : NATEntry) (dev : String) :
    e.reapplyCommand ≠ delCommand dev := by
  intro h
  have hword := reapplyCommand_getElem e
  rw [h] at hword
  exact absurd hword (by simp [delCommand])

theorem natChange_reapplyCommand (k : Kernel) (handle : Nat) (e : NATEntry) :
    NatChange [] k (k.exec handle e.reapplyCommand) := by
  unfold NATEntry.reapplyCommand
  split
  · exact natChange_snatCmd _ _
  · split
    · exact natChange_forwardCmd _ _ _ _ _
    · exact natChange_dnatCmd _ _ _ _

theorem NatChange.mem_iff {ports : List String} {k k' : Kernel} (h : NatChange ports k k')
    {f : Filter} (hf : f.isNat = false) (dev : String) : f ∈ k'.filters dev ↔
      f ∈ k.filters dev ∧ ¬ (dev ∈ ports ∧ f.prio = toString natPriority) := by
  rw [← List.count_pos_iff, ← List.count_pos_iff, h dev f hf]
  split
  · rename_i hin
    simp [hin]
  · rename_i hout
    simp only [hout, not_false_eq_true, and_true]

theorem mem_filters_delFilterCmd (k : Kernel) (handle : Nat) (dev' prio text : String)
    {dev : String} (hdev : IsPort dev) (f : Filter) :
    f ∈ (k.exec handle (delFilterCmd dev' prio text)).filters dev ↔
      f ∈ k.filters dev ∧ ¬ (dev = dev' ∧ f.prio = prio ∧ f.handleText = text) := by
  show f ∈ (k.modifyDev dev' (fun l => l.filter
    (fun f => !(f.prio == prio && f.handleText == text)))).filters dev ↔ _
  rw [Kernel.filters_modifyDev]
  by_cases h : dev = dev'
  · rw [if_pos ⟨h, hdev⟩, List.mem_filter]
    simp [h, imp_iff_not_or]
  · rw [if_neg (fun h' => h h'.1)]
    simp [h]

/-- **One command**: a filter of a rule stays unless the command deletes it and succeeds. -/
theorem mem_filters_after_iff {cmd : List String} (hcmd : RemovalCommand cmd) {f : Filter}
    (hf : f.isNat = false) {dev : String} (hdev : IsPort dev) (t : TcState) :
    f ∈ (t.after cmd).kernel.filters dev ↔ f ∈ t.kernel.filters dev ∧
      ((t.replies t.issued.length).succeeds = true → ¬ Deletes cmd dev f) := by
  obtain ⟨handle, hk⟩ := t.kernel_after cmd
  rw [hk]
  by_cases hok : (t.replies t.issued.length).succeeds = true
  · rw [if_pos hok]
    simp only [hok, true_implies]
    cases hcmd with
    | filter dev' prio text =>
      have hne : delCommand dev ≠ delFilterCmd dev' prio text :=
        (delFilterCmd_ne_delCommand _ _ _ _).symm
      rw [mem_filters_delFilterCmd _ _ _ _ _ hdev, Deletes, delFilterCmd_inj]
      simp only [hne, false_and, or_false]
    | band dev' =>
      have hband : NatChange [dev'] t.kernel (t.kernel.exec handle (delCommand dev')) :=
        natChange_del handle
      rw [hband.mem_iff hf, Deletes, delCommand_inj, List.mem_singleton]
      simp only [delFilterCmd_ne_delCommand, false_or]
    | reapply e =>
      have hfilter : delFilterCmd dev f.prio f.handleText ≠ e.reapplyCommand :=
        (reapplyCommand_ne_delFilterCmd _ _ _ _).symm
      have hband : delCommand dev ≠ e.reapplyCommand := (reapplyCommand_ne_delCommand _ _).symm
      rw [(natChange_reapplyCommand _ handle e).mem_iff hf, Deletes]
      simp only [hfilter, hband, List.not_mem_nil, false_and, or_false]
  · rw [if_neg hok]
    exact ⟨fun h => ⟨h, fun h' => absurd h' hok⟩, fun h => h.1⟩

/-- **The commands of a removal** leave the filters that none of them deletes with success. -/
theorem mem_filters_afterAll_iff {cmds : List (List String)}
    (hcmds : ∀ cmd ∈ cmds, RemovalCommand cmd) {f : Filter} (hf : f.isNat = false) {dev : String}
    (hdev : IsPort dev) (t : TcState) :
    f ∈ (t.afterAll cmds).kernel.filters dev ↔ f ∈ t.kernel.filters dev ∧
      ∀ p ∈ answersFrom t.replies t.issued.length cmds,
        p.2.succeeds = true → ¬ Deletes p.1 dev f := by
  induction cmds generalizing t with
  | nil => simp [answersFrom, TcState.afterAll]
  | cons cmd cmds ih =>
    have hrest : ∀ cmd ∈ cmds, RemovalCommand cmd :=
      fun cmd hmem => hcmds cmd (List.mem_cons_of_mem _ hmem)
    show f ∈ ((t.after cmd).afterAll cmds).kernel.filters dev ↔ _
    rw [ih hrest, mem_filters_after_iff (hcmds cmd List.mem_cons_self) hf hdev, answersFrom,
      List.forall_mem_cons, and_assoc]
    rfl

/-! ### Which deletions are issued -/

/-- A recorded handle is deleted by its command. -/
theorem mem_handleDeletion_iff {dev dev' prio text : String} {handle : Option String}
    {priority : Nat} (htext : text ≠ "") :
    delFilterCmd dev' prio text ∈ handleDeletion dev handle priority ↔
      dev' = dev ∧ prio = toString priority ∧ handle = some text := by
  unfold handleDeletion
  cases handle with
  | none => simp
  | some h =>
    by_cases hh : h = ""
    · have hne : h ≠ text := fun heq => htext (heq ▸ hh)
      simp [hh, htext.symm]
    · simp [hh, delFilterCmd_inj, eq_comm]

theorem mem_deletionsFrom_iff {replies : Nat → TcReply} {prio text : String} (htext : text ≠ "")
    (i : Nat) (rules : List FirewallRule) :
    (delFilterCmd internetPort prio text ∈ deletionsFrom replies i rules ↔
      ∃ rule ∈ rules, prio = toString rule.priority ∧ rule.tcHandleFwd = some text) ∧
    (delFilterCmd clientPort prio text ∈ deletionsFrom replies i rules ↔
      ∃ rule ∈ reverseReached replies i rules,
        prio = toString rule.priority ∧ rule.tcHandleRev = some text) := by
  have hne : internetPort ≠ clientPort := by decide
  induction rules generalizing i with
  | nil => simp [deletionsFrom, reverseReached]
  | cons rule rules ih =>
    obtain ⟨ihf, ihr⟩ := ih (i + (rule.deletions (replies i)).length)
    have hone : (delFilterCmd internetPort prio text ∈ rule.deletions (replies i) ↔
          prio = toString rule.priority ∧ rule.tcHandleFwd = some text) ∧
        (delFilterCmd clientPort prio text ∈ rule.deletions (replies i) ↔
          rule.ForwardGone (replies i) ∧
            prio = toString rule.priority ∧ rule.tcHandleRev = some text) := by
      unfold FirewallRule.deletions
      rw [List.mem_append, List.mem_append, mem_handleDeletion_iff htext,
        mem_handleDeletion_iff htext]
      by_cases hgone : rule.ForwardGone (replies i)
      · simp [mem_handleDeletion_iff htext, hne, hne.symm, hgone]
      · simp [hne.symm, hgone]
    rw [deletionsFrom, List.mem_append, List.mem_append, ihf, ihr, hone.1, hone.2, reverseReached]
    refine ⟨by simp, ?_⟩
    by_cases hgone : rule.ForwardGone (replies i)
    · simp [hgone]
    · simp [hgone]

theorem eq_delFilterCmd_of_mem_handleDeletion {dev : String} {handle : Option String}
    {priority : Nat} {cmd : List String} (h : cmd ∈ handleDeletion dev handle priority) :
    ∃ prio text, cmd = delFilterCmd dev prio text := by
  unfold handleDeletion at h
  split at h
  · exact ⟨_, _, List.mem_singleton.mp h⟩
  · cases h

theorem eq_delFilterCmd_of_mem_deletionsFrom {replies : Nat → TcReply} {cmd : List String}
    (i : Nat) (rules : List FirewallRule) (h : cmd ∈ deletionsFrom replies i rules) :
    ∃ dev prio text, cmd = delFilterCmd dev prio text := by
  induction rules generalizing i with
  | nil => cases h
  | cons rule rules ih =>
    rw [deletionsFrom, List.mem_append] at h
    rcases h with h | h
    · unfold FirewallRule.deletions at h
      rcases List.mem_append.mp h with h | h
      · exact ⟨_, eq_delFilterCmd_of_mem_handleDeletion h⟩
      · split at h
        · exact ⟨_, eq_delFilterCmd_of_mem_handleDeletion h⟩
        · cases h
    · exact ih _ h

theorem cases_of_mem_natCommands {cmd : List String} (db : Dict String NATEntry)
    (ids : List String) (h : cmd ∈ natCommands db ids) :
    (∃ dev, cmd = delCommand dev) ∨ ∃ e : NATEntry, cmd = e.reapplyCommand := by
  induction ids generalizing db with
  | nil => cases h
  | cons id ids ih =>
    rw [natCommands] at h
    split at h
    · exact ih _ h
    · rcases List.mem_append.mp h with h | h
      · rcases List.mem_cons.mp h with h | h
        · exact Or.inl ⟨_, h⟩
        · obtain ⟨e, -, rfl⟩ := List.mem_map.mp h
          exact Or.inr ⟨e, rfl⟩
      · exact ih _ h

theorem removalCommand_of_mem {d : Daemon} {c : Call} {cmd : List String}
    (h : cmd ∈ removalCommands d c) : RemovalCommand cmd := by
  rcases List.mem_append.mp h with h | h
  · obtain ⟨dev, prio, text, rfl⟩ := eq_delFilterCmd_of_mem_deletionsFrom _ _ h
    exact .filter dev prio text
  · rcases cases_of_mem_natCommands _ _ h with ⟨dev, rfl⟩ | ⟨e, rfl⟩
    · exact .band dev
    · exact .reapply e

/-- The part that works on NAT entries deletes no single filter. -/
theorem mem_removalCommands_iff {d : Daemon} {c : Call} {dev prio text : String} :
    delFilterCmd dev prio text ∈ removalCommands d c ↔ delFilterCmd dev prio text ∈
      deletionsFrom c.replies 0 ((removedRules d.stores c).map Prod.snd) := by
  unfold removalCommands
  rw [List.mem_append]
  refine ⟨fun h => h.resolve_right (fun h => ?_), Or.inl⟩
  rcases cases_of_mem_natCommands _ _ h with ⟨dev', h⟩ | ⟨e, h⟩
  · exact delFilterCmd_ne_delCommand _ _ _ _ h
  · exact reapplyCommand_ne_delFilterCmd _ _ _ _ h.symm

/-- The ports whose band is emptied with success when NAT entries are removed one after the
other, from the `i`-th answer on. -/
def emptiedFrom (replies : Nat → TcReply) : Nat → Dict String NATEntry → List String → List String
  | _, _, [] => []
  | i, db, id :: ids => match db.get? id with
    | none => emptiedFrom replies i db ids
    | some e => (if (replies i).succeeds then [e.port] else []) ++ emptiedFrom replies
        (i + (rebuildCommands e.port (db.erase id).values).length) (db.erase id) ids

/-- The ports whose NAT band a request empties. -/
def emptiedBands (d : Daemon) (c : Call) : List String :=
  emptiedFrom c.replies (deletionsFrom c.replies 0 ((removedRules d.stores c).map Prod.snd)).length
    d.stores.natDb (removedNatIds d.stores c)

theorem mem_emptiedFrom_iff {replies : Nat → TcReply} {dev : String} (i : Nat)
    (db : Dict String NATEntry) (ids : List String) : dev ∈ emptiedFrom replies i db ids ↔
      ∃ p ∈ answersFrom replies i (natCommands db ids),
        p.1 = delCommand dev ∧ p.2.succeeds = true := by
  induction ids generalizing i db with
  | nil => simp [emptiedFrom, natCommands, answersFrom]
  | cons id ids ih =>
    rw [emptiedFrom, natCommands]
    cases db.get? id with
    | none => exact ih i db
    | some e =>
      have hadds : ∀ j (entries : List NATEntry), ¬ ∃ p ∈ answersFrom replies j
          (entries.map NATEntry.reapplyCommand), p.1 = delCommand dev ∧ p.2.succeeds = true := by
        rintro j entries ⟨p, hp, hcmd, -⟩
        have hfst := List.mem_map_of_mem (f := Prod.fst) hp
        rw [map_fst_answersFrom] at hfst
        obtain ⟨e', -, he'⟩ := List.mem_map.mp hfst
        exact reapplyCommand_ne_delCommand e' dev (he'.trans hcmd)
      have hband : (∃ p ∈ answersFrom replies i (rebuildCommands e.port (db.erase id).values),
          p.1 = delCommand dev ∧ p.2.succeeds = true)
            ↔ e.port = dev ∧ (replies i).succeeds = true := by
        rw [rebuildCommands, answersFrom, List.exists_mem_cons_iff]
        simp only [hadds, or_false, delCommand_inj]
      rw [answersFrom_append]
      simp only [List.mem_append, or_and_right, exists_or, hband, ← ih]
      by_cases hok : (replies i).succeeds = true
      · simp [hok, eq_comm]
      · simp [hok]

theorem handleText_ne_empty (f : Filter) : f.handleText ≠ "" := hexHandle_ne_empty f.handle

/-! ### The two filters of a removed rule -/

/-- What the request issued, with the answers. -/
def issuedBy (d : Daemon) (c : Call) : List (List String × TcReply) :=
  (finalSession (handler c (c.session d))).tc.issued

/-- A recorded filter is in the kernel after the request only if the command that deletes it
was issued and failed. -/
def StaysOnlyIfFailed (d : Daemon) (c : Call) (dev : String) (handle : Option String)
    (priority : Nat) : Prop :=
  ∀ f ∈ (serve d c).2.kernel.filters dev, f.isNat = false → f.prio = toString priority →
    handle = some f.handleText →
    ∃ reply, (delFilterCmd dev (toString priority) f.handleText, reply) ∈ issuedBy d c ∧
      reply.succeeds = false

/-- The condition on the state before and the answers: every recorded reverse filter of a
removed rule is one that the request gets to delete, for this rule or for another one with the
same preference and handle, or it leaves with the NAT band. -/
def ReverseReached (d : Daemon) (c : Call) : Prop :=
  ∀ e ∈ removedRules d.stores c, ∀ f ∈ d.kernel.client, f.isNat = false →
    f.prio = toString e.2.priority → e.2.tcHandleRev = some f.handleText →
    (∃ rule ∈ reverseReached c.replies 0 ((removedRules d.stores c).map Prod.snd),
      rule.priority = e.2.priority ∧ rule.tcHandleRev = e.2.tcHandleRev) ∨
    (e.2.priority = natPriority ∧ clientPort ∈ emptiedBands d c)

instance (d : Daemon) (c : Call) : Decidable (ReverseReached d c) :=
  inferInstanceAs (Decidable (∀ e ∈ removedRules d.stores c, ∀ f ∈ d.kernel.client,
    f.isNat = false → f.prio = toString e.2.priority → e.2.tcHandleRev = some f.handleText → _ ∨ _))

section

variable {d : Daemon} {c : Call} (hc : c.request.RemovesRules)
  (hin : ∀ i, ¬ (c.replies i).timesOut)

include hc hin

theorem issuedBy_eq : issuedBy d c = (answersFrom c.replies 0 (removalCommands d c)).reverse := by
  unfold issuedBy
  rw [(removal_request hc hin).tc, TcState.issued_afterAll]
  exact List.append_nil _

/-- A filter of a rule is there after the request unless it was deleted with success. -/
theorem mem_filters_serve_iff {f : Filter} (hf : f.isNat = false) {dev : String}
    (hdev : IsPort dev) : f ∈ (serve d c).2.kernel.filters dev ↔ f ∈ d.kernel.filters dev ∧
      ∀ p ∈ issuedBy d c, p.2.succeeds = true → ¬ Deletes p.1 dev f := by
  rw [kernel_serve, (removal_request hc hin).tc,
    mem_filters_afterAll_iff (fun _ => removalCommand_of_mem) hf hdev, issuedBy_eq hc hin]
  simp only [List.mem_reverse]
  rfl

/-- The rules that are dropped. -/
theorem dropped_iff {id : String} {rule : FirewallRule} :
    (d.stores.rulesDb.get? id = some rule ∧ id ∉ (serve d c).2.stores.rulesDb) ↔
      (id, rule) ∈ removedRules d.stores c := by
  have hdb : (serve d c).2.stores.rulesDb
      = d.stores.rulesDb.eraseAll ((removedRules d.stores c).map Prod.fst) := by
    have h := (removal_request (d := d) hc hin).rules
    unfold serve
    cases hm : handler c (c.session d) with
    | ok r s => rw [hm] at h; exact h
    | error e s => rw [hm] at h; exact h
  rw [hdb, Dict.mem_eraseAll]
  constructor
  · rintro ⟨hget, hgone⟩
    have hmem : id ∈ (removedRules d.stores c).map Prod.fst := by
      by_contra hnot
      exact hgone ⟨Dict.mem_of_get? hget, hnot⟩
    obtain ⟨⟨id', rule'⟩, he, rfl⟩ := List.mem_map.mp hmem
    have hsame := get?_of_mem_removedRules he
    rw [show d.stores.rulesDb.get? id' = some rule from hget, Option.some.injEq] at hsame
    exact hsame ▸ he
  · intro he
    exact ⟨get?_of_mem_removedRules he, fun h => h.2 (List.mem_map_of_mem (f := Prod.fst) he)⟩

theorem mem_removalCommands_iff_issued {cmd : List String} :
    cmd ∈ removalCommands d c ↔ ∃ reply, (cmd, reply) ∈ issuedBy d c := by
  have hfst : (issuedBy d c).map Prod.fst = (removalCommands d c).reverse := by
    rw [issuedBy_eq hc hin, List.map_reverse, map_fst_answersFrom]
  rw [← List.mem_reverse, ← hfst, List.mem_map]
  constructor
  · rintro ⟨⟨cmd', reply⟩, hp, rfl⟩
    exact ⟨reply, hp⟩
  · rintro ⟨reply, hp⟩
    exact ⟨_, hp, rfl⟩

/-- The commands that are issued decide whether a filter stays that should not. -/
theorem staysOnlyIfFailed_iff {dev : String} (hdev : IsPort dev) {handle : Option String}
    {priority : Nat} : StaysOnlyIfFailed d c dev handle priority ↔
      ∀ f ∈ d.kernel.filters dev, f.isNat = false → f.prio = toString priority →
        handle = some f.handleText →
        delFilterCmd dev (toString priority) f.handleText ∈ removalCommands d c ∨
          (priority = natPriority ∧
            ∃ p ∈ issuedBy d c, p.1 = delCommand dev ∧ p.2.succeeds = true) := by
  constructor
  · intro h f hmem hf hprio hhandle
    by_contra hnot
    rw [not_or] at hnot
    have hstays : f ∈ (serve d c).2.kernel.filters dev := by
      refine (mem_filters_serve_iff hc hin hf hdev).mpr ⟨hmem, fun p hp hok hdel => ?_⟩
      rcases hdel with hdel | ⟨hdel, hband⟩
      · rw [hprio] at hdel
        exact hnot.1 ((mem_removalCommands_iff_issued hc hin).mpr ⟨p.2, hdel ▸ hp⟩)
      · exact hnot.2 ⟨Text.toString_inj.mp (hprio.symm.trans hband), p, hp, hdel.symm, hok⟩
    obtain ⟨reply, hp, -⟩ := h f hstays hf hprio hhandle
    exact hnot.1 ((mem_removalCommands_iff_issued hc hin).mpr ⟨reply, hp⟩)
  · intro h f hmem hf hprio hhandle
    obtain ⟨hbefore, hkept⟩ := (mem_filters_serve_iff hc hin hf hdev).mp hmem
    rcases h f hbefore hf hprio hhandle with hcmd | ⟨hband, p, hp, hdel, hok⟩
    · obtain ⟨reply, hp⟩ := (mem_removalCommands_iff_issued hc hin).mp hcmd
      refine ⟨reply, hp, Bool.eq_false_iff.mpr (fun hok => ?_)⟩
      refine hkept _ hp hok (Or.inl ?_)
      rw [hprio]
    · refine absurd (Or.inr ⟨hdel.symm, ?_⟩) (hkept p hp hok)
      rw [hprio, hband]

theorem mem_emptiedBands_iff {dev : String} : dev ∈ emptiedBands d c ↔
    ∃ p ∈ issuedBy d c, p.1 = delCommand dev ∧ p.2.succeeds = true := by
  unfold emptiedBands
  rw [mem_emptiedFrom_iff, issuedBy_eq hc hin, removalCommands, answersFrom_append]
  simp only [List.mem_reverse, List.mem_append, or_and_right, exists_or, Nat.zero_add]
  refine ⟨Or.inr, fun h => h.resolve_left ?_⟩
  -- the rules are deleted one filter at a time
  rintro ⟨p, hp, hcmd, -⟩
  have hfst := List.mem_map_of_mem (f := Prod.fst) hp
  rw [map_fst_answersFrom] at hfst
  obtain ⟨dev', prio, text, h⟩ := eq_delFilterCmd_of_mem_deletionsFrom _ _ hfst
  exact delFilterCmd_ne_delCommand _ _ _ _ (h.symm.trans hcmd)

/-- The forward deletion of a removed rule is always issued. -/
theorem forward_staysOnlyIfFailed {e : String × FirewallRule} (he : e ∈ removedRules d.stores c) :
    StaysOnlyIfFailed d c internetPort e.2.tcHandleFwd e.2.priority := by
  refine (staysOnlyIfFailed_iff hc hin (Or.inl rfl)).mpr (fun f _ _ _ hhandle => Or.inl ?_)
  rw [mem_removalCommands_iff, (mem_deletionsFrom_iff (handleText_ne_empty f) _ _).1]
  exact ⟨e.2, List.mem_map_of_mem he, rfl, hhandle⟩

theorem reverse_staysOnlyIfFailed_iff {e : String × FirewallRule} :
    StaysOnlyIfFailed d c clientPort e.2.tcHandleRev e.2.priority ↔
      ∀ f ∈ d.kernel.client, f.isNat = false → f.prio = toString e.2.priority →
        e.2.tcHandleRev = some f.handleText →
        (∃ rule ∈ reverseReached c.replies 0 ((removedRules d.stores c).map Prod.snd),
          rule.priority = e.2.priority ∧ rule.tcHandleRev = e.2.tcHandleRev) ∨
        (e.2.priority = natPriority ∧ clientPort ∈ emptiedBands d c) := by
  rw [staysOnlyIfFailed_iff hc hin (Or.inr rfl)]
  refine forall_congr' (fun f => forall_congr' (fun _ => forall_congr' (fun _ =>
    forall_congr' (fun _ => forall_congr' (fun hhandle => ?_)))))
  rw [mem_emptiedBands_iff hc hin, mem_removalCommands_iff,
    (mem_deletionsFrom_iff (handleText_ne_empty f) _ _).2]
  simp only [Text.toString_inj, hhandle, eq_comm]

end

/-- **When both directions are removed.**  Whatever commands succeed or fail, as long as none
times out: each recorded filter of a rule that the request drops is gone, or its own deletion
was issued and failed, if and only if the reverse deletion is reached for every removed rule
whose reverse filter is there, or for another one with the same preference and handle, or the
filter leaves with the NAT band. -/
theorem both_directions_removed_iff (d : Daemon) (c : Call) (hc : c.request.RemovesRules)
    (hin : ∀ i, ¬ (c.replies i).timesOut) :
    (∀ id rule, d.stores.rulesDb.get? id = some rule →
      id ∉ (serve d c).2.stores.rulesDb →
      StaysOnlyIfFailed d c internetPort rule.tcHandleFwd rule.priority ∧
        StaysOnlyIfFailed d c clientPort rule.tcHandleRev rule.priority) ↔
      ReverseReached d c := by
  constructor
  · intro h e he
    obtain ⟨hget, hgone⟩ := (dropped_iff hc hin).mpr he
    exact (reverse_staysOnlyIfFailed_iff hc hin).mp (h e.1 e.2 hget hgone).2
  · intro h id rule hget hgone
    have he := (dropped_iff hc hin).mp ⟨hget, hgone⟩
    exact ⟨forward_staysOnlyIfFailed hc hin he,
      (reverse_staysOnlyIfFailed_iff (e := (id, rule)) hc hin).mpr (h (id, rule) he)⟩

/-- A tenant with one rule, of whose filters the handles were listed. -/
def ruleInstalled : List Call :=
  [sampleTenant "a",
    { sampleCall (.addRule (sampleRule port80 none)) "a" firstId with
      replies := fun _ => .exit 0 "handle 0x1" "" 1 }]

/-- The deletion of the rule, when the forward filter is deleted and the reverse one is not. -/
def reverseDeletionFails : Call :=
  { sampleCall (.deleteRule firstId.val) "a" secondId with
    replies := fun i => if i = 1 then .exit 2 "" "" 0 else .exit 0 "" "" 0 }

theorem both_directions_removed_iff_reverseFails :
    (∀ i, ¬ (reverseDeletionFails.replies i).timesOut) ∧
    ReverseReached (daemon.run ruleInstalled) reverseDeletionFails ∧
    ∀ id rule, (daemon.run ruleInstalled).stores.rulesDb.get? id = some rule →
      id ∉ (serve (daemon.run ruleInstalled) reverseDeletionFails).2.stores.rulesDb →
      StaysOnlyIfFailed (daemon.run ruleInstalled) reverseDeletionFails internetPort
        rule.tcHandleFwd rule.priority ∧
      StaysOnlyIfFailed (daemon.run ruleInstalled) reverseDeletionFails clientPort
        rule.tcHandleRev rule.priority := by
  have hin : ∀ i, ¬ (reverseDeletionFails.replies i).timesOut := by
    intro i
    unfold reverseDeletionFails
    dsimp only
    split
    · decide
    · decide
  have hreached : ReverseReached (daemon.run ruleInstalled) reverseDeletionFails := by
    decide +kernel
  exact ⟨hin, hreached, (both_directions_removed_iff (daemon.run ruleInstalled)
    reverseDeletionFails trivial hin).mpr hreached⟩

/-- The same deletion, when the forward filter is not deleted. -/
def forwardDeletionFails : Call :=
  { sampleCall (.deleteRule firstId.val) "a" secondId with
    replies := fun _ => .exit 2 "" "" 0 }

/-- The reverse filter of the rule. -/
def reverseOfRule : Filter := reverseFilter (sampleRule port80 none) 1

/-- **A reverse filter nobody asked to delete**: the rule is gone, its reverse filter is still
there, and the only command issued was the one for the forward filter. -/
theorem reverse_filter_left :
    firstId.val ∉ (serve (daemon.run ruleInstalled) forwardDeletionFails).2.stores.rulesDb ∧
    reverseOfRule ∈
      (serve (daemon.run ruleInstalled) forwardDeletionFails).2.kernel.filters clientPort ∧
    issuedBy (daemon.run ruleInstalled) forwardDeletionFails
      = [(delFilterCmd internetPort "100" "0x1", .exit 2 "" "" 0)] ∧
    ¬ ∀ id rule, (daemon.run ruleInstalled).stores.rulesDb.get? id = some rule →
      id ∉ (serve (daemon.run ruleInstalled) forwardDeletionFails).2.stores.rulesDb →
      StaysOnlyIfFailed (daemon.run ruleInstalled) forwardDeletionFails internetPort
        rule.tcHandleFwd rule.priority ∧
      StaysOnlyIfFailed (daemon.run ruleInstalled) forwardDeletionFails clientPort
        rule.tcHandleRev rule.priority := by
  have hgone : firstId.val ∉
      (serve (daemon.run ruleInstalled) forwardDeletionFails).2.stores.rulesDb := by
    decide +kernel
  have hleft : reverseOfRule ∈
      (serve (daemon.run ruleInstalled) forwardDeletionFails).2.kernel.filters clientPort := by
    decide +kernel
  have hissued : issuedBy (daemon.run ruleInstalled) forwardDeletionFails
      = [(delFilterCmd internetPort "100" "0x1", .exit 2 "" "" 0)] := by decide +kernel
  have hrule : ∃ rule, (daemon.run ruleInstalled).stores.rulesDb.get? firstId.val = some rule ∧
      rule.priority = 100 ∧ rule.tcHandleRev = some "0x1" :=
    ⟨newRule firstId "a" (sampleRule port80 none) ("0x1", "0x1", false), by decide +kernel, rfl, rfl⟩
  refine ⟨hgone, hleft, hissued, fun h => ?_⟩
  obtain ⟨rule, hget, hpriority, hhandle⟩ := hrule
  have hstays := (h firstId.val rule hget hgone).2 reverseOfRule hleft (by decide)
  rw [hpriority, hhandle] at hstays
  obtain ⟨reply, hp, -⟩ := hstays (by decide) (by decide)
  rw [hissued, List.mem_singleton, Prod.mk.injEq, delFilterCmd_inj] at hp
  exact absurd hp.1.1 (by decide)

end PrismFirewall.TcFirewall
