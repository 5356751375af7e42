import PrismFirewall.TcFirewall.Requests

/-!
# Rules in the NAT band

NAT filters live at one preference, and `remove_nat` empties that preference on the
port of the entry before it adds the surviving entries again.  A rule may ask for
any preference, this one included, and then its filter goes with the band.

`natWork` is the part of a request that works on NAT entries, `LiveFilter` is a
filter that `add_rule` installed for a rule that is still stored, and `Empties` tells
the ports from which entries are removed.  `nat_requests_keep_rules_iff` says that
the filters of rules survive exactly if none of them is in a band that is emptied.
-/

namespace PrismFirewall.TcFirewall

open Lib

/-! ### The filters of rules -/

/-- The keys of a rule come before its action. -/
theorem firstAction_flowerKeys (srcIp dstIp : Option String) (srcPort dstPort : Option Nat)
    (protocol : String) (action : List String) :
    firstAction (flowerKeys srcIp dstIp srcPort dstPort protocol ++ action)
      = firstAction action := by
  refine walk_flowerKeys (fun key value rest hkey => ?_) srcIp dstIp srcPort dstPort protocol action
  rw [firstAction]
  exact fun h => hkey h

theorem isNat_forwardFilter (request : FirewallRuleRequest) (handle : Nat) :
    (forwardFilter request handle).isNat = false := by
  unfold Filter.isNat forwardFilter
  rw [firstAction_flowerKeys]
  cases request.action <;> decide

theorem isNat_reverseFilter (request : FirewallRuleRequest) (handle : Nat) :
    (reverseFilter request handle).isNat = false := by
  unfold Filter.isNat reverseFilter
  rw [firstAction_flowerKeys]
  cases request.action <;> decide

/-- What `add_rule` adds is one of the two filters of the request. -/
theorem Adds.isNat_eq_false {d : Daemon} {c : Call} {request : FirewallRuleRequest}
    {rule : FirewallRule} {dev : String} {f : Filter} (hc : c.request = .addRule request)
    (h : Adds d c rule dev f) : f.isNat = false := by
  obtain ⟨hr, hk⟩ := h
  refine serve_of_wp (d := d) (c := c) (P := fun r d' => r = ⟨201, .rule rule⟩ →
    d'.kernel.filters dev = d.kernel.filters dev ++ [f] → f.isNat = false) ?_ hr hk
  unfold handler
  rw [hc]
  refine wp_mono wp_addRule ?_ ?_
  · intro r s h hr hk
    obtain ⟨t, -, ⟨existing, -, rfl, -⟩ | ⟨-, -, -, installed, -, hadded, -⟩⟩ := h
    · cases hr
    · obtain ⟨handle, handle', hi, hcl⟩ := hadded
      unfold Kernel.filters at hk
      split at hk
      · rw [hi] at hk
        have hf := List.append_cancel_left hk
        rw [← List.singleton_inj.mp hf]
        exact isNat_forwardFilter request handle
      · split at hk
        · rw [hcl] at hk
          have hf := List.append_cancel_left hk
          rw [← List.singleton_inj.mp hf]
          exact isNat_reverseFilter request handle'
        · simp at hk
  · intro e s h hr
    obtain ⟨he, -⟩ := h
    rw [hr] at he
    simp at he

/-- The filter was installed by `add_rule` in the course of the calls, for a rule that
is still stored. -/
def LiveFilter (calls : List Call) (s : Stores) (dev : String) (f : Filter) : Prop :=
  ∃ l₁ c l₂ request rule, calls = l₁ ++ c :: l₂ ∧ c.request = .addRule request ∧
    Adds (daemon.run l₁) c rule dev f ∧ s.rulesDb.get? rule.id = some rule

theorem LiveFilter.isNat_eq_false {calls : List Call} {s : Stores} {dev : String} {f : Filter}
    (h : LiveFilter calls s dev f) : f.isNat = false := by
  obtain ⟨l₁, c, l₂, request, rule, -, hc, hadds, -⟩ := h
  exact hadds.isNat_eq_false hc

/-! ### The NAT part of a request -/

/-- Where a program ends. -/
def finalSession {α : Type} : EStateM.Result Exc Session α → Session
  | .ok _ s => s
  | .error _ s => s

/-- The session before and after the part of a request that works on NAT entries.
For the deletion of a tenant this part begins when the rules of the tenant are gone. -/
def natWork (d : Daemon) (c : Call) : Option (Session × Session) :=
  match c.request with
  | .addSnatRule _ | .addDnatRule _ | .addPortForwardRule _ | .deleteNatRule _
  | .flushNatRules => some (c.session d, finalSession (handler c (c.session d)))
  | .deleteTenant tenantId =>
    if tenantId ∈ d.stores.tenants then
      match flushRuleIds (tenantRuleIds d.stores tenantId) (c.session d) with
      | .ok _ s => some (s, finalSession (flushNatIds (tenantNatIds s.stores tenantId) s))
      | .error _ _ => none
    else none
  | _ => none

/-- The ports from which the request removes NAT entries. -/
def Empties (s : Stores) (c : Call) (dev : String) : Prop :=
  match c.request with
  | .deleteNatRule ruleId => ∃ t e entry, DeletesNat s c.tenantHeader ruleId t e ∧
      s.natDb.get? ruleId = some entry ∧ entry.port = dev
  | .flushNatRules => ∃ t, IsTenant s c.tenantHeader t ∧ dev ∈ natPorts s (tenantNatIds s t)
  | .deleteTenant tenantId => dev ∈ natPorts s (tenantNatIds s tenantId)
  | _ => False

/-! ### Creations -/

/-- Every filter but those of NAT entries is as it was. -/
def OutsideKept (s s' : Session) : Prop := NatChange [] s.tc.kernel s'.tc.kernel

theorem OutsideKept.refl (s : Session) : OutsideKept s s := NatChange.refl _

theorem OutsideKept.trans (s s' s'' : Session) (h : OutsideKept s s') (h' : OutsideKept s' s'') :
    OutsideKept s s'' := NatChange.trans h h'

theorem outsideKept_runTc {args : List String} (check : Bool)
    (h : ∀ (k : Kernel) handle, NatChange [] k (k.exec handle args)) :
    Keeps (fun t t' => NatChange [] t.kernel t'.kernel) (runTc args check) := by
  intro t
  have hafter : NatChange [] t.kernel (t.after args).kernel := by
    simp only [TcState.after]
    split
    · split
      · exact h _ _
      · exact .refl _
    · exact .refl _
  rw [wp_runTc]
  cases t.replies t.issued.length with
  | timeout => exact hafter
  | exit returncode stdout stderr handle =>
    dsimp only
    split
    · exact hafter
    · exact hafter

/-- Installing a NAT filter keeps every other one, also when it fails. -/
theorem outsideKept_installNat (port : String) {cmd : List String}
    (hcmd : ∀ (k : Kernel) handle, NatChange [] k (k.exec handle cmd)) :
    Keeps OutsideKept (tc (installNat port cmd)) := by
  have hr : ∀ t : TcState, NatChange [] t.kernel t.kernel := fun _ => .refl _
  have ht : ∀ t t' t'' : TcState, NatChange [] t.kernel t'.kernel →
      NatChange [] t'.kernel t''.kernel → NatChange [] t.kernel t''.kernel :=
    fun _ _ _ h h' => h.trans h'
  have hshow : ∀ dev priority, Keeps (fun t t' => NatChange [] t.kernel t'.kernel)
      (runTc (showCmd dev priority) false) :=
    fun dev priority => outsideKept_runTc false (fun k _ => NatChange.refl k)
  have hinstall : Keeps (fun t t' => NatChange [] t.kernel t'.kernel) (installNat port cmd) := by
    refine Keeps.bind ht (outsideKept_runTc true hcmd) (fun _ => ?_)
    refine Keeps.bind ht (Keeps.bind ht (hshow _ _) (fun result => ?_)) (fun handle => ?_)
    · split
      · exact Keeps.pure hr _
      · exact Keeps.pure hr _
    · refine Keeps.bind ht (hshow _ _) (fun result => ?_)
      split
      · exact Keeps.pure hr _
      · exact Keeps.pure hr _
  intro s
  rw [wp_tc]
  exact hinstall s.tc

theorem outsideKept_addNat (newId : ShortId) (sig port : String) {cmd : List String}
    (hcmd : ∀ (k : Kernel) handle, NatChange [] k (k.exec handle cmd))
    (entry : Bool → NATEntry) : Keeps OutsideKept (addNat newId sig port cmd entry) :=
  Keeps.bind OutsideKept.trans (outsideKept_installNat port hcmd)
    (fun _ => Keeps.bind OutsideKept.trans (fun s => OutsideKept.refl s)
      (fun _ => Keeps.pure OutsideKept.refl _))

theorem outsideKept_addSnat (newId : ShortId) (privateIp publicIp mode : String) :
    Keeps OutsideKept (addSnat newId privateIp publicIp mode) := by
  unfold addSnat
  split
  · exact Keeps.throw OutsideKept.refl _
  · intro s
    simp only [wp_bind, wp_getStores]
    split
    · exact OutsideKept.refl s
    · split
      · exact OutsideKept.refl s
      · exact outsideKept_addNat _ _ _ (fun _ _ => natChange_snatCmd _ _) _ s

theorem outsideKept_addPortNat (natType : NatType) {cmd : List String}
    (hcmd : ∀ (k : Kernel) handle, NatChange [] k (k.exec handle cmd)) (newId : ShortId)
    (publicIp : String) (publicPort : Nat) (privateIp : String) (privatePort : Nat)
    (protocol : String) :
    Keeps OutsideKept
      (addPortNat natType cmd newId publicIp publicPort privateIp privatePort protocol) := by
  intro s
  unfold addPortNat
  simp only [wp_bind, wp_getStores]
  split
  · exact OutsideKept.refl s
  · exact outsideKept_addNat _ _ _ hcmd _ s

theorem outsideKept_addNatRule {header client : Option String} {natType : NatType}
    {add : DaemonM NATEntry} {details : List (String × AuditValue)} (hadd : Keeps OutsideKept add) :
    Keeps OutsideKept (addNatRule header client natType add details) := by
  have htenant : Keeps OutsideKept (getTenantId header) := by
    intro s
    refine wp_mono wp_getTenantId ?_ ?_
    · intro _ s' h
      rw [h.1]
      exact OutsideKept.refl s
    · intro _ s' h
      rw [h.1]
      exact OutsideKept.refl s
  refine Keeps.bind OutsideKept.trans htenant (fun tenantId => ?_)
  intro s
  simp only [wp_bind, wp_getStores, wp_item]
  cases s.stores.tenants.get? tenantId with
  | none => exact OutsideKept.refl s
  | some config =>
    dsimp only
    split
    · exact OutsideKept.refl s
    · refine Keeps.bind OutsideKept.trans (keeps_catchTcError OutsideKept.trans hadd
        (fun _ => Keeps.throw OutsideKept.refl _)) (fun entry => ?_) s
      intro s'
      exact OutsideKept.refl s'

/-- **A creation keeps the filters of every rule**, whatever its commands answer. -/
theorem outsideKept_natCreation {c : Call} {template : NATEntry}
    (h : c.request.natTemplate c.newId = some template) : Keeps OutsideKept (handler c) := by
  unfold handler
  cases hr : c.request with
  | addSnatRule r => exact outsideKept_addNatRule (outsideKept_addSnat _ _ _ _)
  | addDnatRule r =>
    exact outsideKept_addNatRule (outsideKept_addPortNat _ (fun _ _ => natChange_dnatCmd _ _ _ _)
      _ _ _ _ _ _)
  | addPortForwardRule r =>
    exact outsideKept_addNatRule (outsideKept_addPortNat _
      (fun _ _ => natChange_forwardCmd _ _ _ _ _) _ _ _ _ _ _)
  | _ => simp [hr, Request.natTemplate] at h

/-! ### One request -/

theorem finalSession_of_wp {α : Type} {m : DaemonM α} {s : Session} {P : Session → Prop}
    (h : wp m s (fun _ s' => P s') (fun _ s' => P s')) : P (finalSession (m s)) := by
  unfold wp at h
  cases hm : m s with
  | ok a s' => rw [hm] at h; exact h
  | error e s' => rw [hm] at h; exact h

theorem kernel_serve (d : Daemon) (c : Call) :
    (serve d c).2.kernel = (finalSession (handler c (c.session d))).tc.kernel := by
  unfold serve
  cases handler c (c.session d) <;> rfl

/-- The requests with a NAT part: for a tenant it lies between the removal of its rules
and the end, for the others it is the whole request. -/
theorem natWork_cases {d : Daemon} {c : Call} {s s' : Session}
    (h : natWork d c = some (s, s')) :
    (s = c.session d ∧ s' = finalSession (handler c (c.session d)) ∧
      ((∃ template, c.request.natTemplate c.newId = some template) ∨
        (∃ ruleId, c.request = .deleteNatRule ruleId) ∨ c.request = .flushNatRules)) ∨
    ∃ tenantId, c.request = .deleteTenant tenantId ∧ tenantId ∈ d.stores.tenants ∧
      flushRuleIds (tenantRuleIds d.stores tenantId) (c.session d) = .ok () s ∧
      s' = finalSession (flushNatIds (tenantNatIds s.stores tenantId) s) := by
  unfold natWork at h
  cases hr : c.request with
  | addSnatRule r | addDnatRule r | addPortForwardRule r =>
    simp only [hr, Option.some.injEq, Prod.mk.injEq] at h
    exact Or.inl ⟨h.1.symm, h.2.symm, Or.inl ⟨_, rfl⟩⟩
  | deleteNatRule ruleId =>
    simp only [hr, Option.some.injEq, Prod.mk.injEq] at h
    exact Or.inl ⟨h.1.symm, h.2.symm, Or.inr (Or.inl ⟨ruleId, rfl⟩)⟩
  | flushNatRules =>
    simp only [hr, Option.some.injEq, Prod.mk.injEq] at h
    exact Or.inl ⟨h.1.symm, h.2.symm, Or.inr (Or.inr rfl)⟩
  | deleteTenant tenantId =>
    simp only [hr] at h
    split at h
    · rename_i ht
      split at h
      · rename_i hflush
        simp only [Option.some.injEq, Prod.mk.injEq] at h
        obtain ⟨rfl, rfl⟩ := h
        exact Or.inr ⟨tenantId, rfl, ht, hflush, rfl⟩
      · cases h
    · cases h
  | _ => simp [hr] at h

/-- The NAT part ends with the tables that the request ends with. -/
theorem natWork_kernel {d : Daemon} {c : Call} {s s' : Session}
    (h : natWork d c = some (s, s')) : (serve d c).2.kernel = s'.tc.kernel := by
  rw [kernel_serve]
  rcases natWork_cases h with ⟨-, rfl, -⟩ | ⟨tenantId, hr, ht, hflush, rfl⟩
  · rfl
  · refine finalSession_of_wp (P := fun s₂ => s₂.tc.kernel = _) ?_
    unfold handler
    simp only [hr, deleteTenant, wp_bind, wp_getStores]
    rw [if_neg (not_not.mpr (show tenantId ∈ (c.session d).stores.tenants from ht))]
    simp only [wp_bind, wp_getStores]
    rw [wp_of_ok (show flushRuleIds (tenantRuleIds (c.session d).stores tenantId)
      (c.session d) = _ from hflush)]
    cases hnat : flushNatIds (tenantNatIds s.stores tenantId) s with
    | ok _ s₂ =>
      rw [wp_of_ok hnat]
      exact rfl
    | error e s₂ =>
      have hw := wp_flushNatIds (tenantNatIds s.stores tenantId) s
      rw [wp, hnat] at hw
      exact hw.elim

/-- What the NAT part does to the filters that are not its own: the bands of the ports
it removes entries from are emptied. -/
def BandsEmptied (c : Call) (s s' : Session) : Prop :=
  ∃ ports, (∀ dev, dev ∈ ports ↔ Empties s.stores c dev) ∧
    NatChange ports s.tc.kernel s'.tc.kernel

theorem bandsEmptied_natCreation {c : Call} {template : NATEntry}
    (h : c.request.natTemplate c.newId = some template) {s : Session} :
    wp (handler c) s (fun _ s' => BandsEmptied c s s') (fun _ s' => BandsEmptied c s s') := by
  have hnone : ∀ dev, ¬ Empties s.stores c dev := by
    intro dev
    unfold Empties
    cases hr : c.request <;> simp [hr, Request.natTemplate] at h ⊢
  have hkept : ∀ s', OutsideKept s s' → BandsEmptied c s s' :=
    fun s' hs' => ⟨[], fun dev => by simp [hnone dev], hs'⟩
  exact wp_mono (outsideKept_natCreation h s) (fun _ s' hs' => hkept s' hs')
    (fun _ s' hs' => hkept s' hs')

theorem bandsEmptied_deleteNatRule {c : Call} {ruleId : String}
    (hr : c.request = .deleteNatRule ruleId) {s : Session} (hall : s.tc.AllSucceed) :
    wp (handler c) s (fun _ s' => BandsEmptied c s s') (fun _ s' => BandsEmptied c s s') := by
  unfold handler BandsEmptied Empties
  rw [hr]
  refine wp_mono wp_deleteNatRule ?_ ?_
  · intro _ s' h
    obtain ⟨⟨t, e, hdel, -⟩, hmem, -, hk⟩ := h
    obtain ⟨entry, he⟩ := Dict.mem_iff_get?.mp hmem
    refine ⟨[entry.port], fun dev => ?_, hk entry he hall⟩
    rw [List.mem_singleton]
    constructor
    · intro hdev
      exact ⟨t, e, entry, hdel, he, hdev.symm⟩
    · intro h
      obtain ⟨_, _, entry', -, he', hdev⟩ := h
      rw [← hdev, Option.some.inj (he.symm.trans he')]
  · intro _ s' h
    rcases h with ⟨rfl, hno⟩ | ⟨-, -, hlate, -⟩
    · refine ⟨[], fun dev => ?_, .refl _⟩
      simp only [List.not_mem_nil, false_iff]
      intro h
      obtain ⟨t, e, entry, hdel, he, -⟩ := h
      exact hno ⟨t, e, hdel⟩ (Dict.mem_of_get? he)
    · exact absurd (fun _ _ i _ => hall.not_timesOut i) hlate

theorem bandsEmptied_flushNatRules {c : Call} (hr : c.request = .flushNatRules) {s : Session}
    (hall : s.tc.AllSucceed) :
    wp (handler c) s (fun _ s' => BandsEmptied c s s') (fun _ s' => BandsEmptied c s s') := by
  unfold handler BandsEmptied Empties
  rw [hr]
  refine wp_mono wp_flushNatRules ?_ ?_
  · intro _ s' h
    obtain ⟨t, s'', ht, -, -, hk⟩ := h
    refine ⟨_, fun dev => ?_, hk hall⟩
    constructor
    · exact fun hdev => ⟨t, ht, hdev⟩
    · intro h
      obtain ⟨t', ht', hdev⟩ := h
      rwa [ht'.eq ht]
  · intro _ s' h
    obtain ⟨rfl, hno⟩ := h
    refine ⟨[], fun dev => ?_, .refl _⟩
    simp only [List.not_mem_nil, false_iff]
    intro h
    obtain ⟨t, ht, -⟩ := h
    exact hno t ht

/-- The loop over the NAT entries of a deleted tenant. -/
theorem bandsEmptied_flushNatIds {c : Call} {tenantId : String}
    (hr : c.request = .deleteTenant tenantId) {s : Session} (hall : s.tc.AllSucceed) :
    wp (flushNatIds (tenantNatIds s.stores tenantId)) s (fun _ s' => BandsEmptied c s s')
      (fun _ s' => BandsEmptied c s s') := by
  unfold BandsEmptied Empties
  rw [hr]
  refine wp_mono (wp_flushNatIds _ s) ?_ (fun _ _ hf => hf.elim)
  intro _ s' h
  exact ⟨_, fun _ => Iff.rfl, h.2 hall⟩

/-- **The NAT part of every request** empties the bands of the ports it removes
entries from and keeps every other filter of a rule. -/
theorem bandsEmptied_natWork {d : Daemon} {c : Call} {s s' : Session}
    (h : natWork d c = some (s, s')) (hall : ∀ i, (c.replies i).succeeds = true) :
    BandsEmptied c s s' := by
  have hsession : (c.session d).tc.AllSucceed := hall
  rcases natWork_cases h with ⟨rfl, rfl, ⟨template, hr⟩ | ⟨ruleId, hr⟩ | hr⟩ |
    ⟨tenantId, hr, -, hflush, rfl⟩
  · exact finalSession_of_wp (bandsEmptied_natCreation hr)
  · exact finalSession_of_wp (bandsEmptied_deleteNatRule hr hsession)
  · exact finalSession_of_wp (bandsEmptied_flushNatRules hr hsession)
  · -- the rules of the tenant are gone and the answers are still to come
    have hw := wp_flushRuleIds (tenantRuleIds d.stores tenantId) (c.session d)
    rw [wp_of_ok hflush] at hw
    have hall' : s.tc.AllSucceed := by
      intro i
      rw [hw.2]
      exact hall i
    exact finalSession_of_wp (bandsEmptied_flushNatIds hr hall')

/-- **NAT requests and the filters of rules.**  After any calls, a NAT request (or the
NAT part of the deletion of a tenant) all of whose commands succeed leaves the filters
of stored rules as they are exactly if none of them is in the NAT band of a port from
which the request removes an entry. -/
theorem nat_requests_keep_rules_iff (calls : List Call) (c : Call) (s s' : Session)
    (h : natWork (daemon.run calls) c = some (s, s'))
    (hall : ∀ i, (c.replies i).succeeds = true) :
    (serve (daemon.run calls) c).2.kernel = s'.tc.kernel ∧
    ((∀ dev f, LiveFilter calls s.stores dev f →
        (s'.tc.kernel.filters dev).count f = (s.tc.kernel.filters dev).count f) ↔
      ∀ dev f, LiveFilter calls s.stores dev f → f.prio = toString natPriority →
        Empties s.stores c dev → f ∉ s.tc.kernel.filters dev) := by
  refine ⟨natWork_kernel h, ?_⟩
  obtain ⟨ports, hports, hchange⟩ := bandsEmptied_natWork h hall
  constructor
  · intro hkept dev f hf hprio hdev
    have hcount := hchange dev f hf.isNat_eq_false
    rw [if_pos ⟨(hports dev).mpr hdev, hprio⟩, hkept dev f hf] at hcount
    exact List.count_eq_zero.mp hcount
  · intro hout dev f hf
    rw [hchange dev f hf.isNat_eq_false]
    split
    · rename_i hband
      exact (List.count_eq_zero.mpr (hout dev f hf hband.2 ((hports dev).mp hband.1))).symm
    · rfl

/-- Allow TCP to port 80 at a preference. -/
def ruleAt (priority : Field16) : FirewallRuleRequest :=
  { sampleRule port80 none with priority := priority }

/-- A tenant with a rule at the preference and a source NAT entry. -/
def ruleAndEntry (priority : Field16) : List Call :=
  [sampleTenant "a", sampleCall (.addRule (ruleAt priority)) "a" secondId,
    sampleCall (.addSnatRule ⟨"10.0.0.5", "203.0.113.7", snatModeStatic, none⟩) "a" firstId]

def entryDeleted : Call := sampleCall (.deleteNatRule firstId.val) "a" secondId

/-- A rule outside the band keeps its filters when the entry is deleted. -/
theorem nat_requests_keep_rules_iff_outsideBand :
    let d := daemon.run (ruleAndEntry port80)
    (∀ i, (entryDeleted.replies i).succeeds = true) ∧
    ∀ dev f, LiveFilter (ruleAndEntry port80) d.stores dev f →
      ((serve d entryDeleted).2.kernel.filters dev).count f = (d.kernel.filters dev).count f := by
  intro d
  have hall : ∀ i, (entryDeleted.replies i).succeeds = true := fun _ => rfl
  obtain ⟨hkernel, hiff⟩ := nat_requests_keep_rules_iff (ruleAndEntry port80) entryDeleted
    (entryDeleted.session d) (finalSession (handler entryDeleted (entryDeleted.session d))) rfl hall
  refine ⟨hall, ?_⟩
  rw [hkernel]
  refine hiff.mpr ?_
  intro dev f hf hprio _ hmem
  -- the only filter of the band is that of the entry
  have hband : ∀ g ∈ d.kernel.internet ++ d.kernel.client, g.prio = toString natPriority →
      g.isNat = true := by decide +kernel
  have hmem' : f ∈ d.kernel.internet ++ d.kernel.client := by
    change f ∈ d.kernel.filters dev at hmem
    unfold Kernel.filters at hmem
    split at hmem
    · exact List.mem_append_left _ hmem
    · split at hmem
      · exact List.mem_append_right _ hmem
      · cases hmem
  have hnat := hband f hmem' hprio
  rw [hf.isNat_eq_false] at hnat
  cases hnat

/-- The preference of the NAT band, as a rule may ask for it. -/
def bandPriority : Field16 := ⟨natPriority, by decide, by decide⟩

/-- **A rule loses its filter**: the rule at the preference of the band is stored and
its filter is on the client port, the NAT entry is deleted with every command
succeeding, and the filter is gone. -/
theorem rule_filter_lost :
    let d := daemon.run (ruleAndEntry bandPriority)
    let f := reverseFilter (ruleAt bandPriority) 1
    (∀ i, (entryDeleted.replies i).succeeds = true) ∧
    LiveFilter (ruleAndEntry bandPriority) d.stores clientPort f ∧
    (d.kernel.filters clientPort).count f = 1 ∧
    ((serve d entryDeleted).2.kernel.filters clientPort).count f = 0 := by
  intro d f
  refine ⟨fun _ => rfl, ⟨[sampleTenant "a"], _, _, ruleAt bandPriority,
    newRule secondId "a" (ruleAt bandPriority) ("", "", false), rfl, rfl, ?_, ?_⟩, ?_, ?_⟩
  · decide +kernel
  · decide +kernel
  · decide +kernel
  · decide +kernel

end PrismFirewall.TcFirewall
