import PrismFirewall.TcFirewall.NatRebuild
import PrismFirewall.TcFirewall.RuleRemoval

/-!
# The kernel as the image of the stores

Each port has one list of filters, and the daemon writes to it from two sides: rules have two
filters each, one a port, and a NAT entry has one, in the NAT band.  `ruleFilters` and
`natBand` are the two parts of a list, told apart by the preference.

`Mirrors` says that the kernel is the image of the stores: outside the band stand the filters
of the stored rules, with the handles that were recorded for them (`Shows`), and in the band
those of the stored NAT entries; there are no others, and the order is that of the stores.

The lemmas below say what a rule or an entry that comes or goes does to the image, as long as
every command succeeds.
-/

namespace PrismFirewall.TcFirewall

open Lib

/-! ### The two parts of a filter list -/

/-- The filters outside the NAT band, in their order. -/
def ruleFilters (k : Kernel) (dev : String) : List Filter :=
  (k.filters dev).filter (fun f => f.prio != toString natPriority)

/-- A filter as tc lists it. -/
structure Listed where
  prio : String
  handle : String
  spec : List String
  deriving DecidableEq

def Filter.listed (f : Filter) : Listed := ⟨f.prio, f.handleText, f.spec⟩

/-- The command leaves the filters outside the band. -/
def KeepsRuleFilters (cmd : List String) : Prop :=
  ∀ k handle dev, ruleFilters (Kernel.exec k handle cmd) dev = ruleFilters k dev

/-- The command leaves the band. -/
def KeepsBand (cmd : List String) : Prop :=
  ∀ k handle dev, natBand (Kernel.exec k handle cmd) dev = natBand k dev

theorem keepsRuleFilters_addPrefix (port : String) (spec : List String) :
    KeepsRuleFilters (addPrefix port ++ spec) := by
  intro k handle dev
  show ruleFilters (k.modifyDev port (fun l => l ++ [⟨toString natPriority, handle, spec⟩])) dev = _
  unfold ruleFilters
  rw [Kernel.filters_modifyDev]
  split
  · rw [List.filter_append]
    simp
  · rfl

theorem keepsRuleFilters_addCommand (e : NATEntry) : KeepsRuleFilters e.addCommand := by
  rw [NATEntry.addCommand_eq]
  exact keepsRuleFilters_addPrefix _ _

theorem keepsRuleFilters_delCommand (port : String) : KeepsRuleFilters (delCommand port) := by
  intro k handle dev
  show ruleFilters (k.modifyDev port (fun l => l.filter (fun f => f.prio != toString natPriority)))
    dev = _
  unfold ruleFilters
  rw [Kernel.filters_modifyDev]
  split
  · rw [List.filter_filter]
    simp only [Bool.and_self]
  · rfl

theorem keepsRuleFilters_showCmd (dev : String) (priority : Nat) :
    KeepsRuleFilters (showCmd dev priority) := fun _ _ _ => rfl

/-- Commands that leave the filters outside the band, one after the other. -/
theorem ruleFilters_afterAll {cmds : List (List String)} (h : ∀ cmd ∈ cmds, KeepsRuleFilters cmd)
    (t : TcState) (dev : String) :
    ruleFilters (t.afterAll cmds).kernel dev = ruleFilters t.kernel dev := by
  induction cmds generalizing t with
  | nil => rfl
  | cons cmd cmds ih =>
    obtain ⟨handle, hk⟩ := t.kernel_after cmd
    show ruleFilters ((t.after cmd).afterAll cmds).kernel dev = _
    rw [ih (fun c hc => h c (List.mem_cons_of_mem _ hc)), hk]
    split
    · exact h cmd List.mem_cons_self _ _ _
    · rfl

/-- A new filter outside the band joins the others there. -/
theorem ruleFilters_append {k : Kernel} {dev : String} (hdev : IsPort dev) {f : Filter}
    (hf : f.prio ≠ toString natPriority) (dev' : String) :
    ruleFilters (k.modifyDev dev (fun l => l ++ [f])) dev'
      = ruleFilters k dev' ++ if dev' = dev then [f] else [] := by
  unfold ruleFilters
  rw [Kernel.filters_modifyDev]
  have hkept : [f].filter (fun f => f.prio != toString natPriority) = [f] :=
    List.filter_cons_of_pos (bne_iff_ne.mpr hf)
  by_cases h : dev' = dev
  · rw [if_pos ⟨h, h ▸ hdev⟩, if_pos h, List.filter_append, hkept]
  · rw [if_neg (fun h' => h h'.1), if_neg h, List.append_nil]

theorem natBand_append (k : Kernel) (dev : String) {f : Filter}
    (hf : f.prio ≠ toString natPriority) (dev' : String) :
    natBand (k.modifyDev dev (fun l => l ++ [f])) dev' = natBand k dev' := by
  unfold natBand
  rw [Kernel.filters_modifyDev]
  have hout : [f].filter (fun f => f.prio == toString natPriority) = [] :=
    List.filter_cons_of_neg (by rw [beq_iff_eq]; exact hf)
  split
  · rw [List.filter_append, hout, List.append_nil]
  · rfl

/-- A deletion outside the band, by preference and handle. -/
theorem ruleFilters_delFilterCmd {k : Kernel} (handle : Nat) {dev : String} (hdev : IsPort dev)
    (prio text dev' : String) : ruleFilters (k.exec handle (delFilterCmd dev prio text)) dev'
      = if dev' = dev then deleteAt (ruleFilters k dev') prio text else ruleFilters k dev' := by
  show ruleFilters (k.modifyDev dev (fun l => deleteAt l prio text)) dev' = _
  unfold ruleFilters
  rw [Kernel.filters_modifyDev]
  by_cases h : dev' = dev
  · rw [if_pos ⟨h, h ▸ hdev⟩, if_pos h]
    unfold deleteAt
    rw [List.filter_filter, List.filter_filter]
    congr 1
    funext f
    exact Bool.and_comm _ _
  · rw [if_neg (fun h' => h h'.1), if_neg h]

theorem keepsBand_delFilterCmd (dev text : String) {prio : String}
    (hprio : prio ≠ toString natPriority) : KeepsBand (delFilterCmd dev prio text) := by
  intro k handle dev'
  show natBand (k.modifyDev dev (fun l => deleteAt l prio text)) dev' = _
  unfold natBand
  rw [Kernel.filters_modifyDev]
  split
  · unfold deleteAt
    rw [List.filter_filter]
    congr 1
    refine List.filter_congr (fun f _ => ?_)
    by_cases hf : f.prio = toString natPriority
    · have hne : (f.prio == prio) = false := beq_eq_false_iff_ne.mpr (fun h => hprio (h ▸ hf))
      rw [hne, Bool.false_and, Bool.not_false, Bool.and_true]
    · rw [beq_eq_false_iff_ne.mpr hf, Bool.false_and]
  · rfl

/-! ### The filters of rules -/

/-- The filter that is recorded for a rule on the internet port. -/
def FirewallRule.forward (rule : FirewallRule) : Listed where
  prio := toString rule.priority
  handle := rule.tcHandleFwd.getD ""
  spec := flowerKeys rule.srcIp rule.dstIp rule.srcPort rule.dstPort (protoStr rule.protocol)
    ++ forwardAction rule.action

/-- The filter that is recorded for a rule on the client port. -/
def FirewallRule.reverse (rule : FirewallRule) : Listed where
  prio := toString rule.priority
  handle := rule.tcHandleRev.getD ""
  spec := flowerKeys rule.dstIp rule.srcIp rule.dstPort rule.srcPort (protoStr rule.protocol)
    ++ reverseAction rule.action

/-- What a deletion goes by. -/
def Listed.place (x : Listed) : String × String := (x.prio, x.handle)

/-- The filters are those of the rules, and their places tell them apart. -/
structure Shows (l : List Filter) (part : FirewallRule → Listed)
    (rules : Dict String FirewallRule) : Prop where
  listed : l.map Filter.listed = rules.values.map part
  apart : (rules.values.map (fun rule => (part rule).place)).Nodup

section Shows

variable {l : List Filter} {part : FirewallRule → Listed} {rules : Dict String FirewallRule}

theorem Shows.exists_filter (h : Shows l part rules) {rule : FirewallRule}
    (hr : rule ∈ rules.values) : ∃ f ∈ l, f.listed = part rule := by
  have hmem : part rule ∈ l.map Filter.listed := by
    rw [h.listed]
    exact List.mem_map_of_mem hr
  exact List.mem_map.mp hmem

theorem Shows.handle_ne_empty (h : Shows l part rules) {rule : FirewallRule}
    (hr : rule ∈ rules.values) : (part rule).handle ≠ "" := by
  obtain ⟨f, -, hf⟩ := h.exists_filter hr
  rw [← hf]
  exact hexHandle_ne_empty f.handle

/-- **A rule is removed** with its filter: no other filter has its place. -/
theorem Shows.erase (h : Shows l part rules) {id : String} {rule : FirewallRule}
    (hr : rules.get? id = some rule) :
    Shows (deleteAt l (part rule).prio (part rule).handle) part (rules.erase id) := by
  have hplace : ∀ e ∈ rules.entries,
      (!((part e.2).prio == (part rule).prio && (part e.2).handle == (part rule).handle)) = true
        ↔ e.1 ≠ id := by
    intro e he
    have hinj := List.inj_on_of_nodup_map
      (f := fun e : String × FirewallRule => (part e.2).place) (l := rules.entries) (by
        have hnd := h.apart
        rwa [Dict.values, List.map_map] at hnd)
    rw [Bool.not_eq_true', Bool.and_eq_false_iff, beq_eq_false_iff_ne, beq_eq_false_iff_ne,
      ← not_and_or, not_iff_not]
    constructor
    · intro hsame
      have heq := hinj he (Dict.mem_entries_iff.mpr hr) (Prod.ext hsame.1 hsame.2)
      rw [heq]
    · intro hid
      have hget : rules.get? e.1 = some e.2 := Dict.mem_entries_iff.mp he
      rw [hid, hr, Option.some.injEq] at hget
      rw [← hget]
      exact ⟨rfl, rfl⟩
  have hvalues := Dict.values_erase_eq_filter (p := fun r =>
    !((part r).prio == (part rule).prio && (part r).handle == (part rule).handle)) hplace
  refine ⟨?_, ?_⟩
  · rw [hvalues]
    have hl : (deleteAt l (part rule).prio (part rule).handle).map Filter.listed
        = (l.map Filter.listed).filter (fun x =>
          !(x.prio == (part rule).prio && x.handle == (part rule).handle)) := by
      rw [List.filter_map]
      rfl
    rw [hl, h.listed, List.filter_map]
    rfl
  · rw [hvalues]
    exact h.apart.sublist (List.filter_sublist.map _)

/-- **A rule is stored** with a new filter, whose handle is not in use. -/
theorem Shows.insert (h : Shows l part rules) {id : String} (hid : id ∉ rules)
    {rule : FirewallRule} {f : Filter} (hf : f.listed = part rule)
    (hnew : f.handle ∉ handlesAt l f.prio) : Shows (l ++ [f]) part (rules.insert id rule) := by
  refine ⟨?_, ?_⟩
  · rw [Dict.values_insert_of_not_mem hid, List.map_append, List.map_append, h.listed]
    simp [hf]
  · rw [Dict.values_insert_of_not_mem hid, List.map_append, List.nodup_append]
    refine ⟨h.apart, List.nodup_singleton _, ?_⟩
    intro x hx y hy hxy
    rw [List.map_singleton, List.mem_singleton] at hy
    obtain ⟨rule', hr', rfl⟩ := List.mem_map.mp hx
    obtain ⟨g, hg, hgl⟩ := h.exists_filter hr'
    rw [← hgl, hy, ← hf] at hxy
    obtain ⟨hprio, hhandle⟩ := Prod.mk.inj hxy
    exact hnew (mem_handlesAt.mpr ⟨g, hg, hprio, hexHandle_inj hhandle⟩)

end Shows

/-! ### The kernel and the stores -/

/-- The kernel is the image of the stores. -/
structure Mirrors (s : Stores) (k : Kernel) : Prop where
  internet : Shows (ruleFilters k internetPort) FirewallRule.forward s.rulesDb
  client : Shows (ruleFilters k clientPort) FirewallRule.reverse s.rulesDb
  outside : ∀ rule ∈ s.rulesDb.values, rule.priority ≠ natPriority
  nat : ∀ dev, natBand k dev = (entriesOn dev s.natDb.values).map NATEntry.spec
  reappliable : ∀ e ∈ s.natDb.values, e.Reappliable

/-- Only the two databases count. -/
theorem Mirrors.congr {s s' : Stores} {k : Kernel} (h : Mirrors s k)
    (hrules : s'.rulesDb = s.rulesDb) (hnat : s'.natDb = s.natDb) : Mirrors s' k := by
  obtain ⟨h1, h2, h3, h4, h5⟩ := h
  rw [← hrules] at h1 h2 h3
  rw [← hnat] at h4 h5
  exact ⟨h1, h2, h3, h4, h5⟩

/-- The kernel is the image of the stores, and every command still to come succeeds. -/
structure Session.Mirrored (s : Session) : Prop where
  succeed : s.tc.AllSucceed
  mirrors : Mirrors s.stores s.tc.kernel

theorem Session.Mirrored.congr {s s' : Session} (h : s.Mirrored) (htc : s'.tc = s.tc)
    (hrules : s'.stores.rulesDb = s.stores.rulesDb) (hnat : s'.stores.natDb = s.stores.natDb) :
    s'.Mirrored := by
  refine ⟨?_, ?_⟩
  · rw [htc]
    exact h.succeed
  · rw [htc]
    exact h.mirrors.congr hrules hnat

/-! ### Rules -/

/-- The commands that remove a rule which the kernel shows. -/
theorem Mirrors.deletions_eq {s : Stores} {k : Kernel} (h : Mirrors s k) {rule : FirewallRule}
    (hr : rule ∈ s.rulesDb.values) {reply : TcReply} (hreply : reply.succeeds = true) :
    rule.deletions reply =
      [delFilterCmd internetPort rule.forward.prio rule.forward.handle,
        delFilterCmd clientPort rule.reverse.prio rule.reverse.handle] := by
  have hfwd : rule.tcHandleFwd.getD "" ≠ "" := h.internet.handle_ne_empty hr
  have hrev : rule.tcHandleRev.getD "" ≠ "" := h.client.handle_ne_empty hr
  have hgone : rule.ForwardGone reply := fun _ => hreply
  rw [FirewallRule.deletions, if_pos hgone, handleDeletion, handleDeletion, if_pos hfwd,
    if_pos hrev]
  rfl

/-- **Both filters of a rule are deleted**, and then the rule may go. -/
theorem Session.Mirrored.wp_removeFilters {s : Session} (h : s.Mirrored) {id : String}
    {rule : FirewallRule} (hr : s.stores.rulesDb.get? id = some rule) :
    wp (removeFilters rule) s
      (fun _ s' => s'.stores = s.stores ∧
        Session.Mirrored ⟨{ s.stores with rulesDb := s.stores.rulesDb.erase id }, s'.tc⟩)
      (fun _ _ => False) := by
  have hmem : rule ∈ s.stores.rulesDb.values := Dict.mem_values_iff.mpr ⟨id, hr⟩
  have hout : toString rule.priority ≠ toString natPriority :=
    fun he => h.mirrors.outside rule hmem (Text.toString_inj.mp he)
  have hne : clientPort ≠ internetPort := by decide
  refine wp_mono (wp_removeFilters_inTime h.succeed.inTime) ?_ (fun _ _ hf => hf)
  rintro - s' rfl
  refine ⟨rfl, h.succeed.afterAll _, ?_⟩
  rw [h.mirrors.deletions_eq hmem (h.succeed _)]
  obtain ⟨i, hi⟩ := h.succeed.kernel_after
    (delFilterCmd internetPort rule.forward.prio rule.forward.handle)
  obtain ⟨j, hj⟩ := (h.succeed.after _).kernel_after
    (delFilterCmd clientPort rule.reverse.prio rule.reverse.handle)
  have hk : ∀ dev, ruleFilters (s.tc.afterAll
      [delFilterCmd internetPort rule.forward.prio rule.forward.handle,
        delFilterCmd clientPort rule.reverse.prio rule.reverse.handle]).kernel dev
      = if dev = clientPort then
          deleteAt (ruleFilters s.tc.kernel dev) rule.reverse.prio rule.reverse.handle
        else if dev = internetPort then
          deleteAt (ruleFilters s.tc.kernel dev) rule.forward.prio rule.forward.handle
        else ruleFilters s.tc.kernel dev := by
    intro dev
    show ruleFilters ((s.tc.after _).after _).kernel dev = _
    rw [hj, ruleFilters_delFilterCmd _ (Or.inr rfl), hi, ruleFilters_delFilterCmd _ (Or.inl rfl)]
    by_cases hdev : dev = clientPort
    · rw [if_pos hdev, if_pos hdev, if_neg (hdev ▸ hne)]
    · rw [if_neg hdev, if_neg hdev]
  refine ⟨?_, ?_, ?_, ?_, h.mirrors.reappliable⟩
  · rw [hk, if_neg hne.symm, if_pos rfl]
    exact h.mirrors.internet.erase hr
  · rw [hk, if_pos rfl]
    exact h.mirrors.client.erase hr
  · intro rule' hr'
    obtain ⟨id', hget⟩ := Dict.mem_values_iff.mp hr'
    exact h.mirrors.outside rule' (Dict.mem_values_iff.mpr
      ⟨id', (Dict.get?_erase_eq_some.mp hget).2⟩)
  · intro dev
    show natBand ((s.tc.after _).after _).kernel dev = _
    have hfwd := keepsBand_delFilterCmd internetPort rule.forward.handle hout
    have hrev := keepsBand_delFilterCmd clientPort rule.reverse.handle hout
    rw [hj]
    exact (hrev _ j dev).trans (by rw [hi]; exact (hfwd _ i dev).trans (h.mirrors.nat dev))

/-- The loop over rule identifiers. -/
theorem Session.Mirrored.wp_flushRuleIds {s : Session} (h : s.Mirrored) (ids : List String) :
    wp (flushRuleIds ids) s (fun _ s' => s'.Mirrored) (fun _ s' => s'.Mirrored) := by
  refine wp_forM (I := fun _ s' => s'.Mirrored) ids ?_ s h
  intro done id rest s' _ h'
  rw [wp_bind, wp_getStores, wp_bind]
  cases hr : s'.stores.rulesDb.get? id with
  | none =>
    rw [wp_item, hr]
    exact h'
  | some rule =>
    rw [wp_item_of_get? hr, wp_bind]
    refine wp_mono (h'.wp_removeFilters hr) ?_ (fun _ _ hf => hf.elim)
    rintro - s'' ⟨hstores, hm⟩
    rw [wp_modifyStores, hstores]
    exact hm

/-! ### NAT entries -/

/-- **The band is rebuilt** without an entry. -/
theorem Session.Mirrored.withoutNat {s : Session} (h : s.Mirrored) {id : String} {e : NATEntry}
    (he : s.stores.natDb.get? id = some e) :
    Session.Mirrored ⟨s.stores.withoutNat id,
      s.tc.afterAll (rebuildCommands e.port (s.stores.natDb.erase id).values)⟩ := by
  have hsub : ∀ e' ∈ (s.stores.natDb.erase id).values, e' ∈ s.stores.natDb.values := by
    intro e' he'
    obtain ⟨id', hget⟩ := Dict.mem_values_iff.mp he'
    exact Dict.mem_values_iff.mpr ⟨id', (Dict.get?_erase_eq_some.mp hget).2⟩
  have hre : ∀ e' ∈ (s.stores.natDb.erase id).values, e'.Reappliable :=
    fun e' he' => h.mirrors.reappliable e' (hsub e' he')
  have hkeep : ∀ dev, ruleFilters (s.tc.afterAll
      (rebuildCommands e.port (s.stores.natDb.erase id).values)).kernel dev
        = ruleFilters s.tc.kernel dev := by
    intro dev
    refine ruleFilters_afterAll (fun cmd hcmd => ?_) _ _
    rw [rebuildCommands_eq hre] at hcmd
    rcases List.mem_cons.mp hcmd with rfl | hcmd
    · exact keepsRuleFilters_delCommand _
    · obtain ⟨e', -, rfl⟩ := List.mem_map.mp hcmd
      exact keepsRuleFilters_addCommand e'
  refine ⟨h.succeed.afterAll _, ?_, ?_, h.mirrors.outside, ?_, hre⟩
  · rw [hkeep]
    exact h.mirrors.internet
  · rw [hkeep]
    exact h.mirrors.client
  · intro dev
    show natBand _ dev = (entriesOn dev (s.stores.natDb.erase id).values).map NATEntry.spec
    rw [rebuildCommands_eq hre, natBand_rebuilt h.succeed (isPort_port e)]
    by_cases hdev : dev = e.port
    · rw [if_pos hdev, hdev]
    · -- the entry had no filter on the other port
      rw [if_neg hdev, h.mirrors.nat dev]
      congr 1
      exact (Dict.filter_values_erase he (by simpa using Ne.symm hdev)).symm

theorem Session.Mirrored.wp_removeNat {s : Session} (h : s.Mirrored) (id : String) :
    wp (removeNat id) s (fun _ s' => s'.Mirrored) (fun _ s' => s'.Mirrored) := by
  refine wp_mono (wp_removeNat_inTime h.succeed.inTime) ?_ ?_
  · rintro - s' ⟨e, he, rfl⟩
    exact h.withoutNat he
  · rintro - s' ⟨-, rfl⟩
    exact h

/-- The loop over NAT identifiers. -/
theorem Session.Mirrored.wp_flushNatIds {s : Session} (h : s.Mirrored) (ids : List String) :
    wp (flushNatIds ids) s (fun _ s' => s'.Mirrored) (fun _ s' => s'.Mirrored) := by
  have hlog : ∀ (id : String) (s' : Session), s'.Mirrored →
      wp (modifyStores (fun s => { s with natEntriesDb := s.natEntriesDb.erase id })) s'
        (fun _ s'' => s''.Mirrored) (fun _ s'' => s''.Mirrored) :=
    fun _ _ h' => h'.congr rfl rfl rfl
  refine wp_forM (I := fun _ s' => s'.Mirrored) ids ?_ s h
  intro done id rest s' _ h'
  rw [wp_bind, wp_tryCatch]
  refine wp_mono (h'.wp_removeNat id) ?_ ?_
  · intro _ s'' h''
    exact hlog id s'' h''
  · intro _ s'' h''
    exact hlog id s'' h''

/-- **A new entry** joins the band of its port. -/
theorem Session.Mirrored.installed {s : Session} (h : s.Mirrored) {e : NATEntry}
    (hre : e.Reappliable) {id : String} (hid : id ∉ s.stores.natDb) :
    Session.Mirrored ⟨{ s.stores with natDb := s.stores.natDb.insert id e },
      s.tc.afterAll e.installCommands⟩ := by
  have hkeep : ∀ dev, ruleFilters (s.tc.afterAll e.installCommands).kernel dev
      = ruleFilters s.tc.kernel dev := by
    intro dev
    refine ruleFilters_afterAll (fun cmd hcmd => ?_) _ _
    simp only [NATEntry.installCommands, List.mem_cons, List.not_mem_nil, or_false, or_self]
      at hcmd
    rcases hcmd with rfl | rfl
    · exact keepsRuleFilters_addCommand e
    · exact keepsRuleFilters_showCmd _ _
  refine ⟨h.succeed.afterAll _, ?_, ?_, h.mirrors.outside, ?_, ?_⟩
  · rw [hkeep]
    exact h.mirrors.internet
  · rw [hkeep]
    exact h.mirrors.client
  · intro dev
    show natBand _ dev = (entriesOn dev (s.stores.natDb.insert id e).values).map NATEntry.spec
    rw [NATEntry.installCommands, natBand_installed h.succeed, h.mirrors.nat dev,
      Dict.values_insert_of_not_mem hid, entriesOn_append, List.map_append,
      map_spec_entriesOn_singleton]
  · show ∀ e' ∈ (s.stores.natDb.insert id e).values, e'.Reappliable
    rw [Dict.values_insert_of_not_mem hid]
    intro e' he'
    rcases List.mem_append.mp he' with he' | he'
    · exact h.mirrors.reappliable e' he'
    · rw [List.mem_singleton.mp he']
      exact hre

/-- The filter of an entry does not depend on its owner. -/
theorem Session.Mirrored.reowned {s : Session} (h : s.Mirrored) {e : NATEntry}
    (he : s.stores.natDb.get? e.id = some e) (tenantId : String) :
    Session.Mirrored ⟨recordNatOwner tenantId e s.stores, s.tc⟩ := by
  have hre : e.Reappliable := h.mirrors.reappliable e (Dict.mem_values_iff.mpr ⟨_, he⟩)
  have hentries : ∀ dev (l : List NATEntry), (entriesOn dev l).map NATEntry.spec
      = l.filterMap (fun e => if e.port = dev then some e.spec else none) := by
    intro dev l
    induction l with
    | nil => rfl
    | cons a l ih =>
      rw [List.filterMap_cons, ← ih, entriesOn, List.filter_cons]
      by_cases ha : a.port = dev
      · simp [ha, entriesOn]
      · simp [ha, entriesOn]
  refine ⟨h.succeed, h.mirrors.internet, h.mirrors.client, h.mirrors.outside, ?_, ?_⟩
  · intro dev
    show natBand s.tc.kernel dev = (entriesOn dev (s.stores.natDb.insert e.id
      { e with tenantId := some tenantId }).values).map NATEntry.spec
    rw [h.mirrors.nat dev, hentries, hentries]
    refine Eq.symm (Dict.filterMap_values_insert he ?_)
    rfl
  · intro e' he'
    obtain ⟨id, hget⟩ := Dict.mem_values_iff.mp he'
    rw [show (recordNatOwner tenantId e s.stores).natDb = s.stores.natDb.insert e.id
      { e with tenantId := some tenantId } from rfl, Dict.get?_insert] at hget
    split at hget
    · rw [← Option.some.inj hget]
      exact hre
    · exact h.mirrors.reappliable e' (Dict.mem_values_iff.mpr ⟨id, hget⟩)

end PrismFirewall.TcFirewall
