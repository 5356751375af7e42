import PrismFirewall.TcFirewall.FailedCreation
import PrismFirewall.TcFirewall.NatAgreement
import PrismFirewall.TcFirewall.RuleIndex

/-!
# The audit log and the stores

The endpoints write their audit entries by hand, each after it has changed the
stores.  `AuditAccounts` is what the log owes them: what goes from `rules_db` and
`nat_entries_db` is covered by deletion entries or by one flush entry with the right
count, what comes has exactly one creation entry, and a request that changes neither
store claims no creation and no deletion.  An identifier that stands for another rule
than before has lost one and got one; the owner of a NAT entry may change in place.

Three things break it.  `delete_tenant` cascades over the rules and NAT entries of
the tenant and logs nothing.  The NAT creations log a creation also when the entry was
there before and belongs to the tenant already, where `add_rule` returns early.  A
creation that draws the identifier of a live rule or entry overwrites it.
`audit_accounts_iff` says that there is nothing else, over whole runs in which every
tc command succeeds.

That a creation which reaches tc does change the store rests on the signature indexes:
what is stored can be found by its signature (`Findable`), so what was not found is not
stored.
-/

namespace PrismFirewall.TcFirewall

open Lib

/-! ### What the log owes the stores -/

/-- The words of the log for one of the stores. -/
structure AuditWords where
  resourceType : String
  created : List String
  deleted : String
  flushed : String

def ruleWords : AuditWords :=
  ⟨"firewall_rule", ["rule.created"], "rule.deleted", "rules.flushed"⟩

def natWords : AuditWords :=
  ⟨"nat_rule", ["nat.snat_created", "nat.dnat_created", "nat.forward_created"], "nat.deleted",
    "nat.flushed"⟩

namespace AuditWords

variable (w : AuditWords)

def creates (e : AuditEntry) : Bool :=
  decide (e.resourceType = w.resourceType ∧ e.action ∈ w.created)

def deletes (e : AuditEntry) : Bool :=
  decide (e.resourceType = w.resourceType ∧ e.action = w.deleted)

def flushes (e : AuditEntry) : Bool :=
  decide (e.resourceType = w.resourceType ∧ e.action = w.flushed)

variable (id : String) (details : List (String × AuditValue)) (client : Option String)

theorem creates_ruleCreated :
    ruleWords.creates (auditEntry "rule.created" "firewall_rule" id details client) := by
  simp [creates, auditEntry, ruleWords]

theorem deletes_ruleDeleted :
    ruleWords.deletes (auditEntry "rule.deleted" "firewall_rule" id details client) := by
  simp [deletes, auditEntry, ruleWords]

theorem flushes_rulesFlushed :
    ruleWords.flushes (auditEntry "rules.flushed" "firewall_rule" id details client) := by
  simp [flushes, auditEntry, ruleWords]

theorem creates_natCreated (natType : NatType) :
    natWords.creates (natCreatedEntry natType details client id) := by
  cases natType <;> simp [creates, natCreatedEntry, auditEntry, natWords, NatType.value]

theorem deletes_natDeleted :
    natWords.deletes (auditEntry "nat.deleted" "nat_rule" id details client) := by
  simp [deletes, auditEntry, natWords]

theorem flushes_natFlushed :
    natWords.flushes (auditEntry "nat.flushed" "nat_rule" id details client) := by
  simp [flushes, auditEntry, natWords]

/-- A creation entry says nothing else. -/
theorem only_creates (hd : w.deleted ∉ w.created) (hf : w.flushed ∉ w.created) {e : AuditEntry}
    (h : w.creates e) : ¬ w.deletes e ∧ ¬ w.flushes e := by
  have hmem := (of_decide_eq_true h).2
  refine ⟨fun h' => ?_, fun h' => ?_⟩
  · exact hd ((of_decide_eq_true h').2 ▸ hmem)
  · exact hf ((of_decide_eq_true h').2 ▸ hmem)

end AuditWords

/-- The new entries of the log account for what happened to one store, where `part` is
what makes an entry of the store the one it is. -/
structure StoreAccounted {ν β : Type} [DecidableEq β] (w : AuditWords) (part : ν → β)
    (before after : Dict String ν) (new : List AuditEntry) : Prop where
  removed : before.keysLost part after ≠ [] →
    ((new.filter w.deletes).map AuditEntry.resourceId).Perm (before.keysLost part after) ∨
      (new.filter w.flushes).map AuditEntry.details
        = [[("rules_removed", .int (before.keysLost part after).length)]]
  added : ∀ id ∈ after.keysLost part before,
    (new.filter w.creates).map AuditEntry.resourceId = [id]

/-- A NAT entry without its owner. -/
def NATEntry.unowned (e : NATEntry) : NATEntry := { e with tenantId := none }

/-- The entry says that something was created or deleted. -/
def AuditEntry.saysChanged (e : AuditEntry) : Bool :=
  ruleWords.creates e || ruleWords.deletes e || natWords.creates e || natWords.deletes e

theorem AuditEntry.saysChanged_of_creates {e : AuditEntry} (h : natWords.creates e) :
    e.saysChanged := by
  simp [saysChanged, h]

/-- A flush entry claims no creation and no deletion. -/
theorem AuditEntry.not_saysChanged_of_flushes {e : AuditEntry}
    (h : ruleWords.flushes e ∨ natWords.flushes e) : ¬ e.saysChanged := by
  rcases h with h | h
  · obtain ⟨hr, ha⟩ := of_decide_eq_true h
    simp [saysChanged, AuditWords.creates, AuditWords.deletes, ruleWords, natWords, hr, ha]
  · obtain ⟨hr, ha⟩ := of_decide_eq_true h
    simp [saysChanged, AuditWords.creates, AuditWords.deletes, ruleWords, natWords, hr, ha]

/-- What a request appended to the log accounts for what it did to the stores. -/
def AuditAccounts (s s' : Stores) : Prop :=
  ∃ new, s'.audit = s.audit ++ new ∧
    StoreAccounted ruleWords id s.rulesDb s'.rulesDb new ∧
    StoreAccounted natWords NATEntry.unowned s.natEntriesDb s'.natEntriesDb new ∧
    (s'.rulesDb = s.rulesDb → s'.natEntriesDb = s.natEntriesDb → ∀ e ∈ new, ¬ e.saysChanged)

/-- A tenant is deleted only when nothing of it is left. -/
def DeletesEmptyTenant (d : Daemon) (c : Call) : Prop :=
  ∀ t, c.request = .deleteTenant t → t ∈ d.stores.tenants →
    tenantRuleIds d.stores t = [] ∧ tenantNatIds d.stores t = []

/-- A NAT creation does not ask for an entry the tenant has already. -/
def AsksForNew (d : Daemon) (c : Call) : Prop :=
  ∀ template t e, c.request.natTemplate c.newId = some template →
    Admitted d.stores c.tenantHeader c.request.ValidMode t →
    findExistingNat d.stores template.signature = some e → e.tenantId ≠ some t

/-- A creation that gets as far as tc does not draw the identifier of a live rule or
entry. -/
def DrawsFree (d : Daemon) (c : Call) : Prop :=
  ReachesTc d.stores c →
    match c.request with
    | .addRule _ => c.newId.val ∉ d.stores.rulesDb
    | _ => c.newId.val ∉ d.stores.natEntriesDb

/-- The condition of a call. -/
structure Accountable (d : Daemon) (c : Call) : Prop where
  emptyTenant : DeletesEmptyTenant d c
  asksForNew : AsksForNew d c
  drawsFree : DrawsFree d c

/-! ### One store -/

namespace StoreAccounted

variable {ν β : Type} [DecidableEq β] {w : AuditWords} {part : ν → β} {d d' : Dict String ν}
  {new : List AuditEntry}

/-- A store whose entries look the same owes nothing. -/
theorem of_get?_eq (h : ∀ id, (d'.get? id).map part = (d.get? id).map part) :
    StoreAccounted w part d d' new := by
  have h1 : d.keysLost part d' = [] := Dict.keysLost_eq_nil (fun k _ => h k)
  have h2 : d'.keysLost part d = [] := Dict.keysLost_eq_nil (fun k _ => (h k).symm)
  refine ⟨fun hne => absurd h1 hne, fun id hid => ?_⟩
  rw [h2] at hid
  exact absurd hid List.not_mem_nil

theorem refl : StoreAccounted w part d d new := of_get?_eq (fun _ => rfl)

/-- **One creation entry** accounts for an entry that was written exactly if its identifier
was free, provided that it is not written over itself. -/
theorem insert_iff (hd : w.deleted ∉ w.created) (hf : w.flushed ∉ w.created) {e : AuditEntry}
    {v : ν} (he : w.creates e) (hnew : ∀ old, d.get? e.resourceId = some old → part v ≠ part old) :
    StoreAccounted w part d (d.insert e.resourceId v) [e] ↔ e.resourceId ∉ d := by
  constructor
  · intro hacc hin
    obtain ⟨old, hold⟩ := Dict.mem_iff_get?.mp hin
    obtain ⟨hdel, hflush⟩ := w.only_creates hd hf he
    have hremoved := hacc.removed
    rw [Dict.keysLost_insert_of_ne hold (hnew old hold)] at hremoved
    simp [hdel, hflush] at hremoved
  · intro hfree
    refine ⟨fun hne => absurd (Dict.keysLost_insert_of_not_mem hfree) hne, fun id hid => ?_⟩
    rw [Dict.eq_of_mem_keysLost_insert hid]
    simp [he]

/-- An entry that looks the same is written in place of another. -/
theorem replace {id : String} {old v : ν} (h : d.get? id = some old) (hv : part v = part old) :
    StoreAccounted w part d (d.insert id v) new := by
  refine of_get?_eq (fun k => ?_)
  by_cases hk : k = id
  · rw [hk, Dict.get?_insert_self, h, Option.map_some, Option.map_some, hv]
  · rw [Dict.get?_insert_ne hk]

/-- Only identifiers go. -/
theorem of_eraseAll {ids : List String} (hr : (d.keysLost part (d.eraseAll ids)) ≠ [] →
    ((new.filter w.deletes).map AuditEntry.resourceId).Perm (d.keysLost part (d.eraseAll ids)) ∨
      (new.filter w.flushes).map AuditEntry.details
        = [[("rules_removed", .int (d.keysLost part (d.eraseAll ids)).length)]]) :
    StoreAccounted w part d (d.eraseAll ids) new := by
  refine ⟨hr, fun id hid => ?_⟩
  rw [Dict.keysLost_eraseAll_left] at hid
  exact absurd hid List.not_mem_nil

theorem eraseAll_singleton {e : AuditEntry} (he : w.deletes e) (hin : e.resourceId ∈ d) :
    StoreAccounted w part d (d.eraseAll [e.resourceId]) [e] := by
  have hperm : (d.keysLost part (d.eraseAll [e.resourceId])).Perm [e.resourceId] :=
    Dict.perm_keysLost_eraseAll (List.nodup_singleton e.resourceId)
      (fun k hk => List.mem_singleton.mp hk ▸ hin)
  refine of_eraseAll (fun _ => Or.inl ?_)
  simpa [he] using hperm.symm

theorem eraseAll {e : AuditEntry} {ids : List String} (he : w.flushes e) (hnd : ids.Nodup)
    (hin : ∀ id ∈ ids, id ∈ d) (hd : e.details = [("rules_removed", .int ids.length)]) :
    StoreAccounted w part d (d.eraseAll ids) [e] := by
  refine of_eraseAll (fun _ => Or.inr ?_)
  rw [(Dict.perm_keysLost_eraseAll hnd hin).length_eq]
  simp [he, hd]

/-- Without an entry in the log nothing may go. -/
theorem eraseAll_nil_iff {ids : List String} (hnd : ids.Nodup) (hin : ∀ id ∈ ids, id ∈ d) :
    StoreAccounted w part d (d.eraseAll ids) [] ↔ ids = [] := by
  have hperm : (d.keysLost part (d.eraseAll ids)).Perm ids :=
    Dict.perm_keysLost_eraseAll hnd hin
  constructor
  · intro h
    by_contra hne
    have hgone : d.keysLost part (d.eraseAll ids) ≠ [] := by
      intro h0
      rw [h0] at hperm
      exact hne hperm.nil_eq.symm
    rcases h.removed hgone with h' | h'
    · exact hgone h'.nil_eq.symm
    · simp at h'
  · intro h
    subst h
    exact refl

end StoreAccounted

/-! ### What is stored can be found -/

/-- Both signature indexes find what is stored, and no identifier is empty. -/
structure Findable (s : Stores) : Prop where
  rules : Finds s.ruleSignatureIndex s.rulesDb FirewallRule.signature
  ruleId : ∀ id ∈ s.rulesDb, id ≠ ""
  nat : Finds s.natSignatureIndex s.natDb NATEntry.signature
  natId : ∀ id ∈ s.natDb, id ≠ ""

namespace Findable

variable {s s' : Stores}

/-- What was not found is not stored. -/
theorem rule_not_stored (h : Findable s) {t : String} {request : FirewallRuleRequest}
    (hn : findExistingRule s t request = none) :
    ∀ id, s.ruleSignatureIndex.get? (computeRuleSignature t request) = some id →
      id ∉ s.rulesDb := by
  intro id hs hid
  have hlive : liveRule s s.ruleSignatureIndex (computeRuleSignature t request) = none := by
    unfold findExistingRule at hn
    split at hn
    · exact absurd hn (by simp)
    · exact hn
  simp only [liveRule, hs, if_neg (h.ruleId id hid)] at hlive
  exact Dict.get?_eq_none_iff.mp hlive hid

theorem nat_not_stored (h : Findable s) {sig : String} (hn : findExistingNat s sig = none) :
    ∀ id, s.natSignatureIndex.get? sig = some id → id ∉ s.natDb := by
  intro id hs hid
  simp only [findExistingNat, hs, if_neg (h.natId id hid)] at hn
  exact Dict.get?_eq_none_iff.mp hn hid

theorem ruleStep (h : Findable s) {c : Call} (hs : RuleStep c s s') :
    Finds s'.ruleSignatureIndex s'.rulesDb FirewallRule.signature ∧
      ∀ id ∈ s'.rulesDb, id ≠ "" := by
  -- rules go, and index entries of rules that go
  have hgone : ∀ {ids : List String}, s'.rulesDb = s.rulesDb.eraseAll ids →
      (∀ id ∉ ids, ∀ g, s.ruleSignatureIndex.get? g = some id →
        s'.ruleSignatureIndex.get? g = some id) →
      Finds s'.ruleSignatureIndex s'.rulesDb FirewallRule.signature ∧
        ∀ id ∈ s'.rulesDb, id ≠ "" := by
    intro ids hdb hindex
    rw [hdb]
    refine ⟨h.rules.remove (fun id rule hr => ?_) (fun id hid => ?_), fun id hid => ?_⟩
    · exact (Dict.get?_eraseAll_eq_some.mp hr).1
    · exact hindex id (Dict.mem_eraseAll.mp hid).2
    · exact h.ruleId id (Dict.mem_eraseAll.mp hid).1
  cases hs with
  | same e =>
    simp only [Stores.ruleStore, Prod.mk.injEq] at e
    rw [e.1, e.2.1]
    exact ⟨h.rules, h.ruleId⟩
  | stored t request installed hreq hten hnone e =>
    simp only [Stores.ruleStore, storeRule, Prod.mk.injEq] at e
    rw [e.1, e.2.1, ← signature_newRule c.newId t request installed]
    refine ⟨h.rules.insert (h.rule_not_stored hnone), fun id hid => ?_⟩
    rcases Dict.mem_insert.mp hid with rfl | hid
    · exact c.newId.ne_empty
    · exact h.ruleId id hid
  | removed ids e =>
    simp only [Stores.ruleStore, Prod.mk.injEq] at e
    refine hgone e.1 (fun id hid g hg => ?_)
    rw [e.2.1, get?_dropStale_eq_some]
    exact ⟨hg, hid⟩
  | dangling ids e =>
    simp only [Stores.ruleStore, Prod.mk.injEq] at e
    exact hgone e.1 (fun id _ g hg => by rw [e.2.1]; exact hg)

theorem natStep (h : Findable s) (ho : NatOwned s) {c : Call} (hs : NatStep c s s') :
    Finds s'.natSignatureIndex s'.natDb NATEntry.signature ∧ ∀ id ∈ s'.natDb, id ≠ "" := by
  cases hs with
  | same e =>
    simp only [Stores.natStore, Prod.mk.injEq] at e
    rw [e.1, e.2.2]
    exact ⟨h.nat, h.natId⟩
  | claimed template t e hreq hf hw =>
    simp only [Stores.natStore, recordNatOwner, Prod.mk.injEq] at hw
    obtain ⟨id, -, hid⟩ := findExistingNat_eq_some hf
    obtain ⟨rfl, -⟩ := ho.mirrored id e hid
    rw [hw.1, hw.2.2]
    refine ⟨h.nat.replace hid rfl, fun id' hid' => ?_⟩
    rcases Dict.mem_insert.mp hid' with rfl | hid'
    · exact h.natId _ (Dict.mem_of_get? hid)
    · exact h.natId id' hid'
  | created template t inHw hreq hf hw =>
    have hne : template.id ≠ "" := by
      rw [id_of_natTemplate hreq]
      exact c.newId.ne_empty
    simp only [Stores.natStore, recordNatOwner, ← id_of_natTemplate hreq, Prod.mk.injEq] at hw
    have hfinds := h.nat.insert (k := template.id) (v := { template with inHw := inHw })
      (h.nat_not_stored hf)
    rw [hw.1, hw.2.2]
    refine ⟨hfinds.replace (Dict.get?_insert_self _ _ _) rfl, fun id hid => ?_⟩
    rcases Dict.mem_insert.mp hid with rfl | hid
    · exact hne
    · rcases Dict.mem_insert.mp hid with rfl | hid
      · exact hne
      · exact h.natId id hid
  | removed t ids entryIds index' hact hown hsub hindex hkept hw =>
    simp only [Stores.natStore, Prod.mk.injEq] at hw
    rw [hw.1, hw.2.2]
    refine ⟨h.nat.remove (fun id e he => (Dict.get?_eraseAll_eq_some.mp he).1) (fun id hid g hg => ?_),
      fun id hid => h.natId id (Dict.mem_eraseAll.mp hid).1⟩
    exact hkept g id (Dict.mem_eraseAll.mp hid).2 hg

end Findable

theorem findable_run (calls : List Call) : Findable (daemon.run calls).stores := by
  refine (daemon.run_induction (P := fun _ d => NatOwned d.stores ∧ Findable d.stores)
    ⟨natOwned_run [], ?_⟩ ?_ calls).2
  · exact ⟨.empty _ _, fun id hid => absurd hid List.not_mem_nil, .empty _ _,
      fun id hid => absurd hid List.not_mem_nil⟩
  · intro l c d ih
    obtain ⟨ho, h⟩ := ih
    obtain ⟨hrules, hruleId⟩ := h.ruleStep (ruleStep_serve d c)
    obtain ⟨hnat, hnatId⟩ := h.natStep ho (natStep_serve d c)
    exact ⟨natOwned_step ho (natStep_serve d c), hrules, hruleId, hnat, hnatId⟩

/-! ### The requests one by one -/

/-- What `Accountable` says of a NAT creation. -/
def NatAccountable (s : Stores) (c : Call) (template : NATEntry) : Prop :=
  (∀ t e, Admitted s c.tenantHeader c.request.ValidMode t →
    findExistingNat s template.signature = some e → e.tenantId ≠ some t) ∧
  ((∃ t, Admitted s c.tenantHeader c.request.ValidMode t) →
    findExistingNat s template.signature = none → c.request.PoolFree s →
      c.newId.val ∉ s.natEntriesDb)

section Requests

variable {s s' : Stores}

/-- A request that does nothing and says nothing. -/
theorem accounts_of_unchanged (hr : s'.rulesDb = s.rulesDb)
    (hn : s'.natEntriesDb = s.natEntriesDb) (ha : s'.audit = s.audit) : AuditAccounts s s' := by
  refine ⟨[], by rw [ha, List.append_nil], ?_, ?_, fun _ _ e he => absurd he List.not_mem_nil⟩
  · rw [hr]
    exact .refl
  · rw [hn]
    exact .refl

/-- One entry about the rules. -/
theorem accounts_of_rules {e : AuditEntry} (ha : s'.audit = s.audit ++ [e])
    (hr : StoreAccounted ruleWords id s.rulesDb s'.rulesDb [e])
    (hn : s'.natEntriesDb = s.natEntriesDb) (he : s'.rulesDb = s.rulesDb → ¬ e.saysChanged) :
    AuditAccounts s s' := by
  refine ⟨[e], ha, hr, by rw [hn]; exact .refl, fun hsame _ x hx => ?_⟩
  rw [List.mem_singleton.mp hx]
  exact he hsame

/-- One entry about NAT. -/
theorem accounts_of_nat {e : AuditEntry} (ha : s'.audit = s.audit ++ [e])
    (hr : s'.rulesDb = s.rulesDb)
    (hn : StoreAccounted natWords NATEntry.unowned s.natEntriesDb s'.natEntriesDb [e])
    (he : s'.natEntriesDb = s.natEntriesDb → ¬ e.saysChanged) : AuditAccounts s s' := by
  refine ⟨[e], ha, by rw [hr]; exact .refl, hn, fun _ hsame x hx => ?_⟩
  rw [List.mem_singleton.mp hx]
  exact he hsame

end Requests

/-- **The creation of a rule** is accounted for exactly if it overwrites none. -/
theorem accounts_addRule_iff {header client : Option String} {newId : ShortId}
    {request : FirewallRuleRequest} {s : Session} (hf : Findable s.stores)
    (hall : s.tc.AllSucceed) :
    wp (addRule header client newId request) s
      (fun _ s' => AuditAccounts s.stores s'.stores ↔
        (RuleReaches s.stores header request → newId.val ∉ s.stores.rulesDb))
      (fun _ s' => AuditAccounts s.stores s'.stores ↔
        (RuleReaches s.stores header request → newId.val ∉ s.stores.rulesDb)) := by
  refine wp_mono wp_addRule ?_ ?_
  · intro r s' h
    obtain ⟨t, ht, ⟨existing, hfound, -, h⟩ | ⟨hn, hq, -, installed, -, -, h⟩⟩ := h
    · rw [h]
      refine iff_of_true (accounts_of_unchanged rfl rfl rfl) ?_
      rintro ⟨t', ht', hn, -⟩
      rw [ht.eq ht', hfound] at hn
      exact absurd hn (by simp)
    · rw [h]
      have hreach : RuleReaches s.stores header request := ⟨t, ht, hn, hq⟩
      have hcreates := AuditWords.creates_ruleCreated newId.val (ruleDetails request) client
      -- a rule that is there already would have been found
      have hnew : ∀ old, s.stores.rulesDb.get? newId.val = some old →
          id (newRule newId t request installed) ≠ id old := by
        intro old hold heq
        obtain rfl : newRule newId t request installed = old := heq
        have hindexed := hf.rules newId.val _ hold
        rw [signature_newRule] at hindexed
        exact hf.rule_not_stored hn newId.val hindexed (Dict.mem_of_get? hold)
      have hiff := StoreAccounted.insert_iff (by decide) (by decide) hcreates hnew
      rw [forall_prop_of_true hreach]
      constructor
      · intro h
        obtain ⟨new, hlog, hrules, -⟩ := h
        obtain rfl := List.append_cancel_left hlog
        exact hiff.mp hrules
      · intro hfree
        refine accounts_of_rules rfl (hiff.mpr hfree) rfl (fun hsame => absurd ?_ hfree)
        have hsame' : s.stores.rulesDb.insert newId.val (newRule newId t request installed)
            = s.stores.rulesDb := hsame
        rw [← hsame']
        exact Dict.mem_insert.mpr (Or.inl rfl)
  · intro _ s' h
    obtain ⟨-, hs, -, hfail⟩ := h
    rw [hs]
    refine iff_of_true (accounts_of_unchanged rfl rfl rfl) (fun hreach => ?_)
    exact absurd hall.ruleInstalls (hfail.not_installs hreach)

theorem accounts_deleteRule {header client : Option String} {ruleId : String} {s : Session} :
    wp (deleteRule header client ruleId) s
      (fun _ s' => AuditAccounts s.stores s'.stores)
      (fun _ s' => AuditAccounts s.stores s'.stores) := by
  refine wp_mono wp_deleteRule ?_ (fun _ s' h => by rw [h]; exact accounts_of_unchanged rfl rfl rfl)
  intro _ s' h
  obtain ⟨hin, h⟩ := h
  rw [h]
  have hdeletes := AuditWords.deletes_ruleDeleted ruleId [] client
  refine accounts_of_rules rfl (.eraseAll_singleton hdeletes hin) rfl (fun hsame => ?_)
  have hsame' : s.stores.rulesDb.eraseAll [ruleId] = s.stores.rulesDb := hsame
  rw [← hsame', Dict.mem_eraseAll] at hin
  exact absurd (List.mem_singleton_self ruleId) hin.2

theorem accounts_flushRules {header client : Option String} {s : Session}
    (hall : s.tc.AllSucceed) :
    wp (flushRules header client) s
      (fun _ s' => AuditAccounts s.stores s'.stores)
      (fun _ s' => AuditAccounts s.stores s'.stores) := by
  refine wp_mono wp_flushRules ?_ ?_
  · intro _ s' h
    obtain ⟨t, -, h⟩ := h
    rw [h]
    have hflush := AuditWords.flushes_rulesFlushed "*"
      [("rules_removed", .int (tenantRuleIds s.stores t).length)] client
    exact accounts_of_rules rfl
      (.eraseAll hflush (nodup_tenantRuleIds _ t) (mem_of_mem_tenantRuleIds _ t) rfl) rfl
      (fun _ => AuditEntry.not_saysChanged_of_flushes (Or.inl hflush))
  · intro _ s' h
    rcases h.2 with h | ⟨i, hi⟩
    · rw [h]
      exact accounts_of_unchanged rfl rfl rfl
    · exact absurd hi (TcReply.not_timesOut_of_succeeds (hall i))

theorem accounts_deleteNatRule {header client : Option String} {ruleId : String} {s : Session}
    (hall : s.tc.AllSucceed) :
    wp (deleteNatRule header client ruleId) s
      (fun _ s' => AuditAccounts s.stores s'.stores)
      (fun _ s' => AuditAccounts s.stores s'.stores) := by
  refine wp_mono wp_deleteNatRule ?_ ?_
  · intro _ s' h
    obtain ⟨⟨t, e, hdel, h⟩, -⟩ := h
    have hin := Dict.mem_of_get? hdel.entry
    rw [h]
    have hdeletes := AuditWords.deletes_natDeleted ruleId [] client
    refine accounts_of_nat rfl rfl (.eraseAll_singleton hdeletes hin) (fun hsame => ?_)
    have hsame' : s.stores.natEntriesDb.erase ruleId = s.stores.natEntriesDb := hsame
    rw [← hsame', Dict.mem_erase] at hin
    exact absurd rfl hin.1
  · intro _ s' h
    rcases h with ⟨rfl, -⟩ | ⟨-, -, hlate, -⟩
    · exact accounts_of_unchanged rfl rfl rfl
    · exact absurd (fun _ _ i _ => hall.not_timesOut i) hlate

theorem nodup_tenantNatIds (s : Stores) (t : String) : (tenantNatIds s t).Nodup :=
  s.natEntriesDb.nodup.sublist (List.filter_sublist.map Prod.fst)

theorem mem_of_mem_tenantNatIds (s : Stores) (t : String) :
    ∀ id ∈ tenantNatIds s t, id ∈ s.natEntriesDb := by
  intro id hid
  obtain ⟨e, he, -⟩ := ownedBy_tenantNatIds s t id hid
  exact Dict.mem_of_get? he

theorem accounts_flushNatRules {header client : Option String} {s : Session} :
    wp (flushNatRules header client) s
      (fun _ s' => AuditAccounts s.stores s'.stores)
      (fun _ s' => AuditAccounts s.stores s'.stores) := by
  refine wp_mono wp_flushNatRules ?_
    (fun _ s' h => by rw [h.1]; exact accounts_of_unchanged rfl rfl rfl)
  intro _ s' h
  obtain ⟨t, s'', -, ⟨index', -, rfl⟩, h, -⟩ := h
  rw [h]
  have hflush := AuditWords.flushes_natFlushed "*"
    [("rules_removed", .int (tenantNatIds s.stores t).length)] client
  exact accounts_of_nat rfl rfl
    (.eraseAll hflush (nodup_tenantNatIds _ t) (mem_of_mem_tenantNatIds _ t) rfl)
    (fun _ => AuditEntry.not_saysChanged_of_flushes (Or.inr hflush))

/-- One creation entry for a NAT entry that changes its owner in place: this is right
exactly if the owner is another one. -/
theorem accounts_natClaimed_iff {s s' : Stores} {e : NATEntry} {t : String} {entry : AuditEntry}
    (ha : s'.audit = s.audit ++ [entry]) (hr : s'.rulesDb = s.rulesDb)
    (hn : s'.natEntriesDb = s.natEntriesDb.insert e.id { e with tenantId := some t })
    (hc : natWords.creates entry) (hin : s.natEntriesDb.get? e.id = some e) :
    AuditAccounts s s' ↔ e.tenantId ≠ some t := by
  constructor
  · intro h hown
    obtain ⟨new, hnew, -, -, hsilent⟩ := h
    rw [← hown, Dict.insert_of_get? hin] at hn
    rw [ha, List.append_cancel_left_eq] at hnew
    have hmem : entry ∈ new := by
      rw [← hnew]
      exact List.mem_singleton_self entry
    exact hsilent hr hn entry hmem (AuditEntry.saysChanged_of_creates hc)
  · intro hother
    refine accounts_of_nat ha hr ?_ (fun hsame => absurd ?_ hother)
    · rw [hn]
      exact .replace hin rfl
    · rw [← hsame, hn, Dict.get?_insert_self, Option.some.injEq] at hin
      rw [← hin]

/-- One creation entry for a NAT entry that is stored: this is right exactly if its
identifier was free. -/
theorem accounts_natStored_iff {s s' : Stores} {e : NATEntry} {entry : AuditEntry}
    (ha : s'.audit = s.audit ++ [entry]) (hr : s'.rulesDb = s.rulesDb)
    (hn : s'.natEntriesDb = s.natEntriesDb.insert entry.resourceId e) (hc : natWords.creates entry)
    (hnew : ∀ old, s.natEntriesDb.get? entry.resourceId = some old → e.unowned ≠ old.unowned) :
    AuditAccounts s s' ↔ entry.resourceId ∉ s.natEntriesDb := by
  have hiff := StoreAccounted.insert_iff (by decide) (by decide) hc hnew
  constructor
  · intro h
    obtain ⟨new, hlog, -, hnat, -⟩ := h
    rw [ha] at hlog
    obtain rfl := List.append_cancel_left hlog
    rw [hn] at hnat
    exact hiff.mp hnat
  · intro hfree
    refine accounts_of_nat ha hr ?_ (fun hsame => absurd ?_ hfree)
    · rw [hn]
      exact hiff.mpr hfree
    · rw [← hsame, hn]
      exact Dict.mem_insert.mpr (Or.inl rfl)

/-- A NAT entry that is there already would have been found. -/
theorem Findable.unowned_ne {s : Stores} (hf : Findable s) (ho : NatOwned s) (ha : NatAgree s)
    {e : NATEntry} (hnone : findExistingNat s e.signature = none) :
    ∀ {id old}, s.natEntriesDb.get? id = some old → e.unowned ≠ old.unowned := by
  intro id old hold heq
  have hlive := (ha id).mpr (Dict.mem_of_get? hold)
  obtain ⟨x, hx⟩ := Dict.mem_iff_get?.mp hlive
  obtain ⟨rfl, hmirror⟩ := ho.mirrored id x hx
  obtain rfl : old = x := Option.some.inj (hold.symm.trans hmirror)
  have hindexed := hf.nat old.id old hx
  have hsig : old.signature = e.signature := (congrArg NATEntry.signature heq).symm
  rw [hsig] at hindexed
  exact hf.nat_not_stored hnone old.id hindexed hlive

/-- **A NAT creation** is accounted for exactly if it does not hit an entry of the
tenant and does not overwrite another entry. -/
theorem accounts_natCreation_iff {c : Call} {template : NATEntry}
    (ht : c.request.natTemplate c.newId = some template) {s : Session} (hf : Findable s.stores)
    (ho : NatOwned s.stores) (ha : NatAgree s.stores) (hall : s.tc.AllSucceed) :
    wp (handler c) s
      (fun _ s' => AuditAccounts s.stores s'.stores ↔ NatAccountable s.stores c template)
      (fun _ s' => AuditAccounts s.stores s'.stores ↔ NatAccountable s.stores c template) := by
  refine wp_mono (wp_natCreation_logged ht) ?_ ?_
  · intro r s' h
    obtain ⟨-, details, t, e, hadm, ⟨hfound, h⟩ | ⟨hnone, hpool, -, inHw, rfl, h⟩⟩ := h
    · obtain ⟨id, -, hget⟩ := findExistingNat_eq_some hfound
      obtain ⟨rfl, hmirror⟩ := ho.mirrored id e hget
      have hcreates := AuditWords.creates_natCreated e.id details c.client template.type
      rw [accounts_natClaimed_iff (by rw [h]) (by rw [h]; rfl) (by rw [h]; rfl) hcreates hmirror]
      constructor
      · intro hown
        refine ⟨fun t' e' hadm' hfound' => ?_, fun _ hnone _ => ?_⟩
        · rw [hfound, Option.some.injEq] at hfound'
          rw [← hfound', hadm.tenant.eq hadm'.tenant]
          exact hown
        · rw [hfound] at hnone
          exact absurd hnone (by simp)
      · intro hacc
        exact hacc.1 t e hadm hfound
    · have hid : template.id = c.newId.val := id_of_natTemplate ht
      have hcreates := AuditWords.creates_natCreated template.id details c.client template.type
      have hne : ∀ old, s.stores.natEntriesDb.get? template.id = some old →
          NATEntry.unowned { template with inHw := inHw, tenantId := some t } ≠ old.unowned :=
        fun old hold => hf.unowned_ne (e := { template with inHw := inHw, tenantId := some t })
          ho ha hnone hold
      have hstored : AuditAccounts s.stores s'.stores ↔ template.id ∉ s.stores.natEntriesDb :=
        accounts_natStored_iff (by rw [h]) (by rw [h]; rfl) (by rw [h]; rfl) hcreates hne
      rw [hstored]
      constructor
      · intro hfree
        refine ⟨fun t' e' _ hfound => ?_, fun _ _ _ => hid ▸ hfree⟩
        rw [hnone] at hfound
        exact absurd hfound (by simp)
      · intro hacc
        exact hid.symm ▸ hacc.2 ⟨t, hadm⟩ hnone hpool
  · intro _ s' h
    obtain ⟨-, hs, hnone, hfail⟩ := h
    rw [hs]
    refine iff_of_true (accounts_of_unchanged rfl rfl rfl)
      ⟨fun t e hadm hfound => ?_, fun hadm hn hpool => ?_⟩
    · rw [hnone ⟨t, hadm⟩] at hfound
      exact absurd hfound (by simp)
    · exact absurd hall.natInstalls (hfail.not_installs ⟨hadm, hn, hpool⟩)

/-- **The deletion of a tenant** is accounted for exactly if nothing is removed with
it. -/
theorem accounts_deleteTenant_iff {t : String} {s : Session} (hall : s.tc.AllSucceed) :
    wp (deleteTenant t) s
      (fun _ s' => AuditAccounts s.stores s'.stores ↔
        (t ∈ s.stores.tenants → tenantRuleIds s.stores t = [] ∧ tenantNatIds s.stores t = []))
      (fun _ s' => AuditAccounts s.stores s'.stores ↔
        (t ∈ s.stores.tenants →
          tenantRuleIds s.stores t = [] ∧ tenantNatIds s.stores t = [])) := by
  refine wp_mono wp_deleteTenant ?_ ?_
  · intro _ s' h
    obtain ⟨hin, s'', ⟨index', -, rfl⟩, h⟩ := h
    have hr : s'.stores.rulesDb = s.stores.rulesDb.eraseAll (tenantRuleIds s.stores t) := by
      rw [h]
      rfl
    have hn : s'.stores.natEntriesDb
        = s.stores.natEntriesDb.eraseAll (tenantNatIds s.stores t) := by
      rw [h]
      rfl
    have haudit : s'.stores.audit = s.stores.audit := by
      rw [h]
      rfl
    have hrules : StoreAccounted ruleWords id s.stores.rulesDb
        (s.stores.rulesDb.eraseAll (tenantRuleIds s.stores t)) [] ↔ tenantRuleIds s.stores t = [] :=
      StoreAccounted.eraseAll_nil_iff (nodup_tenantRuleIds s.stores t)
        (mem_of_mem_tenantRuleIds s.stores t)
    have hnat : StoreAccounted natWords NATEntry.unowned s.stores.natEntriesDb
        (s.stores.natEntriesDb.eraseAll (tenantNatIds s.stores t)) [] ↔
          tenantNatIds s.stores t = [] :=
      StoreAccounted.eraseAll_nil_iff (nodup_tenantNatIds s.stores t)
        (mem_of_mem_tenantNatIds s.stores t)
    constructor
    · intro hacc _
      obtain ⟨new, hnew, h1, h2, -⟩ := hacc
      rw [haudit, List.self_eq_append_right] at hnew
      subst hnew
      rw [hr] at h1
      rw [hn] at h2
      exact ⟨hrules.mp h1, hnat.mp h2⟩
    · intro hempty
      obtain ⟨h1, h2⟩ := hempty hin
      refine accounts_of_unchanged ?_ ?_ haudit
      · rw [hr, h1]
        rfl
      · rw [hn, h2]
        rfl
  · intro _ s' h
    obtain ⟨-, hto, hsame⟩ := h
    have hout : t ∉ s.stores.tenants := by
      intro hin
      obtain ⟨i, hi⟩ := hto hin
      exact TcReply.not_timesOut_of_succeeds (hall i) hi
    rw [hsame hout]
    exact iff_of_true (accounts_of_unchanged rfl rfl rfl) (fun hin => absurd hin hout)

/-! ### Runs -/

/-- A call without a creation reaches no tc command. -/
theorem not_reachesTc_of_other {s : Stores} {c : Call} (hrule : ∀ r, c.request ≠ .addRule r)
    (hnat : c.request.natTemplate c.newId = none) : ¬ ReachesTc s c := by
  unfold ReachesTc
  split
  · rename_i r hr
    exact absurd hr (hrule r)
  · rw [hnat]
    rintro ⟨template, h, -⟩
    cases h

/-- An endpoint that neither deletes a tenant nor creates anything is accountable. -/
theorem accountable_of_other {d : Daemon} {c : Call} (hdel : ∀ t, c.request ≠ .deleteTenant t)
    (hrule : ∀ r, c.request ≠ .addRule r) (hnat : c.request.natTemplate c.newId = none) :
    Accountable d c := by
  refine ⟨fun t hr => absurd hr (hdel t), fun template t e hr => ?_,
    fun h => absurd h (not_reachesTc_of_other hrule hnat)⟩
  rw [hnat] at hr
  cases hr

theorem accountable_addRule_iff {d : Daemon} {c : Call} {request : FirewallRuleRequest}
    (hr : c.request = .addRule request) :
    Accountable d c ↔
      (RuleReaches d.stores c.tenantHeader request → c.newId.val ∉ d.stores.rulesDb) := by
  have hfree : DrawsFree d c ↔
      (RuleReaches d.stores c.tenantHeader request → c.newId.val ∉ d.stores.rulesDb) := by
    unfold DrawsFree ReachesTc
    rw [hr]
  rw [← hfree]
  refine ⟨Accountable.drawsFree, fun h => ⟨fun t hr' => ?_, fun template t e ht => ?_, h⟩⟩
  · rw [hr] at hr'
    cases hr'
  · rw [hr] at ht
    cases ht

theorem accountable_natTemplate_iff {d : Daemon} {c : Call} {template : NATEntry}
    (ht : c.request.natTemplate c.newId = some template) :
    Accountable d c ↔ NatAccountable d.stores c template := by
  have hfree : DrawsFree d c ↔ ((∃ t, Admitted d.stores c.tenantHeader c.request.ValidMode t) →
      findExistingNat d.stores template.signature = none → c.request.PoolFree d.stores →
        c.newId.val ∉ d.stores.natEntriesDb) := by
    unfold DrawsFree ReachesTc
    split
    · rename_i hr
      rw [hr] at ht
      cases ht
    · simp only [ht, Option.some.injEq, exists_eq_left', and_imp]
  constructor
  · intro h
    exact ⟨fun t e => h.asksForNew template t e ht, hfree.mp h.drawsFree⟩
  · intro h
    refine ⟨fun t hr => ?_, fun template' t e ht' => ?_, hfree.mpr h.2⟩
    · rw [hr] at ht
      cases ht
    · rw [ht, Option.some.injEq] at ht'
      rw [← ht']
      exact h.1 t e

theorem accountable_deleteTenant_iff {d : Daemon} {c : Call} {t : String}
    (hr : c.request = .deleteTenant t) :
    Accountable d c ↔ (t ∈ d.stores.tenants →
      tenantRuleIds d.stores t = [] ∧ tenantNatIds d.stores t = []) := by
  constructor
  · intro h
    exact h.emptyTenant t hr
  · intro h
    refine ⟨fun t' hr' => ?_, fun template t e ht => ?_, fun hreach => ?_⟩
    · rw [hr, Request.deleteTenant.injEq] at hr'
      rw [← hr']
      exact h
    · rw [hr] at ht
      cases ht
    · refine absurd hreach (not_reachesTc_of_other (fun r hr' => ?_) (by rw [hr]; rfl))
      rw [hr] at hr'
      cases hr'

/-- **One request is accounted for exactly if it is accountable.** -/
theorem accounts_serve_iff {d : Daemon} {c : Call} (hf : Findable d.stores)
    (ho : NatOwned d.stores) (ha : NatAgree d.stores) (hall : ∀ i, (c.replies i).succeeds = true) :
    AuditAccounts d.stores (serve d c).2.stores ↔ Accountable d c := by
  have hsucceed : (c.session d).tc.AllSucceed := hall
  refine serve_of_wp (P := fun _ d' => AuditAccounts d.stores d'.stores ↔ Accountable d c) ?_
  -- the other endpoints are always accountable
  have hother : (∀ t, c.request ≠ .deleteTenant t) → (∀ r, c.request ≠ .addRule r) →
      c.request.natTemplate c.newId = none →
      wp (handler c) (c.session d) (fun _ s' => AuditAccounts d.stores s'.stores)
        (fun _ s' => AuditAccounts d.stores s'.stores) →
      wp (handler c) (c.session d) (fun _ s' => AuditAccounts d.stores s'.stores ↔ Accountable d c)
        (fun _ s' => AuditAccounts d.stores s'.stores ↔ Accountable d c) := by
    intro hdel hrule hnat h
    have hacc : Accountable d c := accountable_of_other hdel hrule hnat
    exact wp_mono h (fun _ _ h => iff_of_true h hacc) (fun _ _ h => iff_of_true h hacc)
  have hnat : ∀ {template}, c.request.natTemplate c.newId = some template →
      wp (handler c) (c.session d) (fun _ s' => AuditAccounts d.stores s'.stores ↔ Accountable d c)
        (fun _ s' => AuditAccounts d.stores s'.stores ↔ Accountable d c) := by
    intro template ht
    rw [accountable_natTemplate_iff ht]
    exact accounts_natCreation_iff ht hf ho ha hsucceed
  have hsame : ∀ s' : Session, s'.stores = d.stores → AuditAccounts d.stores s'.stores := by
    intro s' h
    rw [h]
    exact accounts_of_unchanged rfl rfl rfl
  cases hr : c.request with
  | registerTenant request =>
    refine hother (by simp [hr]) (by simp [hr]) (by rw [hr]; rfl) ?_
    rw [handler, hr]
    refine wp_mono wp_registerTenant (fun _ s' h => ?_) (fun _ s' h => hsame s' h)
    rw [h.2]
    exact accounts_of_unchanged rfl rfl rfl
  | deleteTenant t =>
    rw [accountable_deleteTenant_iff hr, handler, hr]
    exact accounts_deleteTenant_iff hsucceed
  | listRules =>
    refine hother (by simp [hr]) (by simp [hr]) (by rw [hr]; rfl) ?_
    rw [handler, hr]
    exact wp_mono wp_listRules (fun _ s' h => hsame s' h.1) (fun _ s' h => hsame s' h)
  | addRule request =>
    rw [accountable_addRule_iff hr, handler, hr]
    exact accounts_addRule_iff hf hsucceed
  | deleteRule ruleId =>
    refine hother (by simp [hr]) (by simp [hr]) (by rw [hr]; rfl) ?_
    rw [handler, hr]
    exact accounts_deleteRule
  | flushRules =>
    refine hother (by simp [hr]) (by simp [hr]) (by rw [hr]; rfl) ?_
    rw [handler, hr]
    exact accounts_flushRules hsucceed
  | addSnatRule r => exact hnat (by rw [hr]; rfl)
  | addDnatRule r => exact hnat (by rw [hr]; rfl)
  | addPortForwardRule r => exact hnat (by rw [hr]; rfl)
  | listNatRules =>
    refine hother (by simp [hr]) (by simp [hr]) (by rw [hr]; rfl) ?_
    rw [handler, hr]
    exact wp_mono wp_listNatRules (fun _ s' h => hsame s' h) (fun _ s' h => hsame s' h)
  | deleteNatRule ruleId =>
    refine hother (by simp [hr]) (by simp [hr]) (by rw [hr]; rfl) ?_
    rw [handler, hr]
    exact accounts_deleteNatRule hsucceed
  | flushNatRules =>
    refine hother (by simp [hr]) (by simp [hr]) (by rw [hr]; rfl) ?_
    rw [handler, hr]
    exact accounts_flushNatRules

/-- Where every command succeeds, the two NAT stores stay alike. -/
theorem natAgree_run_of_succeeds {calls : List Call}
    (hall : ∀ c ∈ calls, ∀ i, (c.replies i).succeeds = true) :
    NatAgree (daemon.run calls).stores := by
  refine (nat_stores_agree_iff calls).mpr ?_ calls [] (List.append_nil calls).symm
  intro l₁ c l₂ e id _ _ entry _ i _
  have hc : c ∈ calls := by
    rw [e]
    simp
  exact TcReply.not_timesOut_of_succeeds (hall c hc _)

/-- **When the audit log accounts for every change.**  Along any sequence of requests
whose tc commands all succeed, what each request appends to the log accounts for what
it does to `rules_db` and `nat_entries_db` if and only if no tenant is deleted that has
rules or NAT entries left, no tenant asks again for a NAT entry it has already, and no
creation draws the identifier of a live rule or entry. -/
theorem audit_accounts_iff (calls : List Call)
    (hall : ∀ c ∈ calls, ∀ i, (c.replies i).succeeds = true) :
    daemon.Meets (fun d c => AuditAccounts d.stores (serve d c).2.stores) calls ↔
      daemon.Meets Accountable calls := by
  have hstep : ∀ l₁ c l₂, calls = l₁ ++ c :: l₂ →
      (AuditAccounts (daemon.run l₁).stores (serve (daemon.run l₁) c).2.stores ↔
        Accountable (daemon.run l₁) c) := by
    intro l₁ c l₂ e
    have hbefore : ∀ x ∈ l₁, ∀ i, (x.replies i).succeeds = true := by
      intro x hx
      exact hall x (by rw [e]; exact List.mem_append_left _ hx)
    exact accounts_serve_iff (findable_run l₁) (natOwned_run l₁)
      (natAgree_run_of_succeeds hbefore) (hall c (by rw [e]; simp))
  constructor
  · intro h l₁ c l₂ e
    exact (hstep l₁ c l₂ e).mp (h l₁ c l₂ e)
  · intro h l₁ c l₂ e
    exact (hstep l₁ c l₂ e).mpr (h l₁ c l₂ e)

/-- A tenant creates a rule and a NAT entry and removes both before it is deleted. -/
def cleanDeparture : List Call :=
  [sampleTenant "a",
    sampleCall (.addRule (sampleRule port80 none)) "a" firstId,
    sampleCall (.addSnatRule ⟨"10.0.0.5", "203.0.113.7", snatModeStatic, none⟩) "a" firstId,
    sampleCall .flushRules "a" secondId,
    sampleCall (.deleteNatRule firstId.val) "a" secondId,
    sampleCall (.deleteTenant "a") "a" secondId]

theorem audit_accounts_iff_cleanDeparture :
    daemon.Meets (fun d c => AuditAccounts d.stores (serve d c).2.stores) cleanDeparture := by
  refine (audit_accounts_iff cleanDeparture ?_).mpr (Machine.meets_of_meetsFrom _ ?_)
  · intro c hc i
    simp only [cleanDeparture, List.mem_cons, List.not_mem_nil, or_false] at hc
    rcases hc with rfl | rfl | rfl | rfl | rfl | rfl <;> rfl
  · refine ⟨?_, ?_, ?_, ?_, ?_, ?_, trivial⟩
    · exact accountable_of_other (fun t h => by cases h) (fun r h => by cases h) rfl
    · exact (accountable_addRule_iff rfl).mpr (fun _ => by decide +kernel)
    · refine (accountable_natTemplate_iff rfl).mpr
        ⟨fun t e _ hfound => ?_, fun _ _ _ => by decide +kernel⟩
      exact absurd (Option.isSome_of_eq_some hfound) (by decide +kernel)
    · exact accountable_of_other (fun t h => by cases h) (fun r h => by cases h) rfl
    · exact accountable_of_other (fun t h => by cases h) (fun r h => by cases h) rfl
    · exact (accountable_deleteTenant_iff rfl).mpr (fun _ => by decide +kernel)

/-- A tenant with one rule and one NAT entry. -/
def tenantWithBoth : List Call := cleanDeparture.take 3

/-- The tenant is deleted. -/
def departure : Call := sampleCall (.deleteTenant "a") "a" secondId

/-- The tenant asks for the NAT entry it has. -/
def sameNatAgain : Call :=
  sampleCall (.addSnatRule ⟨"10.0.0.5", "203.0.113.7", snatModeStatic, none⟩) "a" secondId

/-- The tenant asks for another rule, and the identifier of the first one is drawn
again. -/
def overwritingRule : Call := sampleCall (.addRule (sampleRule port443 none)) "a" firstId

/-- **The log is wrong in three ways**: the deletion of the tenant takes a rule and a NAT
entry along and leaves the log as it is, asking again for the NAT entry changes neither
store and logs a creation, and a rule that is overwritten goes without a deletion entry. -/
theorem audit_does_not_account :
    (∀ c ∈ tenantWithBoth ++ [sameNatAgain, departure, overwritingRule],
      ∀ i, (c.replies i).succeeds = true) ∧
    ¬ daemon.Meets (fun d c => AuditAccounts d.stores (serve d c).2.stores)
      (tenantWithBoth ++ [departure]) ∧
    ¬ daemon.Meets (fun d c => AuditAccounts d.stores (serve d c).2.stores)
      (tenantWithBoth ++ [sameNatAgain]) ∧
    ¬ daemon.Meets (fun d c => AuditAccounts d.stores (serve d c).2.stores)
      (tenantWithBoth ++ [overwritingRule]) := by
  refine ⟨fun c hc i => ?_, fun h => ?_, fun h => ?_, fun h => ?_⟩
  · simp only [tenantWithBoth, cleanDeparture, List.take_succ_cons, List.take_zero,
      List.cons_append, List.nil_append, List.mem_cons, List.not_mem_nil, or_false] at hc
    rcases hc with rfl | rfl | rfl | rfl | rfl | rfl <;> rfl
  · obtain ⟨new, hnew, hrules, -, -⟩ := h tenantWithBoth departure [] rfl
    have hnone : (serve (daemon.run tenantWithBoth) departure).2.stores.audit
        = (daemon.run tenantWithBoth).stores.audit := by decide +kernel
    have hgone : (daemon.run tenantWithBoth).stores.rulesDb.keysLost id
        (serve (daemon.run tenantWithBoth) departure).2.stores.rulesDb = [firstId.val] := by
      decide +kernel
    rw [hnone, List.self_eq_append_right] at hnew
    subst hnew
    have hremoved := hrules.removed
    rw [hgone] at hremoved
    simp at hremoved
  · obtain ⟨new, hnew, -, -, hsilent⟩ := h tenantWithBoth sameNatAgain [] rfl
    have hrules : (serve (daemon.run tenantWithBoth) sameNatAgain).2.stores.rulesDb
        = (daemon.run tenantWithBoth).stores.rulesDb := by decide +kernel
    have hnat : (serve (daemon.run tenantWithBoth) sameNatAgain).2.stores.natEntriesDb
        = (daemon.run tenantWithBoth).stores.natEntriesDb := by decide +kernel
    have hsays : ((serve (daemon.run tenantWithBoth) sameNatAgain).2.stores.audit.drop
        (daemon.run tenantWithBoth).stores.audit.length).any AuditEntry.saysChanged = true := by
      decide +kernel
    rw [hnew, List.drop_left] at hsays
    obtain ⟨e, he, hchanged⟩ := List.any_eq_true.mp hsays
    exact hsilent hrules hnat e he hchanged
  · obtain ⟨new, hnew, hrules, -, -⟩ := h tenantWithBoth overwritingRule [] rfl
    have hgone : (daemon.run tenantWithBoth).stores.rulesDb.keysLost id
        (serve (daemon.run tenantWithBoth) overwritingRule).2.stores.rulesDb
          = [firstId.val] := by decide +kernel
    have hlog : ((serve (daemon.run tenantWithBoth) overwritingRule).2.stores.audit.drop
        (daemon.run tenantWithBoth).stores.audit.length).all ruleWords.creates = true := by
      decide +kernel
    rw [hnew, List.drop_left, List.all_eq_true] at hlog
    have hother := fun e he => ruleWords.only_creates (by decide) (by decide) (hlog e he)
    have hremoved := hrules.removed
    rw [hgone, List.filter_eq_nil_iff.mpr (fun e he => (hother e he).1),
      List.filter_eq_nil_iff.mpr (fun e he => (hother e he).2)] at hremoved
    simp at hremoved

end PrismFirewall.TcFirewall
