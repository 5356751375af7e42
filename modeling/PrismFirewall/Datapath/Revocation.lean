import PrismFirewall.Datapath.OffloadClient
import PrismFirewall.OffloadDaemon.Flush

/-!
# From a rule to its sessions

The pipeline and the daemon together.  Two things are expected of an offloaded
session: that it goes away when the rule that let it through is revoked, and that it
admits nothing the access list denies.

The daemon flushes by a literal comparison of rule ids, but the client names a rule
by its place in the sorted list and never sends its id.  `revocable_iff` says for
which lists this is the id.  In the direction of the request the hardware admits only
what the list lets through; the other direction is the return path of the same
session, programmed without a look at the list, and `return_path_admitted` says for
which lists the list agrees with it.
-/

namespace PrismFirewall.OffloadDaemon

open PrismFirewall.Lib (Dict)

/-- The daemon takes the request, and then a flush of the rule id leaves nothing of
the session. -/
def RemovedByFlush (req : ProgramSessionRequest) (ruleId : String) : Prop :=
  ∀ (s : OffloadServiceImpl) (now : Nanos) (key : SessionKey) (r : ProgramSessionResponse),
    req.key = some key → (s.programSession now req).1 = .ok r → r.success = true →
    ((s.programSession now req).2.flushSessions ⟨some (.RuleId ruleId)⟩).2.sessionTable.get key
      = none ∧
    ((s.programSession now req).2.flushSessions ⟨some (.RuleId ruleId)⟩).2.sessionTable.get
      (reverseKey key) = none ∧
    s.docaManager.nextHandle ∉
      ((s.programSession now req).2.flushSessions ⟨some (.RuleId ruleId)⟩).2.docaManager.entries ∧
    s.docaManager.nextHandle + 1 ∉
      ((s.programSession now req).2.flushSessions ⟨some (.RuleId ruleId)⟩).2.docaManager.entries

theorem not_poisoned_of_success {s : OffloadServiceImpl} {req : ProgramSessionRequest}
    {key : SessionKey} (hkey : req.key = some key) {now : Nanos} {r : ProgramSessionResponse}
    (hr : (s.programSession now req).1 = .ok r) (hs : r.success = true) :
    s.docaManager.poisoned = false := by
  cases hp : s.docaManager.poisoned with
  | false => rfl
  | true =>
    rw [OffloadServiceImpl.programSession_poisoned hkey hp] at hr
    rw [← Except.ok.inj hr] at hs
    cases hs

/-- **A flush of the rule id that a request carries removes its session.** -/
theorem removedByFlush_ruleId {req : ProgramSessionRequest} (hb : req.bidirectional = true) :
    RemovedByFlush req req.ruleId := by
  intro s now key r hkey hr hs
  have hp := not_poisoned_of_success hkey hr hs
  rw [OffloadServiceImpl.programSession_bidirectional hkey hb hp]
  generalize hs' : (⟨OffloadServiceImpl.insertSession s.sessionTable now req key
    s.docaManager.nextHandle (some (s.docaManager.nextHandle + 1)), _⟩ : OffloadServiceImpl) = s'
  have hp' : s'.docaManager.poisoned = false := by rw [← hs']
  -- the two entries, the second one over the first if they share a text
  have hrev : ∃ e, s'.sessionTable.map.get? (sessionKeyString (reverseKey key)) = some e ∧
      e.ruleId = req.ruleId ∧ e.slot.Names s.docaManager.nextHandle ∧
      e.slot.Names (s.docaManager.nextHandle + 1) := by
    rw [← hs']
    exact ⟨_, Dict.get?_insert_self _ _ _, rfl, Or.inr rfl, Or.inl rfl⟩
  have hfwd : ∃ e, s'.sessionTable.map.get? (sessionKeyString key) = some e ∧
      e.ruleId = req.ruleId := by
    rw [← hs']
    simp only [OffloadServiceImpl.insertSession, SessionTable.insert, Dict.get?_insert]
    split
    · exact ⟨_, rfl, rfl⟩
    · exact ⟨_, if_pos trivial, rfl⟩
  have htable : ∀ k, (∃ e, s'.sessionTable.map.get? k = some e ∧ e.ruleId = req.ruleId) →
      (s'.flushSessions ⟨some (.RuleId req.ruleId)⟩).2.sessionTable.map.get? k = none := by
    intro k hk
    obtain ⟨e, he, hrule⟩ := hk
    rw [OffloadServiceImpl.flushSessions_snd]
    refine (SessionTable.get?_flushWhere _ _ _).trans ?_
    rw [he, Option.filter_some, MatchCriteria.covers, hrule]
    simp
  obtain ⟨e, he, hrule, hn, hn'⟩ := hrev
  have hslot := SessionTable.slots_eq_some.mpr ⟨e, he, rfl⟩
  have hcov : (MatchCriteria.RuleId req.ruleId).covers e = true := by
    simp [MatchCriteria.covers, hrule]
  refine ⟨htable _ hfwd, htable _ ⟨e, he, hrule⟩, fun h => ?_, fun h => ?_⟩
  · exact ((mem_flushSessions hp' _ _).mp h).2 ⟨_, _, ⟨e, he, hcov⟩, hslot, hn⟩
  · exact ((mem_flushSessions hp' _ _).mp h).2 ⟨_, _, ⟨e, he, hcov⟩, hslot, hn'⟩

end PrismFirewall.OffloadDaemon

namespace PrismFirewall.Datapath

open Lib
open PrismFirewall.OffloadDaemon (ProgramSessionRequest OffloadServiceImpl MockHwEntry
  RemovedByFlush removedByFlush_ruleId)

/-! ### Revoking a rule -/

/-- Every eligible rule that lets some five-tuple through is named after its place. -/
def NamedByPlace (checked : Bool) (acl : AclEngine) : Prop :=
  ∀ i r, acl.rules[i]? = some r → r.action ≠ .Deny → r.offloadEligible = true →
    (∃ t, acl.evaluate checked t = some ⟨r.action, true, some i⟩) → r.id = "rule_" ++ toString i

/-- **A revoked rule takes its sessions with it** in every run exactly if the rules are
named after their places. -/
theorem revocable_iff (checked : Bool) (rules : List AclRule) (minPackets idleTimeoutSecs : UInt64)
    (offloadTx : Channel) :
    (∀ ops vni tuple req,
      Offloads (machine checked (.new (.new rules) minPackets idleTimeoutSecs offloadTx)) ops vni
        tuple req →
      ∃ rule, (AclEngine.new rules).matched checked tuple = some rule ∧
        (buildProgramRequest req).ruleId = rule.id ∧
        RemovedByFlush (buildProgramRequest req) rule.id) ↔
    NamedByPlace checked (.new rules) := by
  constructor
  · intro h i r hr hd hoff ht
    obtain ⟨t, ht⟩ := ht
    obtain ⟨ops, hops⟩ := (offloads_iff checked (.new rules) minPackets idleTimeoutSecs offloadTx 0
      t _).mpr ⟨_, ht, hd, rfl, rfl⟩
    obtain ⟨rule, hrule, hid, -⟩ := h ops 0 t _ hops
    obtain ⟨j, r', hw, hr', hmatched⟩ := evaluate_spec checked ht hd
    simp only [AclVerdict.mk.injEq, Option.some.injEq] at hw
    obtain ⟨-, -, rfl⟩ := hw
    obtain rfl := Option.some.inj (hr.symm.trans hr')
    obtain rfl := Option.some.inj (hrule.symm.trans hmatched)
    exact hid.symm
  · intro h ops vni tuple req hops
    obtain ⟨w, hw, hd, hoff, rfl⟩ := (offloads_iff checked (.new rules) minPackets idleTimeoutSecs
      offloadTx vni tuple req).mp ⟨ops, hops⟩
    obtain ⟨i, r, rfl, hr, hmatched⟩ := evaluate_spec checked hw hd
    dsimp only at hd hoff
    rw [hoff] at hw
    have hid : (buildProgramRequest ⟨vni, tuple, .Forward, true, some i⟩).ruleId = r.id :=
      (h i r hr hd hoff ⟨tuple, hw⟩).symm
    refine ⟨r, hmatched, hid, ?_⟩
    rw [← hid]
    exact removedByFlush_ruleId rfl

/-- The pipeline that offloads a flow at its second packet. -/
def tenMachine : Machine (Option Pipeline) Op (Option PacketVerdict) :=
  machine true (.new (.new allowTen) 2 300 ⟨8, [], false⟩)

/-- A flow that `allow-ten` lets through. -/
def tenTuple : FiveTuple := ⟨0x0a000001, 0x08080808, 12345, 443, 6⟩

/-- The session is programmed under `rule_0`; a flush of `allow-ten` removes nothing. -/
theorem allow_ten_not_revocable :
    (allowTen.map AclRule.id).Nodup ∧
    Offloads tenMachine [packetFromTen 0] 100 tenTuple ⟨100, tenTuple, .Forward, true, some 0⟩ ∧
    ¬ ∃ rule, (AclEngine.new allowTen).matched true tenTuple = some rule ∧
      (buildProgramRequest ⟨100, tenTuple, .Forward, true, some 0⟩).ruleId = rule.id ∧
      RemovedByFlush (buildProgramRequest ⟨100, tenTuple, .Forward, true, some 0⟩) rule.id := by
  refine ⟨by decide, ⟨64, 1, .OffloadAndForward 100 (some 0), by decide +kernel, rfl⟩, ?_⟩
  intro h
  obtain ⟨rule, hrule, hid, -⟩ := h
  have hm : (AclEngine.new allowTen).matched true tenTuple = allowTen.head? := by decide +kernel
  obtain rfl := Option.some.inj (hm.symm.trans hrule)
  exact absurd hid (by decide)

/-! ### The return path -/

/-- The hardware entry that forwards a five-tuple. -/
def forwardingEntry (vni : UInt32) (t : FiveTuple) : MockHwEntry :=
  ⟨vni, ipv4ToString t.srcIp, ipv4ToString t.dstIp, t.srcPort.toUInt32, t.dstPort.toUInt32,
    protocolNumber t.protocol, OffloadAction.Forward.number, 0, 0, 0⟩

/-- The list lets the return path of every flow through that it offloads. -/
def AdmitsReturns (checked : Bool) (acl : AclEngine) : Prop :=
  ∀ t w w', acl.evaluate checked t = some w → w.action ≠ .Deny → w.offloadEligible = true →
    acl.evaluate checked t.reverse = some w' → w'.action ≠ .Deny

/-- The entries a daemon programs for the request are those of the flow and of its
return path. -/
theorem programSession_entries (s : OffloadServiceImpl) (hp : s.docaManager.poisoned = false)
    (now : OffloadDaemon.Nanos) (vni : UInt32) (t : FiveTuple) (ruleIdIndex : Option Nat) :
    (s.programSession now
        (buildProgramRequest ⟨vni, t, .Forward, true, ruleIdIndex⟩)).2.docaManager.entries
      = (s.docaManager.entries.insert s.docaManager.nextHandle (forwardingEntry vni t)).insert
          (s.docaManager.nextHandle + 1) (forwardingEntry vni t.reverse) := by
  rw [OffloadServiceImpl.programSession_bidirectional rfl rfl hp]
  rfl

/-- **Hardware admits a flow the access list lets through, and its return path**; the
list admits the return paths as well, in every run, exactly if it denies the reverse
of no five-tuple that an eligible rule lets through. -/
theorem return_path_admitted (checked : Bool) (rules : List AclRule)
    (minPackets idleTimeoutSecs : UInt64) (offloadTx : Channel) :
    (∀ ops vni tuple req,
      Offloads (machine checked (.new (.new rules) minPackets idleTimeoutSecs offloadTx)) ops vni
        tuple req →
      Admits checked (.new rules) tuple ∧
      ∀ (s : OffloadServiceImpl) (now : OffloadDaemon.Nanos), s.docaManager.poisoned = false →
        (s.programSession now (buildProgramRequest req)).2.docaManager.entries
          = (s.docaManager.entries.insert s.docaManager.nextHandle
              (forwardingEntry vni tuple)).insert
            (s.docaManager.nextHandle + 1) (forwardingEntry vni tuple.reverse)) ∧
    ((∀ ops vni tuple req,
      Offloads (machine checked (.new (.new rules) minPackets idleTimeoutSecs offloadTx)) ops vni
        tuple req →
      ∀ w, (AclEngine.new rules).evaluate checked tuple.reverse = some w → w.action ≠ .Deny) ↔
    AdmitsReturns checked (.new rules)) := by
  refine ⟨fun ops vni tuple req hops => ?_, fun h t w w' ht hd hoff hw' => ?_,
    fun h ops vni tuple req hops w' hw' => ?_⟩
  · obtain ⟨w, hw, hd, -, rfl⟩ := (offloads_iff checked (.new rules) minPackets idleTimeoutSecs
      offloadTx vni tuple req).mp ⟨ops, hops⟩
    exact ⟨⟨w, hw, hd⟩, fun s now hp => programSession_entries s hp now vni tuple _⟩
  · obtain ⟨ops, hops⟩ := (offloads_iff checked (.new rules) minPackets idleTimeoutSecs offloadTx 0
      t _).mpr ⟨w, ht, hd, hoff, rfl⟩
    exact h ops 0 t _ hops w' hw'
  · obtain ⟨w, hw, hd, hoff, -⟩ := (offloads_iff checked (.new rules) minPackets idleTimeoutSecs
      offloadTx vni tuple req).mp ⟨ops, hops⟩
    exact h tuple w w' hw hd hoff hw'

/-- A list that says nothing about packets to `10.0.0.0/8`. -/
theorem return_path_denied :
    Offloads tenMachine [packetFromTen 0] 100 tenTuple ⟨100, tenTuple, .Forward, true, some 0⟩ ∧
    (AclEngine.new allowTen).evaluate true tenTuple.reverse = some ⟨.Deny, false, none⟩ :=
  ⟨⟨64, 1, .OffloadAndForward 100 (some 0), by decide +kernel, rfl⟩, by decide +kernel⟩

end PrismFirewall.Datapath
