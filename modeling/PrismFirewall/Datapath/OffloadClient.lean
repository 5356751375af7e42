import PrismFirewall.Datapath.FastPath
import PrismFirewall.OffloadDaemon.GrpcServer

/-!
# The offload client

`offload_client.rs` turns a request of the pipeline into one of the daemon's, and
this file says which requests a pipeline makes.  A flow is handed over when a packet
of it gets the verdict `OffloadAndForward`; `offloads_iff` says that a run in which
this happens exists exactly for the flows that an eligible rule lets through,
whatever the threshold is.
-/

namespace PrismFirewall.Datapath

open Lib
open PrismFirewall.OffloadDaemon (SessionKey ProgramSessionRequest reverseKey)

/-- `Ipv4Addr::to_string`. -/
def ipv4ToString (ip : UInt32) : String :=
  toString (ip >>> 24) ++ "." ++ toString (ip >>> 16 &&& 0xff) ++ "."
    ++ toString (ip >>> 8 &&& 0xff) ++ "." ++ toString (ip &&& 0xff)

/-- The number of a protocol in the daemon's messages. -/
def protocolNumber (protocol : UInt8) : Int32 :=
  if protocol = 6 then 1 else if protocol = 17 then 2 else if protocol = 1 then 3 else 0

def fiveTupleToSessionKey (vni : UInt32) (tuple : FiveTuple) : SessionKey :=
  ⟨vni, ipv4ToString tuple.srcIp, ipv4ToString tuple.dstIp, tuple.srcPort.toUInt32,
    tuple.dstPort.toUInt32, protocolNumber tuple.protocol⟩

/-- The number of an action in the daemon's messages. -/
def OffloadAction.number : OffloadAction → Int32
  | .Forward => 1
  | .Drop => 2

def buildProgramRequest (req : OffloadRequest) : ProgramSessionRequest :=
  ⟨some (fiveTupleToSessionKey req.vni req.tuple), req.action.number, req.bidirectional, 0,
    (req.ruleIdIndex.map (fun idx => "rule_" ++ toString idx)).getD ""⟩

/-- The five-tuple of the other direction. -/
def FiveTuple.reverse (t : FiveTuple) : FiveTuple :=
  ⟨t.dstIp, t.srcIp, t.dstPort, t.srcPort, t.protocol⟩

/-! ### Which rule decides -/

section

variable (checked : Bool)

/-- The rule that matches a five-tuple. -/
def AclEngine.matched (acl : AclEngine) (t : FiveTuple) : Option AclRule :=
  acl.rules.find? (fun r => matchesRule checked r t == some true)

theorem evaluateFrom_spec (t : FiveTuple) (rules : List AclRule) : ∀ idx w,
    evaluateFrom checked t idx rules = some w → w = ⟨.Deny, false, none⟩ ∨
      ∃ i r, w = ⟨r.action, r.offloadEligible, some (idx + i)⟩ ∧ rules[i]? = some r ∧
        rules.find? (fun r => matchesRule checked r t == some true) = some r := by
  induction rules with
  | nil =>
    intro idx w h
    exact Or.inl (Option.some.inj h).symm
  | cons rule rest ih =>
    intro idx w h
    rw [evaluateFrom] at h
    obtain ⟨b, hb, h⟩ := Option.bind_eq_some_iff.mp h
    cases b with
    | true =>
      rw [if_pos rfl] at h
      refine Or.inr ⟨0, rule, (Option.some.inj h).symm, rfl, ?_⟩
      exact List.find?_cons_of_pos (by simp [hb])
    | false =>
      rw [if_neg (by simp)] at h
      rcases ih (idx + 1) w h with hw | ⟨i, r, hw, hr, hf⟩
      · exact Or.inl hw
      · refine Or.inr ⟨i + 1, r, ?_, hr, ?_⟩
        · rw [hw, Nat.add_assoc, Nat.add_comm 1 i]
        · rw [List.find?_cons_of_neg (by simp [hb])]
          exact hf

/-- **A verdict other than the default is that of the rule that matches**, with its
place. -/
theorem evaluate_spec {acl : AclEngine} {t : FiveTuple} {w : AclVerdict}
    (h : acl.evaluate checked t = some w) (hd : w.action ≠ .Deny) :
    ∃ i r, w = ⟨r.action, r.offloadEligible, some i⟩ ∧ acl.rules[i]? = some r ∧
      acl.matched checked t = some r := by
  rcases evaluateFrom_spec checked t acl.rules 0 w h with hw | ⟨i, r, hw, hr, hf⟩
  · rw [hw] at hd
    exact absurd rfl hd
  · rw [Nat.zero_add] at hw
    exact ⟨i, r, hw, hr, hf⟩

end

/-! ### The request of a packet -/

/-- The request a packet hands to the channel, by its verdict. -/
def offloadRequest (tuple : FiveTuple) : PacketVerdict → Option OffloadRequest
  | .OffloadAndForward vni ruleIdIndex => some ⟨vni, tuple, .Forward, true, ruleIdIndex⟩
  | _ => none

variable {checked : Bool} {p p' : Pipeline} {vni : UInt32} {tuple : FiveTuple}

/-- What a packet hands to the channel: nothing, or a request for a flow that an
eligible rule lets through. -/
theorem processPacket_offload {pktLen : UInt64} {now : Nat} {v : PacketVerdict}
    (hs : p.processPacket checked vni tuple pktLen now = some (v, p')) :
    p'.offloadTx = (offloadRequest tuple v).elim p.offloadTx p.offloadTx.trySend ∧
    ∀ req ∈ offloadRequest tuple v, ∃ w, p.acl.evaluate checked tuple = some w ∧
      w.action ≠ .Deny ∧ w.offloadEligible = true ∧
      req = ⟨vni, tuple, .Forward, true, w.ruleIdIndex⟩ := by
  obtain ⟨connState, conntrack, -, hstep⟩ := packetStep_of_processPacket hs
  cases hstep with
  | fast => exact ⟨rfl, fun req hreq => by cases hreq⟩
  | drop => exact ⟨rfl, fun req hreq => by cases hreq⟩
  | @offload _ w hw hdeny hoff =>
    refine ⟨rfl, fun req hreq => ⟨w, hw, hdeny, ?_, (Option.some.inj hreq).symm⟩⟩
    simp only [OffloadEligibility.evaluate, Bool.and_eq_true] at hoff
    exact hoff.1.2
  | forward => exact ⟨rfl, fun req hreq => by cases hreq⟩

/-! ### Warming a flow up -/

/-- The flow has sent `j` packets and has not been offloaded. -/
structure Warm (acl : AclEngine) (minPackets : UInt64) (vni : UInt32) (tuple : FiveTuple)
    (j : Nat) (p : Pipeline) : Prop where
  acl_eq : p.acl = acl
  eligibility : p.offloadEligibility = ⟨minPackets⟩
  flows : p.offloadedFlows = ∅
  entry : (p.conntrack.entryOrNew (vni, tuple) 0).packets.toNat = j
  bytes : (p.conntrack.entryOrNew (vni, tuple) 0).bytes = 0
  state : (p.conntrack.entryOrNew (vni, tuple) 0).state = if 1 < j then .Established else .New

/-- The number of packets after which a flow is offloaded. -/
def threshold (minPackets : UInt64) : Nat := max 2 minPackets.toNat

variable {acl : AclEngine} {minPackets : UInt64} {j : Nat}

/-- What an empty packet does to the connection tracker. -/
theorem Warm.lookup (h : Warm acl minPackets vni tuple j p) (hj : j + 1 < 2 ^ 64)
    (checked : Bool) :
    ∃ e, p.conntrack.lookup checked vni tuple 0 0
        = some (e.state,
            { p.conntrack with entries := p.conntrack.entries.insert (vni, tuple) e }) ∧
      e.packets.toNat = j + 1 ∧ e.bytes = 0 ∧
      e.state = if 1 < j + 1 then .Established else .New := by
  have hadd : ((p.conntrack.entryOrNew (vni, tuple) 0).packets + 1).toNat = j + 1 := by
    rw [UInt64.toNat_add, h.entry]
    exact Nat.mod_eq_of_lt hj
  have hpackets : Overflow.addU64 checked (p.conntrack.entryOrNew (vni, tuple) 0).packets 1
      = some ((p.conntrack.entryOrNew (vni, tuple) 0).packets + 1) := by
    rw [Overflow.addU64, h.entry, if_neg]
    rintro ⟨-, hle⟩
    exact absurd hj (Nat.not_lt.mpr hle)
  have hbytes : Overflow.addU64 checked (p.conntrack.entryOrNew (vni, tuple) 0).bytes 0
      = some 0 := by
    rw [Overflow.addU64, h.bytes, if_neg]
    · rfl
    · rintro ⟨-, hle⟩
      exact absurd hle (by decide)
  refine ⟨⟨if (p.conntrack.entryOrNew (vni, tuple) 0).state = .New ∧
      (p.conntrack.entryOrNew (vni, tuple) 0).packets + 1 > 1 then .Established
      else (p.conntrack.entryOrNew (vni, tuple) 0).state,
      (p.conntrack.entryOrNew (vni, tuple) 0).packets + 1, 0, 0,
      (p.conntrack.entryOrNew (vni, tuple) 0).vni⟩, ?_, hadd, rfl, ?_⟩
  · simp only [ConnTracker.lookup, hpackets, hbytes, Option.bind_eq_bind, Option.bind_some,
      Option.pure_def]
  · have hgt : (p.conntrack.entryOrNew (vni, tuple) 0).packets + 1 > 1 ↔ 1 < j + 1 := by
      rw [gt_iff_lt, UInt64.lt_iff_toNat_lt, hadd]
      rfl
    simp only [hgt, h.state]
    by_cases h1 : 1 < j
    · simp [h1, Nat.lt_succ_of_lt h1]
    · simp [h1]

/-- The next packet of a warm flow offloads it, or leaves it warmer. -/
theorem Warm.processPacket (h : Warm acl minPackets vni tuple j p) (hj : j + 1 < 2 ^ 64)
    {w : AclVerdict} (hw : acl.evaluate checked tuple = some w) (hd : w.action ≠ .Deny)
    (hoff : w.offloadEligible = true) :
    ∃ p', p.processPacket checked vni tuple 0 0
        = some (if threshold minPackets ≤ j + 1 then .OffloadAndForward vni w.ruleIdIndex
            else .Forward, p') ∧
      (¬ threshold minPackets ≤ j + 1 → Warm acl minPackets vni tuple (j + 1) p') := by
  obtain ⟨e, hlookup, hpackets, hbytes, hstate⟩ := h.lookup hj checked
  have hcount : ({ p.conntrack with
      entries := p.conntrack.entries.insert (vni, tuple) e } : ConnTracker).getPacketCount
        vni tuple = e.packets := by
    simp [ConnTracker.getPacketCount]
  have hdecision : (OffloadEligibility.evaluate ⟨minPackets⟩ e.state w e.packets).shouldOffload
      = decide (threshold minPackets ≤ j + 1) := by
    have hstate' : e.state = .Established ↔ 2 ≤ j + 1 := by
      rw [hstate]
      by_cases h1 : 1 < j + 1
      · rw [if_pos h1]
        exact iff_of_true rfl h1
      · rw [if_neg h1]
        exact iff_of_false (by simp) h1
    simp only [OffloadEligibility.evaluate, hoff, Bool.and_true, threshold, Nat.max_le, hstate',
      ge_iff_le, UInt64.le_iff_toNat_le, hpackets, Bool.decide_and]
  simp only [Pipeline.processPacket, hlookup, Option.bind_eq_bind, Option.bind_some,
    Pipeline.countRx, h.flows, Finset.notMem_empty, and_false, if_false, Pipeline.slowPath,
    h.acl_eq, hw, hd, h.eligibility]
  rw [hcount, hdecision]
  by_cases ht : threshold minPackets ≤ j + 1
  · simp only [ht, decide_true, if_true]
    exact ⟨_, rfl, fun hn => absurd trivial hn⟩
  · simp only [ht, decide_false, Bool.false_eq_true, if_false]
    refine ⟨_, rfl, fun _ => ⟨rfl, rfl, rfl, ?_, ?_, ?_⟩⟩
    · simpa [ConnTracker.entryOrNew, Pipeline.countTx] using hpackets
    · simpa [ConnTracker.entryOrNew, Pipeline.countTx] using hbytes
    · simpa [ConnTracker.entryOrNew, Pipeline.countTx] using hstate

/-! ### Runs -/

/-- In the state that the run reaches, a packet of the flow hands the request to the
channel. -/
def Offloads (M : Machine (Option Pipeline) Op (Option PacketVerdict)) (ops : List Op)
    (vni : UInt32) (tuple : FiveTuple) (req : OffloadRequest) : Prop :=
  ∃ pktLen now v, (M.step (M.run ops) (.processPacket vni tuple pktLen now)).1 = some v ∧
    offloadRequest tuple v = some req

/-- The packet that warms a flow up. -/
def emptyPacket (vni : UInt32) (tuple : FiveTuple) : Op := .processPacket vni tuple 0 0

theorem warm_run (minPackets idleTimeoutSecs : UInt64) (offloadTx : Channel) (vni : UInt32)
    {w : AclVerdict} (hw : acl.evaluate checked tuple = some w) (hd : w.action ≠ .Deny)
    (hoff : w.offloadEligible = true) (j : Nat) : j < threshold minPackets →
    ∃ p, (machine checked (.new acl minPackets idleTimeoutSecs offloadTx)).run
        (List.replicate j (emptyPacket vni tuple)) = some p ∧
      Warm acl minPackets vni tuple j p := by
  induction j with
  | zero => exact fun _ => ⟨_, rfl, rfl, rfl, rfl, rfl, rfl, rfl⟩
  | succ j ih =>
    intro hj
    obtain ⟨p, hp, hwarm⟩ := ih (Nat.lt_of_succ_lt hj)
    have hlt : threshold minPackets ≤ 2 ^ 64 :=
      Nat.max_le.mpr ⟨by decide, Nat.le_of_lt minPackets.toNat_lt⟩
    obtain ⟨p', hp', hwarm'⟩ := hwarm.processPacket (Nat.lt_of_lt_of_le hj hlt) hw hd hoff
    refine ⟨p', ?_, hwarm' (Nat.not_le.mpr hj)⟩
    rw [List.replicate_succ', Machine.run_append_singleton, hp]
    simp only [machine, emptyPacket, Pipeline.apply, Option.bind_some, hp', Option.bind_eq_bind,
      Option.pure_def]

/-- **A flow can be offloaded exactly if an eligible rule lets it through.** -/
theorem offloads_iff (checked : Bool) (acl : AclEngine) (minPackets idleTimeoutSecs : UInt64)
    (offloadTx : Channel) (vni : UInt32) (tuple : FiveTuple) (req : OffloadRequest) :
    (∃ ops, Offloads (machine checked (.new acl minPackets idleTimeoutSecs offloadTx)) ops vni
      tuple req) ↔
    ∃ w, acl.evaluate checked tuple = some w ∧ w.action ≠ .Deny ∧ w.offloadEligible = true ∧
      req = ⟨vni, tuple, .Forward, true, w.ruleIdIndex⟩ := by
  constructor
  · intro h
    obtain ⟨ops, pktLen, now, v, hv, hreq⟩ := h
    cases hr : (machine checked (.new acl minPackets idleTimeoutSecs offloadTx)).run ops with
    | none =>
      rw [hr] at hv
      cases hv
    | some p =>
      have hinv := aclInv_run checked acl minPackets idleTimeoutSecs offloadTx ops p hr
      rw [hr] at hv
      cases hp : p.processPacket checked vni tuple pktLen now with
      | none =>
        simp [machine, Pipeline.apply, hp] at hv
      | some r =>
        simp only [machine, Pipeline.apply, hp, Option.bind_some, Option.bind_eq_bind,
          Option.pure_def, Option.some.injEq] at hv
        subst hv
        have hspec := (processPacket_offload hp).2 req hreq
        rw [hinv.acl_eq] at hspec
        exact hspec
  · intro h
    obtain ⟨w, hw, hd, hoff, rfl⟩ := h
    have hpos : 2 ≤ threshold minPackets := Nat.le_max_left _ _
    have hle : threshold minPackets < 2 ^ 64 :=
      Nat.max_lt.mpr ⟨by decide, minPackets.toNat_lt⟩
    obtain ⟨p, hp, hwarm⟩ := warm_run minPackets idleTimeoutSecs offloadTx vni hw hd hoff
      (threshold minPackets - 1) (by omega)
    obtain ⟨p', hp', -⟩ := hwarm.processPacket (by omega) hw hd hoff
    rw [if_pos (by omega)] at hp'
    refine ⟨List.replicate (threshold minPackets - 1) (emptyPacket vni tuple), 0, 0,
      .OffloadAndForward vni w.ruleIdIndex, ?_, rfl⟩
    rw [hp]
    simp only [machine, Pipeline.apply, Option.bind_some, hp', Option.bind_eq_bind,
      Option.pure_def]

end PrismFirewall.Datapath
