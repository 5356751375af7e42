import Mathlib.Data.Finset.Card
import PrismFirewall.Datapath.OffloadClient

/-!
# A flow is offloaded once

`FastPath.lean` says what verdict a packet gets; this file says at which packet a flow is
offloaded.  The calls alone tell how many packets a flow has sent since its entry was
created (`tracked`): every packet adds one, and an eviction forgets a flow that has been
idle.  A packet is due when an eligible rule lets it through and it is at least the
`max 2 min_packets`-th (`Due`), and a flow is offloaded at its first due packet.

The connection tracker counts modulo `2 ^ 64` and the set of offloaded flows outlives it.
Neither matters: an eligible flow has been offloaded long before its counter wraps
(`hadDue_of_tracked`), and a flow that comes back after an eviction is on the fast path
from its second packet on.
-/

namespace PrismFirewall.Datapath

open Lib

/-! ### What the calls tell -/

/-- A flow since its entry was created: the packets, and the time of the last one. -/
structure Tracked where
  packets : Nat
  lastSeen : Nat

/-- The packet belongs to the flow. -/
def IsPacket (key : FlowKey) (op : Op) : Prop :=
  ∃ pktLen now, op = .processPacket key.1 key.2 pktLen now

/-- The number of the next packet of a flow. -/
def nextOrdinal (h : Option Tracked) : Nat := (h.map Tracked.packets).getD 0 + 1

/-- What a call adds to the history of a flow. -/
def track (idleTimeoutSecs : UInt64) (key : FlowKey) (h : Option Tracked) : Op → Option Tracked
  | .processPacket vni tuple _ now => if (vni, tuple) = key then some ⟨nextOrdinal h, now⟩ else h
  | .evictIdle now =>
    h.filter (fun t => decide (now - t.lastSeen < idleTimeoutSecs.toNat * 1000000000))
  | .receive => h
  | .closeReceiver => h

/-- The history of a flow. -/
def tracked (idleTimeoutSecs : UInt64) (ops : List Op) (key : FlowKey) : Option Tracked :=
  ops.foldl (track idleTimeoutSecs key) none

@[simp] theorem tracked_append_singleton (idleTimeoutSecs : UInt64) (ops : List Op) (op : Op)
    (key : FlowKey) : tracked idleTimeoutSecs (ops ++ [op]) key
      = track idleTimeoutSecs key (tracked idleTimeoutSecs ops key) op := by
  simp [tracked]

/-- The number that a packet of the flow has after the calls `ops`, since the flow's entry
was created. -/
def ordinal (idleTimeoutSecs : UInt64) (ops : List Op) (key : FlowKey) : Nat :=
  nextOrdinal (tracked idleTimeoutSecs ops key)

/-- A flow that is tracked has sent its last counted packet. -/
theorem exists_packet_of_tracked (idleTimeoutSecs : UInt64) (key : FlowKey) (ops : List Op) :
    ∀ t, tracked idleTimeoutSecs ops key = some t →
      ∃ pre op post, ops = pre ++ op :: post ∧ IsPacket key op ∧
        ordinal idleTimeoutSecs pre key = t.packets := by
  induction ops using List.reverseRecOn with
  | nil => exact fun t ht => by cases ht
  | append_singleton ops op ih =>
    intro t ht
    have hbefore : tracked idleTimeoutSecs ops key = some t →
        ∃ pre op' post, ops ++ [op] = pre ++ op' :: post ∧ IsPacket key op' ∧
          ordinal idleTimeoutSecs pre key = t.packets := by
      intro h
      obtain ⟨pre, op', post, rfl, hpacket, hord⟩ := ih t h
      exact ⟨pre, op', post ++ [op], by simp, hpacket, hord⟩
    rw [tracked_append_singleton] at ht
    cases op with
    | processPacket vni tuple pktLen now =>
      rw [track] at ht
      split at ht
      · rename_i hkey
        refine ⟨ops, _, [], rfl, ⟨pktLen, now, by rw [← hkey]⟩, ?_⟩
        rw [← Option.some.inj ht, ordinal]
      · exact hbefore ht
    | evictIdle now => exact hbefore (Option.eq_some_of_filter_eq_some ht)
    | receive => exact hbefore ht
    | closeReceiver => exact hbefore ht

/-! ### Due packets -/

section

variable (checked : Bool) (acl : AclEngine) (minPackets idleTimeoutSecs : UInt64)

/-- A rule lets the five-tuple through and allows to offload it. -/
def Eligible (tuple : FiveTuple) : Prop :=
  ∃ w, acl.evaluate checked tuple = some w ∧ w.action ≠ .Deny ∧ w.offloadEligible = true

/-- After the calls `ops`, a packet of the flow is one to be offloaded. -/
structure Due (ops : List Op) (key : FlowKey) : Prop where
  eligible : Eligible checked acl key.2
  reached : threshold minPackets ≤ ordinal idleTimeoutSecs ops key

/-- A packet of the flow has been due. -/
def HadDue (ops : List Op) (key : FlowKey) : Prop :=
  ∃ pre op post, ops = pre ++ op :: post ∧ IsPacket key op ∧
    Due checked acl minPackets idleTimeoutSecs pre key

/-- The next packet of the flow is due, and it is the first one. -/
def FirstDue (ops : List Op) (key : FlowKey) : Prop :=
  Due checked acl minPackets idleTimeoutSecs ops key ∧
    ¬ HadDue checked acl minPackets idleTimeoutSecs ops key

variable {checked acl minPackets idleTimeoutSecs}

theorem not_hadDue_nil (key : FlowKey) :
    ¬ HadDue checked acl minPackets idleTimeoutSecs [] key := by
  rintro ⟨pre, op, post, h, -⟩
  simp at h

theorem hadDue_append_singleton {ops : List Op} {op : Op} {key : FlowKey} :
    HadDue checked acl minPackets idleTimeoutSecs (ops ++ [op]) key ↔
      HadDue checked acl minPackets idleTimeoutSecs ops key ∨
      IsPacket key op ∧ Due checked acl minPackets idleTimeoutSecs ops key := by
  constructor
  · rintro ⟨pre, op', post, h, hpacket, hdue⟩
    rcases append_singleton_eq_append_cons_iff.mp h with ⟨rfl, rfl, -⟩ | ⟨post', -, h⟩
    · exact Or.inr ⟨hpacket, hdue⟩
    · exact Or.inl ⟨pre, op', post', h, hpacket, hdue⟩
  · rintro (⟨pre, op', post, rfl, hpacket, hdue⟩ | ⟨hpacket, hdue⟩)
    · exact ⟨pre, op', post ++ [op], by simp, hpacket, hdue⟩
    · exact ⟨ops, op, [], rfl, hpacket, hdue⟩

/-- An eligible flow whose entry has counted up to the threshold has had a due packet. -/
theorem hadDue_of_tracked {ops : List Op} {key : FlowKey} {t : Tracked}
    (ht : tracked idleTimeoutSecs ops key = some t) (he : Eligible checked acl key.2)
    (hle : threshold minPackets ≤ t.packets) :
    HadDue checked acl minPackets idleTimeoutSecs ops key := by
  obtain ⟨pre, op, post, rfl, hpacket, hord⟩ :=
    exists_packet_of_tracked idleTimeoutSecs key ops t ht
  exact ⟨pre, op, post, rfl, hpacket, he, by rw [hord]; exact hle⟩

/-- Where a counter that wraps is below the minimum at a due packet, an earlier packet has been
due. -/
theorem Due.hadDue_of_wrapped {ops : List Op} {key : FlowKey}
    (h : Due checked acl minPackets idleTimeoutSecs ops key)
    (hwrap : ordinal idleTimeoutSecs ops key % 2 ^ 64 < minPackets.toNat) :
    HadDue checked acl minPackets idleTimeoutSecs ops key := by
  obtain ⟨htwo, hmin⟩ := Nat.max_le.mp h.reached
  have hmax := minPackets.toNat_lt
  cases ht : tracked idleTimeoutSecs ops key with
  | none =>
    have hone : ordinal idleTimeoutSecs ops key = 1 := by
      rw [ordinal, ht]
      rfl
    omega
  | some t =>
    have hsucc : ordinal idleTimeoutSecs ops key = t.packets + 1 := by
      rw [ordinal, ht]
      rfl
    refine hadDue_of_tracked ht h.eligible (Nat.max_le.mpr ⟨?_, ?_⟩)
    · omega
    · omega

end

/-! ### The connection tracker -/

/-- An entry holds what the history tells; its counter wraps. -/
structure Counts (t : Tracked) (e : ConnEntry) : Prop where
  packets : e.packets.toNat = t.packets % 2 ^ 64
  pos : 1 ≤ t.packets
  state : e.state = if t.packets = 1 then .New else .Established
  lastSeen : e.lastSeen = t.lastSeen

/-- The state is `Established` from the second packet on. -/
theorem Counts.established_iff {t : Tracked} {e : ConnEntry} (h : Counts t e) :
    e.state = .Established ↔ 2 ≤ t.packets := by
  have hpos := h.pos
  rw [h.state]
  split
  · exact iff_of_false (by simp) (by omega)
  · exact iff_of_true rfl (by omega)

theorem lookup_counts {checked : Bool} {ct ct' : ConnTracker} {vni : UInt32} {tuple : FiveTuple}
    {pktLen : UInt64} {now : Nat} {connState : ConnState} {h : Option Tracked}
    (hc : Option.Rel Counts h (ct.entries.get? (vni, tuple)))
    (hl : ct.lookup checked vni tuple pktLen now = some (connState, ct')) :
    ∃ e, ct' = { ct with entries := ct.entries.insert (vni, tuple) e } ∧ e.state = connState ∧
      Counts ⟨nextOrdinal h, now⟩ e := by
  obtain ⟨e, rfl, hstate, hpackets, hseen, hif⟩ := ConnTracker.lookup_eq_some hl
  refine ⟨e, rfl, hstate, ?_⟩
  rw [ConnTracker.entryOrNew] at hpackets hif
  generalize ct.entries.get? (vni, tuple) = found at hc hpackets hif
  cases hc with
  | none =>
    have he : e.packets = 1 := hpackets
    refine ⟨by rw [he]; rfl, Nat.le_refl 1, ?_, hseen⟩
    rw [hif, he]
    rfl
  | @some t e₀ hc =>
    have he : e.packets = e₀.packets + 1 := hpackets
    have hnat : e.packets.toNat = (t.packets + 1) % 2 ^ 64 := by
      rw [he, UInt64.toNat_add, hc.packets]
      show (t.packets % 2 ^ 64 + 1) % 2 ^ 64 = (t.packets + 1) % 2 ^ 64
      omega
    have hpos := hc.pos
    refine ⟨hnat, by show 1 ≤ t.packets + 1; omega, ?_, hseen⟩
    show e.state = if t.packets + 1 = 1 then .New else .Established
    rw [if_neg (by omega), hif]
    show (if e₀.state = .New ∧ e.packets > 1 then ConnState.Established else e₀.state) = _
    rw [hc.state]
    by_cases h1 : t.packets = 1
    · have hgt : e.packets > 1 := by
        rw [gt_iff_lt, UInt64.lt_iff_toNat_lt, hnat, h1]
        decide
      rw [if_pos h1, if_pos ⟨rfl, hgt⟩]
    · rw [if_neg h1, if_neg (by simp)]

/-! ### The invariant -/

def PacketVerdict.isOffload : PacketVerdict → Bool
  | .OffloadAndForward _ _ => true
  | _ => false

/-- The flow that a call offloads, by the answer to it. -/
def offloadedFlow : Op → Option PacketVerdict → Option FlowKey
  | .processPacket vni tuple _ _, some v => if v.isOffload then some (vni, tuple) else none
  | _, _ => none

@[simp] theorem offloadedFlow_none (op : Op) : offloadedFlow op none = none := by
  cases op <;> rfl

/-- The flows that were given the verdict `OffloadAndForward`, in order. -/
def offloadVerdicts (M : Machine (Option Pipeline) Op (Option PacketVerdict)) (ops : List Op) :
    List FlowKey :=
  M.events (fun _ => offloadedFlow) ops

theorem offloadVerdicts_append_singleton
    (M : Machine (Option Pipeline) Op (Option PacketVerdict)) (ops : List Op) (op : Op) :
    offloadVerdicts M (ops ++ [op])
      = offloadVerdicts M ops ++ (offloadedFlow op (M.step (M.run ops) op).1).toList :=
  M.events_append_singleton _ ops op

section

variable (checked : Bool) (acl : AclEngine) (minPackets idleTimeoutSecs : UInt64)

/-- The state of a pipeline after the calls `ops`, in which the flows of `offloaded` have
been given the verdict `OffloadAndForward`. -/
structure OnceInv (ops : List Op) (offloaded : List FlowKey) (p : Pipeline) : Prop where
  acl_eq : p.acl = acl
  eligibility : p.offloadEligibility = ⟨minPackets⟩
  timeout : p.conntrack.idleTimeoutSecs = idleTimeoutSecs
  entries : ∀ key, Option.Rel Counts (tracked idleTimeoutSecs ops key)
    (p.conntrack.entries.get? key)
  flows : ∀ key, key ∈ p.offloadedFlows ↔ HadDue checked acl minPackets idleTimeoutSecs ops key
  verdicts : p.offloadedFlows = offloaded.toFinset
  nodup : offloaded.Nodup
  metric : p.metrics.offloadedFlows = UInt64.ofNat p.offloadedFlows.card
  balance : p.metrics.rxPackets = p.metrics.txPackets + p.metrics.droppedPackets

end

variable {checked : Bool} {acl : AclEngine} {minPackets idleTimeoutSecs : UInt64}
  {ops : List Op} {offloaded : List FlowKey} {p p' : Pipeline} {vni : UInt32} {tuple : FiveTuple}
  {pktLen : UInt64} {now : Nat} {v : PacketVerdict}

theorem shouldOffload_iff {connState : ConnState} {w : AclVerdict} {count : UInt64} :
    (OffloadEligibility.evaluate ⟨minPackets⟩ connState w count).shouldOffload = true ↔
      connState = .Established ∧ w.offloadEligible = true ∧ minPackets.toNat ≤ count.toNat := by
  simp only [OffloadEligibility.evaluate, Bool.and_eq_true, decide_eq_true_eq, ge_iff_le,
    UInt64.le_iff_toNat_le, and_assoc]

/-- **A packet offloads its flow exactly if it is the first due one.** -/
theorem OnceInv.isOffload_iff (h : OnceInv checked acl minPackets idleTimeoutSecs ops offloaded p)
    (hs : p.processPacket checked vni tuple pktLen now = some (v, p')) :
    v.isOffload = true ↔ FirstDue checked acl minPackets idleTimeoutSecs ops (vni, tuple) := by
  obtain ⟨connState, conntrack, hlookup, hstep⟩ := packetStep_of_processPacket hs
  obtain ⟨e, rfl, hstate, hc⟩ := lookup_counts (h.entries (vni, tuple)) hlookup
  have hcount : ({ p.conntrack with
      entries := p.conntrack.entries.insert (vni, tuple) e } : ConnTracker).getPacketCount
        vni tuple = e.packets := by
    simp [ConnTracker.getPacketCount]
  have hpackets : e.packets.toNat = ordinal idleTimeoutSecs ops (vni, tuple) % 2 ^ 64 := hc.packets
  have hest : connState = .Established ↔ 2 ≤ ordinal idleTimeoutSecs ops (vni, tuple) := by
    rw [← hstate]
    exact hc.established_iff
  cases hstep with
  | fast _ hmem =>
    refine iff_of_false (by simp [PacketVerdict.isOffload]) (fun hf => ?_)
    exact hf.2 ((h.flows _).mp hmem)
  | @drop _ w hw hdeny =>
    refine iff_of_false (by simp [PacketVerdict.isOffload]) (fun hf => ?_)
    obtain ⟨w', hw', hdeny', -⟩ := hf.1.eligible
    rw [h.acl_eq] at hw
    rw [Option.some.inj (hw'.symm.trans hw)] at hdeny'
    exact hdeny' hdeny
  | @offload hslow w hw hdeny hoff =>
    rw [h.eligibility, shouldOffload_iff, hcount, hpackets] at hoff
    obtain ⟨he, helig, hmin⟩ := hoff
    rw [h.acl_eq] at hw
    refine iff_of_true rfl ⟨⟨⟨w, hw, hdeny, helig⟩, ?_⟩, fun hd => ?_⟩
    · exact Nat.max_le.mpr ⟨hest.mp he, le_trans hmin (Nat.mod_le _ _)⟩
    · exact hslow ⟨he, (h.flows _).mpr hd⟩
  | @forward hslow w hw hdeny hoff =>
    refine iff_of_false (by simp [PacketVerdict.isOffload]) (fun hf => ?_)
    obtain ⟨hdue, hfirst⟩ := hf
    obtain ⟨w', hw', -, helig⟩ := hdue.eligible
    rw [h.acl_eq] at hw
    obtain rfl := Option.some.inj (hw'.symm.trans hw)
    -- only a counter that has wrapped hides the threshold
    refine hfirst (hdue.hadDue_of_wrapped (Nat.lt_of_not_le (fun hle => ?_)))
    rw [← Bool.not_eq_true, h.eligibility, shouldOffload_iff, hcount, hpackets] at hoff
    exact hoff ⟨hest.mpr (Nat.max_le.mp hdue.reached).1, helig, hle⟩

theorem processPacket_flows (hs : p.processPacket checked vni tuple pktLen now = some (v, p')) :
    p'.offloadedFlows = (if v.isOffload then insert (vni, tuple) p.offloadedFlows
      else p.offloadedFlows) ∧
    p'.metrics.offloadedFlows
      = p.metrics.offloadedFlows + (if v.isOffload then 1 else 0) := by
  obtain ⟨connState, conntrack, -, hstep⟩ := packetStep_of_processPacket hs
  cases hstep with
  | fast => exact ⟨rfl, (UInt64.add_zero _).symm⟩
  | drop => exact ⟨rfl, (UInt64.add_zero _).symm⟩
  | offload => exact ⟨rfl, rfl⟩
  | forward => exact ⟨rfl, (UInt64.add_zero _).symm⟩

theorem processPacket_fixed (hs : p.processPacket checked vni tuple pktLen now = some (v, p')) :
    p'.acl = p.acl ∧ p'.offloadEligibility = p.offloadEligibility ∧
      p'.conntrack.idleTimeoutSecs = p.conntrack.idleTimeoutSecs := by
  obtain ⟨connState, conntrack, hlookup, hstep⟩ := packetStep_of_processPacket hs
  obtain ⟨e, rfl, -⟩ := ConnTracker.lookup_eq_some hlookup
  cases hstep <;> exact ⟨rfl, rfl, rfl⟩

/-- A packet is received, and sent or dropped. -/
theorem processPacket_balance (h : p.metrics.rxPackets
      = p.metrics.txPackets + p.metrics.droppedPackets)
    (hs : p.processPacket checked vni tuple pktLen now = some (v, p')) :
    p'.metrics.rxPackets = p'.metrics.txPackets + p'.metrics.droppedPackets := by
  have hsent : p.metrics.rxPackets + 1 = p.metrics.txPackets + 1 + p.metrics.droppedPackets := by
    rw [h, UInt64.add_assoc, UInt64.add_comm p.metrics.droppedPackets 1, ← UInt64.add_assoc]
  obtain ⟨connState, conntrack, -, hstep⟩ := packetStep_of_processPacket hs
  cases hstep with
  | fast => exact hsent
  | drop =>
    show p.metrics.rxPackets + 1 = p.metrics.txPackets + (p.metrics.droppedPackets + 1)
    rw [h, UInt64.add_assoc]
  | offload => exact hsent
  | forward => exact hsent

/-- What the tracker holds after a packet. -/
theorem OnceInv.entries_processPacket
    (h : OnceInv checked acl minPackets idleTimeoutSecs ops offloaded p)
    (hs : p.processPacket checked vni tuple pktLen now = some (v, p')) (key : FlowKey) :
    Option.Rel Counts
      (tracked idleTimeoutSecs (ops ++ [.processPacket vni tuple pktLen now]) key)
      (p'.conntrack.entries.get? key) := by
  obtain ⟨connState, conntrack, hlookup, hstep⟩ := packetStep_of_processPacket hs
  obtain ⟨e, rfl, -, hc⟩ := lookup_counts (h.entries (vni, tuple)) hlookup
  have hct : p'.conntrack = { p.conntrack with
      entries := p.conntrack.entries.insert (vni, tuple) e } := by
    cases hstep <;> rfl
  rw [hct, tracked_append_singleton, track, Dict.get?_insert]
  by_cases hkey : (vni, tuple) = key
  · subst hkey
    rw [if_pos rfl, if_pos rfl]
    exact .some hc
  · rw [if_neg hkey, if_neg (fun he => hkey he.symm)]
    exact h.entries key

theorem isPacket_processPacket {key : FlowKey} :
    IsPacket key (.processPacket vni tuple pktLen now) ↔ key = (vni, tuple) := by
  constructor
  · rintro ⟨l, n, h⟩
    cases h
    rfl
  · rintro rfl
    exact ⟨pktLen, now, rfl⟩

/-- After a packet the offloaded flows are those that have had a due one. -/
theorem OnceInv.flows_processPacket
    (h : OnceInv checked acl minPackets idleTimeoutSecs ops offloaded p)
    (hs : p.processPacket checked vni tuple pktLen now = some (v, p')) (key : FlowKey) :
    key ∈ p'.offloadedFlows ↔ HadDue checked acl minPackets idleTimeoutSecs
      (ops ++ [.processPacket vni tuple pktLen now]) key := by
  have hiff := h.isOffload_iff hs
  rw [(processPacket_flows hs).1, hadDue_append_singleton, isPacket_processPacket, ← h.flows key]
  cases hv : v.isOffload with
  | true =>
    have hfirst := hiff.mp hv
    rw [if_pos rfl, Finset.mem_insert]
    constructor
    · rintro (rfl | hd)
      · exact Or.inr ⟨rfl, hfirst.1⟩
      · exact Or.inl hd
    · rintro (hd | ⟨rfl, -⟩)
      · exact Or.inr hd
      · exact Or.inl rfl
  | false =>
    rw [if_neg Bool.false_ne_true]
    constructor
    · exact Or.inl
    · rintro (hd | ⟨rfl, hd⟩)
      · exact hd
      · by_contra hn
        rw [h.flows] at hn
        exact Bool.false_ne_true (hv.symm.trans (hiff.mpr ⟨hd, hn⟩))

/-- **A packet keeps the invariant.** -/
theorem OnceInv.processPacket (h : OnceInv checked acl minPackets idleTimeoutSecs ops offloaded p)
    (hs : p.processPacket checked vni tuple pktLen now = some (v, p')) :
    OnceInv checked acl minPackets idleTimeoutSecs (ops ++ [.processPacket vni tuple pktLen now])
      (offloaded ++ (offloadedFlow (.processPacket vni tuple pktLen now) (some v)).toList) p' := by
  obtain ⟨hflows, hmetric⟩ := processPacket_flows hs
  obtain ⟨hacl, helig, htimeout⟩ := processPacket_fixed hs
  have hbalance := processPacket_balance h.balance hs
  cases hv : v.isOffload with
  | true =>
    have hnew : (vni, tuple) ∉ p.offloadedFlows := by
      rw [h.flows]
      exact ((h.isOffload_iff hs).mp hv).2
    have hlist : offloadedFlow (.processPacket vni tuple pktLen now) (some v)
        = some (vni, tuple) := by
      rw [offloadedFlow, hv, if_pos rfl]
    rw [hv, if_pos rfl] at hflows hmetric
    rw [hlist, Option.toList_some]
    refine ⟨hacl.trans h.acl_eq, helig.trans h.eligibility, htimeout.trans h.timeout,
      h.entries_processPacket hs, h.flows_processPacket hs, ?_, ?_, ?_, hbalance⟩
    · rw [hflows, h.verdicts, List.toFinset_append, Finset.union_comm]
      rfl
    · refine List.nodup_append.mpr ⟨h.nodup, List.nodup_singleton _, fun a ha b hb hab => ?_⟩
      rw [List.mem_singleton] at hb
      subst hab hb
      rw [h.verdicts, List.mem_toFinset] at hnew
      exact hnew ha
    · rw [hmetric, hflows, Finset.card_insert_of_notMem hnew, h.metric, UInt64.ofNat_add]
      rfl
  | false =>
    have hlist : offloadedFlow (.processPacket vni tuple pktLen now) (some v) = none := by
      rw [offloadedFlow, hv, if_neg Bool.false_ne_true]
    rw [hv, if_neg Bool.false_ne_true] at hflows hmetric
    rw [hlist, Option.toList_none, List.append_nil]
    refine ⟨hacl.trans h.acl_eq, helig.trans h.eligibility, htimeout.trans h.timeout,
      h.entries_processPacket hs, h.flows_processPacket hs, hflows.trans h.verdicts, h.nodup, ?_,
      hbalance⟩
    rw [hmetric, hflows, UInt64.add_zero]
    exact h.metric

/-- A call that is no packet keeps the invariant if the tracker follows the history. -/
theorem OnceInv.of_conntrack (h : OnceInv checked acl minPackets idleTimeoutSecs ops offloaded p)
    {op : Op} (hop : ∀ key, ¬ IsPacket key op) {conntrack : ConnTracker} {offloadTx : Channel}
    (htimeout : conntrack.idleTimeoutSecs = p.conntrack.idleTimeoutSecs)
    (hentries : ∀ key, Option.Rel Counts (tracked idleTimeoutSecs (ops ++ [op]) key)
      (conntrack.entries.get? key)) :
    OnceInv checked acl minPackets idleTimeoutSecs (ops ++ [op]) offloaded
      { p with conntrack := conntrack, offloadTx := offloadTx } := by
  refine ⟨h.acl_eq, h.eligibility, htimeout.trans h.timeout, hentries, fun key => ?_, h.verdicts,
    h.nodup, h.metric, h.balance⟩
  rw [hadDue_append_singleton]
  exact (h.flows key).trans (or_iff_left (fun hd => hop key hd.1)).symm

/-- An eviction forgets the same flows in the history and in the tracker. -/
theorem OnceInv.entries_evictIdle
    (h : OnceInv checked acl minPackets idleTimeoutSecs ops offloaded p) (now : Nat)
    (key : FlowKey) : Option.Rel Counts (tracked idleTimeoutSecs (ops ++ [.evictIdle now]) key)
      ((p.conntrack.evictIdle now).2.entries.get? key) := by
  have hrel := h.entries key
  rw [tracked_append_singleton, track, ConnTracker.evictIdle, Dict.get?_filter, h.timeout]
  generalize tracked idleTimeoutSecs ops key = t at hrel
  generalize p.conntrack.entries.get? key = e at hrel
  cases hrel with
  | none => exact .none
  | @some t e hc =>
    simp only [Option.filter_some, hc.lastSeen]
    split
    · exact .some hc
    · exact .none

/-- **Every call keeps the invariant.** -/
theorem OnceInv.apply (h : OnceInv checked acl minPackets idleTimeoutSecs ops offloaded p)
    {op : Op} {o : Option PacketVerdict} (hs : p.apply checked op = some (o, p')) :
    OnceInv checked acl minPackets idleTimeoutSecs (ops ++ [op])
      (offloaded ++ (offloadedFlow op o).toList) p' := by
  cases op with
  | processPacket vni tuple pktLen now =>
    obtain ⟨v, rfl, hp⟩ := processPacket_of_apply hs
    exact h.processPacket hp
  | evictIdle now =>
    obtain ⟨rfl, rfl⟩ := Prod.mk.inj (Option.some.inj hs)
    rw [offloadedFlow_none, Option.toList_none, List.append_nil]
    exact h.of_conntrack (fun key => by rintro ⟨l, n, hop⟩; cases hop) rfl
      (h.entries_evictIdle now)
  | receive =>
    obtain ⟨rfl, rfl⟩ := Prod.mk.inj (Option.some.inj hs)
    rw [offloadedFlow_none, Option.toList_none, List.append_nil]
    refine h.of_conntrack (fun key => by rintro ⟨l, n, hop⟩; cases hop) rfl (fun key => ?_)
    rw [tracked_append_singleton]
    exact h.entries key
  | closeReceiver =>
    obtain ⟨rfl, rfl⟩ := Prod.mk.inj (Option.some.inj hs)
    rw [offloadedFlow_none, Option.toList_none, List.append_nil]
    refine h.of_conntrack (fun key => by rintro ⟨l, n, hop⟩; cases hop) rfl (fun key => ?_)
    rw [tracked_append_singleton]
    exact h.entries key

/-! ### Every run -/

theorem onceInv_new (checked : Bool) (acl : AclEngine) (minPackets idleTimeoutSecs : UInt64)
    (offloadTx : Channel) : OnceInv checked acl minPackets idleTimeoutSecs [] []
      (.new acl minPackets idleTimeoutSecs offloadTx) where
  acl_eq := rfl
  eligibility := rfl
  timeout := rfl
  entries _ := .none
  flows key := iff_of_false (Finset.notMem_empty key) (not_hadDue_nil key)
  verdicts := rfl
  nodup := List.nodup_nil
  metric := rfl
  balance := rfl

/-- The invariant holds until the run panics. -/
theorem onceInv_run (checked : Bool) (acl : AclEngine) (minPackets idleTimeoutSecs : UInt64)
    (offloadTx : Channel) (ops : List Op) :
    let M := machine checked (.new acl minPackets idleTimeoutSecs offloadTx)
    ∀ p, M.run ops = some p →
      OnceInv checked acl minPackets idleTimeoutSecs ops (offloadVerdicts M ops) p := by
  intro M
  refine machine_run_induction (P := fun ops p => OnceInv checked acl minPackets idleTimeoutSecs
    ops (offloadVerdicts M ops) p) (onceInv_new _ _ _ _ _) ?_ ops
  intro ops op o p p' hrun h happly
  have hstep := machine_step_of_apply (.new acl minPackets idleTimeoutSecs offloadTx) happly
  rw [offloadVerdicts_append_singleton, show M.run ops = some p from hrun, hstep]
  exact h.apply happly

/-- No flow is offloaded twice, whether the run panics or not. -/
theorem nodup_offloadVerdicts (checked : Bool) (acl : AclEngine)
    (minPackets idleTimeoutSecs : UInt64) (offloadTx : Channel) (ops : List Op) :
    (offloadVerdicts (machine checked (.new acl minPackets idleTimeoutSecs offloadTx))
      ops).Nodup := by
  induction ops using List.reverseRecOn with
  | nil => exact List.nodup_nil
  | append_singleton ops op ih =>
    rw [offloadVerdicts_append_singleton]
    cases hr : (machine checked (.new acl minPackets idleTimeoutSecs offloadTx)).run ops with
    | none =>
      show (_ ++ (offloadedFlow op none).toList).Nodup
      rw [offloadedFlow_none, Option.toList_none, List.append_nil]
      exact ih
    | some p =>
      have h := onceInv_run checked acl minPackets idleTimeoutSecs offloadTx ops p hr
      cases happly : p.apply checked op with
      | none =>
        rw [machine_step_of_panic _ happly, offloadedFlow_none, Option.toList_none,
          List.append_nil]
        exact ih
      | some r =>
        rw [machine_step_of_apply _ happly]
        exact (h.apply happly).nodup

/-- **Offloading happens exactly once, at the threshold.**  For every access list, every
threshold and every run: a packet that gets a verdict is offloaded exactly if it is the
first due packet of its flow, no flow is offloaded twice, and the metrics count the
offloaded flows and balance.  Without overflow checks no run panics. -/
theorem offload_exactly_once (checked : Bool) (acl : AclEngine)
    (minPackets idleTimeoutSecs : UInt64) (offloadTx : Channel) (ops : List Op) :
    let M := machine checked (.new acl minPackets idleTimeoutSecs offloadTx)
    (∀ vni tuple pktLen now v,
      (M.step (M.run ops) (.processPacket vni tuple pktLen now)).1 = some v →
      (v.isOffload = true ↔
        FirstDue checked acl minPackets idleTimeoutSecs ops (vni, tuple))) ∧
    (offloadVerdicts M ops).Nodup ∧
    (∀ p, M.run ops = some p →
      p.metrics.offloadedFlows = UInt64.ofNat (offloadVerdicts M ops).toFinset.card ∧
      p.metrics.rxPackets = p.metrics.txPackets + p.metrics.droppedPackets) ∧
    (checked = false → (M.run ops).isSome) := by
  intro M
  refine ⟨fun vni tuple pktLen now v hv => ?_, nodup_offloadVerdicts checked acl minPackets
    idleTimeoutSecs offloadTx ops, fun p hp => ?_, ?_⟩
  · cases hr : M.run ops with
    | none =>
      rw [hr] at hv
      cases hv
    | some p =>
      have h := onceInv_run checked acl minPackets idleTimeoutSecs offloadTx ops p hr
      rw [hr] at hv
      cases happly : p.apply checked (.processPacket vni tuple pktLen now) with
      | none =>
        simp only [M, machine, Option.bind_some, happly] at hv
        cases hv
      | some r =>
        obtain ⟨o, p'⟩ := r
        rw [machine_step_of_apply _ happly] at hv
        obtain ⟨v', rfl, hp⟩ := processPacket_of_apply happly
        obtain rfl := Option.some.inj hv
        exact h.isOffload_iff hp
  · have h := onceInv_run checked acl minPackets idleTimeoutSecs offloadTx ops p hp
    exact ⟨by rw [h.metric, h.verdicts], h.balance⟩
  · rintro rfl
    exact isSome_run _ ops

/-- A flow is offloaded at its second packet, evicted, and comes back: its third packet is
the first of a new entry and does not offload it again. -/
theorem offload_exactly_once_after_eviction :
    let M := machine true (.new (.new allowTen) 2 300 ⟨8, [], false⟩)
    let ops := [packetFromTen 0, packetFromTen 1, .evictIdle 900000000000,
      packetFromTen 900000000001]
    (M.step (M.run ops) (packetFromTen 900000000002)).1 = some .Forward ∧
    (PacketVerdict.Forward.isOffload = true ↔ FirstDue true (.new allowTen) 2 300 ops
      (100, ⟨0x0a000001, 0x08080808, 12345, 443, 6⟩)) ∧
    (offloadVerdicts M ops).Nodup ∧
    ∃ p, M.run ops = some p ∧
      p.metrics.offloadedFlows = UInt64.ofNat (offloadVerdicts M ops).toFinset.card ∧
      p.metrics.rxPackets = p.metrics.txPackets + p.metrics.droppedPackets := by
  intro M ops
  have hv : (M.step (M.run ops) (packetFromTen 900000000002)).1 = some .Forward := by
    decide +kernel
  have hrun : (M.run ops).isSome := by decide +kernel
  obtain ⟨p, hp⟩ := Option.isSome_iff_exists.mp hrun
  obtain ⟨hfirst, hnodup, hmetrics, -⟩ :=
    offload_exactly_once true (.new allowTen) 2 300 ⟨8, [], false⟩ ops
  exact ⟨hv, hfirst _ _ _ _ _ hv, hnodup, p, hp, hmetrics p hp⟩

end PrismFirewall.Datapath
