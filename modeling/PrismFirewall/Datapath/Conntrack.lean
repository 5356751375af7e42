import PrismFirewall.Datapath.Acl
import PrismFirewall.Lib.Dict

/-!
# Connection tracking

`conntrack.rs`: a map from flows to their packet counts and states.  Instants
are nanoseconds on the monotonic clock, and a reading that lies before another
one is no time after it.
-/

namespace PrismFirewall.Datapath

open Lib

inductive ConnState
  | New
  | Established
  | FinWait
  | Closed
  deriving DecidableEq, Repr

structure ConnEntry where
  state : ConnState
  packets : UInt64
  bytes : UInt64
  lastSeen : Nat
  vni : UInt32
  deriving DecidableEq

/-- A flow: the virtual network and the five-tuple. -/
abbrev FlowKey := UInt32 × FiveTuple

structure ConnTracker where
  entries : Dict FlowKey ConnEntry
  idleTimeoutSecs : UInt64
  deriving DecidableEq

namespace ConnTracker

/-- `ConnTracker::new`. -/
def new (idleTimeoutSecs : UInt64) : ConnTracker := ⟨.empty, idleTimeoutSecs⟩

/-- The entry that counts a packet: the one of the flow, or a new one. -/
def entryOrNew (ct : ConnTracker) (key : FlowKey) (now : Nat) : ConnEntry :=
  (ct.entries.get? key).getD ⟨.New, 0, 0, now, key.1⟩

/-- `lookup`. -/
def lookup (checked : Bool) (ct : ConnTracker) (vni : UInt32) (tuple : FiveTuple)
    (pktLen : UInt64) (now : Nat) : Option (ConnState × ConnTracker) := do
  let entry := ct.entryOrNew (vni, tuple) now
  let packets ← Overflow.addU64 checked entry.packets 1
  let bytes ← Overflow.addU64 checked entry.bytes pktLen
  let state := if entry.state = .New ∧ packets > 1 then .Established else entry.state
  let entries := ct.entries.insert (vni, tuple) ⟨state, packets, bytes, now, entry.vni⟩
  return (state, { ct with entries := entries })

/-- `get_packet_count`. -/
def getPacketCount (ct : ConnTracker) (vni : UInt32) (tuple : FiveTuple) : UInt64 :=
  ((ct.entries.get? (vni, tuple)).map ConnEntry.packets).getD 0

/-- `evict_idle`. -/
def evictIdle (ct : ConnTracker) (now : Nat) : Nat × ConnTracker :=
  let timeout := ct.idleTimeoutSecs.toNat * 1000000000
  let kept := ct.entries.filter (fun e => decide (now - e.2.lastSeen < timeout))
  (ct.entries.size - kept.size, { ct with entries := kept })

/-- What a packet leaves in the tracker. -/
theorem lookup_eq_some {checked : Bool} {ct ct' : ConnTracker} {vni : UInt32} {tuple : FiveTuple}
    {pktLen : UInt64} {now : Nat} {connState : ConnState}
    (h : ct.lookup checked vni tuple pktLen now = some (connState, ct')) :
    ∃ e, ct' = { ct with entries := ct.entries.insert (vni, tuple) e } ∧ e.state = connState ∧
      e.packets = (ct.entryOrNew (vni, tuple) now).packets + 1 ∧ e.lastSeen = now ∧
      e.state = if (ct.entryOrNew (vni, tuple) now).state = .New ∧ e.packets > 1 then .Established
        else (ct.entryOrNew (vni, tuple) now).state := by
  obtain ⟨packets, hpackets, h⟩ := Option.bind_eq_some_iff.mp h
  obtain ⟨bytes, -, h⟩ := Option.bind_eq_some_iff.mp h
  obtain ⟨rfl, rfl⟩ := Prod.mk.inj (Option.some.inj h)
  refine ⟨_, rfl, rfl, ?_, rfl, rfl⟩
  unfold Overflow.addU64 at hpackets
  split at hpackets
  · cases hpackets
  · exact (Option.some.inj hpackets).symm

end ConnTracker

end PrismFirewall.Datapath
