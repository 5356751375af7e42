import Mathlib.Data.Finset.Insert
import PrismFirewall.Datapath.Conntrack
import PrismFirewall.Lib.Run

/-!
# The packet pipeline

`pipeline.rs` and `offload.rs`.  A packet is looked up in the connection
tracker; an established flow that has been offloaded is forwarded at once, any
other packet goes through the access list, and a flow that has become eligible
is handed to the offload channel.

`machine` is the pipeline with everything that happens to it between packets:
idle entries are evicted, and the task at the other end of the channel receives
requests or goes away.  A panic ends the run.
-/

namespace PrismFirewall.Datapath

open Lib

inductive PacketVerdict
  | Forward
  | Drop
  | OffloadAndForward (vni : UInt32) (ruleIdIndex : Option Nat)
  deriving DecidableEq

/-! ### Offloading -/

inductive OffloadAction
  | Forward
  | Drop
  deriving DecidableEq, Repr

structure OffloadRequest where
  vni : UInt32
  tuple : FiveTuple
  action : OffloadAction
  bidirectional : Bool
  ruleIdIndex : Option Nat
  deriving DecidableEq

structure OffloadDecision where
  shouldOffload : Bool
  ruleIdIndex : Option Nat

structure OffloadEligibility where
  minPackets : UInt64
  deriving DecidableEq

/-- `OffloadEligibility::evaluate`. -/
def OffloadEligibility.evaluate (e : OffloadEligibility) (connState : ConnState)
    (verdict : AclVerdict) (packetCount : UInt64) : OffloadDecision :=
  ⟨decide (connState = .Established) && verdict.offloadEligible
    && decide (packetCount ≥ e.minPackets), verdict.ruleIdIndex⟩

/-- The bounded channel to the offload task. -/
structure Channel where
  capacity : Nat
  queue : List OffloadRequest
  closed : Bool
  deriving DecidableEq

/-- `try_send`: the request is lost when the channel is full or closed. -/
def Channel.trySend (ch : Channel) (req : OffloadRequest) : Channel :=
  if ch.closed ∨ ch.queue.length ≥ ch.capacity then ch else { ch with queue := ch.queue ++ [req] }

/-! ### The pipeline -/

structure PipelineMetrics where
  rxPackets : UInt64
  txPackets : UInt64
  droppedPackets : UInt64
  offloadedFlows : UInt64
  deriving DecidableEq

structure Pipeline where
  conntrack : ConnTracker
  acl : AclEngine
  offloadEligibility : OffloadEligibility
  metrics : PipelineMetrics
  offloadTx : Channel
  offloadedFlows : Finset FlowKey
  deriving DecidableEq

namespace Pipeline

/-- `Pipeline::new`. -/
def new (acl : AclEngine) (offloadMinPackets idleTimeoutSecs : UInt64) (offloadTx : Channel) :
    Pipeline where
  conntrack := .new idleTimeoutSecs
  acl := acl
  offloadEligibility := ⟨offloadMinPackets⟩
  metrics := ⟨0, 0, 0, 0⟩
  offloadTx := offloadTx
  offloadedFlows := ∅

def countRx (p : Pipeline) : Pipeline :=
  { p with metrics := { p.metrics with rxPackets := p.metrics.rxPackets + 1 } }

def countTx (p : Pipeline) : Pipeline :=
  { p with metrics := { p.metrics with txPackets := p.metrics.txPackets + 1 } }

def countDropped (p : Pipeline) : Pipeline :=
  { p with metrics := { p.metrics with droppedPackets := p.metrics.droppedPackets + 1 } }

/-- Hand a flow to the offload channel and remember it. -/
def offload (p : Pipeline) (vni : UInt32) (tuple : FiveTuple) (ruleIdIndex : Option Nat) :
    Pipeline :=
  { p with
    offloadTx := p.offloadTx.trySend ⟨vni, tuple, .Forward, true, ruleIdIndex⟩
    offloadedFlows := insert (vni, tuple) p.offloadedFlows
    metrics := { p.metrics with offloadedFlows := p.metrics.offloadedFlows + 1 } }

/-- Steps 3 to 6 of `process_packet`: a packet whose flow is not offloaded. -/
def slowPath (checked : Bool) (p : Pipeline) (vni : UInt32) (tuple : FiveTuple)
    (connState : ConnState) : Option (PacketVerdict × Pipeline) := do
  let aclVerdict ← p.acl.evaluate checked tuple
  if aclVerdict.action = .Deny then
    return (.Drop, p.countDropped)
  else
    let packetCount := p.conntrack.getPacketCount vni tuple
    let decision := p.offloadEligibility.evaluate connState aclVerdict packetCount
    if decision.shouldOffload then
      return (.OffloadAndForward vni decision.ruleIdIndex,
        (p.offload vni tuple decision.ruleIdIndex).countTx)
    else
      return (.Forward, p.countTx)

/-- `process_packet`. -/
def processPacket (checked : Bool) (p : Pipeline) (vni : UInt32) (tuple : FiveTuple)
    (pktLen : UInt64) (now : Nat) : Option (PacketVerdict × Pipeline) := do
  let (connState, conntrack) ← p.conntrack.lookup checked vni tuple pktLen now
  let p := { p.countRx with conntrack := conntrack }
  if connState = .Established ∧ (vni, tuple) ∈ p.offloadedFlows then
    return (.Forward, p.countTx)
  else p.slowPath checked vni tuple connState

end Pipeline

/-! ### What a packet can do -/

/-- The four ways a packet can go, once its entry has been counted: past the access list,
or through it. -/
inductive PacketStep (checked : Bool) (p : Pipeline) (vni : UInt32) (tuple : FiveTuple)
    (connState : ConnState) (conntrack : ConnTracker) : PacketVerdict → Pipeline → Prop
  | fast (hest : connState = .Established) (hmem : (vni, tuple) ∈ p.offloadedFlows) :
    PacketStep checked p vni tuple connState conntrack .Forward
      { p.countRx.countTx with conntrack := conntrack }
  | drop (hslow : ¬ (connState = .Established ∧ (vni, tuple) ∈ p.offloadedFlows)) {w : AclVerdict}
    (hw : p.acl.evaluate checked tuple = some w) (hdeny : w.action = .Deny) :
    PacketStep checked p vni tuple connState conntrack .Drop
      { p.countRx.countDropped with conntrack := conntrack }
  | offload (hslow : ¬ (connState = .Established ∧ (vni, tuple) ∈ p.offloadedFlows))
    {w : AclVerdict} (hw : p.acl.evaluate checked tuple = some w) (hdeny : w.action ≠ .Deny)
    (hoff : (p.offloadEligibility.evaluate connState w
      (conntrack.getPacketCount vni tuple)).shouldOffload = true) :
    PacketStep checked p vni tuple connState conntrack (.OffloadAndForward vni w.ruleIdIndex)
      { (p.countRx.offload vni tuple w.ruleIdIndex).countTx with conntrack := conntrack }
  | forward (hslow : ¬ (connState = .Established ∧ (vni, tuple) ∈ p.offloadedFlows))
    {w : AclVerdict} (hw : p.acl.evaluate checked tuple = some w) (hdeny : w.action ≠ .Deny)
    (hoff : (p.offloadEligibility.evaluate connState w
      (conntrack.getPacketCount vni tuple)).shouldOffload = false) :
    PacketStep checked p vni tuple connState conntrack .Forward
      { p.countRx.countTx with conntrack := conntrack }

/-- **A packet that is processed goes one of the four ways.** -/
theorem packetStep_of_processPacket {checked : Bool} {p p' : Pipeline} {vni : UInt32}
    {tuple : FiveTuple} {pktLen : UInt64} {now : Nat} {v : PacketVerdict}
    (h : p.processPacket checked vni tuple pktLen now = some (v, p')) :
    ∃ connState conntrack, p.conntrack.lookup checked vni tuple pktLen now
      = some (connState, conntrack) ∧
      PacketStep checked p vni tuple connState conntrack v p' := by
  unfold Pipeline.processPacket at h
  obtain ⟨⟨connState, conntrack⟩, hlookup, h⟩ := Option.bind_eq_some_iff.mp h
  refine ⟨connState, conntrack, hlookup, ?_⟩
  dsimp only at h
  split at h
  · rename_i hfast
    obtain ⟨rfl, rfl⟩ := Prod.mk.inj (Option.some.inj h)
    exact .fast hfast.1 hfast.2
  · rename_i hslow
    unfold Pipeline.slowPath at h
    obtain ⟨w, hw, h⟩ := Option.bind_eq_some_iff.mp h
    split at h
    · rename_i hdeny
      obtain ⟨rfl, rfl⟩ := Prod.mk.inj (Option.some.inj h)
      exact .drop hslow hw hdeny
    · rename_i hdeny
      dsimp only at h
      split at h
      · rename_i hoff
        obtain ⟨rfl, rfl⟩ := Prod.mk.inj (Option.some.inj h)
        exact .offload (p := p) hslow hw hdeny hoff
      · rename_i hoff
        obtain ⟨rfl, rfl⟩ := Prod.mk.inj (Option.some.inj h)
        exact .forward (p := p) hslow hw hdeny (Bool.eq_false_iff.mpr hoff)

/-! ### Runs -/

/-- What can happen to a pipeline. -/
inductive Op
  | processPacket (vni : UInt32) (tuple : FiveTuple) (pktLen : UInt64) (now : Nat)
  | evictIdle (now : Nat)
  | receive
  | closeReceiver
  deriving DecidableEq

/-- One operation; only a packet has a verdict. -/
def Pipeline.apply (checked : Bool) (p : Pipeline) : Op → Option (Option PacketVerdict × Pipeline)
  | .processPacket vni tuple pktLen now => do
    let (verdict, p) ← p.processPacket checked vni tuple pktLen now
    return (some verdict, p)
  | .evictIdle now => some (none, { p with conntrack := (p.conntrack.evictIdle now).2 })
  | .receive =>
    some (none, { p with offloadTx := { p.offloadTx with queue := p.offloadTx.queue.tail } })
  | .closeReceiver => some (none, { p with offloadTx := { p.offloadTx with closed := true } })

theorem processPacket_of_apply {checked : Bool} {p p' : Pipeline} {vni : UInt32}
    {tuple : FiveTuple} {pktLen : UInt64} {now : Nat} {o : Option PacketVerdict}
    (h : p.apply checked (.processPacket vni tuple pktLen now) = some (o, p')) :
    ∃ v, o = some v ∧ p.processPacket checked vni tuple pktLen now = some (v, p') := by
  obtain ⟨⟨v, q⟩, hp, h⟩ := Option.bind_eq_some_iff.mp h
  obtain ⟨rfl, rfl⟩ := Prod.mk.inj (Option.some.inj h)
  exact ⟨v, rfl, hp⟩

/-- A pipeline, until it panics. -/
def machine (checked : Bool) (p : Pipeline) :
    Machine (Option Pipeline) Op (Option PacketVerdict) where
  init := some p
  step s op := match s.bind (fun p => p.apply checked op) with
    | some (verdict, p) => (verdict, some p)
    | none => (none, none)

theorem machine_step_of_apply {checked : Bool} (p₀ : Pipeline) {p p' : Pipeline} {op : Op}
    {o : Option PacketVerdict} (h : p.apply checked op = some (o, p')) :
    (machine checked p₀).step (some p) op = (o, some p') := by
  simp only [machine, Option.bind_some, h]

theorem machine_step_of_panic {checked : Bool} (p₀ : Pipeline) {p : Pipeline} {op : Op}
    (h : p.apply checked op = none) : (machine checked p₀).step (some p) op = (none, none) := by
  simp only [machine, Option.bind_some, h]

/-- The induction for what holds until the run panics. -/
theorem machine_run_induction {checked : Bool} {p₀ : Pipeline} {P : List Op → Pipeline → Prop}
    (h0 : P [] p₀)
    (hs : ∀ ops op o p p', (machine checked p₀).run ops = some p → P ops p →
      p.apply checked op = some (o, p') → P (ops ++ [op]) p') :
    ∀ ops p, (machine checked p₀).run ops = some p → P ops p := by
  intro ops
  induction ops using List.reverseRecOn with
  | nil =>
    intro p hp
    rw [← Option.some.inj hp]
    exact h0
  | append_singleton ops op ih =>
    intro p' hp'
    rw [Machine.run_append_singleton] at hp'
    cases hr : (machine checked p₀).run ops with
    | none =>
      rw [hr] at hp'
      exact absurd hp' (by simp [machine])
    | some p =>
      rw [hr] at hp'
      cases happly : p.apply checked op with
      | none =>
        rw [machine_step_of_panic p₀ happly] at hp'
        cases hp'
      | some r =>
        rw [machine_step_of_apply p₀ happly] at hp'
        obtain rfl := Option.some.inj hp'
        exact hs ops op r.1 p r.2 hr (ih p hr) happly

end PrismFirewall.Datapath
