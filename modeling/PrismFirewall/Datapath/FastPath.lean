import PrismFirewall.Datapath.Pipeline

/-!
# The fast path agrees with the access list

An offloaded flow is forwarded without another look at the access list.  That
is right because a flow is offloaded only after the access list has let one of
its packets through, and the list does not change: `AclInv`.  The connection
tracker plays no part in it, so evictions cannot break it.
-/

namespace PrismFirewall.Datapath

open Lib

/-- The access list lets the five-tuple through. -/
def Admits (checked : Bool) (acl : AclEngine) (t : FiveTuple) : Prop :=
  ∃ w, acl.evaluate checked t = some w ∧ w.action ≠ .Deny

/-- The list is the given one, and every offloaded flow is one it lets through. -/
structure AclInv (checked : Bool) (acl : AclEngine) (p : Pipeline) : Prop where
  acl_eq : p.acl = acl
  admits : ∀ key ∈ p.offloadedFlows, Admits checked acl key.2

variable {checked : Bool} {acl : AclEngine} {p p' : Pipeline}

/-- **One packet**: its verdict is the one of the access list, on either path. -/
theorem processPacket_spec (h : AclInv checked acl p) {vni : UInt32} {tuple : FiveTuple}
    {pktLen : UInt64} {now : Nat} {v : PacketVerdict}
    (hs : p.processPacket checked vni tuple pktLen now = some (v, p')) :
    AclInv checked acl p' ∧
      ∃ w, acl.evaluate checked tuple = some w ∧ (v = .Drop ↔ w.action = .Deny) := by
  obtain ⟨connState, conntrack, -, hstep⟩ := packetStep_of_processPacket hs
  cases hstep with
  | fast hest hmem =>
    obtain ⟨w, hw, hdeny⟩ := h.admits _ hmem
    exact ⟨⟨h.acl_eq, h.admits⟩, w, hw, by simp [hdeny]⟩
  | @drop _ w hw hdeny =>
    rw [h.acl_eq] at hw
    exact ⟨⟨h.acl_eq, h.admits⟩, w, hw, by simp [hdeny]⟩
  | @offload _ w hw hdeny _ =>
    rw [h.acl_eq] at hw
    refine ⟨⟨h.acl_eq, fun key hkey => ?_⟩, w, hw, by simp [hdeny]⟩
    rcases Finset.mem_insert.mp hkey with rfl | hkey
    · exact ⟨w, hw, hdeny⟩
    · exact h.admits key hkey
  | @forward _ w hw hdeny _ =>
    rw [h.acl_eq] at hw
    exact ⟨⟨h.acl_eq, h.admits⟩, w, hw, by simp [hdeny]⟩

theorem apply_spec (h : AclInv checked acl p) {op : Op} {o : Option PacketVerdict}
    (hs : p.apply checked op = some (o, p')) : AclInv checked acl p' := by
  cases op with
  | processPacket vni tuple pktLen now =>
    obtain ⟨v, -, hp⟩ := processPacket_of_apply hs
    exact (processPacket_spec h hp).1
  | evictIdle now =>
    simp only [Pipeline.apply, Option.some.injEq, Prod.mk.injEq] at hs
    exact hs.2 ▸ ⟨h.acl_eq, h.admits⟩
  | receive =>
    simp only [Pipeline.apply, Option.some.injEq, Prod.mk.injEq] at hs
    exact hs.2 ▸ ⟨h.acl_eq, h.admits⟩
  | closeReceiver =>
    simp only [Pipeline.apply, Option.some.injEq, Prod.mk.injEq] at hs
    exact hs.2 ▸ ⟨h.acl_eq, h.admits⟩

/-- A run that has not panicked is in a state with the invariant. -/
theorem aclInv_run (checked : Bool) (acl : AclEngine) (minPackets idleTimeoutSecs : UInt64)
    (offloadTx : Channel) (ops : List Op) :
    ∀ p, (machine checked (.new acl minPackets idleTimeoutSecs offloadTx)).run ops = some p →
      AclInv checked acl p := by
  refine machine_run_induction (P := fun _ p => AclInv checked acl p) ?_ ?_ ops
  · exact ⟨rfl, fun key hkey => absurd hkey (Finset.notMem_empty key)⟩
  · intro _ op o p p' _ ih happly
    exact apply_spec ih happly

/-! ### Without overflow checks nothing panics -/

theorem isSome_slowPath (p : Pipeline) (vni : UInt32) (tuple : FiveTuple)
    (connState : ConnState) : (p.slowPath false vni tuple connState).isSome := by
  obtain ⟨w, hw⟩ := Option.isSome_iff_exists.mp (isSome_evaluateFrom tuple p.acl.rules 0)
  simp only [Pipeline.slowPath, AclEngine.evaluate, hw, Option.bind_eq_bind, Option.bind_some,
    Option.pure_def]
  split
  · rfl
  · split <;> rfl

theorem isSome_processPacket (p : Pipeline) (vni : UInt32) (tuple : FiveTuple) (pktLen : UInt64)
    (now : Nat) : (p.processPacket false vni tuple pktLen now).isSome := by
  have hlookup : (p.conntrack.lookup false vni tuple pktLen now).isSome := by
    simp [ConnTracker.lookup]
  obtain ⟨r, hr⟩ := Option.isSome_iff_exists.mp hlookup
  simp only [Pipeline.processPacket, hr, Option.bind_eq_bind, Option.bind_some, Option.pure_def]
  split
  · rfl
  · exact isSome_slowPath _ vni tuple r.1

theorem isSome_run (p : Pipeline) (ops : List Op) : ((machine false p).run ops).isSome := by
  refine (machine false p).run_induction (P := fun _ s => s.isSome) rfl ?_ ops
  intro _ op s hs
  obtain ⟨q, rfl⟩ := Option.isSome_iff_exists.mp hs
  cases op with
  | processPacket vni tuple pktLen now =>
    obtain ⟨r, hr⟩ := Option.isSome_iff_exists.mp (isSome_processPacket q vni tuple pktLen now)
    simp [machine, Pipeline.apply, hr]
  | evictIdle now => rfl
  | receive => rfl
  | closeReceiver => rfl

/-! ### Every run -/

/-- **The fast path agrees with the slow path.**  For every list of rules, every
threshold and every run, a packet that gets a verdict is dropped if and only if
the access list denies its five-tuple.  Without overflow checks every packet
gets a verdict. -/
theorem drop_iff_denied (checked : Bool) (rules : List AclRule)
    (minPackets idleTimeoutSecs : UInt64) (offloadTx : Channel) (ops : List Op) (vni : UInt32)
    (tuple : FiveTuple) (pktLen : UInt64) (now : Nat) :
    let M := machine checked (.new (.new rules) minPackets idleTimeoutSecs offloadTx)
    (∀ v, (M.step (M.run ops) (.processPacket vni tuple pktLen now)).1 = some v →
      ∃ w, (AclEngine.new rules).evaluate checked tuple = some w ∧
        (v = .Drop ↔ w.action = .Deny)) ∧
    (checked = false →
      ((M.step (M.run ops) (.processPacket vni tuple pktLen now)).1).isSome) := by
  intro M
  constructor
  · intro v hv
    cases hr : M.run ops with
    | none => rw [hr] at hv; exact absurd hv (by simp [M, machine])
    | some p =>
      have hinv := aclInv_run checked (.new rules) minPackets idleTimeoutSecs offloadTx ops p hr
      rw [hr] at hv
      simp only [M, machine, Pipeline.apply, Option.bind_some, Option.bind_eq_bind] at hv
      cases hp : p.processPacket checked vni tuple pktLen now with
      | none => simp [hp] at hv
      | some r =>
        simp only [hp, Option.bind_some, Option.pure_def, Option.some.injEq] at hv
        rw [← hv]
        exact (processPacket_spec hinv hp).2
  · intro h
    subst h
    obtain ⟨p, hr⟩ := Option.isSome_iff_exists.mp
      (isSome_run (.new (.new rules) minPackets idleTimeoutSecs offloadTx) ops)
    obtain ⟨r, hp⟩ := Option.isSome_iff_exists.mp (isSome_processPacket p vni tuple pktLen now)
    have hr' : M.run ops = some p := hr
    rw [hr']
    simp [M, machine, Pipeline.apply, hp]

/-- Allow `10.0.0.0/8`. -/
def allowTen : List AclRule :=
  [⟨"allow-ten", 10, some "10.0.0.0/8", none, none, none, none, .Allow, true⟩]

/-- A packet from `10.0.0.1`. -/
def packetFromTen (now : Nat) : Op :=
  .processPacket 100 ⟨0x0a000001, 0x08080808, 12345, 443, 6⟩ 64 now

/-- The second packet of the flow offloads it; the third is on the fast path. -/
theorem drop_iff_denied_third_packet :
    let M := machine true (.new (.new allowTen) 2 300 ⟨8, [], false⟩)
    (M.step (M.run [packetFromTen 0, packetFromTen 1, .evictIdle 2]) (packetFromTen 3)).1
      = some .Forward ∧
    ∃ w, (AclEngine.new allowTen).evaluate true ⟨0x0a000001, 0x08080808, 12345, 443, 6⟩ = some w ∧
      (PacketVerdict.Forward = .Drop ↔ w.action = .Deny) := by
  intro M
  have hv : (M.step (M.run [packetFromTen 0, packetFromTen 1, .evictIdle 2])
      (packetFromTen 3)).1 = some .Forward := by decide +kernel
  exact ⟨hv, (drop_iff_denied true allowTen 2 300 ⟨8, [], false⟩ _ 100 _ 64 3).1 .Forward hv⟩

end PrismFirewall.Datapath
