import PrismFirewall.Datapath.OffloadOnce

/-!
# The offload channel

A flow is marked as offloaded whatever becomes of its request: the request is handed over
with `try_send`, "best-effort, non-blocking", and its result is thrown away.  What the
channel has accepted is what the sender task has received so far, followed by what is still
queued (`accepted`), and the file says which flows are in it: those that were offloaded at
a moment when the channel was open and had room (`accepted_iff_hadRoom`), each once.
-/

namespace PrismFirewall.Datapath

open Lib

/-- `try_send` would succeed. -/
def Channel.HasRoom (ch : Channel) : Prop := ch.closed = false ∧ ch.queue.length < ch.capacity

instance (ch : Channel) : Decidable ch.HasRoom := inferInstanceAs (Decidable (_ ∧ _))

theorem Channel.queue_trySend (ch : Channel) (req : OffloadRequest) :
    (ch.trySend req).queue = ch.queue ++ (if ch.HasRoom then [req] else []) := by
  unfold Channel.trySend
  by_cases h : ch.HasRoom
  · rw [if_neg, if_pos h]
    rintro (hc | hc)
    · rw [h.1] at hc
      cases hc
    · exact absurd h.2 (Nat.not_lt.mpr hc)
  · rw [if_pos, if_neg h, List.append_nil]
    by_contra hn
    obtain ⟨hc, hl⟩ := not_or.mp hn
    exact h ⟨Bool.eq_false_iff.mpr hc, Nat.lt_of_not_le hl⟩

/-! ### What the channel has accepted -/

/-- The request the sender task takes. -/
def receivedRequest (s : Option Pipeline) : Op → Option OffloadRequest
  | .receive => s.bind (fun p => p.offloadTx.queue.head?)
  | _ => none

/-- What has gone through the channel, and what is in it. -/
def accepted (M : Machine (Option Pipeline) Op (Option PacketVerdict)) (ops : List Op) :
    List OffloadRequest :=
  M.events (fun s op _ => receivedRequest s op) ops
    ++ ((M.run ops).map (fun p => p.offloadTx.queue)).getD []

/-- The flow of a request. -/
def OffloadRequest.flow (req : OffloadRequest) : FlowKey := (req.vni, req.tuple)

/-- The requests for a flow among those the channel has accepted. -/
def acceptedFor (M : Machine (Option Pipeline) Op (Option PacketVerdict)) (ops : List Op)
    (key : FlowKey) : Nat :=
  (accepted M ops).countP (fun req => decide (req.flow = key))

/-- The flow was offloaded at a moment when the channel was open and had room. -/
def HadRoom (M : Machine (Option Pipeline) Op (Option PacketVerdict)) (ops : List Op)
    (key : FlowKey) : Prop :=
  ∃ pre op post p, ops = pre ++ op :: post ∧ M.run pre = some p ∧ p.offloadTx.HasRoom ∧
    offloadedFlow op (M.step (some p) op).1 = some key

variable {checked : Bool} {p₀ p p' : Pipeline} {ops : List Op} {op : Op}
  {o : Option PacketVerdict} {key : FlowKey}

theorem hadRoom_append_singleton (hrun : (machine checked p₀).run ops = some p)
    (hs : p.apply checked op = some (o, p')) :
    HadRoom (machine checked p₀) (ops ++ [op]) key ↔ HadRoom (machine checked p₀) ops key ∨
      p.offloadTx.HasRoom ∧ offloadedFlow op o = some key := by
  have hstep := machine_step_of_apply p₀ hs
  constructor
  · rintro ⟨pre, op', post, q, h, hq, hroom, hkey⟩
    rcases append_singleton_eq_append_cons_iff.mp h with ⟨rfl, rfl, -⟩ | ⟨post', -, h⟩
    · obtain rfl := Option.some.inj (hrun.symm.trans hq)
      rw [hstep] at hkey
      exact Or.inr ⟨hroom, hkey⟩
    · exact Or.inl ⟨pre, op', post', q, h, hq, hroom, hkey⟩
  · rintro (⟨pre, op', post, q, rfl, hq, hroom, hkey⟩ | ⟨hroom, hkey⟩)
    · exact ⟨pre, op', post ++ [op], q, by simp, hq, hroom, hkey⟩
    · exact ⟨ops, op, [], p, rfl, hrun, hroom, by rw [hstep]; exact hkey⟩

/-- A flow that was offloaded with room was offloaded. -/
theorem HadRoom.mem_offloadVerdicts {M : Machine (Option Pipeline) Op (Option PacketVerdict)}
    (h : HadRoom M ops key) : key ∈ offloadVerdicts M ops := by
  obtain ⟨pre, op, post, p, hops, hrun, -, hkey⟩ := h
  refine M.mem_events_iff.mpr ⟨pre, op, post, hops, ?_⟩
  rw [hrun]
  exact hkey

/-! ### One step -/

/-- The requests that a call adds to those the channel has accepted. -/
def newlyAccepted (ch : Channel) : Op → Option PacketVerdict → List OffloadRequest
  | .processPacket _ tuple _ _, some v =>
    if ch.HasRoom then (offloadRequest tuple v).toList else []
  | _, _ => []

/-- **A receive moves a request, and a packet that offloads its flow adds one if there is
room.** -/
theorem accepted_append_singleton (hrun : (machine checked p₀).run ops = some p)
    (hs : p.apply checked op = some (o, p')) :
    accepted (machine checked p₀) (ops ++ [op])
      = accepted (machine checked p₀) ops ++ newlyAccepted p.offloadTx op o := by
  have hstep := machine_step_of_apply p₀ hs
  simp only [accepted, Machine.events_append_singleton, Machine.run_append_singleton, hrun, hstep,
    Option.map_some, Option.getD_some, List.append_assoc, List.append_cancel_left_eq]
  cases op with
  | processPacket vni tuple pktLen now =>
    obtain ⟨v, rfl, hp⟩ := processPacket_of_apply hs
    obtain ⟨htx, -⟩ := processPacket_offload hp
    show p'.offloadTx.queue = p.offloadTx.queue ++ (if p.offloadTx.HasRoom
      then (offloadRequest tuple v).toList else [])
    rw [htx]
    cases offloadRequest tuple v with
    | none =>
      simp only [Option.elim_none, Option.toList_none, ite_self, List.append_nil]
    | some req =>
      rw [Option.elim_some, Channel.queue_trySend, Option.toList_some]
  | receive =>
    obtain ⟨rfl, rfl⟩ := Prod.mk.inj (Option.some.inj hs)
    show p.offloadTx.queue.head?.toList ++ p.offloadTx.queue.tail = p.offloadTx.queue ++ []
    rw [List.append_nil]
    cases p.offloadTx.queue <;> rfl
  | evictIdle now =>
    obtain ⟨rfl, rfl⟩ := Prod.mk.inj (Option.some.inj hs)
    exact (List.append_nil _).symm
  | closeReceiver =>
    obtain ⟨rfl, rfl⟩ := Prod.mk.inj (Option.some.inj hs)
    exact (List.append_nil _).symm

/-- What a call adds for a flow: one request, or none. -/
theorem countP_newlyAccepted (hs : p.apply checked op = some (o, p')) :
    (newlyAccepted p.offloadTx op o).countP (fun req => decide (req.flow = key))
      = if p.offloadTx.HasRoom ∧ offloadedFlow op o = some key then 1 else 0 := by
  cases op with
  | processPacket vni tuple pktLen now =>
    obtain ⟨v, rfl, hp⟩ := processPacket_of_apply hs
    by_cases hroom : p.offloadTx.HasRoom
    · simp only [newlyAccepted, hroom, if_true, true_and]
      cases v with
      | Forward => rfl
      | Drop => rfl
      | OffloadAndForward vni' idx =>
        obtain ⟨w, -, -, -, hreq⟩ := (processPacket_offload hp).2 _ rfl
        obtain ⟨rfl, -⟩ := OffloadRequest.mk.inj hreq
        simp only [offloadRequest, Option.toList_some, List.countP_singleton, decide_eq_true_eq]
        have hflow : offloadedFlow (.processPacket vni' tuple pktLen now)
            (some (.OffloadAndForward vni' idx)) = some (vni', tuple) := rfl
        rw [hflow]
        simp only [Option.some.injEq]
        rfl
    · simp [newlyAccepted, hroom]
  | receive => obtain ⟨rfl, -⟩ := Prod.mk.inj (Option.some.inj hs); simp [newlyAccepted]
  | evictIdle now => obtain ⟨rfl, -⟩ := Prod.mk.inj (Option.some.inj hs); simp [newlyAccepted]
  | closeReceiver => obtain ⟨rfl, -⟩ := Prod.mk.inj (Option.some.inj hs); simp [newlyAccepted]

/-! ### Every run -/

/-- At most one request for each flow is accepted, and one exactly if the channel had room
when the flow was offloaded. -/
theorem acceptedFor_run (checked : Bool) (acl : AclEngine) (minPackets idleTimeoutSecs : UInt64)
    (capacity : Nat) (ops : List Op) (key : FlowKey) :
    let M := machine checked (.new acl minPackets idleTimeoutSecs ⟨capacity, [], false⟩)
    ∀ p, M.run ops = some p →
      acceptedFor M ops key ≤ 1 ∧ (acceptedFor M ops key = 1 ↔ HadRoom M ops key) := by
  intro M
  refine machine_run_induction (P := fun ops _ => acceptedFor M ops key ≤ 1 ∧
    (acceptedFor M ops key = 1 ↔ HadRoom M ops key)) ?_ ?_ ops
  · refine ⟨Nat.zero_le 1, iff_of_false (Nat.zero_ne_one) ?_⟩
    rintro ⟨pre, op, post, p, h, -⟩
    simp at h
  · intro ops op o p p' hrun ⟨hle, hone⟩ hs
    have hadd : acceptedFor M (ops ++ [op]) key = acceptedFor M ops key
        + if p.offloadTx.HasRoom ∧ offloadedFlow op o = some key then 1 else 0 := by
      rw [acceptedFor, accepted_append_singleton hrun hs, List.countP_append,
        countP_newlyAccepted hs, acceptedFor]
    rw [hadd, hadRoom_append_singleton hrun hs, ← hone]
    by_cases hnew : p.offloadTx.HasRoom ∧ offloadedFlow op o = some key
    · -- the flow is offloaded for the first time, so nothing has been accepted for it
      have hinv := onceInv_run checked acl minPackets idleTimeoutSecs ⟨capacity, [], false⟩ ops p
        hrun
      have hnodup := (hinv.apply hs).nodup
      rw [hnew.2, Option.toList_some, List.nodup_append] at hnodup
      have hfresh : ¬ acceptedFor M ops key = 1 := by
        intro h
        exact hnodup.2.2 key (hone.mp h).mem_offloadVerdicts key List.mem_cons_self rfl
      have hzero : acceptedFor M ops key = 0 := by omega
      rw [if_pos hnew, hzero]
      exact ⟨Nat.le_refl 1, iff_of_true rfl (Or.inr hnew)⟩
    · rw [if_neg hnew, Nat.add_zero]
      exact ⟨hle, (or_iff_left hnew).symm⟩

/-- **What becomes of the request of an offloaded flow.**  For every capacity and every
interleaving of packets with receives, and with a receiver that goes away: a flow has at
most one request accepted, only an offloaded one has any, and an offloaded one has exactly
one if and only if the channel was open and had room when it was offloaded. -/
theorem accepted_iff_had_room (checked : Bool) (acl : AclEngine)
    (minPackets idleTimeoutSecs : UInt64) (capacity : Nat) (ops : List Op) (p : Pipeline)
    (hrun : (machine checked (.new acl minPackets idleTimeoutSecs ⟨capacity, [], false⟩)).run ops
      = some p) (key : FlowKey) :
    let M := machine checked (.new acl minPackets idleTimeoutSecs ⟨capacity, [], false⟩)
    acceptedFor M ops key ≤ 1 ∧
    (key ∉ p.offloadedFlows → acceptedFor M ops key = 0) ∧
    (acceptedFor M ops key = 1 ↔ HadRoom M ops key) := by
  intro M
  obtain ⟨hle, hone⟩ :=
    acceptedFor_run checked acl minPackets idleTimeoutSecs capacity ops key p hrun
  refine ⟨hle, fun hnot => ?_, hone⟩
  have hinv := onceInv_run checked acl minPackets idleTimeoutSecs ⟨capacity, [], false⟩ ops p hrun
  rw [hinv.verdicts, List.mem_toFinset] at hnot
  have hle' : acceptedFor M ops key ≤ 1 := hle
  have hne : ¬ acceptedFor M ops key = 1 := fun h => hnot (hone.mp h).mem_offloadVerdicts
  omega

/-- Two packets of one flow, then two of another. -/
def twoFlows : List Op :=
  [packetFromTen 0, packetFromTen 1,
   .processPacket 200 ⟨0x0a000002, 0x08080808, 12345, 443, 6⟩ 64 2,
   .processPacket 200 ⟨0x0a000002, 0x08080808, 12345, 443, 6⟩ 64 3]

/-- A channel with one place takes the request of the first flow and loses that of the
second; both flows are offloaded. -/
theorem offload_lost_when_full :
    let M := machine true (.new (.new allowTen) 2 300 ⟨1, [], false⟩)
    ∃ p, M.run twoFlows = some p ∧
      (200, (⟨0x0a000002, 0x08080808, 12345, 443, 6⟩ : FiveTuple)) ∈ p.offloadedFlows ∧
      acceptedFor M twoFlows (200, ⟨0x0a000002, 0x08080808, 12345, 443, 6⟩) ≠ 1 := by
  intro M
  have hmem : (M.run twoFlows).any (fun p => decide ((200,
      (⟨0x0a000002, 0x08080808, 12345, 443, 6⟩ : FiveTuple)) ∈ p.offloadedFlows)) = true := by
    decide +kernel
  obtain ⟨p, hp, hmem⟩ := (Option.any_eq_true _ _).mp hmem
  exact ⟨p, hp, of_decide_eq_true hmem, by decide +kernel⟩

theorem accepted_iff_had_room_two_flows :
    let M := machine true (.new (.new allowTen) 2 300 ⟨1, [], false⟩)
    ∃ p, M.run twoFlows = some p ∧ ∀ key, acceptedFor M twoFlows key ≤ 1 ∧
      (key ∉ p.offloadedFlows → acceptedFor M twoFlows key = 0) ∧
      (acceptedFor M twoFlows key = 1 ↔ HadRoom M twoFlows key) := by
  intro M
  have hrun : (M.run twoFlows).isSome := by decide +kernel
  obtain ⟨p, hp⟩ := Option.isSome_iff_exists.mp hrun
  exact ⟨p, hp, accepted_iff_had_room true (.new allowTen) 2 300 1 twoFlows p hp⟩

end PrismFirewall.Datapath
