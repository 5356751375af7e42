import Mathlib.Data.List.Forall2
import PrismFirewall.DocaFirewall.CtOffload
import PrismFirewall.DocaFirewall.PolicyReference

/-!
# The main loop of the DOCA firewall

`ct_offload_main_loop` polls the switch port for packets without a connection and gives
each to `ct_offload_process_packet`; then it polls the representor ports and sends what
came in out again on the same port.  The loop looks at `running` only between two rounds.

A round reads what the driver hands it, so the packets and the answers of DPDK and DOCA are
its input (`Round`).  The REST thread works on the same policy table meanwhile: its calls
stand between the rounds and before each packet of a round (`Arrival.calls`).

* `buffers_released`: every buffer the loop received is freed or sent, once.
* `counters_conserve`: how the counters of `struct fw_metrics` hang together.
* `forwarded_admitted`: what leaves the switch port, and what is put into the connection
  table, was allowed by the policy as it stood when the packet was looked at.

The last two are read off one list: `handlings` is the packets of a run, each with the calls
on the policy table before its evaluation.  What the policy said of a packet and what became
of it is a matter of these calls and of the packet; `Traced` says that the state is, too.
-/

namespace PrismFirewall.DocaFirewall

open Lib Lib.Load

/-! ### The driver -/

/-- `struct rte_mbuf`: which buffer it is, and the memory its data lies in. -/
structure Mbuf where
  addr : Nat
  mem : Nat → UInt8

/-- `doca_flow_ct_entry_prepare` fails, finds the connection, or allocates an entry. -/
inductive Prepare
  | failed
  | connFound
  | allocated
  deriving DecidableEq

/-- What the calls behind the policy answer for a packet. -/
structure CtAnswers where
  prepare : Prepare
  /-- `doca_flow_ct_add_entry` succeeds. -/
  added : Bool
  /-- `rte_eth_tx_burst` takes the packet. -/
  transmitted : Bool
  deriving DecidableEq

/-- An entry of the connection table: the match of each direction and its port. -/
structure CtEntry where
  matchO : CtMatch
  matchR : CtMatch
  fwdO : UInt16
  fwdR : UInt16
  deriving DecidableEq

/-- A packet of the switch port, and the calls on the policy table since the one before. -/
structure Arrival where
  calls : List PolicyCall
  pkt : Mbuf
  answers : CtAnswers

/-- A burst of a representor port, and how many of it the port takes back. -/
structure Relay where
  pkts : List Mbuf
  sent : Nat

/-- What the driver hands to one round of the loop. -/
structure Round where
  miss : List Arrival
  relay : Nat → Relay

/-! ### The state -/

/-- The counters of `struct fw_metrics` beside those of `FwMetrics`. -/
structure CtMetrics where
  sessionsOffloaded : UInt64
  sessionsAged : UInt64
  sessionsActive : UInt64
  ctAddErrors : UInt64
  rxBursts : UInt64
  deriving DecidableEq

/-- `struct ct_offload_ctx` with what it points to, the connection table, and what was done
with the buffers. -/
structure LoopState where
  ctx : CtOffloadCtx
  ctMetrics : CtMetrics
  running : Bool
  entries : List CtEntry
  freed : List Mbuf
  sent : List (Nat × Mbuf)

namespace LoopState

variable (s : LoopState)

/-- `rte_pktmbuf_free`. -/
def free (pkt : Mbuf) : LoopState := { s with freed := s.freed ++ [pkt] }

/-- `rte_eth_tx_burst` of one packet that the port takes. -/
def transmit (port : Nat) (pkt : Mbuf) : LoopState := { s with sent := s.sent ++ [(port, pkt)] }

def addError : LoopState :=
  { s with ctMetrics := { s.ctMetrics with ctAddErrors := s.ctMetrics.ctAddErrors + 1 } }

/-- The entry is added and counted. -/
def offload (entry : CtEntry) : LoopState :=
  { s with
    entries := s.entries ++ [entry]
    ctMetrics :=
      { s.ctMetrics with
        sessionsOffloaded := s.ctMetrics.sessionsOffloaded + 1
        sessionsActive := s.ctMetrics.sessionsActive + 1 } }

/-- The port of the representor of VF3, and that of VF0. -/
def vf3Port : UInt16 := 4

def vf0Port : UInt16 := 1

/-- The part of `ct_offload_process_packet` behind the policy. -/
def offloadAllowed (matchO matchR : CtMatch) (pkt : Mbuf) (answers : CtAnswers) : LoopState :=
  match answers.prepare with
  | .failed => s.addError.free pkt
  | .connFound => s.free pkt
  | .allocated =>
    if answers.added then
      let s := s.offload ⟨matchO, matchR, vf3Port, vf0Port⟩
      if answers.transmitted then s.transmit vf3Port.toNat pkt else s.free pkt
    -- the prepared entry is not given back
    else s.addError.free pkt

/-- `ct_offload_process_packet`. -/
def processPacket (pkt : Mbuf) (answers : CtAnswers) : LoopState :=
  let s' := { s with ctx := (ctOffloadProcessPacket s.ctx pkt.mem).2 }
  match (ctOffloadProcessPacket s.ctx pkt.mem).1 with
  | .notIpv4 => s'.free pkt
  | .denied => s'.free pkt
  | .allowed matchO matchR => s'.offloadAllowed matchO matchR pkt answers

/-- A call of another thread on the policy table. -/
def policyCall (c : PolicyCall) : LoopState :=
  { s with ctx := { s.ctx with policy := (policyStep s.ctx.policy c).2 } }

def arrive (a : Arrival) : LoopState :=
  (a.calls.foldl policyCall s).processPacket a.pkt a.answers

/-- `rx_bursts` counts the bursts of the switch port that bring something. -/
def countBurst (r : Round) : LoopState :=
  if r.miss.isEmpty then s
  else { s with ctMetrics := { s.ctMetrics with rxBursts := s.ctMetrics.rxBursts + 1 } }

/-- The burst of a representor port goes out on the port, the rest of it is freed. -/
def relayPort (r : Round) (p : Nat) : LoopState :=
  { s with
    sent := s.sent ++ ((r.relay p).pkts.take (r.relay p).sent).map (fun pkt => (p, pkt))
    freed := s.freed ++ (r.relay p).pkts.drop (r.relay p).sent }

end LoopState

/-- `for (p = 1; p < nb_ports && p < 5; p++)`. -/
def relayPorts (nbPorts : Nat) : List Nat := List.range' 1 (min nbPorts 5 - 1)

/-- One round of `ct_offload_main_loop`. -/
def LoopState.round (nbPorts : Nat) (s : LoopState) (r : Round) : LoopState :=
  (relayPorts nbPorts).foldl (fun s p => s.relayPort r p)
    (r.miss.foldl LoopState.arrive (s.countBurst r))

inductive LoopInput
  | round (r : Round)
  | policyCall (c : PolicyCall)
  /-- `ct_offload_stop`. -/
  | stop

def LoopState.input (nbPorts : Nat) (s : LoopState) : LoopInput → LoopState
  | .round r => if s.running then s.round nbPorts r else s
  | .policyCall c => s.policyCall c
  | .stop => { s with running := false }

/-- `policy_init`, `metrics_init` and `ct_offload_init`, wherever the static counter of the
rules stands. -/
def loopInit (nextRuleId : UInt32) : LoopState where
  ctx := ⟨⟨policyInit, nextRuleId⟩, ⟨0, 0, 0⟩⟩
  ctMetrics := ⟨0, 0, 0, 0, 0⟩
  running := true
  entries := []
  freed := []
  sent := []

def mainLoop (nbPorts : Nat) (nextRuleId : UInt32) : Machine LoopState LoopInput Unit where
  init := loopInit nextRuleId
  step s i := ((), s.input nbPorts i)

/-- What a run did: its inputs without the rounds for which the loop was no longer there. -/
def history (nbPorts : Nat) (nextRuleId : UInt32) (l : List LoopInput) : List LoopInput :=
  (mainLoop nbPorts nextRuleId).events (fun s i _ => match i with
    | .round _ => if s.running then some i else none
    | _ => some i) l

/-- The packets of the switch port, in the order in which the loop takes them. -/
def LoopInput.arrivals : LoopInput → List Arrival
  | .round r => r.miss
  | _ => []

/-- The packets of the representor ports, each with its port. -/
def Round.relayed (nbPorts : Nat) (r : Round) : List (Nat × Mbuf) :=
  (relayPorts nbPorts).flatMap (fun p => (r.relay p).pkts.map (fun pkt => (p, pkt)))

def LoopInput.relayed (nbPorts : Nat) : LoopInput → List (Nat × Mbuf)
  | .round r => r.relayed nbPorts
  | _ => []

/-- The buffers that the driver hands out. -/
def LoopInput.received (nbPorts : Nat) (i : LoopInput) : List Mbuf :=
  i.arrivals.map Arrival.pkt ++ (i.relayed nbPorts).map Prod.snd

/-- The bursts of the switch port that bring something. -/
def LoopInput.isBurst : LoopInput → Bool
  | .round r => !r.miss.isEmpty
  | _ => false

/-- The buffers that the loop no longer holds. -/
def LoopState.released (s : LoopState) : List Mbuf := s.freed ++ s.sent.map Prod.snd

section Runs

variable {nbPorts : Nat} {nextRuleId : UInt32}

/-- **The induction over a run of the loop**, along what the run did. -/
theorem loop_induction {P : List LoopInput → LoopState → Prop} (h0 : P [] (loopInit nextRuleId))
    (hround : ∀ h s r, P h s → P (h ++ [.round r]) (s.round nbPorts r))
    (hcall : ∀ h s c, P h s → P (h ++ [.policyCall c]) (s.policyCall c))
    (hstop : ∀ h s, P h s → P (h ++ [.stop]) { s with running := false })
    (l : List LoopInput) :
    P (history nbPorts nextRuleId l) ((mainLoop nbPorts nextRuleId).run l) := by
  induction l using List.reverseRecOn with
  | nil => exact h0
  | append_singleton l i ih =>
    rw [Machine.run_append_singleton, history, Machine.events_append_singleton]
    cases i with
    | round r =>
      show P (_ ++ Option.toList (if _ then _ else _)) (if _ then _ else _)
      by_cases hrun : ((mainLoop nbPorts nextRuleId).run l).running = true
      · rw [if_pos hrun, if_pos hrun]
        exact hround _ _ r ih
      · rw [if_neg hrun, if_neg hrun, Option.toList_none, List.append_nil]
        exact ih
    | policyCall c => exact hcall _ _ c ih
    | stop => exact hstop _ _ ih

end Runs

/-! ### One packet -/

/-- What the packet function does up to the connection table: it drops what is not IPv4,
drops what the policy denies, and goes on with the rest. -/
theorem ctOffloadProcessPacket_cases (ctx : CtOffloadCtx) (mem : Nat → UInt8) :
    (parseIpv4Packet.value mem = none ∧ ctOffloadProcessPacket ctx mem = (.notIpv4,
      { ctx with
        metrics := { ctx.metrics with pktsReceived := ctx.metrics.pktsReceived + 1 } })) ∨
    ∃ pkt, parseIpv4Packet.value mem = some pkt ∧
      ((policyEvaluate ctx.policy pkt.tuple).1 = .DENY ∧ ctOffloadProcessPacket ctx mem = (.denied,
        { policy := (policyEvaluate ctx.policy pkt.tuple).2
          metrics := { ctx.metrics with
            pktsReceived := ctx.metrics.pktsReceived + 1
            pktsDenied := ctx.metrics.pktsDenied + 1 } }) ∨
      (policyEvaluate ctx.policy pkt.tuple).1 = .ALLOW ∧
        ctOffloadProcessPacket ctx mem = (.allowed pkt.matchO pkt.matchR,
        { policy := (policyEvaluate ctx.policy pkt.tuple).2
          metrics := { ctx.metrics with
            pktsReceived := ctx.metrics.pktsReceived + 1
            pktsAllowed := ctx.metrics.pktsAllowed + 1 } })) := by
  unfold ctOffloadProcessPacket
  cases hparse : parseIpv4Packet.value mem with
  | none => exact Or.inl ⟨rfl, rfl⟩
  | some pkt =>
    refine Or.inr ⟨pkt, rfl, ?_⟩
    dsimp only
    cases haction : (policyEvaluate ctx.policy pkt.tuple).1 with
    | ALLOW => exact Or.inr ⟨rfl, rfl⟩
    | DENY => exact Or.inl ⟨rfl, rfl⟩

/-- A call on the policy table leaves everything but the table as it is. -/
theorem LoopState.policyCall_foldl (s : LoopState) (calls : List PolicyCall) :
    calls.foldl policyCall s = { s with ctx := { s.ctx with
      policy := calls.foldl (fun t c => (policyStep t c).2) s.ctx.policy } } := by
  induction calls generalizing s with
  | nil => rfl
  | cons c calls ih =>
    rw [List.foldl_cons, ih]
    rfl

/-! ### The buffers -/

namespace LoopState

variable (s : LoopState)

theorem released_free (pkt : Mbuf) : (s.free pkt).released.Perm (pkt :: s.released) := by
  rw [released, free, List.append_assoc, List.singleton_append]
  exact List.perm_middle

theorem released_transmit (port : Nat) (pkt : Mbuf) :
    (s.transmit port pkt).released.Perm (pkt :: s.released) := by
  rw [released, transmit, List.map_append, ← List.append_assoc]
  exact List.perm_append_singleton _ _

theorem released_processPacket (pkt : Mbuf) (answers : CtAnswers) :
    (s.processPacket pkt answers).released.Perm (pkt :: s.released) := by
  unfold processPacket
  dsimp only
  split
  · exact released_free _ pkt
  · exact released_free _ pkt
  · unfold offloadAllowed
    split
    · exact released_free _ pkt
    · exact released_free _ pkt
    · split
      · dsimp only
        split
        · exact released_transmit _ _ pkt
        · exact released_free _ pkt
      · exact released_free _ pkt

theorem released_arrive (a : Arrival) : (s.arrive a).released.Perm (a.pkt :: s.released) := by
  have h := (a.calls.foldl policyCall s).released_processPacket a.pkt a.answers
  rw [policyCall_foldl] at h
  rwa [arrive, policyCall_foldl]

theorem released_arrivals (as : List Arrival) :
    (as.foldl arrive s).released.Perm (as.map Arrival.pkt ++ s.released) := by
  induction as generalizing s with
  | nil => exact List.Perm.refl _
  | cons a as ih =>
    rw [List.foldl_cons, List.map_cons, List.cons_append]
    refine (ih (s.arrive a)).trans ?_
    exact ((s.released_arrive a).append_left _).trans List.perm_middle

theorem released_relayPort (r : Round) (p : Nat) :
    (s.relayPort r p).released.Perm ((r.relay p).pkts ++ s.released) := by
  rw [relayPort, released, List.map_append, List.map_map]
  have hsnd : (Prod.snd ∘ fun pkt : Mbuf => (p, pkt)) = id := rfl
  rw [hsnd, List.map_id]
  have hburst : (s.freed ++ (r.relay p).pkts.drop (r.relay p).sent
      ++ (s.sent.map Prod.snd ++ (r.relay p).pkts.take (r.relay p).sent)).Perm
      (s.freed ++ (s.sent.map Prod.snd ++ (r.relay p).pkts)) := by
    -- what is sent and what is freed of the burst come together again
    rw [List.append_assoc]
    apply List.Perm.append_left
    refine List.perm_append_comm.trans ?_
    rw [List.append_assoc, List.take_append_drop]
  refine hburst.trans ?_
  rw [← List.append_assoc]
  exact List.perm_append_comm

theorem released_relayPorts (r : Round) (ps : List Nat) :
    (ps.foldl (fun s p => s.relayPort r p) s).released.Perm
      (ps.flatMap (fun p => (r.relay p).pkts) ++ s.released) := by
  induction ps generalizing s with
  | nil => exact List.Perm.refl _
  | cons p ps ih =>
    rw [List.foldl_cons, List.flatMap_cons]
    refine (ih (s.relayPort r p)).trans ?_
    refine ((s.released_relayPort r p).append_left _).trans ?_
    rw [← List.append_assoc]
    exact List.perm_append_comm.append_right _

theorem released_round (nbPorts : Nat) (r : Round) :
    (s.round nbPorts r).released.Perm (s.released ++ (LoopInput.round r).received nbPorts) := by
  have hburst : (s.countBurst r).released = s.released := by
    unfold countBurst
    split
    · rfl
    · rfl
  have hrelayed : (r.relayed nbPorts).map Prod.snd
      = (relayPorts nbPorts).flatMap (fun p => (r.relay p).pkts) := by
    rw [Round.relayed, List.map_flatMap]
    simp only [List.map_map]
    congr 1
    funext p
    exact List.map_id _
  refine (released_relayPorts _ r (relayPorts nbPorts)).trans ?_
  have hmiss := (s.countBurst r).released_arrivals r.miss
  rw [hburst] at hmiss
  refine (hmiss.append_left _).trans ?_
  show List.Perm _ (s.released ++ (r.miss.map Arrival.pkt ++ (r.relayed nbPorts).map Prod.snd))
  rw [hrelayed, ← List.append_assoc]
  exact List.perm_append_comm.trans (List.perm_append_comm.append_left _)

end LoopState

/-- **Every buffer is released, once.**  Whatever the driver answers and whenever the loop is
stopped, the buffers that were freed or sent are the buffers that were received, each as
often as it came in. -/
theorem buffers_released (nbPorts : Nat) (nextRuleId : UInt32) (l : List LoopInput) :
    ((mainLoop nbPorts nextRuleId).run l).released.Perm
      ((history nbPorts nextRuleId l).flatMap (LoopInput.received nbPorts)) := by
  refine loop_induction (P := fun h s => s.released.Perm (h.flatMap (LoopInput.received nbPorts)))
    (List.Perm.refl _) ?_ ?_ ?_ l
  · intro h s r ih
    rw [List.flatMap_append, List.flatMap_singleton]
    exact (s.released_round nbPorts r).trans (ih.append_right _)
  · intro h s c ih
    rw [List.flatMap_append, List.flatMap_singleton]
    exact ih.trans (by simp [LoopInput.received, LoopInput.arrivals, LoopInput.relayed])
  · intro h s ih
    rw [List.flatMap_append, List.flatMap_singleton]
    exact ih.trans (by simp [LoopInput.received, LoopInput.arrivals, LoopInput.relayed])

/-! ### What became of each packet -/

/-- The frame is one that `parse_ipv4_packet` accepts. -/
def Arrival.isIpv4 (a : Arrival) : Bool := (parseIpv4Packet.value a.pkt.mem).isSome

/-- The calls on the policy table that an arrival makes, its own evaluation last. -/
def Arrival.policyCalls (a : Arrival) : List PolicyCall :=
  a.calls ++ ((parseIpv4Packet.value a.pkt.mem).map (fun pkt => .evaluate pkt.tuple)).toList

def LoopInput.policyCalls : LoopInput → List PolicyCall
  | .round r => r.miss.flatMap Arrival.policyCalls
  | .policyCall c => [c]
  | .stop => []

/-- `policy_evaluate` returns ALLOW. -/
def Policy.permits (s : Policy) (p : FiveTuple) : Bool := decide ((policyEvaluate s p).1 = .ALLOW)

/-- The entry for which the hardware has room. -/
def CtAnswers.offloads (answers : CtAnswers) : Bool :=
  decide (answers.prepare = .allocated) && answers.added

/-- A call of the connection table fails for the packet, if it comes so far. -/
def CtAnswers.fails (answers : CtAnswers) : Bool :=
  decide (answers.prepare = .failed) || decide (answers.prepare = .allocated) && !answers.added

/-- The entry that a packet gets where a test lets it through. -/
def Arrival.entry (permits : FiveTuple → Bool) (a : Arrival) : Option CtEntry :=
  match parseIpv4Packet.value a.pkt.mem with
  | none => none
  | some pkt =>
    if permits pkt.tuple && a.answers.offloads then
      some ⟨pkt.matchO, pkt.matchR, LoopState.vf3Port, LoopState.vf0Port⟩
    else none

/-- A packet of the switch port, and the calls on the policy table before its evaluation. -/
structure Handling where
  before : List PolicyCall
  arrival : Arrival

/-- The packets of one burst. -/
def handlingsFrom (calls : List PolicyCall) : List Arrival → List Handling
  | [] => []
  | a :: as => ⟨calls ++ a.calls, a⟩ :: handlingsFrom (calls ++ a.policyCalls) as

/-- The packets of a run. -/
def handlings (calls : List PolicyCall) : List LoopInput → List Handling
  | [] => []
  | i :: is => handlingsFrom calls i.arrivals ++ handlings (calls ++ i.policyCalls) is

theorem map_arrival_handlingsFrom (calls : List PolicyCall) (as : List Arrival) :
    (handlingsFrom calls as).map Handling.arrival = as := by
  induction as generalizing calls with
  | nil => rfl
  | cons a as ih => rw [handlingsFrom, List.map_cons, ih]

/-- These are the packets of the run, in the order in which the loop takes them. -/
theorem map_arrival_handlings (calls : List PolicyCall) (h : List LoopInput) :
    (handlings calls h).map Handling.arrival = h.flatMap LoopInput.arrivals := by
  induction h generalizing calls with
  | nil => rfl
  | cons i h ih =>
    rw [handlings, List.map_append, map_arrival_handlingsFrom, ih, List.flatMap_cons]

theorem handlings_append_singleton (calls : List PolicyCall) (h : List LoopInput) (i : LoopInput) :
    handlings calls (h ++ [i]) = handlings calls h
      ++ handlingsFrom (calls ++ h.flatMap LoopInput.policyCalls) i.arrivals := by
  induction h generalizing calls with
  | nil => simp [handlings]
  | cons j h ih =>
    rw [List.cons_append, handlings, ih, handlings, List.flatMap_cons, List.append_assoc,
      List.append_assoc]

namespace Handling

variable (nextRuleId : UInt32) (x : Handling)

/-- The policy when the packet is looked at. -/
def policy : Policy := (policyEngine nextRuleId).run x.before

def notIpv4 : Bool := !x.arrival.isIpv4

def denied : Bool :=
  (parseIpv4Packet.value x.arrival.pkt.mem).any (fun pkt =>
    decide ((policyEvaluate (x.policy nextRuleId) pkt.tuple).1 = .DENY))

def allowed : Bool :=
  (parseIpv4Packet.value x.arrival.pkt.mem).any (fun pkt =>
    (x.policy nextRuleId).permits pkt.tuple)

/-- The packet is allowed, and a call of the connection table fails. -/
def failed : Bool := x.allowed nextRuleId && x.arrival.answers.fails

/-- The packet is allowed, and its connection is there already. -/
def found : Bool := x.allowed nextRuleId && decide (x.arrival.answers.prepare = .connFound)

/-- The entry that the packet gets. -/
def entry : Option CtEntry := x.arrival.entry (x.policy nextRuleId).permits

/-- The packet is sent to VF3. -/
def forwarded : Bool := (x.entry nextRuleId).isSome && x.arrival.answers.transmitted

/-- Each packet is no IPv4 packet, or denied, or allowed. -/
theorem one_verdict : x.notIpv4.toNat + (x.denied nextRuleId).toNat + (x.allowed nextRuleId).toNat
    = 1 := by
  rw [notIpv4, denied, allowed, Arrival.isIpv4]
  cases parseIpv4Packet.value x.arrival.pkt.mem with
  | none => rfl
  | some pkt =>
    simp only [Option.isSome_some, Option.any_some, Policy.permits]
    cases (policyEvaluate (x.policy nextRuleId) pkt.tuple).1 with
    | ALLOW => rfl
    | DENY => rfl

/-- Each packet that is allowed fails, or is of a known connection, or gets an entry. -/
theorem one_outcome : (x.allowed nextRuleId).toNat
    = (x.failed nextRuleId).toNat + (x.found nextRuleId).toNat
      + (x.entry nextRuleId).toList.length := by
  obtain ⟨before, calls, frame, prepare, added, transmitted⟩ := x
  rw [failed, found, entry, allowed, Arrival.entry]
  cases parseIpv4Packet.value frame.mem with
  | none => rfl
  | some pkt =>
    simp only [Option.any_some]
    cases Policy.permits _ pkt.tuple with
    | false => rfl
    | true =>
      cases prepare with
      | failed => rfl
      | connFound => rfl
      | allocated => cases added <;> rfl

end Handling

/-! ### One packet and the state -/

theorem run_policyEngine_append {nextRuleId : UInt32} (l l' : List PolicyCall) :
    (policyEngine nextRuleId).run (l ++ l')
      = l'.foldl (fun t c => (policyStep t c).2) ((policyEngine nextRuleId).run l) :=
  List.foldl_append

/-- The number that one packet adds to a counter. -/
def tally (b : Bool) : UInt64 := .ofNat b.toNat

/-- What the packet does to the state: its evaluation, its entry, the counters, and what is
sent. -/
structure Handled (nextRuleId : UInt32) (x : Handling) (s s' : LoopState) : Prop where
  entries : s'.entries = s.entries ++ (x.entry nextRuleId).toList
  metrics : s'.ctx.metrics = ⟨s.ctx.metrics.pktsReceived + 1,
    s.ctx.metrics.pktsAllowed + tally (x.allowed nextRuleId),
    s.ctx.metrics.pktsDenied + tally (x.denied nextRuleId)⟩
  ctMetrics : s'.ctMetrics = { s.ctMetrics with
    sessionsOffloaded := s.ctMetrics.sessionsOffloaded + tally (x.entry nextRuleId).isSome
    sessionsActive := s.ctMetrics.sessionsActive + tally (x.entry nextRuleId).isSome
    ctAddErrors := s.ctMetrics.ctAddErrors + tally (x.failed nextRuleId) }
  sent : s'.sent = s.sent
    ++ if x.forwarded nextRuleId then [(LoopState.vf3Port.toNat, x.arrival.pkt)] else []

section OnePacket

variable {nextRuleId : UInt32} {x : Handling} {s : LoopState}

/-- The calls of the connection table, for a packet that the policy lets pass. -/
theorem offloadAllowed_spec (matchO matchR : CtMatch) (pkt : Mbuf) (answers : CtAnswers) :
    (s.offloadAllowed matchO matchR pkt answers).ctx = s.ctx ∧
    (s.offloadAllowed matchO matchR pkt answers).entries = s.entries ++
      (if answers.offloads then [⟨matchO, matchR, LoopState.vf3Port, LoopState.vf0Port⟩] else []) ∧
    (s.offloadAllowed matchO matchR pkt answers).ctMetrics = { s.ctMetrics with
      sessionsOffloaded := s.ctMetrics.sessionsOffloaded + tally answers.offloads
      sessionsActive := s.ctMetrics.sessionsActive + tally answers.offloads
      ctAddErrors := s.ctMetrics.ctAddErrors + tally answers.fails } ∧
    (s.offloadAllowed matchO matchR pkt answers).sent = s.sent ++
      (if answers.offloads && answers.transmitted then [(LoopState.vf3Port.toNat, pkt)]
        else []) := by
  obtain ⟨prepare, added, transmitted⟩ := answers
  cases prepare with
  | failed =>
    simp [LoopState.offloadAllowed, LoopState.addError, LoopState.free, CtAnswers.offloads,
      CtAnswers.fails, tally]
  | connFound =>
    simp [LoopState.offloadAllowed, LoopState.free, CtAnswers.offloads, CtAnswers.fails, tally]
  | allocated =>
    cases added with
    | false =>
      simp [LoopState.offloadAllowed, LoopState.addError, LoopState.free, CtAnswers.offloads,
        CtAnswers.fails, tally]
    | true =>
      cases transmitted with
      | false =>
        simp [LoopState.offloadAllowed, LoopState.offload, LoopState.free, CtAnswers.offloads,
          CtAnswers.fails, tally]
      | true =>
        simp [LoopState.offloadAllowed, LoopState.offload, LoopState.transmit, CtAnswers.offloads,
          CtAnswers.fails, tally]

/-- **The packet function**, on the policy of the moment. -/
theorem handled_processPacket (hpolicy : s.ctx.policy = x.policy nextRuleId) :
    Handled nextRuleId x s (s.processPacket x.arrival.pkt x.arrival.answers) := by
  rcases ctOffloadProcessPacket_cases s.ctx x.arrival.pkt.mem with
    ⟨hparse, hstep⟩ | ⟨pkt, hparse, ⟨hdeny, hstep⟩ | ⟨hallow, hstep⟩⟩
  · have hentry : x.entry nextRuleId = none := by simp [Handling.entry, Arrival.entry, hparse]
    have hallowed : x.allowed nextRuleId = false := by simp [Handling.allowed, hparse]
    have hdenied : x.denied nextRuleId = false := by simp [Handling.denied, hparse]
    rw [LoopState.processPacket, hstep]
    constructor <;> simp [LoopState.free, Handling.failed, Handling.forwarded, hentry, hallowed,
      hdenied, tally]
  · rw [hpolicy] at hdeny
    have hentry : x.entry nextRuleId = none := by
      simp [Handling.entry, Arrival.entry, hparse, Policy.permits, hdeny]
    have hallowed : x.allowed nextRuleId = false := by
      simp [Handling.allowed, hparse, Policy.permits, hdeny]
    have hdenied : x.denied nextRuleId = true := by simp [Handling.denied, hparse, hdeny]
    rw [LoopState.processPacket, hstep]
    constructor <;> simp [LoopState.free, Handling.failed, Handling.forwarded, hentry, hallowed,
      hdenied, tally]
  · rw [hpolicy] at hallow
    have hentry : x.entry nextRuleId = if x.arrival.answers.offloads then
        some ⟨pkt.matchO, pkt.matchR, LoopState.vf3Port, LoopState.vf0Port⟩ else none := by
      simp [Handling.entry, Arrival.entry, hparse, Policy.permits, hallow]
    have hallowed : x.allowed nextRuleId = true := by
      simp [Handling.allowed, hparse, Policy.permits, hallow]
    have hdenied : x.denied nextRuleId = false := by simp [Handling.denied, hparse, hallow]
    have hsome : (x.entry nextRuleId).isSome = x.arrival.answers.offloads := by
      rw [hentry]
      cases x.arrival.answers.offloads <;> rfl
    rw [LoopState.processPacket, hstep]
    obtain ⟨hctx, hentries, hct, hsent⟩ := offloadAllowed_spec
      (s := { s with ctx := _ }) pkt.matchO pkt.matchR x.arrival.pkt x.arrival.answers
    refine ⟨hentries.trans ?_, ?_, hct.trans ?_, hsent.trans ?_⟩
    · rw [hentry]
      cases x.arrival.answers.offloads <;> rfl
    · dsimp only
      rw [hctx, hallowed, hdenied]
      simp [tally]
    · rw [hsome, Handling.failed, hallowed]
      rfl
    · rw [Handling.forwarded, hsome]

/-- The packet function and the policy. -/
theorem policy_processPacket (a : Arrival) :
    (s.processPacket a.pkt a.answers).ctx.policy
      = ((parseIpv4Packet.value a.pkt.mem).map
          (fun pkt => PolicyCall.evaluate pkt.tuple)).toList.foldl
            (fun t c => (policyStep t c).2) s.ctx.policy := by
  rcases ctOffloadProcessPacket_cases s.ctx a.pkt.mem with
    ⟨hparse, hstep⟩ | ⟨pkt, hparse, ⟨-, hstep⟩ | ⟨-, hstep⟩⟩
  · rw [LoopState.processPacket, hstep, hparse]
    rfl
  · rw [LoopState.processPacket, hstep, hparse]
    rfl
  · rw [LoopState.processPacket, hstep, hparse]
    dsimp only
    rw [(offloadAllowed_spec _ _ _ _).1]
    rfl

/-- **An arrival**: the calls before the packet, then the packet. -/
theorem arrive_spec {calls : List PolicyCall}
    (hpolicy : s.ctx.policy = (policyEngine nextRuleId).run calls) (a : Arrival) :
    (s.arrive a).ctx.policy = (policyEngine nextRuleId).run (calls ++ a.policyCalls) ∧
      Handled nextRuleId ⟨calls ++ a.calls, a⟩ s (s.arrive a) := by
  have hbefore : a.calls.foldl (fun t c => (policyStep t c).2) s.ctx.policy
      = (policyEngine nextRuleId).run (calls ++ a.calls) := by
    rw [run_policyEngine_append, hpolicy]
  rw [LoopState.arrive, LoopState.policyCall_foldl, hbefore]
  constructor
  · rw [policy_processPacket, Arrival.policyCalls, ← List.append_assoc]
    exact (run_policyEngine_append _ _).symm
  · have h := handled_processPacket (x := ⟨calls ++ a.calls, a⟩)
      (s := { s with ctx := { s.ctx with
        policy := (policyEngine nextRuleId).run (calls ++ a.calls) } }) rfl
    exact ⟨h.entries, h.metrics, h.ctMetrics, h.sent⟩

end OnePacket

/-! ### Runs -/

/-- The state is what became of the packets: the policy is that of the calls made so far,
each packet has left its entry, and the counters count the packets. -/
structure Traced (nextRuleId : UInt32) (calls : List PolicyCall) (xs : List Handling)
    (bursts : Nat) (relayed : List (Nat × Mbuf)) (s : LoopState) : Prop where
  policy : s.ctx.policy = (policyEngine nextRuleId).run calls
  entries : s.entries = xs.filterMap (Handling.entry nextRuleId)
  metrics : s.ctx.metrics = ⟨.ofNat xs.length, .ofNat (xs.countP (Handling.allowed nextRuleId)),
    .ofNat (xs.countP (Handling.denied nextRuleId))⟩
  ctMetrics : s.ctMetrics = ⟨.ofNat s.entries.length, 0, .ofNat s.entries.length,
    .ofNat (xs.countP (Handling.failed nextRuleId)), .ofNat bursts⟩
  sent : ∀ p ∈ s.sent, p ∈ relayed ∨
    ∃ x ∈ xs, x.forwarded nextRuleId ∧ p = (LoopState.vf3Port.toNat, x.arrival.pkt)

/-- The representor ports touch neither the policy, nor the counters, nor the entries. -/
theorem LoopState.relayPorts_foldl (s : LoopState) (r : Round) (ps : List Nat) :
    ∃ freed, ps.foldl (fun s p => s.relayPort r p) s = { s with
      sent := s.sent ++ ps.flatMap (fun p =>
        ((r.relay p).pkts.take (r.relay p).sent).map (fun pkt => (p, pkt)))
      freed := freed } := by
  induction ps generalizing s with
  | nil => exact ⟨s.freed, by simp⟩
  | cons p ps ih =>
    obtain ⟨freed, h⟩ := ih (s.relayPort r p)
    refine ⟨freed, ?_⟩
    rw [List.foldl_cons, h, List.flatMap_cons, ← List.append_assoc]
    rfl

section Tracing

variable {nextRuleId : UInt32} {calls : List PolicyCall} {xs : List Handling} {bursts : Nat}
variable {relayed : List (Nat × Mbuf)} {s : LoopState}

theorem ofNat_countP_append (p : Handling → Bool) (x : Handling) :
    UInt64.ofNat ((xs ++ [x]).countP p) = .ofNat (xs.countP p) + tally (p x) := by
  rw [List.countP_append, List.countP_singleton, UInt64.ofNat_add, tally]
  cases p x <;> rfl

/-- One packet more. -/
theorem Traced.arrive (h : Traced nextRuleId calls xs bursts relayed s) (a : Arrival) :
    Traced nextRuleId (calls ++ a.policyCalls) (xs ++ [⟨calls ++ a.calls, a⟩]) bursts relayed
      (s.arrive a) := by
  obtain ⟨hpolicy, hx⟩ := arrive_spec h.policy a
  generalize hxa : (⟨calls ++ a.calls, a⟩ : Handling) = x at hx ⊢
  have hlength : UInt64.ofNat (s.arrive a).entries.length
      = .ofNat s.entries.length + tally (x.entry nextRuleId).isSome := by
    rw [hx.entries, List.length_append, UInt64.ofNat_add]
    cases x.entry nextRuleId <;> rfl
  refine ⟨hpolicy, ?_, ?_, ?_, ?_⟩
  · rw [hx.entries, h.entries, List.filterMap_append, List.filterMap_cons, List.filterMap_nil]
    cases x.entry nextRuleId <;> rfl
  · rw [hx.metrics, h.metrics, List.length_append, UInt64.ofNat_add, ofNat_countP_append,
      ofNat_countP_append]
    rfl
  · rw [hx.ctMetrics, h.ctMetrics, hlength, ofNat_countP_append]
  · intro p hp
    rw [hx.sent, List.mem_append] at hp
    rcases hp with hp | hp
    · refine (h.sent p hp).imp_right ?_
      rintro ⟨y, hy, hforwarded⟩
      exact ⟨y, List.mem_append_left _ hy, hforwarded⟩
    · right
      refine ⟨x, List.mem_append_right _ (List.mem_singleton_self x), ?_⟩
      split at hp
      · rename_i hforwarded
        exact ⟨hforwarded, List.mem_singleton.mp hp⟩
      · cases hp

theorem Traced.arrivals (h : Traced nextRuleId calls xs bursts relayed s) (as : List Arrival) :
    Traced nextRuleId (calls ++ as.flatMap Arrival.policyCalls) (xs ++ handlingsFrom calls as)
      bursts relayed (as.foldl LoopState.arrive s) := by
  induction as generalizing calls xs s with
  | nil =>
    rw [List.flatMap_nil, handlingsFrom, List.append_nil, List.append_nil]
    exact h
  | cons a as ih =>
    have h' := ih (h.arrive a)
    rwa [List.append_assoc, List.append_assoc] at h'

theorem Traced.round {nbPorts : Nat} (h : Traced nextRuleId calls xs bursts relayed s)
    (r : Round) :
    Traced nextRuleId (calls ++ (LoopInput.round r).policyCalls) (xs ++ handlingsFrom calls r.miss)
      (bursts + if (LoopInput.round r).isBurst then 1 else 0)
      (relayed ++ (LoopInput.round r).relayed nbPorts) (s.round nbPorts r) := by
  have hburst : Traced nextRuleId calls xs
      (bursts + if (LoopInput.round r).isBurst then 1 else 0) relayed (s.countBurst r) := by
    unfold LoopState.countBurst
    by_cases hempty : r.miss.isEmpty = true
    · rw [if_pos hempty, LoopInput.isBurst, hempty]
      exact h
    · rw [if_neg hempty, LoopInput.isBurst, if_pos (by simpa using hempty)]
      exact ⟨h.policy, h.entries, h.metrics, by simp [h.ctMetrics], h.sent⟩
  have hmiss := hburst.arrivals r.miss
  obtain ⟨freed, hrelay⟩ := (r.miss.foldl LoopState.arrive (s.countBurst r)).relayPorts_foldl r
    (relayPorts nbPorts)
  rw [LoopState.round, hrelay]
  refine ⟨hmiss.policy, hmiss.entries, hmiss.metrics, hmiss.ctMetrics, ?_⟩
  intro x hx
  rcases List.mem_append.mp hx with hx | hx
  · exact (hmiss.sent x hx).imp_left (List.mem_append_left _)
  · left
    obtain ⟨p, hp, hx⟩ := List.mem_flatMap.mp hx
    obtain ⟨pkt, hpkt, rfl⟩ := List.mem_map.mp hx
    refine List.mem_append_right _ (List.mem_flatMap.mpr ⟨p, hp, ?_⟩)
    exact List.mem_map.mpr ⟨pkt, List.mem_of_mem_take hpkt, rfl⟩

end Tracing

/-- **The state after a run** is what became of the packets of the run. -/
theorem traced_run (nbPorts : Nat) (nextRuleId : UInt32) (l : List LoopInput) :
    Traced nextRuleId ((history nbPorts nextRuleId l).flatMap LoopInput.policyCalls)
      (handlings [] (history nbPorts nextRuleId l))
      ((history nbPorts nextRuleId l).countP LoopInput.isBurst)
      ((history nbPorts nextRuleId l).flatMap (LoopInput.relayed nbPorts))
      ((mainLoop nbPorts nextRuleId).run l) := by
  refine loop_induction (P := fun h s => Traced nextRuleId (h.flatMap LoopInput.policyCalls)
    (handlings [] h) (h.countP LoopInput.isBurst) (h.flatMap (LoopInput.relayed nbPorts)) s)
    ?_ ?_ ?_ ?_ l
  · exact ⟨rfl, rfl, rfl, rfl, fun p hp => by simp [loopInit] at hp⟩
  · intro h s r ih
    simp only [handlings_append_singleton, List.flatMap_append, List.flatMap_singleton,
      List.countP_append, List.countP_singleton, List.nil_append]
    exact ih.round r
  · intro h s c ih
    simp only [handlings_append_singleton, List.flatMap_append, List.flatMap_singleton,
      List.countP_append, List.countP_singleton, LoopInput.arrivals, handlingsFrom,
      LoopInput.relayed, LoopInput.policyCalls, List.append_nil]
    exact ⟨by rw [run_policyEngine_append, ← ih.policy]; rfl, ih.entries, ih.metrics,
      ih.ctMetrics, ih.sent⟩
  · intro h s ih
    simp only [handlings_append_singleton, List.flatMap_append, List.flatMap_singleton,
      List.countP_append, List.countP_singleton, LoopInput.arrivals, handlingsFrom,
      LoopInput.relayed, LoopInput.policyCalls, List.append_nil]
    exact ⟨ih.policy, ih.entries, ih.metrics, ih.ctMetrics, ih.sent⟩

/-! ### The counters -/

/-- What the counters say of the packets so far: each was no IPv4 packet, was denied, or was
allowed; and each that was allowed failed at the connection table, belonged to a connection
that was there already, or has an entry. -/
structure Counted (nextRuleId : UInt32) (xs : List Handling) (bursts : Nat) (s : LoopState) :
    Prop where
  received_eq : xs.length = xs.countP Handling.notIpv4 + xs.countP (Handling.denied nextRuleId)
    + xs.countP (Handling.allowed nextRuleId)
  allowed_eq : xs.countP (Handling.allowed nextRuleId)
    = xs.countP (Handling.failed nextRuleId) + xs.countP (Handling.found nextRuleId)
      + s.entries.length
  entries : s.entries = xs.filterMap (Handling.entry nextRuleId)
  metrics : s.ctx.metrics = ⟨.ofNat xs.length, .ofNat (xs.countP (Handling.allowed nextRuleId)),
    .ofNat (xs.countP (Handling.denied nextRuleId))⟩
  ctMetrics : s.ctMetrics = ⟨.ofNat s.entries.length, 0, .ofNat s.entries.length,
    .ofNat (xs.countP (Handling.failed nextRuleId)), .ofNat bursts⟩

theorem countP_cons_eq_add (p : Handling → Bool) (x : Handling) (xs : List Handling) :
    (x :: xs).countP p = xs.countP p + (p x).toNat := by
  rw [List.countP_cons]
  cases p x <;> rfl

theorem length_eq_countP (nextRuleId : UInt32) (xs : List Handling) :
    xs.length = xs.countP Handling.notIpv4 + xs.countP (Handling.denied nextRuleId)
      + xs.countP (Handling.allowed nextRuleId) := by
  induction xs with
  | nil => rfl
  | cons x xs ih =>
    have hx := x.one_verdict nextRuleId
    simp only [List.length_cons, countP_cons_eq_add]
    omega

theorem countP_allowed (nextRuleId : UInt32) (xs : List Handling) :
    xs.countP (Handling.allowed nextRuleId)
      = xs.countP (Handling.failed nextRuleId) + xs.countP (Handling.found nextRuleId)
        + (xs.filterMap (Handling.entry nextRuleId)).length := by
  induction xs with
  | nil => rfl
  | cons x xs ih =>
    have hx := x.one_outcome nextRuleId
    have hlength : ((x :: xs).filterMap (Handling.entry nextRuleId)).length
        = (x.entry nextRuleId).toList.length
          + (xs.filterMap (Handling.entry nextRuleId)).length := by
      rw [List.filterMap_cons]
      cases x.entry nextRuleId with
      | none => exact (Nat.zero_add _).symm
      | some e => exact Nat.add_comm _ _
    simp only [countP_cons_eq_add, hlength]
    omega

/-- **The counters hang together.**  After every run, the packets received are those that
were no IPv4 packets, those that the policy of the moment denied, and those that it allowed;
those that were allowed are the failures of the connection table, the packets of connections
that were there already, and the entries.  The counters are these numbers modulo `2^64`, the
active sessions are those ever offloaded, and none is ever counted as aged. -/
theorem counters_conserve (nbPorts : Nat) (nextRuleId : UInt32) (l : List LoopInput) :
    Counted nextRuleId (handlings [] (history nbPorts nextRuleId l))
      ((history nbPorts nextRuleId l).countP LoopInput.isBurst)
      ((mainLoop nbPorts nextRuleId).run l) := by
  have h := traced_run nbPorts nextRuleId l
  refine ⟨length_eq_countP nextRuleId _, ?_, h.entries, h.metrics, h.ctMetrics⟩
  rw [h.entries]
  exact countP_allowed nextRuleId _

/-! ### What gets through -/

/-- The entry belongs to the packet, and the rule that decides on the packet in the table it
was looked up in allows it. -/
def Admitted (nextRuleId : UInt32) (x : Handling) (e : CtEntry) : Prop :=
  ∃ pkt, parseIpv4Packet.value x.arrival.pkt.mem = some pkt ∧
    e = ⟨pkt.matchO, pkt.matchR, LoopState.vf3Port, LoopState.vf0Port⟩ ∧
    ∃ i, IsLeastMatch (x.policy nextRuleId).table pkt.tuple i ∧
      (cell (x.policy nextRuleId).table.rules i).action = .ALLOW

/-- The policy is that of the calls made so far, the entries are those of the packets that
got one, each was admitted for its packet, and what was sent came from a representor port or
is a packet that has an entry. -/
structure Forwarded (nextRuleId : UInt32) (calls : List PolicyCall) (xs : List Handling)
    (relayed : List (Nat × Mbuf)) (s : LoopState) : Prop where
  policy : s.ctx.policy = (policyEngine nextRuleId).run calls
  entries : s.entries = xs.filterMap (Handling.entry nextRuleId)
  admitted : ∀ x ∈ xs, ∀ e, x.entry nextRuleId = some e → Admitted nextRuleId x e
  sent : ∀ p ∈ s.sent, p ∈ relayed ∨
    ∃ x ∈ xs, p = (4, x.arrival.pkt) ∧ ∃ e ∈ s.entries, x.entry nextRuleId = some e

/-- A packet that gets an entry is decided by a rule that allows it. -/
theorem admitted_of_entry {nextRuleId : UInt32} {x : Handling} {e : CtEntry}
    (h : x.entry nextRuleId = some e) : Admitted nextRuleId x e := by
  rw [Handling.entry, Arrival.entry] at h
  split at h
  · cases h
  · rename_i pkt hparse
    split at h
    · rename_i hpermits
      rw [Bool.and_eq_true] at hpermits
      have hallow : (policyEvaluate (x.policy nextRuleId) pkt.tuple).1 = .ALLOW :=
        of_decide_eq_true hpermits.1
      obtain ⟨i, hleast, haction⟩ := policyEvaluate_spec (sound_run nextRuleId x.before) pkt.tuple
      exact ⟨pkt, hparse, (Option.some.inj h).symm, i, hleast, haction.symm.trans hallow⟩
    · cases h

/-- **Nothing gets through that the policy did not allow.**  After every run, the policy is
that of the calls made so far; the entries of the connection table are those of packets of
the switch port, in order, and when each of these was evaluated, the rule that decides on it
in the table of that moment allowed it; and what was sent came in on the same representor
port, or went to VF3 and has an entry. -/
theorem forwarded_admitted (nbPorts : Nat) (nextRuleId : UInt32) (l : List LoopInput) :
    Forwarded nextRuleId ((history nbPorts nextRuleId l).flatMap LoopInput.policyCalls)
      (handlings [] (history nbPorts nextRuleId l))
      ((history nbPorts nextRuleId l).flatMap (LoopInput.relayed nbPorts))
      ((mainLoop nbPorts nextRuleId).run l) := by
  have h := traced_run nbPorts nextRuleId l
  refine ⟨h.policy, h.entries, fun x _ e he => admitted_of_entry he, fun p hp => ?_⟩
  refine (h.sent p hp).imp_right ?_
  rintro ⟨x, hx, hforwarded, rfl⟩
  rw [Handling.forwarded, Bool.and_eq_true] at hforwarded
  obtain ⟨e, he⟩ := Option.isSome_iff_exists.mp hforwarded.1
  refine ⟨x, hx, rfl, e, ?_, he⟩
  rw [h.entries]
  exact List.mem_filterMap.mpr ⟨x, hx, he⟩

end PrismFirewall.DocaFirewall
