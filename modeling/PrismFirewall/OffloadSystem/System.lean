import PrismFirewall.Datapath.OffloadChannel
import PrismFirewall.Datapath.OffloadRpc
import PrismFirewall.Lib.Run

/-!
# The offload path as one system

The pipeline hands requests to a channel, the sender task of the datapath's `main.rs` takes
them from it one by one and calls the daemon, and the daemon programs the hardware.  Here
the three run side by side: the pipeline of `Datapath/Pipeline.lean`, the daemon of
`OffloadDaemon/Agreement.lean`, and between them the task, with its loop cut where it waits.

An attempt of the task's call may be executed and answered, executed without the answer
arriving, or fail before it is executed; a request that the client has given up may still be
on its way and come in at any later moment (`late`).  Between these steps packets are
processed, and other clients flush, query and sweep.

The parts are joined as `main.rs` wires them.  As it stands, no configuration of `main.rs`
runs packets and the client together: in mock mode the task only logs what it takes from the
channel, and otherwise no packet comes in.  The gating on the mode is not modelled.
-/

namespace PrismFirewall.OffloadSystem

open Lib
open PrismFirewall.Datapath
open PrismFirewall.OffloadDaemon (OffloadServiceImpl SessionAger Daemon Nanos Status
  ProgramSessionResponse FlushSessionsRequest QuerySessionRequest)

/-- Where the sender task stands. -/
inductive Sender
  | connecting
  /-- The connection has failed: requests are taken and dropped. -/
  | draining
  | idle
  /-- In `program_session`: the attempt, and the daemon's reply once it has executed it. -/
  | calling (req : OffloadRequest) (attempt : Nat)
    (reply : Option (Except Status ProgramSessionResponse))

structure System where
  pipeline : Option Pipeline
  sender : Sender
  /-- Requests of attempts that have failed, which may still come in. -/
  late : List OffloadRequest
  daemon : Daemon

inductive Op
  | processPacket (vni : UInt32) (tuple : FiveTuple) (pktLen : UInt64) (now : Nat)
  | evictIdle (now : Nat)
  | connect (ok : Bool)
  | receive
  /-- The daemon executes the attempt that the task waits for. -/
  | execute (now : Nanos)
  /-- Its answer arrives. -/
  | answer
  /-- The attempt ends in an error; if it has not been executed, it may still come in. -/
  | fail (error : String) (late : Bool)
  /-- The daemon executes a request that was given up. -/
  | arrive (i : Nat) (now : Nanos)
  | flushSessions (req : FlushSessionsRequest)
  | querySession (now : Nanos) (req : QuerySessionRequest)
  | sweep (now : Nanos)

/-- What the task knows of a request when it is done with it. -/
inductive Outcome
  | called (req : OffloadRequest) (result : Except String String)
  | dropped (req : OffloadRequest)

def Outcome.req : Outcome → OffloadRequest
  | .called req _ => req
  | .dropped req => req

namespace System

/-- The request the task takes from the channel, if it is where it takes one. -/
def taking (s : System) : Option OffloadRequest :=
  match s.sender with
  | .idle => s.pipeline.bind (fun p => p.offloadTx.queue.head?)
  | .draining => s.pipeline.bind (fun p => p.offloadTx.queue.head?)
  | _ => none

/-- The request that the daemon executes. -/
def executing (s : System) : Op → Option (Nanos × OffloadRequest)
  | .execute now => match s.sender with
    | .calling req _ none => some (now, req)
    | _ => none
  | .arrive i now => s.late[i]?.map (fun req => (now, req))
  | _ => none

def pipelineInput (s : System) : Op → Option Datapath.Op
  | .processPacket vni tuple pktLen now => some (.processPacket vni tuple pktLen now)
  | .evictIdle now => some (.evictIdle now)
  | .receive => s.taking.map (fun _ => .receive)
  | _ => none

def daemonInput (s : System) : Op → Option OffloadDaemon.Op
  | .flushSessions req => some (.flushSessions req)
  | .querySession now req => some (.querySession now req)
  | .sweep now => some (.sweep now)
  | op => (s.executing op).map (fun x => .programSession x.1 (buildProgramRequest x.2))

/-- The task after a failed attempt. -/
def nextAttempt (req : OffloadRequest) (attempt : Nat) (error : String) :
    Option Outcome × Sender :=
  if attempt + 1 < maxRetries then (none, .calling req (attempt + 1) none)
  else (some (.called req (.error ("program_session failed after " ++ toString maxRetries
    ++ " retries: " ++ error))), .idle)

def nextSender (s : System) : Op → Option Outcome × Sender
  | .connect ok => match s.sender with
    | .connecting => (none, if ok then .idle else .draining)
    | sender => (none, sender)
  | .receive => match s.sender, s.taking with
    | .idle, some req => (none, .calling req 0 none)
    | .draining, some req => (some (.dropped req), .draining)
    | sender, _ => (none, sender)
  | .execute now => match s.sender with
    | .calling req attempt none => (none, .calling req attempt
        (some (s.daemon.service.programSession now (buildProgramRequest req)).1))
    | sender => (none, sender)
  | .answer => match s.sender with
    -- an error status is a failed attempt
    | .calling req _ (some (.ok inner)) => (some (.called req (if inner.success
        then .ok inner.entryHandle
        else .error ("program_session failed: " ++ inner.errorMessage))), .idle)
    | sender => (none, sender)
  | .fail error _ => match s.sender with
    | .calling req attempt _ => nextAttempt req attempt error
    | sender => (none, sender)
  | _ => (none, s.sender)

def nextLate (s : System) : Op → List OffloadRequest
  | .fail _ late => match s.sender with
    | .calling req _ none => if late then s.late ++ [req] else s.late
    | _ => s.late
  | .arrive i _ => s.late.eraseIdx i
  | _ => s.late

end System

/-- What the system is set up with. -/
structure Setup where
  checked : Bool
  ager : SessionAger
  acl : AclEngine
  minPackets : UInt64
  idleTimeoutSecs : UInt64
  capacity : Nat

namespace Setup

variable (c : Setup)

/-- The pipeline alone. -/
def pipeline : Machine (Option Pipeline) Datapath.Op (Option PacketVerdict) :=
  machine c.checked (.new c.acl c.minPackets c.idleTimeoutSecs ⟨c.capacity, [], false⟩)

/-- The daemon alone. -/
def daemon : Machine Daemon OffloadDaemon.Op OffloadDaemon.Reply :=
  OffloadDaemon.daemon c.checked c.ager

def system : Machine System Op (Option Outcome) where
  init := ⟨c.pipeline.init, .connecting, [], c.daemon.init⟩
  step s op := ((s.nextSender op).1, ⟨c.pipeline.feed s.pipeline (s.pipelineInput op),
    (s.nextSender op).2, s.nextLate op, c.daemon.feed s.daemon (s.daemonInput op)⟩)

/-! ### The parts -/

/-- What the pipeline sees of a run. -/
def pipelineOps (ops : List Op) : List Datapath.Op :=
  c.system.events (fun s op _ => s.pipelineInput op) ops

/-- What the daemon sees of a run. -/
def daemonOps (ops : List Op) : List OffloadDaemon.Op :=
  c.system.events (fun s op _ => s.daemonInput op) ops

theorem run_pipeline (ops : List Op) :
    (c.system.run ops).pipeline = c.pipeline.run (c.pipelineOps ops) :=
  Machine.run_component c.system c.pipeline System.pipeline _ rfl (fun _ _ => rfl) ops

theorem run_daemon (ops : List Op) :
    (c.system.run ops).daemon = c.daemon.run (c.daemonOps ops) :=
  Machine.run_component c.system c.daemon System.daemon _ rfl (fun _ _ => rfl) ops

/-! ### What becomes of the requests -/

/-- The requests the task has taken from the channel. -/
def taken (ops : List Op) : List OffloadRequest :=
  c.system.events (fun s op _ => match op with
    | .receive => s.taking
    | _ => none) ops

/-- The requests the task is done with. -/
def done (ops : List Op) : List Outcome := c.system.events (fun _ _ o => o) ops

/-- The requests the daemon has executed. -/
def executions (ops : List Op) : List OffloadRequest :=
  c.system.events (fun s op _ => (s.executing op).map Prod.snd) ops

end Setup

/-- The request the task is calling for. -/
def Sender.current : Sender → List OffloadRequest
  | .calling req _ _ => [req]
  | _ => []

/-- The requests that wait in the channel. -/
def System.queued (s : System) : List OffloadRequest :=
  (s.pipeline.map (fun p => p.offloadTx.queue)).getD []

/-- One step of the task: it takes a request, is done with one, both or neither. -/
theorem current_nextSender (s : System) (op : Op) :
    s.sender.current ++ (match op with | .receive => s.taking | _ => none).toList
      = ((s.nextSender op).1.map Outcome.req).toList ++ (s.nextSender op).2.current := by
  cases op with
  | receive =>
    cases hs : s.sender with
    | idle =>
      cases ht : s.taking <;> simp [System.nextSender, hs, ht, Sender.current]
    | draining =>
      cases ht : s.taking <;> simp [System.nextSender, hs, ht, Sender.current, Outcome.req]
    | connecting =>
      have ht : s.taking = none := by rw [System.taking, hs]
      simp [System.nextSender, hs, ht, Sender.current]
    | calling req attempt reply =>
      have ht : s.taking = none := by rw [System.taking, hs]
      simp [System.nextSender, hs, ht, Sender.current]
  | connect ok =>
    cases hs : s.sender <;> cases ok <;> simp [System.nextSender, hs, Sender.current]
  | execute now =>
    cases hs : s.sender with
    | calling req attempt reply => cases reply <;> simp [System.nextSender, hs, Sender.current]
    | _ => simp [System.nextSender, hs, Sender.current]
  | answer =>
    cases hs : s.sender with
    | calling req attempt reply =>
      rcases reply with _ | (status | inner) <;>
        simp [System.nextSender, hs, Sender.current, Outcome.req]
    | _ => simp [System.nextSender, hs, Sender.current]
  | fail error late =>
    cases hs : s.sender with
    | calling req attempt reply =>
      simp only [System.nextSender, hs, System.nextAttempt]
      split <;> simp [Sender.current, Outcome.req]
    | _ => simp [System.nextSender, hs, Sender.current]
  | _ => simp [System.nextSender]

/-- The task takes what is at the head of the channel. -/
theorem receivedRequest_pipelineInput (s : System) (op : Op) :
    (s.pipelineInput op).bind (receivedRequest s.pipeline)
      = match op with | .receive => s.taking | _ => none := by
  cases op with
  | receive =>
    show (s.taking.map (fun _ => Datapath.Op.receive)).bind (receivedRequest s.pipeline) = s.taking
    cases ht : s.taking with
    | none => rfl
    | some req =>
      show receivedRequest s.pipeline .receive = some req
      rw [← ht, System.taking]
      rw [System.taking] at ht
      split at ht
      · rfl
      · rfl
      · cases ht
  | _ => rfl

theorem accepted_eq_taken_append (c : Setup) (ops : List Op) :
    accepted c.pipeline (c.pipelineOps ops)
      = c.taken ops ++ (c.system.run ops).queued := by
  have hevents := Machine.events_component c.system c.pipeline System.pipeline
    (fun s op _ => s.pipelineInput op) rfl (fun _ _ => rfl) (fun s op _ => receivedRequest s op) ops
  simp only [receivedRequest_pipelineInput] at hevents
  rw [accepted, ← c.run_pipeline, Setup.pipelineOps, hevents]
  rfl

theorem taken_eq_done_append (c : Setup) (ops : List Op) :
    c.taken ops = (c.done ops).map Outcome.req ++ (c.system.run ops).sender.current := by
  induction ops using List.reverseRecOn with
  | nil => rfl
  | append_singleton ops op ih =>
    have hstep := current_nextSender (c.system.run ops) op
    rw [Setup.taken, Setup.done, Machine.events_append_singleton, Machine.events_append_singleton,
      Machine.run_append_singleton, List.map_append, ← Setup.taken, ← Setup.done, ih,
      List.append_assoc, List.append_assoc, hstep, Option.toList_map]
    rfl

/-- **Requests are dealt with in order, each once.**  What the channel has accepted is what the
task is done with, then the request it is calling for, then what is queued. -/
theorem accepted_eq_done_append (c : Setup) (ops : List Op) :
    accepted c.pipeline (c.pipelineOps ops) = (c.done ops).map Outcome.req
      ++ (c.system.run ops).sender.current ++ (c.system.run ops).queued := by
  rw [accepted_eq_taken_append, taken_eq_done_append]

end PrismFirewall.OffloadSystem
