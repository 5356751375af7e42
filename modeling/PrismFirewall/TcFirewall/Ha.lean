import Mathlib.Data.Rat.Defs
import PrismFirewall.Lib.Run

/-!
# High availability

`ha.py`: two nodes that exchange heartbeats, and a generation number that grows
with every promotion.  A node promotes itself when it is on standby and the
heartbeats of its peer have stopped, or when an operator says so.

`System` is the two nodes with the heartbeats each has sent and each has
received.  A sent heartbeat may be delivered any number of times, in any order,
or never (`Event.deliver`).  Clock readings are rational seconds, as `0.0` is
what stands for "no heartbeat yet".
-/

namespace PrismFirewall.TcFirewall.Ha

open Lib

inductive HAState
  | ACTIVE
  | STANDBY
  | FENCING
  deriving DecidableEq, Repr

structure HAManager where
  role : HAState
  peerUrl : Option String
  generation : Int
  heartbeatIntervalMs : Int
  heartbeatTimeoutMs : Int
  lastHeartbeatReceived : Rat
  peerGeneration : Int
  peerRole : Option HAState
  deriving DecidableEq

/-- What a node is started with; the generation is what the generation file
holds, or `1`. -/
structure Config where
  peerUrl : Option String
  heartbeatIntervalMs : Int
  heartbeatTimeoutMs : Int
  generation : Int

/-- `if peer_url`. -/
def Config.hasPeer (c : Config) : Bool := c.peerUrl.getD "" != ""

/-- `HAManager(…)`. -/
def HAManager.new (c : Config) : HAManager where
  role := if c.hasPeer then .STANDBY else .ACTIVE
  peerUrl := c.peerUrl
  generation := c.generation
  heartbeatIntervalMs := c.heartbeatIntervalMs
  heartbeatTimeoutMs := c.heartbeatTimeoutMs
  lastHeartbeatReceived := 0
  peerGeneration := 0
  peerRole := none

/-- What the methods return. -/
inductive Reply
  | none
  | accepted (action : String)
  | alreadyActive (generation : Int)
  | promoted (previousRole : HAState) (generation : Int)
  | alreadyStandby (generation : Int)
  | demoted (previousRole : HAState) (generation : Int)
  deriving DecidableEq

namespace HAManager

/-- `peer_alive`. -/
def peerAlive (m : HAManager) (now : Rat) : Bool :=
  if m.lastHeartbeatReceived = 0 then false
  else decide ((now - m.lastHeartbeatReceived) * 1000 < (m.heartbeatTimeoutMs : Rat))

/-- `_resolve_split_brain`. -/
def resolveSplitBrain (m : HAManager) (peerGeneration : Int) : Reply × HAManager :=
  if m.generation > peerGeneration then (.accepted "peer_must_demote", m)
  else if m.generation < peerGeneration then
    (.accepted "self_demoted", { m with role := .STANDBY })
  else (.accepted "fencing_equal_generation", { m with role := .FENCING })

/-- `receive_heartbeat`. -/
def receiveHeartbeat (m : HAManager) (now : Rat) (peerGeneration : Int) (peerRole : HAState) :
    Reply × HAManager :=
  let m := { m with
    lastHeartbeatReceived := now
    peerGeneration := peerGeneration
    peerRole := some peerRole }
  if m.role = .ACTIVE ∧ peerRole = .ACTIVE then m.resolveSplitBrain peerGeneration
  else (.accepted "none", m)

/-- `promote`. -/
def promote (m : HAManager) : Reply × HAManager :=
  if m.role = .ACTIVE then (.alreadyActive m.generation, m)
  else (.promoted m.role (m.generation + 1),
    { m with generation := m.generation + 1, role := .ACTIVE })

/-- `demote`. -/
def demote (m : HAManager) : Reply × HAManager :=
  if m.role = .STANDBY then (.alreadyStandby m.generation, m)
  else (.demoted m.role m.generation, { m with role := .STANDBY })

/-- One round of `_heartbeat_monitor`. -/
def monitor (m : HAManager) (now : Rat) : Reply × HAManager :=
  if m.role = .STANDBY ∧ ¬ m.peerAlive now then
    if m.lastHeartbeatReceived > 0 then m.promote else (.none, m)
  else (.none, m)

end HAManager

/-! ### Two nodes -/

inductive Node
  | a
  | b
  deriving DecidableEq

def Node.peer : Node → Node
  | .a => .b
  | .b => .a

structure Heartbeat where
  generation : Int
  role : HAState
  deriving DecidableEq

/-- The heartbeat `_heartbeat_sender` posts. -/
def HAManager.heartbeat (m : HAManager) : Heartbeat := ⟨m.generation, m.role⟩

/-- The two nodes, and the heartbeats each has sent and has received so far. -/
structure System where
  nodes : Node → HAManager
  sent : Node → List Heartbeat
  received : Node → List Heartbeat

inductive Event
  | send (n : Node)
  | deliver (n : Node) (i : Nat) (now : Rat)
  | monitor (n : Node) (now : Rat)
  | promote (n : Node)
  | demote (n : Node)
  deriving DecidableEq

/-- The node an event happens at. -/
def Event.node : Event → Node
  | .send n | .deliver n _ _ | .monitor n _ | .promote n | .demote n => n

/-- Run a method of one node. -/
def System.atNode (s : System) (n : Node) (f : HAManager → Reply × HAManager) : Reply × System :=
  ((f (s.nodes n)).1, { s with nodes := Function.update s.nodes n (f (s.nodes n)).2 })

/-- One event.  The background tasks run only on a node with a peer. -/
def step (s : System) : Event → Reply × System
  | .send n =>
    if (s.nodes n).peerUrl.getD "" ≠ "" then
      (.none, { s with sent := Function.update s.sent n (s.sent n ++ [(s.nodes n).heartbeat]) })
    else (.none, s)
  | .deliver n i now =>
    match (s.sent n.peer)[i]? with
    | some h =>
      { s with received := Function.update s.received n (s.received n ++ [h]) }.atNode n
        (fun m => m.receiveHeartbeat now h.generation h.role)
    | none => (.none, s)
  | .monitor n now =>
    if (s.nodes n).peerUrl.getD "" ≠ "" then s.atNode n (fun m => m.monitor now) else (.none, s)
  | .promote n => s.atNode n HAManager.promote
  | .demote n => s.atNode n HAManager.demote

/-- Two nodes in any state, before either has sent a heartbeat; an answer names
its node. -/
def systemFrom (nodes : Node → HAManager) : Machine System Event (Node × Reply) where
  init := ⟨nodes, fun _ => [], fun _ => []⟩
  step s e := ((e.node, (step s e).1), (step s e).2)

/-- Two nodes that have just been started; an answer names its node. -/
def system (config : Node → Config) : Machine System Event (Node × Reply) where
  init := ⟨fun n => .new (config n), fun _ => [], fun _ => []⟩
  step s e := ((e.node, (step s e).1), (step s e).2)

end PrismFirewall.TcFirewall.Ha
