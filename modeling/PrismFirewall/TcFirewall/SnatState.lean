import Mathlib.Data.Int.Interval
import PrismFirewall.TcFirewall.Models

/-!
# The SNAT port pool

`snat_state.py`: for every public IP a set of allocated ports, a map from each
such port to its allocation record, and the port the next search starts from.
Clock readings and time-outs are of any type with a subtraction and a
comparison, so the floating-point clock of the program is one instance.

Each method is a program on the state.  The two `while` loops of
`_find_available_port` are one scan over a given number of ports.
-/

namespace PrismFirewall.TcFirewall

open Lib

def portMin : Int := 1024

def portMax : Int := 65535

def defaultPoolSize : Int := portMax - portMin + 1

variable {T : Type}

structure PortAllocation (T : Type) where
  port : Int
  srcIp : String
  dstIp : String
  dstPort : Int
  protocol : String
  allocatedAt : T
  timeout : T

structure SNATState (T : Type) where
  poolSize : Int
  allocated : Dict String (Finset Int)
  allocations : Dict String (Dict Int (PortAllocation T))
  nextPort : Dict String Int

namespace SNATState

/-- `SNATState(pool_size)`. -/
def new (poolSize : Int) : SNATState T :=
  ⟨min poolSize defaultPoolSize, .empty, .empty, .empty⟩

/-- The last port of the pool. -/
def effectiveMax (s : SNATState T) : Int := portMin + s.poolSize - 1

/-- The first of `n` ports from `port` on that is not allocated. -/
def scan (allocatedSet : Finset Int) : Nat → Int → Option Int
  | 0, _ => none
  | n + 1, port => if port ∉ allocatedSet then some port else scan allocatedSet n (port + 1)

/-- `_find_available_port`: from the cursor to the end of the pool, then from
its start up to the cursor. -/
def findAvailablePort (publicIp : String) : EStateM Exc (SNATState T) (Option Int) := do
  let s ← get
  let allocatedSet ← item s.allocated publicIp
  let start ← item s.nextPort publicIp
  match scan allocatedSet (s.effectiveMax + 1 - start).toNat start with
  | some port =>
    let next := if port + 1 > s.effectiveMax then portMin else port + 1
    set { s with nextPort := s.nextPort.insert publicIp next }
    return some port
  | none =>
    match scan allocatedSet (start - portMin).toNat portMin with
    | some port =>
      set { s with nextPort := s.nextPort.insert publicIp (port + 1) }
      return some port
    | none => return none

/-- The first lines of `allocate_port`: start to track a public IP. -/
def track (s : SNATState T) (publicIp : String) : SNATState T :=
  if publicIp ∈ s.allocated then s
  else { s with
    allocated := s.allocated.insert publicIp ∅
    allocations := s.allocations.insert publicIp .empty
    nextPort := s.nextPort.insert publicIp portMin }

/-- `allocate_port`, with the clock reading that the record is stamped with. -/
def allocatePort (publicIp srcIp dstIp : String) (dstPort : Int) (protocol : String)
    (timeout now : T) : EStateM Exc (SNATState T) (Option Int) := do
  modify (track · publicIp)
  let s ← get
  let allocatedSet ← item s.allocated publicIp
  if (allocatedSet.card : Int) ≥ s.poolSize then
    return none
  match ← findAvailablePort publicIp with
  | none => return none
  | some port =>
    let s ← get
    let ports ← item s.allocations publicIp
    set { s with
      allocated := s.allocated.insert publicIp (insert port allocatedSet)
      allocations := s.allocations.insert publicIp
        (ports.insert port ⟨port, srcIp, dstIp, dstPort, protocol, now, timeout⟩) }
    return some port

/-- Take one port out of both structures. -/
def discard (publicIp : String) (port : Int) : EStateM Exc (SNATState T) Unit := do
  let s ← get
  let allocatedSet ← item s.allocated publicIp
  let ports ← item s.allocations publicIp
  set { s with
    allocated := s.allocated.insert publicIp (allocatedSet.erase port)
    allocations := s.allocations.insert publicIp (ports.erase port) }

/-- `release_port`. -/
def releasePort (publicIp : String) (port : Int) : EStateM Exc (SNATState T) Bool := do
  let s ← get
  if publicIp ∉ s.allocated then
    return false
  let allocatedSet ← item s.allocated publicIp
  if port ∉ allocatedSet then
    return false
  discard publicIp port
  return true

section Expiry

variable [Sub T] [LE T] [DecidableLE T]

def expired (now : T) (a : PortAllocation T) : Bool := decide (now - a.allocatedAt ≥ a.timeout)

/-- The ports of one public IP whose time-out has elapsed. -/
def expiredPorts (now : T) (ports : Dict Int (PortAllocation T)) : List Int :=
  (ports.entries.filter (fun e => expired now e.2)).map Prod.fst

/-- The outer loop of `release_expired`, over the public IPs still to visit. -/
def releaseExpiredOn (now : T) : List String → EStateM Exc (SNATState T) Nat
  | [] => return 0
  | publicIp :: rest => do
    let ports ← item (← get).allocations publicIp
    forM (expiredPorts now ports) (discard publicIp)
    let released ← releaseExpiredOn now rest
    return (expiredPorts now ports).length + released

/-- `release_expired`. -/
def releaseExpired (now : T) : EStateM Exc (SNATState T) Nat := do
  releaseExpiredOn now (← get).allocations.keys

end Expiry

/-- `is_exhausted`. -/
def isExhausted (s : SNATState T) (publicIp : String) : Bool :=
  match s.allocated.get? publicIp with
  | none => false
  | some allocatedSet => decide ((allocatedSet.card : Int) ≥ s.poolSize)

end SNATState

end PrismFirewall.TcFirewall
