import PrismFirewall.Lib.Sha256
import PrismFirewall.TcFirewall.Stores

/-!
# NAT rules

`nat_manager.py`.  A NAT rule is one filter in the preference band
`natPriority`: source NAT on the client port, the two destination kinds on the
internet port.  Requests are told apart by a signature over the type, the
addresses, the ports and the protocol; the tenant is not part of it.

`removeNat` drops the entry, empties the whole band of the port and adds the
filters of the surviving entries again.
-/

namespace PrismFirewall.TcFirewall

open Lib

def natPriority : Nat := 20

def snatModeStatic : String := "static"

def snatModeMasquerade : String := "masquerade"

/-- The first sixteen digits of the SHA-256 of a text. -/
def shortHash (text : String) : String := String.ofList ((Sha256.hexdigest text).take 16)

/-- `_compute_nat_signature`; for source NAT the ports and the protocol are not
given. -/
def computeNatSignature (natType : NatType) (privateIp publicIp : String)
    (publicPort privatePort : Nat) (protocol : String) : String :=
  match natType with
  | .snat => shortHash ("snat|" ++ privateIp ++ "|" ++ publicIp)
  | _ => shortHash (natType.value ++ "|" ++ publicIp ++ "|" ++ toString publicPort ++ "|"
      ++ privateIp ++ "|" ++ toString privatePort ++ "|" ++ protocol)

/-- `_find_existing_nat`, for a signature that has been computed. -/
def findExistingNat (s : Stores) (sig : String) : Option NATEntry :=
  match s.natSignatureIndex.get? sig with
  | some existingId => if existingId = "" then none else s.natDb.get? existingId
  | none => none

/-! ### The commands -/

def snatCmd (privateIp publicIp : String) : List String :=
  ["filter", "add", "dev", clientPort, "ingress", "protocol", "ip", "prio", toString natPriority,
    "flower", "src_ip", privateIp,
    "action", "pedit", "ex", "munge", "ip", "src", "set", publicIp,
    "action", "mirred", "egress", "redirect", "dev", internetPort]

def dnatCmd (publicIp : String) (publicPort : String) (privateIp protocol : String) :
    List String :=
  ["filter", "add", "dev", internetPort, "ingress", "protocol", "ip", "prio", toString natPriority,
    "flower", "dst_ip", publicIp, "ip_proto", protocol, "dst_port", publicPort,
    "action", "pedit", "ex", "munge", "ip", "dst", "set", privateIp,
    "action", "mirred", "egress", "redirect", "dev", clientPort]

def forwardCmd (publicIp : String) (publicPort : String) (privateIp : String)
    (privatePort : String) (protocol : String) : List String :=
  ["filter", "add", "dev", internetPort, "ingress", "protocol", "ip", "prio", toString natPriority,
    "flower", "dst_ip", publicIp, "ip_proto", protocol, "dst_port", publicPort,
    "action", "pedit", "ex", "munge", "ip", "dst", "set", privateIp,
    "action", "pedit", "ex", "munge", protocol, "dport", "set", privatePort,
    "action", "mirred", "egress", "redirect", "dev", clientPort]

/-- Add a filter to the NAT band of a port and ask whether it is offloaded. -/
def installNat (port : String) (cmd : List String) : TcM Bool := do
  let _ ← runTc cmd true
  let handle ← getLastHandle port natPriority
  checkInHw port handle natPriority

/-! ### Creating an entry -/

/-- The end of the three `add_*` functions: unless an equivalent entry exists,
install the filter, then store the entry and index it. -/
def addNat (newId : ShortId) (sig port : String) (cmd : List String) (entry : Bool → NATEntry) :
    DaemonM NATEntry := do
  let inHw ← tc (installNat port cmd)
  modifyStores (fun s => { s with
    natDb := s.natDb.insert newId.val (entry inHw)
    natSignatureIndex := s.natSignatureIndex.insert sig newId.val })
  return entry inHw

/-- `add_snat`. -/
def addSnat (newId : ShortId) (privateIp publicIp mode : String) : DaemonM NATEntry := do
  if mode ≠ snatModeStatic ∧ mode ≠ snatModeMasquerade then
    throw (.tcError ("Invalid SNAT mode: " ++ mode ++ ". Must be 'static' or 'masquerade'"))
  let s ← getStores
  let sig := computeNatSignature .snat privateIp publicIp 0 0 ""
  match findExistingNat s sig with
  | some existing => return existing
  | none =>
    if mode = snatModeMasquerade ∧ s.snatState.isExhausted publicIp then
      throw (.tcError ("Port pool exhausted for " ++ publicIp
        ++ ": cannot accept new masquerade SNAT rule"))
    addNat newId sig clientPort (snatCmd privateIp publicIp) (fun inHw =>
      ⟨newId.val, none, .snat, some mode, publicIp, none, privateIp, none, none, inHw⟩)

/-- `add_dnat` and `add_port_forward`: they differ in the type and the command. -/
def addPortNat (natType : NatType) (cmd : List String) (newId : ShortId) (publicIp : String)
    (publicPort : Nat) (privateIp : String) (privatePort : Nat) (protocol : String) :
    DaemonM NATEntry := do
  let s ← getStores
  let sig := computeNatSignature natType privateIp publicIp publicPort privatePort protocol
  match findExistingNat s sig with
  | some existing => return existing
  | none =>
    addNat newId sig internetPort cmd (fun inHw =>
      ⟨newId.val, none, natType, none, publicIp, some publicPort, privateIp, some privatePort,
        some protocol, inHw⟩)

/-- `add_dnat`. -/
def addDnat (newId : ShortId) (publicIp : String) (publicPort : Nat) (privateIp : String)
    (privatePort : Nat) (protocol : String) : DaemonM NATEntry :=
  addPortNat .dnat (dnatCmd publicIp (toString publicPort) privateIp protocol)
    newId publicIp publicPort privateIp privatePort protocol

/-- `add_port_forward`. -/
def addPortForward (newId : ShortId) (publicIp : String) (publicPort : Nat) (privateIp : String)
    (privatePort : Nat) (protocol : String) : DaemonM NATEntry :=
  addPortNat .forward
    (forwardCmd publicIp (toString publicPort) privateIp (toString privatePort) protocol)
    newId publicIp publicPort privateIp privatePort protocol

/-! ### Removing an entry -/

/-- `str` of an optional number. -/
def pyStr : Option Nat → String
  | some n => toString n
  | none => "None"

/-- `x or default`. -/
def orText (x : Option String) (default : String) : String :=
  match x with
  | some v => if v = "" then default else v
  | none => default

def truthy : Option Nat → Bool
  | some n => n != 0
  | none => false

/-- `_reapply_snat`. -/
def reapplySnat (entry : NATEntry) : TcM Unit := do
  let _ ← runTc (snatCmd entry.privateIp entry.publicIp) false
  return ()

/-- `_reapply_nat_rule`. -/
def reapplyNatRule (entry : NATEntry) : TcM Unit := do
  let protocol := orText entry.protocol "tcp"
  let cmd :=
    if entry.type = .forward ∧ truthy entry.publicPort ∧ truthy entry.privatePort then
      forwardCmd entry.publicIp (pyStr entry.publicPort) entry.privateIp
        (pyStr entry.privatePort) protocol
    else dnatCmd entry.publicIp (pyStr entry.publicPort) entry.privateIp protocol
  let _ ← runTc cmd false
  return ()

/-- The port whose band holds an entry. -/
def NATEntry.port (entry : NATEntry) : String :=
  if entry.type = .snat then clientPort else internetPort

/-- Empty the NAT band of a port and add the given entries of that port again. -/
def rebuildNat (port : String) (remaining : List NATEntry) : TcM Unit := do
  let _ ← runTc ["filter", "del", "dev", port, "ingress", "prio", toString natPriority] false
  forM remaining (fun entry => do
    if entry.type = .snat ∧ port = clientPort then
      reapplySnat entry
    else if entry.type ≠ .snat ∧ port = internetPort then
      reapplyNatRule entry)

/-- The keys of an index that point to one of the given identifiers, removed one
after the other. -/
def dropStale (index : Dict String String) (ids : List String) : Dict String String :=
  index.eraseAll ((index.entries.filter (fun e => decide (e.2 ∈ ids))).map Prod.fst)

/-- `remove_nat`. -/
def removeNat (ruleId : String) : DaemonM Unit := do
  let s ← getStores
  if ruleId ∉ s.natDb then
    throw (.tcError ("NAT rule " ++ ruleId ++ " not found"))
  let entry ← item s.natDb ruleId
  modifyStores (fun s => { s with
    natSignatureIndex := dropStale s.natSignatureIndex [ruleId]
    natDb := s.natDb.erase ruleId })
  tc (rebuildNat entry.port (s.natDb.erase ruleId).values)

end PrismFirewall.TcFirewall
