import PrismFirewall.Lib.Cells
import PrismFirewall.Lib.Run

/-!
# The policy table of the DOCA firewall

`policy.c`: a table of at most 256 rules in an array, with the default-deny rule in its
first cell.  Addresses and masks are the 32-bit words as they lie in memory (network
byte order), ports are numbers.

`next_rule_id` is a static variable of the file, so it stands beside the table and is
not touched by `policy_init`.  The calls take the lock of the table and run one after
the other.
-/

namespace PrismFirewall.DocaFirewall

open Lib

def maxPolicyRules : Nat := 256

inductive PolicyAction
  | ALLOW
  | DENY
  deriving DecidableEq, Repr

structure PolicyRule where
  id : UInt32
  srcIp : UInt32
  srcIpMask : UInt32
  dstIp : UInt32
  dstIpMask : UInt32
  srcPortMin : UInt16
  srcPortMax : UInt16
  dstPortMin : UInt16
  dstPortMax : UInt16
  protocol : UInt8
  action : PolicyAction
  priority : UInt32
  enabled : Bool
  hitCount : UInt64
  deriving DecidableEq

/-- A rule of zero bytes. -/
def PolicyRule.zero : PolicyRule := ⟨0, 0, 0, 0, 0, 0, 0, 0, 0, 0, .ALLOW, 0, false, 0⟩

instance : Inhabited PolicyRule := ⟨.zero⟩

structure PolicyTable where
  rules : Vector PolicyRule maxPolicyRules
  nrRules : Nat

structure FiveTuple where
  srcIp : UInt32
  dstIp : UInt32
  srcPort : UInt16
  dstPort : UInt16
  protocol : UInt8
  deriving DecidableEq

def uint32Max : UInt32 := 0xFFFFFFFF

/-- `default_deny`. -/
def defaultDeny : PolicyRule where
  id := 0
  srcIp := 0
  srcIpMask := 0
  dstIp := 0
  dstIpMask := 0
  srcPortMin := 0
  srcPortMax := 65535
  dstPortMin := 0
  dstPortMax := 65535
  protocol := 0
  action := .DENY
  priority := uint32Max
  enabled := true
  hitCount := 0

/-- `policy_init`. -/
def policyInit : PolicyTable where
  rules := (Vector.replicate maxPolicyRules .zero).setIfInBounds 0 defaultDeny
  nrRules := 1

/-- The table and the static `next_rule_id`. -/
structure Policy where
  table : PolicyTable
  nextRuleId : UInt32

/-- `(int)id`. -/
def toCInt (id : UInt32) : Int := id.toInt32.toInt

/-- `policy_add_rule`. -/
def policyAddRule (s : Policy) (rule : PolicyRule) : Int × Policy :=
  if s.table.nrRules ≥ maxPolicyRules then (-1, s)
  else
    let id := s.nextRuleId
    (toCInt id,
      { table :=
          { rules := s.table.rules.setIfInBounds s.table.nrRules { rule with id := id, hitCount := 0 }
            nrRules := s.table.nrRules + 1 }
        nextRuleId := s.nextRuleId + 1 })

/-- The index of the first rule with the identifier. -/
def PolicyTable.indexOf (t : PolicyTable) (ruleId : UInt32) : Option Nat :=
  (List.range t.nrRules).find? (fun i => (cell t.rules i).id == ruleId)

/-- `policy_remove_rule`. -/
def policyRemoveRule (s : Policy) (ruleId : UInt32) : Int × Policy :=
  match s.table.indexOf ruleId with
  | some i =>
    if ruleId = 0 then (-1, s)
    else (0, { s with table :=
      { rules := shiftDown s.table.rules i s.table.nrRules, nrRules := s.table.nrRules - 1 } })
  | none => (-1, s)

/-! ### Evaluation -/

namespace PolicyRule

variable (r : PolicyRule)

/-- The check of the source address: zero is any address. -/
def srcIpPasses (srcIp : UInt32) : Bool :=
  !(r.srcIp != 0 && srcIp &&& r.srcIpMask != r.srcIp &&& r.srcIpMask)

/-- The check of the destination address. -/
def dstIpPasses (dstIp : UInt32) : Bool :=
  !(r.dstIp != 0 && dstIp &&& r.dstIpMask != r.dstIp &&& r.dstIpMask)

/-- A port range is not looked at when it is the full one. -/
def portPasses (lo hi port : UInt16) : Bool :=
  !((lo != 0 || hi != 65535) && (port < lo || port > hi))

/-- The rule passes every `continue` of the loop. -/
def passes (p : FiveTuple) : Bool :=
  r.enabled && !(r.protocol != 0 && r.protocol != p.protocol) && r.srcIpPasses p.srcIp
    && r.dstIpPasses p.dstIp && portPasses r.srcPortMin r.srcPortMax p.srcPort
    && portPasses r.dstPortMin r.dstPortMax p.dstPort

end PolicyRule

/-- What the loop of `policy_evaluate` carries along. -/
structure Scan where
  rules : Vector PolicyRule maxPolicyRules
  result : PolicyAction
  bestPriority : UInt32

/-- One round of the loop. -/
def Scan.step (p : FiveTuple) (scan : Scan) (i : Nat) : Scan :=
  let r := cell scan.rules i
  if r.passes p && r.priority < scan.bestPriority then
    { rules := scan.rules.setIfInBounds i { r with hitCount := r.hitCount + 1 }
      result := r.action
      bestPriority := r.priority }
  else scan

/-- The loop over the first rules of the table. -/
def PolicyTable.scan (t : PolicyTable) (p : FiveTuple) (n : Nat) : Scan :=
  (List.range n).foldl (Scan.step p) ⟨t.rules, .DENY, uint32Max⟩

/-- `policy_evaluate`. -/
def policyEvaluate (s : Policy) (p : FiveTuple) : PolicyAction × Policy :=
  let scan := s.table.scan p s.table.nrRules
  (scan.result, { s with table := { s.table with rules := scan.rules } })

/-! ### The engine -/

inductive PolicyCall
  | addRule (rule : PolicyRule)
  | removeRule (ruleId : UInt32)
  | evaluate (p : FiveTuple)
  deriving DecidableEq

inductive PolicyReply
  | int (n : Int)
  | action (a : PolicyAction)
  deriving DecidableEq

def policyStep (s : Policy) : PolicyCall → PolicyReply × Policy
  | .addRule rule => (.int (policyAddRule s rule).1, (policyAddRule s rule).2)
  | .removeRule ruleId => (.int (policyRemoveRule s ruleId).1, (policyRemoveRule s ruleId).2)
  | .evaluate p => (.action (policyEvaluate s p).1, (policyEvaluate s p).2)

/-- The engine after `policy_init`, wherever the static counter stands. -/
def policyEngine (nextRuleId : UInt32) : Machine Policy PolicyCall PolicyReply :=
  ⟨⟨policyInit, nextRuleId⟩, policyStep⟩

/-- The rules of a table, in the order of the array. -/
def PolicyTable.live (t : PolicyTable) : List PolicyRule := used t.rules t.nrRules

end PrismFirewall.DocaFirewall
