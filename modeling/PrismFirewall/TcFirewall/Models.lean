import PrismFirewall.Lib.Dict
import PrismFirewall.Lib.Exec

/-!
# The data of the tc-firewall daemon

The request and record types of `models.py`.  A number the API accepts only
between `1` and `65535` is a `Field16`, so a request that was refused with `422`
cannot be written down.  Time stamps and the packet counters that stay at zero
are left out: no function reads them.

`Exc` is every exception the daemon's code raises, and `item` is the lookup
`d[k]`, which raises when the key is missing.
-/

namespace PrismFirewall.TcFirewall

open Lib

/-- `Field(ge=1, le=65535)`. -/
structure Field16 where
  val : Nat
  ge : 1 ≤ val
  le : val ≤ 65535
  deriving DecidableEq

inductive RuleAction
  | ALLOW
  | DENY
  deriving DecidableEq, Repr

def RuleAction.value : RuleAction → String
  | .ALLOW => "ALLOW"
  | .DENY => "DENY"

inductive Protocol
  | TCP
  | UDP
  | ICMP
  | ANY
  deriving DecidableEq, Repr

def Protocol.value : Protocol → String
  | .TCP => "tcp"
  | .UDP => "udp"
  | .ICMP => "icmp"
  | .ANY => "any"

structure FirewallRuleRequest where
  srcIp : Option String
  dstIp : Option String
  srcPort : Option Field16
  dstPort : Option Field16
  protocol : Protocol
  action : RuleAction
  priority : Field16
  comment : Option String
  idempotencyKey : Option String
  deriving DecidableEq

structure FirewallRule where
  id : String
  tenantId : Option String
  srcIp : Option String
  dstIp : Option String
  srcPort : Option Nat
  dstPort : Option Nat
  protocol : Protocol
  action : RuleAction
  priority : Nat
  comment : Option String
  tcHandleFwd : Option String
  tcHandleRev : Option String
  inHw : Bool
  deriving DecidableEq

structure SNATRule where
  privateIp : String
  publicIp : String
  mode : String
  comment : Option String
  deriving DecidableEq

structure DNATRule where
  publicIp : String
  publicPort : Field16
  privateIp : String
  privatePort : Field16
  protocol : String
  comment : Option String
  deriving DecidableEq

structure PortForwardRule where
  publicIp : String
  publicPort : Field16
  privateIp : String
  privatePort : Field16
  protocol : String
  comment : Option String
  deriving DecidableEq

/-- The three values that are ever written to the `type` of an entry. -/
inductive NatType
  | snat
  | dnat
  | forward
  deriving DecidableEq, Repr

def NatType.value : NatType → String
  | .snat => "snat"
  | .dnat => "dnat"
  | .forward => "forward"

structure NATEntry where
  id : String
  tenantId : Option String
  type : NatType
  mode : Option String
  publicIp : String
  publicPort : Option Nat
  privateIp : String
  privatePort : Option Nat
  protocol : Option String
  inHw : Bool
  deriving DecidableEq

structure TenantConfig where
  tenantId : String
  publicIps : List String
  maxRules : Int
  maxNatEntries : Int
  deriving DecidableEq

/-- The first eight characters of a random UUID. -/
structure ShortId where
  val : String
  length : val.length = 8
  deriving DecidableEq

/-- Eight characters are not the empty text, so an identifier is truthy. -/
theorem ShortId.ne_empty (i : ShortId) : i.val ≠ "" := by
  intro h
  have := i.length
  rw [h] at this
  simp at this

/-! ### Exceptions -/

inductive Exc
  | tcError (message : String)
  | timeoutExpired
  | valueError (message : String)
  | keyError
  | httpException (statusCode : Nat) (detail : String)
  deriving DecidableEq

/-- `d[k]`. -/
def item {κ ν σ : Type} [DecidableEq κ] (d : Dict κ ν) (k : κ) : EStateM Exc σ ν :=
  match d.get? k with
  | some v => pure v
  | none => throw .keyError

theorem wp_item {κ ν σ : Type} [DecidableEq κ] {d : Dict κ ν} {k : κ} {s : σ}
    {Q : ν → σ → Prop} {E : Exc → σ → Prop} :
    wp (item d k) s Q E ↔ match d.get? k with
      | some v => Q v s
      | none => E .keyError s := by
  unfold item
  cases d.get? k <;> simp

theorem wp_item_of_get? {κ ν σ : Type} [DecidableEq κ] {d : Dict κ ν} {k : κ} {v : ν} {s : σ}
    {Q : ν → σ → Prop} {E : Exc → σ → Prop} (h : d.get? k = some v) :
    wp (item d k) s Q E ↔ Q v s := by
  rw [wp_item, h]

end PrismFirewall.TcFirewall
