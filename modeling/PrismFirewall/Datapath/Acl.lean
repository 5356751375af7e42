import Mathlib.Data.List.Sort
import PrismFirewall.Lib.Inet

/-!
# The access list of the datapath

`acl.rs`.  The rules are sorted by priority, equal priorities in the given
order, and the first rule that matches decides.  A rule whose network has a
length above `32` makes the program panic when it was built with overflow
checks, so a match can be missing.

The two parsers are those of the Rust library: four octets of at most three
digits without leading zeros, and a decimal `u32` that may begin with `+`.
-/

namespace PrismFirewall.Datapath

open Lib

structure FiveTuple where
  srcIp : UInt32
  dstIp : UInt32
  srcPort : UInt16
  dstPort : UInt16
  protocol : UInt8
  deriving DecidableEq

inductive AclAction
  | Allow
  | Deny
  | RateLimit
  deriving DecidableEq, Repr

structure AclRule where
  id : String
  priority : UInt32
  srcCidr : Option String
  dstCidr : Option String
  srcPortRange : Option (UInt16 × UInt16)
  dstPortRange : Option (UInt16 × UInt16)
  protocol : Option UInt8
  action : AclAction
  offloadEligible : Bool
  deriving DecidableEq

structure AclVerdict where
  action : AclAction
  offloadEligible : Bool
  ruleIdIndex : Option Nat
  deriving DecidableEq

structure AclEngine where
  rules : List AclRule
  deriving DecidableEq

/-- `AclEngine::new`. -/
def AclEngine.new (rules : List AclRule) : AclEngine :=
  ⟨rules.insertionSort (fun a b => a.priority ≤ b.priority)⟩

/-! ### Parsing -/

/-- A non-empty sequence of decimal digits. -/
def parseDecimal (cs : List Char) : Option Nat :=
  if cs ≠ [] ∧ cs.all Char.isDigit then
    some (cs.foldl (fun n c => 10 * n + (c.toNat - '0'.toNat)) 0)
  else none

/-- `str::parse::<u32>`. -/
def parseU32 (cs : List Char) : Option UInt32 :=
  let digits := match cs with
    | '+' :: rest => rest
    | cs => cs
  match parseDecimal digits with
  | some n => if n < 2 ^ 32 then some (UInt32.ofNat n) else none
  | none => none

/-- One of the four numbers of an address. -/
def parseOctet (cs : List Char) : Option Nat :=
  if cs.length ≤ 3 ∧ (cs.head? = some '0' → cs.length = 1) then
    match parseDecimal cs with
    | some n => if n < 256 then some n else none
    | none => none
  else none

/-- `str::parse::<Ipv4Addr>`, as a number. -/
def parseIpv4Addr (cs : List Char) : Option UInt32 :=
  match cs.splitOn '.' with
  | [a, b, c, d] => do
    let a ← parseOctet a
    let b ← parseOctet b
    let c ← parseOctet c
    let d ← parseOctet d
    return UInt32.ofNat (((a * 256 + b) * 256 + c) * 256 + d)
  | _ => none

/-! ### Matching -/

section

variable (checked : Bool)

/-- `ip_matches_cidr`. -/
def ipMatchesCidr (ip : UInt32) (cidr : String) : Option Bool :=
  match cidr.toList.splitOn '/' with
  | [net, len] =>
    match parseIpv4Addr net, parseU32 len with
    | some network, some prefixLen =>
      if prefixLen = 0 then some true
      else do
        let n ← Overflow.subU32 checked 32 prefixLen
        let mask ← Overflow.shlU32 checked 0xffffffff n
        return ip &&& mask == network &&& mask
    | _, _ => some false
  | _ => some false

/-- An address against the network of a rule, if it has one. -/
def addressMatches (ip : UInt32) : Option String → Option Bool
  | some cidr => ipMatchesCidr checked ip cidr
  | none => some true

/-- A port against the range of a rule, if it has one. -/
def portMatches (port : UInt16) : Option (UInt16 × UInt16) → Bool
  | some (lo, hi) => !(port < lo || port > hi)
  | none => true

/-- `matches_rule`: the networks first, and the second only if the first one
matches. -/
def matchesRule (rule : AclRule) (t : FiveTuple) : Option Bool := do
  let src ← addressMatches checked t.srcIp rule.srcCidr
  if src then
    let dst ← addressMatches checked t.dstIp rule.dstCidr
    return dst && portMatches t.srcPort rule.srcPortRange
      && portMatches t.dstPort rule.dstPortRange
      && rule.protocol.all (fun proto => proto == t.protocol)
  else return false

/-- The loop of `evaluate`, from the rule with index `idx` on. -/
def evaluateFrom (t : FiveTuple) : Nat → List AclRule → Option AclVerdict
  | _, [] => some ⟨.Deny, false, none⟩
  | idx, rule :: rest => do
    if ← matchesRule checked rule t then
      return ⟨rule.action, rule.offloadEligible, some idx⟩
    else evaluateFrom t (idx + 1) rest

/-- `evaluate`. -/
def AclEngine.evaluate (acl : AclEngine) (t : FiveTuple) : Option AclVerdict :=
  evaluateFrom checked t 0 acl.rules

end

/-! ### Without overflow checks nothing is missing -/

theorem isSome_addressMatches (ip : UInt32) (cidr : Option String) :
    (addressMatches false ip cidr).isSome := by
  unfold addressMatches ipMatchesCidr
  split
  · split
    · split
      · split <;> simp
      · rfl
    · rfl
  · rfl

theorem isSome_matchesRule (rule : AclRule) (t : FiveTuple) :
    (matchesRule false rule t).isSome := by
  obtain ⟨src, hsrc⟩ := Option.isSome_iff_exists.mp (isSome_addressMatches t.srcIp rule.srcCidr)
  obtain ⟨dst, hdst⟩ := Option.isSome_iff_exists.mp (isSome_addressMatches t.dstIp rule.dstCidr)
  cases src <;> simp [matchesRule, hsrc, hdst]

theorem isSome_evaluateFrom (t : FiveTuple) (rules : List AclRule) :
    ∀ idx, (evaluateFrom false t idx rules).isSome := by
  induction rules with
  | nil => intro idx; rfl
  | cons rule rest ih =>
    intro idx
    obtain ⟨b, hb⟩ := Option.isSome_iff_exists.mp (isSome_matchesRule rule t)
    cases b <;> simp [evaluateFrom, hb, ih]

end PrismFirewall.Datapath
