import PrismFirewall.Lib.Dict

/-!
# The admin store

The resources of `models.rs` and the store of `store.rs`.  The store keeps each
kind of resource in a map behind its own lock, and one atomic counter that
generations are drawn from.  What a call does while it holds one lock, or in one
operation on the counter, is one function here; how the calls put these
sections together is in `Calls`.
-/

namespace PrismFirewall.Admin

open PrismFirewall.Lib (Dict)

inductive RuleAction
  | Allow
  | Deny
  | Reject
  | RateLimit
  deriving DecidableEq

inductive FirewallMode
  | Inline
  | Tap
  deriving DecidableEq

inductive AdminState
  | Enabled
  | Disabled
  deriving DecidableEq

structure Firewall where
  id : String
  name : String
  tenantId : String
  vpcId : String
  vni : UInt32
  mode : FirewallMode
  adminState : AdminState
  generation : UInt64
  createdAt : String
  updatedAt : String
  deriving DecidableEq

structure Policy where
  id : String
  firewallId : String
  name : String
  priority : UInt32
  defaultAction : RuleAction
  generation : UInt64
  deriving DecidableEq

structure Rule where
  id : String
  policyId : String
  priority : UInt32
  srcCidr : Option String
  dstCidr : Option String
  srcPortRange : Option (UInt16 × UInt16)
  dstPortRange : Option (UInt16 × UInt16)
  protocol : Option String
  action : RuleAction
  offloadEligible : Bool
  deriving DecidableEq

/-! ### Requests -/

structure CreateFirewallRequest where
  name : String
  tenantId : String
  vpcId : String
  vni : UInt32
  mode : FirewallMode
  adminState : AdminState

structure UpdateFirewallRequest where
  name : Option String
  mode : Option FirewallMode
  adminState : Option AdminState
  generation : UInt64

structure CreateRuleRequest where
  priority : UInt32
  srcCidr : Option String
  dstCidr : Option String
  srcPortRange : Option (UInt16 × UInt16)
  dstPortRange : Option (UInt16 × UInt16)
  protocol : Option String
  action : RuleAction
  offloadEligible : Bool

structure DesiredPolicy where
  name : String
  priority : UInt32
  defaultAction : RuleAction
  rules : List CreateRuleRequest

structure DesiredStateRequest where
  expectedGeneration : UInt64
  policies : List DesiredPolicy

/-! ### The store and its sections -/

inductive StoreError
  | NotFound (message : String)
  | Conflict (expected actual : UInt64)
  deriving DecidableEq

structure AppStore where
  firewalls : Dict String Firewall
  policies : Dict String Policy
  rules : Dict String Rule
  generation : UInt64

namespace AppStore

def new : AppStore := ⟨Dict.empty, Dict.empty, Dict.empty, 1⟩

/-- The counter is an atomic, so it wraps. -/
def nextGeneration (s : AppStore) : UInt64 × AppStore :=
  (s.generation, { s with generation := s.generation + 1 })

/-- The firewall, if it is there with the generation the caller expects. -/
def checkGeneration (s : AppStore) (id : String) (expected : UInt64) :
    Except StoreError Firewall :=
  match s.firewalls.get? id with
  | none => .error (.NotFound ("firewall " ++ id ++ " not found"))
  | some fw =>
    if fw.generation ≠ expected then .error (.Conflict expected fw.generation) else .ok fw

def putFirewall (s : AppStore) (id : String) (fw : Firewall) : AppStore :=
  { s with firewalls := s.firewalls.insert id fw }

def insertFirewall (s : AppStore) (fw : Firewall) : AppStore := s.putFirewall fw.id fw

def policyIds (s : AppStore) (firewallId : String) : List String :=
  (s.policies.values.filter (fun p => p.firewallId == firewallId)).map Policy.id

def retainRules (s : AppStore) (policyIds : List String) : AppStore :=
  { s with rules := s.rules.filter (fun r => !policyIds.contains r.2.policyId) }

def retainPolicies (s : AppStore) (firewallId : String) : AppStore :=
  { s with policies := s.policies.filter (fun p => p.2.firewallId != firewallId) }

def insertPolicy (s : AppStore) (uuid firewallId : String) (generation : UInt64)
    (desired : DesiredPolicy) : AppStore :=
  let policy : Policy :=
    ⟨uuid, firewallId, desired.name, desired.priority, desired.defaultAction, generation⟩
  { s with policies := s.policies.insert policy.id policy }

def insertRule (s : AppStore) (uuid policyId : String) (req : CreateRuleRequest) : AppStore :=
  let rule : Rule := ⟨uuid, policyId, req.priority, req.srcCidr, req.dstCidr, req.srcPortRange,
    req.dstPortRange, req.protocol, req.action, req.offloadEligible⟩
  { s with rules := s.rules.insert rule.id rule }

/-- The last section of a push; a firewall that is gone by now is passed over. -/
def writeGeneration (s : AppStore) (firewallId : String) (generation : UInt64) (now : String) :
    AppStore :=
  match s.firewalls.get? firewallId with
  | some fw => s.putFirewall firewallId { fw with generation := generation, updatedAt := now }
  | none => s

/-- A check passes on the stored firewall with the expected generation. -/
theorem checkGeneration_eq_ok_iff {s : AppStore} {id : String} {expected : UInt64}
    {fw : Firewall} : s.checkGeneration id expected = .ok fw ↔
      s.firewalls.get? id = some fw ∧ fw.generation = expected := by
  unfold checkGeneration
  cases hget : s.firewalls.get? id with
  | none => simp
  | some fw' =>
    by_cases hgen : fw'.generation = expected
    · simp only [hgen, ne_eq, not_true, if_false, Except.ok.injEq, Option.some.injEq]
      constructor
      · rintro rfl
        exact ⟨rfl, hgen⟩
      · exact fun h => h.1
    · simp only [ne_eq, hgen, not_false_eq_true, if_true, reduceCtorEq, Option.some.injEq,
        false_iff, not_and]
      rintro rfl
      exact hgen

end AppStore

def CreateFirewallRequest.firewall (req : CreateFirewallRequest) (uuid now : String)
    (generation : UInt64) : Firewall :=
  ⟨uuid, req.name, req.tenantId, req.vpcId, req.vni, req.mode, req.adminState, generation, now,
    now⟩

def UpdateFirewallRequest.setFields (req : UpdateFirewallRequest) (fw : Firewall) : Firewall :=
  { fw with
    name := req.name.getD fw.name
    mode := req.mode.getD fw.mode
    adminState := req.adminState.getD fw.adminState }

end PrismFirewall.Admin
