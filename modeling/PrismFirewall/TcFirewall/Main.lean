import PrismFirewall.Lib.Run
import PrismFirewall.TcFirewall.NatManager

/-!
# The REST endpoints

`main.py`: the tenant, rule and NAT endpoints, each a program on a `Session`.
A handler has no suspension point, so a request runs from its start to its end
before the next one, and the daemon is a machine that reads one `Call` at a
time (`serve`, `daemon`).

A `Call` is the request with what the handler takes from outside: the tenant
header, the client address, the identifier a creation will draw, and the
answers of the subprocesses.  An exception the handler lets through becomes the
response FastAPI makes of it: the status of an `HTTPException`, and `500` for
anything else.
-/

namespace PrismFirewall.TcFirewall

open Lib

structure TenantRegistrationRequest where
  tenantId : String
  publicIps : List String
  maxRules : Int
  maxNatEntries : Int
  deriving DecidableEq

inductive Request
  | registerTenant (request : TenantRegistrationRequest)
  | deleteTenant (tenantId : String)
  | listRules
  | addRule (request : FirewallRuleRequest)
  | deleteRule (ruleId : String)
  | flushRules
  | addSnatRule (request : SNATRule)
  | addDnatRule (request : DNATRule)
  | addPortForwardRule (request : PortForwardRule)
  | listNatRules
  | deleteNatRule (ruleId : String)
  | flushNatRules
  deriving DecidableEq

structure Call where
  request : Request
  tenantHeader : Option String
  client : Option String
  newId : ShortId
  replies : Nat → TcReply

inductive Body
  | tenant (config : TenantConfig)
  | tenantDeleted (tenantId : String) (rulesFlushed natEntriesFlushed : Nat)
  | rules (rules : List FirewallRule) (count : Nat) (defaultPolicy : String)
  | rule (rule : FirewallRule)
  | existingRule (rule : FirewallRule)
  | nat (entry : NATEntry)
  | natRules (rules : List NATEntry) (count : Nat)
  | deleted (ruleId : String)
  | flushed (rulesRemoved : Nat)
  | detail (text : String)
  deriving DecidableEq

structure Response where
  status : Nat
  body : Body
  deriving DecidableEq

/-- The firewall rules a response shows. -/
def Response.rules (r : Response) : List FirewallRule :=
  match r.body with
  | .rules l _ _ => l
  | .rule x => [x]
  | .existingRule x => [x]
  | _ => []

/-! ### Helpers -/

/-- `default_policy`, which nothing changes. -/
def defaultPolicy : String := "deny-all"

/-- `get_tenant_id`. -/
def getTenantId (header : Option String) : DaemonM String := do
  let s ← getStores
  match header with
  | none => throw (.httpException 400 "X-Tenant-ID header is required")
  | some tenantId =>
    if tenantId = "" then
      throw (.httpException 400 "X-Tenant-ID header is required")
    if tenantId ∉ s.tenants then
      throw (.httpException 403 ("Tenant '" ++ tenantId ++ "' is not registered"))
    return tenantId

/-- `count_tenant_rules`. -/
def countTenantRules (s : Stores) (tenantId : String) : Nat :=
  s.rulesDb.values.countP (fun r => decide (r.tenantId = some tenantId))

/-- `count_tenant_nat_entries`. -/
def countTenantNatEntries (s : Stores) (tenantId : String) : Nat :=
  s.natEntriesDb.values.countP (fun e => decide (e.tenantId = some tenantId))

/-- `str` of an optional number in a signature: nothing for `None` and `0`. -/
def sigPort : Option Nat → String
  | some n => if n = 0 then "" else toString n
  | none => ""

/-- The text `_compute_rule_signature` hashes. -/
def ruleSigStr (tenantId : String) (srcIp dstIp : Option String) (srcPort dstPort : Option Nat)
    (protocol : Protocol) (action : RuleAction) (priority : Nat) : String :=
  tenantId ++ "|" ++ srcIp.getD "" ++ "|" ++ dstIp.getD "" ++ "|"
    ++ sigPort srcPort ++ "|" ++ sigPort dstPort ++ "|"
    ++ protocol.value ++ "|" ++ action.value ++ "|" ++ toString priority

/-- `_compute_rule_signature`. -/
def computeRuleSignature (tenantId : String) (request : FirewallRuleRequest) : String :=
  shortHash (ruleSigStr tenantId request.srcIp request.dstIp (request.srcPort.map Field16.val)
    (request.dstPort.map Field16.val) request.protocol request.action request.priority.val)

/-- The live rule an index entry points to. -/
def liveRule (s : Stores) (index : Dict String String) (key : String) : Option FirewallRule :=
  match index.get? key with
  | some existingId => if existingId = "" then none else s.rulesDb.get? existingId
  | none => none

/-- The rule a non-empty idempotency key points to. -/
def ruleByKey (s : Stores) : Option String → Option FirewallRule
  | some key => if key = "" then none else liveRule s s.idempotencyKeyIndex key
  | none => none

/-- `_find_existing_rule`. -/
def findExistingRule (s : Stores) (tenantId : String) (request : FirewallRuleRequest) :
    Option FirewallRule :=
  match ruleByKey s request.idempotencyKey with
  | some rule => some rule
  | none => liveRule s s.ruleSignatureIndex (computeRuleSignature tenantId request)

/-- `audit.log`. -/
def auditLog (action resourceType resourceId : String) (details : List (String × AuditValue))
    (client : Option String) : DaemonM Unit :=
  modifyStores (fun s => { s with
    audit := s.audit ++ [⟨action, resourceType, resourceId, details, orText client "unknown"⟩] })

/-! ### Tenants -/

/-- `register_tenant`. -/
def registerTenant (request : TenantRegistrationRequest) : DaemonM Response := do
  let s ← getStores
  if request.tenantId ∈ s.tenants then
    throw (.httpException 409 ("Tenant '" ++ request.tenantId ++ "' already exists"))
  let config : TenantConfig :=
    ⟨request.tenantId, request.publicIps, request.maxRules, request.maxNatEntries⟩
  modifyStores (fun s => { s with tenants := s.tenants.insert request.tenantId config })
  return ⟨201, .tenant config⟩

/-- `if handle: tc_manager.remove_rule(…)`. -/
def removeHandle (dev : String) (handle : Option String) (priority : Nat) : TcM Unit :=
  if handle.getD "" ≠ "" then removeRule dev (handle.getD "") priority else pure ()

/-- The tc half of removing a rule: the forward filter, then the reverse one.
A tc error ends it early and is only logged. -/
def removeFilters (rule : FirewallRule) : DaemonM Unit :=
  catchTcError
    (tc (do
      removeHandle internetPort rule.tcHandleFwd rule.priority
      removeHandle clientPort rule.tcHandleRev rule.priority))
    (fun _ => return ())

/-- The identifiers of the rules of a tenant. -/
def tenantRuleIds (s : Stores) (tenantId : String) : List String :=
  (s.rulesDb.entries.filter (fun e => decide (e.2.tenantId = some tenantId))).map Prod.fst

/-- The identifiers of the NAT entries of a tenant. -/
def tenantNatIds (s : Stores) (tenantId : String) : List String :=
  (s.natEntriesDb.entries.filter (fun e => decide (e.2.tenantId = some tenantId))).map Prod.fst

/-- The loop of `flush_rules` and `delete_tenant` over rule identifiers. -/
def flushRuleIds (ids : List String) : DaemonM Unit :=
  forM ids (fun ruleId => do
    let rule ← item (← getStores).rulesDb ruleId
    removeFilters rule
    modifyStores (fun s => { s with rulesDb := s.rulesDb.erase ruleId }))

/-- The loop of `flush_nat_rules` and `delete_tenant` over NAT identifiers:
whatever `remove_nat` raises is only logged. -/
def flushNatIds (ids : List String) : DaemonM Unit :=
  forM ids (fun natId => do
    tryCatch (removeNat natId) (fun _ => return ())
    modifyStores (fun s => { s with natEntriesDb := s.natEntriesDb.erase natId }))

/-- Drop the index entries of removed rules. -/
def cleanRuleIndexes (ids : List String) : DaemonM Unit :=
  modifyStores (fun s => { s with
    ruleSignatureIndex := dropStale s.ruleSignatureIndex ids
    idempotencyKeyIndex := dropStale s.idempotencyKeyIndex ids })

/-- `delete_tenant`. -/
def deleteTenant (tenantId : String) : DaemonM Response := do
  if tenantId ∉ (← getStores).tenants then
    throw (.httpException 404 ("Tenant '" ++ tenantId ++ "' not found"))
  let ruleIds := tenantRuleIds (← getStores) tenantId
  flushRuleIds ruleIds
  let natIds := tenantNatIds (← getStores) tenantId
  flushNatIds natIds
  cleanRuleIndexes ruleIds
  modifyStores (fun s => { s with tenants := s.tenants.erase tenantId })
  return ⟨200, .tenantDeleted tenantId ruleIds.length natIds.length⟩

/-! ### Firewall rules -/

/-- `list_rules`. -/
def listRules (header : Option String) : DaemonM Response := do
  let tenantId ← getTenantId header
  let s ← getStores
  let tenantRules := s.rulesDb.values.filter (fun r => decide (r.tenantId = some tenantId))
  return ⟨200, .rules tenantRules tenantRules.length defaultPolicy⟩

/-- The protocol text handed to tc. -/
def protoStr (protocol : Protocol) : String := if protocol = .ANY then "ip" else protocol.value

/-- The tc half of `add_rule`: the two filters and the offload check. -/
def installRule (request : FirewallRuleRequest) : TcM (String × String × Bool) := do
  let add := match request.action with
    | .ALLOW => addAllowRule
    | .DENY => addDenyRule
  let (fwdHandle, revHandle) ← add request.srcIp request.dstIp (request.srcPort.map Field16.val)
    (request.dstPort.map Field16.val) (protoStr request.protocol) request.priority.val
  let inHw ← checkInHw internetPort fwdHandle request.priority.val
  return (fwdHandle, revHandle, inHw)

/-- The rule `add_rule` stores. -/
def newRule (newId : ShortId) (tenantId : String) (request : FirewallRuleRequest)
    (installed : String × String × Bool) : FirewallRule where
  id := newId.val
  tenantId := some tenantId
  srcIp := request.srcIp
  dstIp := request.dstIp
  srcPort := request.srcPort.map Field16.val
  dstPort := request.dstPort.map Field16.val
  protocol := request.protocol
  action := request.action
  priority := request.priority.val
  comment := request.comment
  tcHandleFwd := some installed.1
  tcHandleRev := some installed.2.1
  inHw := installed.2.2

/-- Store a rule and index it. -/
def storeRule (tenantId : String) (request : FirewallRuleRequest) (rule : FirewallRule)
    (s : Stores) : Stores :=
  { s with
    rulesDb := s.rulesDb.insert rule.id rule
    ruleSignatureIndex :=
      s.ruleSignatureIndex.insert (computeRuleSignature tenantId request) rule.id
    idempotencyKeyIndex := match request.idempotencyKey with
      | some key => if key = "" then s.idempotencyKeyIndex
          else s.idempotencyKeyIndex.insert key rule.id
      | none => s.idempotencyKeyIndex }

/-- The fields of a rule request that are logged. -/
def ruleDetails (request : FirewallRuleRequest) : List (String × AuditValue) :=
  [("src_ip", .ofText request.srcIp), ("dst_ip", .ofText request.dstIp),
    ("src_port", .ofPort request.srcPort), ("dst_port", .ofPort request.dstPort),
    ("protocol", .text request.protocol.value), ("action", .text request.action.value),
    ("priority", .int request.priority.val)]

/-- `add_rule`. -/
def addRule (header client : Option String) (newId : ShortId) (request : FirewallRuleRequest) :
    DaemonM Response := do
  let tenantId ← getTenantId header
  let s ← getStores
  match findExistingRule s tenantId request with
  | some existing => return ⟨200, .existingRule existing⟩
  | none =>
    let config ← item s.tenants tenantId
    if (countTenantRules s tenantId : Int) ≥ config.maxRules then
      throw (.httpException 429 ("Tenant '" ++ tenantId ++ "' has reached the maximum of "
        ++ toString config.maxRules ++ " firewall rules"))
    let installed ← catchTcError (tc (installRule request))
      (fun e => throw (.httpException 500 ("tc command failed: " ++ e)))
    let rule := newRule newId tenantId request installed
    modifyStores (storeRule tenantId request rule)
    auditLog "rule.created" "firewall_rule" rule.id (ruleDetails request) client
    return ⟨201, .rule rule⟩

/-- `delete_rule`. -/
def deleteRule (header client : Option String) (ruleId : String) : DaemonM Response := do
  let tenantId ← getTenantId header
  let s ← getStores
  if ruleId ∉ s.rulesDb then
    throw (.httpException 404 ("Rule " ++ ruleId ++ " not found"))
  let rule ← item s.rulesDb ruleId
  if rule.tenantId ≠ some tenantId then
    throw (.httpException 403
      ("Rule " ++ ruleId ++ " does not belong to tenant '" ++ tenantId ++ "'"))
  removeFilters rule
  cleanRuleIndexes [ruleId]
  modifyStores (fun s => { s with rulesDb := s.rulesDb.erase ruleId })
  auditLog "rule.deleted" "firewall_rule" ruleId [] client
  return ⟨200, .deleted ruleId⟩

/-- `flush_rules`. -/
def flushRules (header client : Option String) : DaemonM Response := do
  let tenantId ← getTenantId header
  let ids := tenantRuleIds (← getStores) tenantId
  flushRuleIds ids
  cleanRuleIndexes ids
  auditLog "rules.flushed" "firewall_rule" "*" [("rules_removed", .int ids.length)] client
  return ⟨200, .flushed ids.length⟩

/-! ### NAT -/

/-- `entry.tenant_id = tenant_id; nat_entries_db[entry.id] = entry`.  The entry
is the object `nat_db` holds, so the assignment shows there as well. -/
def recordNatOwner (tenantId : String) (entry : NATEntry) (s : Stores) : Stores :=
  { s with
    natDb := s.natDb.insert entry.id { entry with tenantId := some tenantId }
    natEntriesDb := s.natEntriesDb.insert entry.id { entry with tenantId := some tenantId } }

/-- The common body of the three NAT creation endpoints. -/
def addNatRule (header client : Option String) (natType : NatType) (add : DaemonM NATEntry)
    (details : List (String × AuditValue)) : DaemonM Response := do
  let tenantId ← getTenantId header
  let s ← getStores
  let config ← item s.tenants tenantId
  if (countTenantNatEntries s tenantId : Int) ≥ config.maxNatEntries then
    throw (.httpException 429 ("Tenant '" ++ tenantId ++ "' has reached the maximum of "
      ++ toString config.maxNatEntries ++ " NAT entries"))
  let entry ← catchTcError add
    (fun e => throw (.httpException 500 ("tc command failed: " ++ e)))
  modifyStores (recordNatOwner tenantId entry)
  auditLog ("nat." ++ natType.value ++ "_created") "nat_rule" entry.id details client
  return ⟨201, .nat { entry with tenantId := some tenantId }⟩

/-- `add_snat_rule`. -/
def addSnatRule (header client : Option String) (newId : ShortId) (r : SNATRule) :
    DaemonM Response :=
  addNatRule header client .snat (addSnat newId r.privateIp r.publicIp r.mode)
    [("private_ip", .text r.privateIp), ("public_ip", .text r.publicIp)]

/-- `add_dnat_rule`. -/
def addDnatRule (header client : Option String) (newId : ShortId) (r : DNATRule) :
    DaemonM Response :=
  addNatRule header client .dnat
    (addDnat newId r.publicIp r.publicPort.val r.privateIp r.privatePort.val r.protocol)
    [("public_ip", .text r.publicIp), ("public_port", .int r.publicPort.val),
      ("private_ip", .text r.privateIp), ("private_port", .int r.privatePort.val),
      ("protocol", .text r.protocol)]

/-- `add_port_forward_rule`. -/
def addPortForwardRule (header client : Option String) (newId : ShortId) (r : PortForwardRule) :
    DaemonM Response :=
  addNatRule header client .forward
    (addPortForward newId r.publicIp r.publicPort.val r.privateIp r.privatePort.val r.protocol)
    [("public_ip", .text r.publicIp), ("public_port", .int r.publicPort.val),
      ("private_ip", .text r.privateIp), ("private_port", .int r.privatePort.val),
      ("protocol", .text r.protocol)]

/-- `list_nat_rules`. -/
def listNatRules (header : Option String) : DaemonM Response := do
  let tenantId ← getTenantId header
  let s ← getStores
  let tenantEntries := s.natEntriesDb.values.filter (fun e => decide (e.tenantId = some tenantId))
  return ⟨200, .natRules tenantEntries tenantEntries.length⟩

/-- `delete_nat_rule`. -/
def deleteNatRule (header client : Option String) (ruleId : String) : DaemonM Response := do
  let tenantId ← getTenantId header
  let s ← getStores
  if ruleId ∉ s.natEntriesDb then
    throw (.httpException 404 ("NAT rule " ++ ruleId ++ " not found"))
  let entry ← item s.natEntriesDb ruleId
  if entry.tenantId ≠ some tenantId then
    throw (.httpException 403
      ("NAT rule " ++ ruleId ++ " does not belong to tenant '" ++ tenantId ++ "'"))
  catchTcError (removeNat ruleId)
    (fun e => throw (.httpException 500 ("tc command failed: " ++ e)))
  modifyStores (fun s => { s with natEntriesDb := s.natEntriesDb.erase ruleId })
  auditLog "nat.deleted" "nat_rule" ruleId [] client
  return ⟨200, .deleted ruleId⟩

/-- `flush_nat_rules`. -/
def flushNatRules (header client : Option String) : DaemonM Response := do
  let tenantId ← getTenantId header
  let ids := tenantNatIds (← getStores) tenantId
  flushNatIds ids
  auditLog "nat.flushed" "nat_rule" "*" [("rules_removed", .int ids.length)] client
  return ⟨200, .flushed ids.length⟩

/-! ### Requests -/

def handler (c : Call) : DaemonM Response :=
  match c.request with
  | .registerTenant request => registerTenant request
  | .deleteTenant tenantId => deleteTenant tenantId
  | .listRules => listRules c.tenantHeader
  | .addRule request => addRule c.tenantHeader c.client c.newId request
  | .deleteRule ruleId => deleteRule c.tenantHeader c.client ruleId
  | .flushRules => flushRules c.tenantHeader c.client
  | .addSnatRule request => addSnatRule c.tenantHeader c.client c.newId request
  | .addDnatRule request => addDnatRule c.tenantHeader c.client c.newId request
  | .addPortForwardRule request => addPortForwardRule c.tenantHeader c.client c.newId request
  | .listNatRules => listNatRules c.tenantHeader
  | .deleteNatRule ruleId => deleteNatRule c.tenantHeader c.client ruleId
  | .flushNatRules => flushNatRules c.tenantHeader c.client

/-- The response to an exception the handler did not catch. -/
def errorResponse : Exc → Response
  | .httpException statusCode detail => ⟨statusCode, .detail detail⟩
  | _ => ⟨500, .detail "Internal Server Error"⟩

/-- The session a request starts in. -/
def Call.session (c : Call) (d : Daemon) : Session := ⟨d.stores, ⟨d.kernel, c.replies, []⟩⟩

/-- Handle one request. -/
def serve (d : Daemon) (c : Call) : Response × Daemon :=
  match handler c (c.session d) with
  | .ok r s => (r, ⟨s.stores, s.tc.kernel⟩)
  | .error e s => (errorResponse e, ⟨s.stores, s.tc.kernel⟩)

def daemon : Machine Daemon Call Response := ⟨Daemon.init, serve⟩

theorem rules_errorResponse (e : Exc) : (errorResponse e).rules = [] := by
  cases e <;> rfl

/-- A property of the response and the next state, from one of the handler. -/
theorem serve_of_wp {d : Daemon} {c : Call} {P : Response → Daemon → Prop}
    (h : wp (handler c) (c.session d) (fun r s => P r ⟨s.stores, s.tc.kernel⟩)
      (fun e s => P (errorResponse e) ⟨s.stores, s.tc.kernel⟩)) :
    P (serve d c).1 (serve d c).2 := by
  unfold wp at h
  unfold serve
  cases hm : handler c (c.session d) with
  | ok r s => rw [hm] at h; exact h
  | error e s => rw [hm] at h; exact h

/-! ### Sample calls -/

/-- A call all of whose tc commands succeed. -/
def sampleCall (request : Request) (tenantId : String) (newId : ShortId) : Call :=
  ⟨request, some tenantId, none, newId, fun _ => .exit 0 "" "" 1⟩

def firstId : ShortId := ⟨"3f2a91c0", rfl⟩

def secondId : ShortId := ⟨"b7e4005d", rfl⟩

def port80 : Field16 := ⟨80, by decide, by decide⟩

def port443 : Field16 := ⟨443, by decide, by decide⟩

/-- Register a tenant with room for ten rules and ten NAT entries. -/
def sampleTenant (tenantId : String) : Call :=
  sampleCall (.registerTenant ⟨tenantId, [], 10, 10⟩) "" ⟨"00000000", rfl⟩

/-- Allow TCP to a port. -/
def sampleRule (port : Field16) (key : Option String) : FirewallRuleRequest :=
  ⟨none, none, none, some port, .TCP, .ALLOW, ⟨100, by decide, by decide⟩, none, key⟩

end PrismFirewall.TcFirewall
