import PrismFirewall.DocaFirewall.MainLoop
import PrismFirewall.DocaFirewall.PolicyJson
import PrismFirewall.DocaFirewall.RestApi
import PrismFirewall.DocaFirewall.RuleIds
import PrismFirewall.Lib.Scanning

/-!
# The REST server of the DOCA firewall

`rest_api.c`: `handle_request` reads one request, looks at its method and its path, and
answers.  Where `sscanf` finds no method or no path, the buffers hold what was there before,
so their contents are part of the request (`Request.method₀`, `path₀`).

A request makes at most one call on the policy table, and which one does not depend on the
table (`Request.call`); so a run of the server, with the packets that are evaluated
meanwhile, is a run of the policy engine (`server_run`).  `posted_rule_lifecycle` follows
one rule from its `POST` to its `DELETE`.
-/

namespace PrismFirewall.DocaFirewall

open Lib Lib.CText Lib.Inet

/-- What `recv` returns, and what is not decided by it: the stack buffers before the request is
scanned, and whether `malloc` succeeds. -/
structure Request where
  bytes : List Char
  method₀ : List Char
  path₀ : List Char
  proto : Int
  allocates : Bool
  deriving DecidableEq

/-- The answer to a request; a connection without one is closed, and the text of a table
may overrun its buffer. -/
inductive HttpResponse
  | closed
  | json (status : Nat) (body : String)
  | overrun
  deriving DecidableEq

namespace Request

variable (r : Request)

/-- `request`, as a C string. -/
def text : List Char := cString r.bytes

/-- `sscanf(request, "%15s %255s", method, path)`. -/
def methodAndPath : List Char × List Char :=
  match scanWord 15 r.text with
  | none => (r.method₀, r.path₀)
  | some (method, rest) =>
    match scanWord 255 rest with
    | none => (method, r.path₀)
    | some (path, _) => (method, path)

/-- What follows the empty line. -/
def body : Option (List Char) := (strstr ['\r', '\n', '\r', '\n'] r.text).map (List.drop 4)

/-- The method and the path are the given ones. -/
def is (method path : String) : Bool :=
  r.methodAndPath == (method.toList, path.toList)

/-- `DELETE /rules/<id>`: the number that `atoi` finds behind the prefix. -/
def deleteId? : Option UInt32 :=
  if r.methodAndPath.1 = "DELETE".toList ∧ "/rules/".toList.isPrefixOf r.methodAndPath.2 then
    some (UInt32.ofInt (atoi (r.methodAndPath.2.drop 7)))
  else none

end Request

/-- `metrics_to_json`. -/
def metricsToJson (m : FwMetrics) (ct : CtMetrics) : String :=
  printf ["\x7b\n  \"pkts_received\": ", ",\n  \"pkts_allowed\": ", ",\n  \"pkts_denied\": ",
      ",\n  \"sessions_offloaded\": ", ",\n  \"sessions_aged\": ", ",\n  \"sessions_active\": ",
      ",\n  \"ct_add_errors\": ", ",\n  \"rx_bursts\": ", "\n\x7d"]
    [toString m.pktsReceived.toNat, toString m.pktsAllowed.toNat, toString m.pktsDenied.toNat,
      toString ct.sessionsOffloaded.toNat, toString ct.sessionsAged.toNat,
      toString ct.sessionsActive.toNat, toString ct.ctAddErrors.toNat, toString ct.rxBursts.toNat]

/-- The texts of the answers to `POST /rules`. -/
def HttpReply.response : HttpReply → HttpResponse
  | .created id => .json 201 ("\x7b\"id\": " ++ toString id ++ ", \"status\": \"created\"\x7d")
  | .error status text => .json status ("\x7b\"error\": \"" ++ text ++ "\"\x7d")

/-- `handle_request`. -/
def handleRequest (m : FwMetrics) (ct : CtMetrics) (s : Policy) (r : Request) :
    HttpResponse × Policy :=
  if r.bytes = [] then (.closed, s)
  else if r.is "GET" "/metrics" then
    if r.allocates then (.json 200 (metricsToJson m ct), s)
    else (.json 500 "\x7b\"error\": \"out of memory\"\x7d", s)
  else if r.is "GET" "/rules" then
    if r.allocates then
      match policyToJson s.table with
      | some json => (.json 200 json, s)
      | none => (.overrun, s)
    else (.json 500 "\x7b\"error\": \"out of memory\"\x7d", s)
  else if r.is "POST" "/rules" then
    let posted := postRules r.proto s (r.body.getD [])
    (posted.1.response, posted.2)
  else
    match r.deleteId? with
    | some ruleId =>
      let removed := policyRemoveRule s ruleId
      if removed.1 = 0 then (.json 200 "\x7b\"status\": \"deleted\"\x7d", removed.2)
      else (.json 404 "\x7b\"error\": \"rule not found\"\x7d", removed.2)
    | none =>
      if r.is "GET" "/health" then (.json 200 "\x7b\"status\": \"ok\"\x7d", s)
      else (.json 404 "\x7b\"error\": \"not found\"\x7d", s)

/-! ### The calls on the policy table -/

/-- The call that a request makes. -/
def Request.call (r : Request) : Option PolicyCall :=
  if r.bytes = [] then none
  else if r.is "POST" "/rules" then
    if cString (r.body.getD []) = [] then none
    else some (.addRule (parseRuleJson r.proto (cString (r.body.getD []))))
  else r.deleteId?.map .removeRule

/-- What happens to the table: a request, or a packet that is evaluated. -/
inductive ServerInput
  | request (m : FwMetrics) (ct : CtMetrics) (r : Request)
  | packet (p : FiveTuple)

def ServerInput.call : ServerInput → Option PolicyCall
  | .request _ _ r => r.call
  | .packet p => some (.evaluate p)

/-- The firewall from `policy_init` on; a packet has no answer. -/
def restServer (nextRuleId : UInt32) : Machine Policy ServerInput (Option HttpResponse) where
  init := ⟨policyInit, nextRuleId⟩
  step s
    | .request m ct r => (some (handleRequest m ct s r).1, (handleRequest m ct s r).2)
    | .packet p => (none, (policyEvaluate s p).2)

/-- What the call, if there is one, makes of the table. -/
def afterCall (s : Policy) (c : Option PolicyCall) : Policy :=
  match c with
  | none => s
  | some c => (policyStep s c).2

theorem Request.is_iff {r : Request} {method path : String} :
    r.is method path = true ↔ r.methodAndPath = (method.toList, path.toList) := by
  rw [Request.is, beq_iff_eq]

/-- A request with another method deletes nothing. -/
theorem deleteId?_of_is {r : Request} {method path : String} (h : r.is method path = true)
    (hmethod : method.toList ≠ "DELETE".toList) : r.deleteId? = none := by
  rw [Request.is_iff] at h
  rw [Request.deleteId?, h, if_neg (fun hd => hmethod hd.1)]

/-- A `GET` makes no call. -/
theorem call_of_get {r : Request} {path : String} (h : r.is "GET" path = true) : r.call = none := by
  have hpost : ¬ r.is "POST" "/rules" = true := by
    rw [Request.is_iff] at h ⊢
    rw [h, Prod.mk.injEq]
    exact fun hm => absurd hm.1 (by decide)
  rw [Request.call, if_neg hpost, deleteId?_of_is h (by decide)]
  split
  · rfl
  · rfl

/-- **What a request does to the table** is what its call does. -/
theorem handleRequest_snd (m : FwMetrics) (ct : CtMetrics) (s : Policy) (r : Request) :
    (handleRequest m ct s r).2 = afterCall s r.call := by
  unfold handleRequest
  by_cases hbytes : r.bytes = []
  · rw [if_pos hbytes, Request.call, if_pos hbytes, afterCall]
  rw [if_neg hbytes]
  by_cases hmetrics : r.is "GET" "/metrics" = true
  · rw [if_pos hmetrics, call_of_get hmetrics, afterCall]
    split
    · rfl
    · rfl
  rw [if_neg hmetrics]
  by_cases hrules : r.is "GET" "/rules" = true
  · rw [if_pos hrules, call_of_get hrules, afterCall]
    split
    · split
      · rfl
      · rfl
    · rfl
  rw [if_neg hrules]
  by_cases hpost : r.is "POST" "/rules" = true
  · rw [if_pos hpost, Request.call, if_neg hbytes, if_pos hpost, postRules]
    dsimp only
    by_cases hbody : cString (r.body.getD []) = []
    · rw [if_pos hbody, if_pos hbody, afterCall]
    · rw [if_neg hbody, if_neg hbody, afterCall, policyStep]
      split
      · rfl
      · rfl
  rw [if_neg hpost, Request.call, if_neg hbytes, if_neg hpost]
  cases hdelete : r.deleteId? with
  | some ruleId =>
    rw [Option.map_some, afterCall, policyStep]
    dsimp only
    split
    · rfl
    · rfl
  | none =>
    rw [Option.map_none, afterCall]
    dsimp only
    split
    · rfl
    · rfl

theorem step_restServer (nextRuleId : UInt32) (s : Policy) (i : ServerInput) :
    ((restServer nextRuleId).step s i).2 = afterCall s i.call := by
  cases i with
  | request m ct r => exact handleRequest_snd m ct s r
  | packet p => rfl

/-- The calls of a run. -/
def serverCalls (l : List ServerInput) : List PolicyCall := l.filterMap ServerInput.call

theorem serverCalls_append (l l' : List ServerInput) :
    serverCalls (l ++ l') = serverCalls l ++ serverCalls l' := List.filterMap_append

/-- **A run of the server is a run of the policy engine.** -/
theorem server_run (nextRuleId : UInt32) (l : List ServerInput) :
    (restServer nextRuleId).run l = (policyEngine nextRuleId).run (serverCalls l) := by
  induction l using List.reverseRecOn with
  | nil => rfl
  | append_singleton l i ih =>
    rw [Machine.run_append_singleton, step_restServer, ih, serverCalls_append]
    cases hcall : i.call with
    | none => simp [serverCalls, hcall, afterCall]
    | some c =>
      have hone : serverCalls [i] = [c] := by simp [serverCalls, hcall]
      rw [hone, Machine.run_append_singleton]
      rfl

/-! ### The answers -/

theorem toList_created (id : Int) :
    ("\x7b\"id\": " ++ toString id ++ ", \"status\": \"created\"\x7d").toList
      = "\x7b\"id\": ".toList ++ ((toString id).toList
        ++ ", \"status\": \"created\"\x7d".toList) := by
  rw [String.toList_append, String.toList_append, List.append_assoc]

/-- The answer tells the number. -/
theorem created_response_inj {id id' : Int}
    (h : (HttpReply.created id).response = (HttpReply.created id').response) : id = id' := by
  rw [HttpReply.response, HttpReply.response, HttpResponse.json.injEq] at h
  have hlist := congrArg String.toList h.2
  rw [toList_created, toList_created, List.append_cancel_left_eq,
    List.append_cancel_right_eq] at hlist
  exact Text.toString_int_inj.mp (String.toList_injective hlist)

/-- **Where an answer says that a rule is created**, the request was a `POST`, and the rule in
its body has been added under the number that is said. -/
theorem created_spec {m : FwMetrics} {ct : CtMetrics} {s : Policy} {r : Request} {id : Int}
    (h : (handleRequest m ct s r).1 = (HttpReply.created id).response) :
    ∃ rule, r.call = some (.addRule rule) ∧ 0 ≤ id ∧ (policyAddRule s rule).1 = id := by
  have hother : ∀ status body, status ≠ 201 →
      HttpResponse.json status body ≠ (HttpReply.created id).response := by
    intro status body hstatus hjson
    rw [HttpReply.response, HttpResponse.json.injEq] at hjson
    exact hstatus hjson.1
  unfold handleRequest at h
  by_cases hbytes : r.bytes = []
  · rw [if_pos hbytes] at h
    cases h
  rw [if_neg hbytes] at h
  by_cases hmetrics : r.is "GET" "/metrics" = true
  · rw [if_pos hmetrics] at h
    split at h
    · exact absurd h (hother _ _ (by decide))
    · exact absurd h (hother _ _ (by decide))
  rw [if_neg hmetrics] at h
  by_cases hrules : r.is "GET" "/rules" = true
  · rw [if_pos hrules] at h
    split at h
    · split at h
      · exact absurd h (hother _ _ (by decide))
      · cases h
    · exact absurd h (hother _ _ (by decide))
  rw [if_neg hrules] at h
  by_cases hpost : r.is "POST" "/rules" = true
  · rw [if_pos hpost, postRules] at h
    dsimp only at h
    rw [Request.call, if_neg hbytes, if_pos hpost]
    by_cases hbody : cString (r.body.getD []) = []
    · rw [if_pos hbody] at h
      exact absurd h (hother _ _ (by decide))
    · rw [if_neg hbody] at h ⊢
      split at h
      · exact absurd h (hother _ _ (by decide))
      · rename_i hneg
        refine ⟨_, rfl, ?_⟩
        rw [← created_response_inj h]
        exact ⟨by omega, rfl⟩
  rw [if_neg hpost] at h
  split at h
  · dsimp only at h
    split at h
    · exact absurd h (hother _ _ (by decide))
    · exact absurd h (hother _ _ (by decide))
  · split at h
    · exact absurd h (hother _ _ (by decide))
    · exact absurd h (hother _ _ (by decide))

/-- **The request `DELETE /rules/<n>`**, whatever follows the path: it takes out the first rule
with the number, and says whether there was one. -/
theorem deleteId?_of_text {r : Request} {n : Nat} {rest : List Char} (hn : n < 2 ^ 31)
    (htext : r.text = "DELETE /rules/".toList ++ (Nat.toDigits 10 n ++ ' ' :: rest)) :
    r.deleteId? = some (UInt32.ofNat n) := by
  have hdigit : ∀ c ∈ Nat.toDigits 10 n, isCSpace c = false :=
    fun c hc => isDigit_not_isCSpace (Text.isDigit_toDigits c hc)
  have hlen : (Nat.toDigits 10 n).length ≤ 10 :=
    (Nat.length_toDigits_le_iff (by decide) (by decide)).mpr (by omega)
  have hmethod : scanWord 15 r.text = some ("DELETE".toList,
      " ".toList ++ ("/rules/".toList ++ Nat.toDigits 10 n ++ ' ' :: rest)) := by
    have hstart : r.text = [] ++ ("DELETE".toList
        ++ (" ".toList ++ ("/rules/".toList ++ Nat.toDigits 10 n ++ ' ' :: rest))) := by
      rw [htext]
      simp
    rw [hstart, scanWord_append (by simp) (by simp [isCSpace]) (by decide) (by decide)
      (by simp [isCSpace])]
  have hpath : scanWord 255 (" ".toList ++ ("/rules/".toList ++ Nat.toDigits 10 n ++ ' ' :: rest))
      = some ("/rules/".toList ++ Nat.toDigits 10 n, ' ' :: rest) := by
    refine scanWord_append (by simp [isCSpace]) ?_ (by simp) ?_ (by simp [isCSpace])
    · intro c hc
      have hrules : ∀ c ∈ "/rules/".toList, isCSpace c = false := by simp [isCSpace]
      rcases List.mem_append.mp hc with hc | hc
      · exact hrules c hc
      · exact hdigit c hc
    · rw [List.length_append]
      have hseven : "/rules/".toList.length = 7 := by decide
      omega
  have hboth : r.methodAndPath = ("DELETE".toList, "/rules/".toList ++ Nat.toDigits 10 n) := by
    rw [Request.methodAndPath, hmethod]
    dsimp only
    rw [hpath]
  have hprefix : "/rules/".toList.isPrefixOf ("/rules/".toList ++ Nat.toDigits 10 n) = true :=
    List.isPrefixOf_iff_prefix.mpr (List.prefix_append _ _)
  have hdrop : ("/rules/".toList ++ Nat.toDigits 10 n).drop 7 = Nat.toDigits 10 n := rfl
  rw [Request.deleteId?, hboth, if_pos ⟨rfl, hprefix⟩]
  dsimp only
  have hmod : ((n : Int) % 2 ^ 32).toNat = n := by omega
  rw [hdrop, atoi_toDigits (by omega), Int32.toInt_ofInt_of_le (by omega) (by omega), UInt32.ofInt,
    hmod]

/-! ### The rules that are there -/

/-- The default rule has the number zero. -/
theorem zero_mem_ids {t : PolicyTable} (h : Sound t) : 0 ∈ t.ids := by
  refine List.mem_map.mpr ⟨defaultDeny, ?_, rfl⟩
  rw [← h.first]
  exact List.mem_of_getElem? (getElem?_used h.pos)

theorem policyAddRule_of_full {s : Policy} (h : s.table.Full) (rule : PolicyRule) :
    policyAddRule s rule = (-1, s) := by
  rw [PolicyTable.Full] at h
  rw [policyAddRule, if_pos h]

/-- A rule that is in the table stays there, up to its hits, unless it is removed. -/
theorem mem_unhit_step {s : Policy} (h : Sound s.table) {rule : PolicyRule}
    (hmem : rule ∈ s.table.live.map PolicyRule.unhit) {c : PolicyCall}
    (hkept : c ≠ .removeRule rule.id) :
    rule ∈ (policyStep s c).2.table.live.map PolicyRule.unhit := by
  cases c with
  | addRule new =>
    show rule ∈ (policyAddRule s new).2.table.live.map PolicyRule.unhit
    by_cases hfull : s.table.Full
    · rw [policyAddRule_of_full hfull]
      exact hmem
    · rw [live_policyAddRule hfull, List.map_append]
      exact List.mem_append_left _ hmem
  | removeRule ruleId =>
    obtain ⟨r, hr, rfl⟩ := List.mem_map.mp hmem
    have hne : r.id ≠ ruleId := fun e => hkept (by rw [← e]; rfl)
    show _ ∈ (policyRemoveRule s ruleId).2.table.live.map PolicyRule.unhit
    rw [live_policyRemoveRule h]
    split
    · exact hmem
    · refine List.mem_map.mpr ⟨r, ?_, rfl⟩
      exact (List.mem_eraseP_of_neg (by simpa using hne)).mpr hr
  | evaluate p =>
    show rule ∈ (policyEvaluate s p).2.table.live.map PolicyRule.unhit
    rw [unhit_policyEvaluate h]
    exact hmem

theorem mem_unhit_run (nextRuleId : UInt32) {rule : PolicyRule} {l l' : List PolicyCall}
    (hmem : rule ∈ ((policyEngine nextRuleId).run l).table.live.map PolicyRule.unhit)
    (hkept : .removeRule rule.id ∉ l') :
    rule ∈ ((policyEngine nextRuleId).run (l ++ l')).table.live.map PolicyRule.unhit := by
  induction l' using List.reverseRecOn with
  | nil =>
    rw [List.append_nil]
    exact hmem
  | append_singleton l' c ih =>
    rw [List.mem_append, not_or, List.mem_singleton] at hkept
    rw [← List.append_assoc, Machine.run_append_singleton]
    exact mem_unhit_step (sound_run nextRuleId _) (ih hkept.1) (fun e => hkept.2 e.symm)

/-- As long as every rule gets a fresh number, the numbers are distinct. -/
theorem nodup_ids_of_fresh {nextRuleId : UInt32} {l : List PolicyCall}
    (h : (policyEngine nextRuleId).Meets FreshId l) :
    ((policyEngine nextRuleId).run l).table.ids.Nodup := by
  induction l using List.reverseRecOn with
  | nil => exact nodup_ids_policyInit
  | append_singleton l c ih =>
    obtain ⟨hl, hc⟩ := (policyEngine nextRuleId).meets_append_singleton.mp h
    rw [Machine.run_append_singleton]
    refine (nodup_step_iff (sound_run nextRuleId l) (ih hl) c).mpr ?_
    cases c with
    | addRule rule => exact hc.imp_right And.right
    | removeRule ruleId => exact trivial
    | evaluate p => exact trivial

/-- Where the numbers are distinct, a removal takes out the one rule with the number. -/
theorem policyRemoveRule_of_nodup {s : Policy} (h : Sound s.table) (hd : s.table.ids.Nodup)
    {ruleId : UInt32} (h0 : ruleId ≠ 0) (hmem : ruleId ∈ s.table.ids) :
    (policyRemoveRule s ruleId).1 = 0 ∧ (policyRemoveRule s ruleId).2.table.live
      = s.table.live.filter (fun r => r.id != ruleId) := by
  constructor
  · obtain ⟨r, hr, rfl⟩ := List.mem_map.mp hmem
    have hindex : s.table.indexOf r.id = s.table.live.findIdx? (fun x => x.id == r.id) :=
      find?_range_cell s.table.rules s.table.nrRules (fun x => x.id == r.id)
    have hfound : s.table.indexOf r.id ≠ none := by
      rw [hindex]
      intro hnone
      have hself := List.findIdx?_eq_none_iff.mp hnone r hr
      simp at hself
    obtain ⟨i, hi⟩ := Option.ne_none_iff_exists'.mp hfound
    rw [policyRemoveRule, hi]
    dsimp only
    rw [if_neg h0]
  · rw [live_policyRemoveRule h, if_neg h0]
    exact eraseP_eq_filter_of_nodup_map hd ruleId

/-! ### One rule -/

/-- A request to delete makes the call and answers by what it returns. -/
theorem handleRequest_delete {m : FwMetrics} {ct : CtMetrics} {s : Policy} {r : Request}
    {ruleId : UInt32} (hbytes : r.bytes ≠ []) (h : r.deleteId? = some ruleId) :
    handleRequest m ct s r =
      (if (policyRemoveRule s ruleId).1 = 0 then .json 200 "\x7b\"status\": \"deleted\"\x7d"
        else .json 404 "\x7b\"error\": \"rule not found\"\x7d", (policyRemoveRule s ruleId).2) := by
  have hmethod : ∀ method path : String, method.toList ≠ "DELETE".toList →
      ¬ r.is method path = true := by
    intro method path hm his
    rw [deleteId?_of_is his hm] at h
    cases h
  unfold handleRequest
  rw [if_neg hbytes, if_neg (hmethod _ _ (by decide)), if_neg (hmethod _ _ (by decide)),
    if_neg (hmethod _ _ (by decide)), h]
  dsimp only
  split
  · rfl
  · rfl

/-- A rule that finds room is numbered, and the answer is its number. -/
theorem policyAddRule_of_fresh {s : Policy} {rule : PolicyRule} {id : Int} (hid : 0 ≤ id)
    (hadd : (policyAddRule s rule).1 = id) (hfresh : FreshId s (.addRule rule)) :
    ¬ s.table.Full ∧ id = s.nextRuleId.toNat ∧ s.nextRuleId.toNat < 2 ^ 31 ∧
      s.nextRuleId ∉ s.table.ids := by
  rcases hfresh with hfull | ⟨hlt, hmem⟩
  · rw [policyAddRule_of_full hfull] at hadd
    omega
  · have hroom : ¬ s.table.Full := by
      intro hfull
      rw [policyAddRule_of_full hfull] at hadd
      omega
    refine ⟨hroom, ?_, hlt, hmem⟩
    rw [PolicyTable.Full] at hroom
    rw [policyAddRule, if_neg hroom] at hadd
    have hcint : toCInt s.nextRuleId = s.nextRuleId.toBitVec.toInt := rfl
    have hnat : s.nextRuleId.toBitVec.toNat = s.nextRuleId.toNat := rfl
    rw [← hadd]
    dsimp only
    rw [hcint, BitVec.toInt_eq_toNat_cond, hnat, if_pos (by omega)]

/-- **The life of a posted rule.**  Take any run of requests and packets in which every rule
that is posted gets a fresh number.  If the server says that a rule is created under a
number, and no request up to then deletes that number, then after any further requests and
packets the rule of the body is still in the table under that number, with its hits; and the
request `DELETE /rules/<number>` succeeds and takes out that rule and no other. -/
theorem posted_rule_lifecycle {nextRuleId : UInt32} {l l' : List ServerInput} {m m' : FwMetrics}
    {ct ct' : CtMetrics} {r d : Request} {id : Int} {rest : List Char}
    (hfresh : (policyEngine nextRuleId).Meets FreshId
      (serverCalls (l ++ .request m ct r :: l')))
    (hcreated : (handleRequest m ct ((restServer nextRuleId).run l) r).1
      = (HttpReply.created id).response)
    (hkept : .removeRule (UInt32.ofInt id) ∉ serverCalls l')
    (hdelete : d.text = "DELETE /rules/".toList ++ ((toString id).toList ++ ' ' :: rest)) :
    let s := (restServer nextRuleId).run (l ++ .request m ct r :: l')
    (∃ rule, r.call = some (.addRule rule) ∧
      { rule with id := UInt32.ofInt id, hitCount := 0 } ∈ s.table.live.map PolicyRule.unhit) ∧
    (handleRequest m' ct' s d).1 = .json 200 "\x7b\"status\": \"deleted\"\x7d" ∧
    (handleRequest m' ct' s d).2.table.live
      = s.table.live.filter (fun rule => rule.id != UInt32.ofInt id) := by
  intro s
  obtain ⟨rule, hcall, hid, hadd⟩ := created_spec hcreated
  have hcalls : serverCalls (l ++ .request m ct r :: l')
      = serverCalls l ++ [.addRule rule] ++ serverCalls l' := by
    rw [serverCalls_append, List.append_assoc]
    congr 1
    exact List.filterMap_cons_some hcall
  rw [hcalls] at hfresh
  rw [server_run] at hadd
  have hbefore := ((policyEngine nextRuleId).meets_append_singleton.mp hfresh.of_append).2
  obtain ⟨hroom, hnat, hlt, hnew⟩ := policyAddRule_of_fresh hid hadd hbefore
  have hkey : UInt32.ofInt id = ((policyEngine nextRuleId).run (serverCalls l)).nextRuleId := by
    have hmod : (id % 2 ^ 32).toNat
        = ((policyEngine nextRuleId).run (serverCalls l)).nextRuleId.toNat := by omega
    rw [UInt32.ofInt, hmod, UInt32.ofNat_toNat]
  have hs : s = (policyEngine nextRuleId).run
      (serverCalls l ++ [.addRule rule] ++ serverCalls l') := by
    rw [← hcalls, ← server_run]
  have hsound : Sound s.table := by
    rw [hs]
    exact sound_run nextRuleId _
  have hrule : { rule with id := UInt32.ofInt id, hitCount := 0 }
      ∈ s.table.live.map PolicyRule.unhit := by
    rw [hs]
    refine mem_unhit_run nextRuleId ?_ hkept
    rw [Machine.run_append_singleton]
    refine List.mem_map.mpr ⟨{ rule with id := UInt32.ofInt id, hitCount := 0 }, ?_, rfl⟩
    show _ ∈ (policyAddRule _ rule).2.table.live
    rw [live_policyAddRule hroom, hkey]
    exact List.mem_append_right _ List.mem_cons_self
  have hmem : UInt32.ofInt id ∈ s.table.ids := by
    obtain ⟨r', hr', heq⟩ := List.mem_map.mp hrule
    exact List.mem_map.mpr ⟨r', hr', congrArg PolicyRule.id heq⟩
  have hzero : UInt32.ofInt id ≠ 0 := by
    intro h0
    rw [hkey] at h0
    exact hnew (h0 ▸ zero_mem_ids (sound_run nextRuleId _))
  have hdel : d.deleteId? = some (UInt32.ofInt id) := by
    rw [hnat, Text.toList_toString_natCast] at hdelete
    rw [deleteId?_of_text hlt hdelete, hkey, UInt32.ofNat_toNat]
  have hbytes : d.bytes ≠ [] := by
    intro hnil
    rw [Request.text, hnil] at hdelete
    simp [cString] at hdelete
  have hnodup : s.table.ids.Nodup := by
    rw [hs]
    exact nodup_ids_of_fresh hfresh
  obtain ⟨hok, hlive⟩ := policyRemoveRule_of_nodup hsound hnodup hzero hmem
  refine ⟨⟨rule, hcall, hrule⟩, ?_, ?_⟩
  · rw [handleRequest_delete hbytes hdel, if_pos hok]
  · rw [handleRequest_delete hbytes hdel]
    exact hlive

/-- A rule for web traffic is posted. -/
def postWeb : Request where
  bytes := ("POST /rules HTTP/1.1\x0d\n\x0d\n"
    ++ "\x7b\"dst_port_min\": 80, \"dst_port_max\": 80, \"action\": \"ALLOW\"\x7d").toList
  method₀ := []
  path₀ := []
  proto := 0
  allocates := true

/-- The rule with the number 1 is deleted. -/
def deleteFirst : Request where
  bytes := "DELETE /rules/1 HTTP/1.1\x0d\n\x0d\n".toList
  method₀ := []
  path₀ := []
  proto := 0
  allocates := true

instance (s : Policy) (c : PolicyCall) : Decidable (FreshId s c) :=
  match c with
  | .addRule _ => inferInstanceAs (Decidable (maxPolicyRules ≤ s.table.nrRules ∨
      s.nextRuleId.toNat < 2 ^ 31 ∧ s.nextRuleId ∉ s.table.ids))
  | .removeRule _ => inferInstanceAs (Decidable True)
  | .evaluate _ => inferInstanceAs (Decidable True)

/-- A web packet passes between the two requests. -/
theorem posted_rule_lifecycle_web :
    (handleRequest ⟨0, 0, 0⟩ ⟨0, 0, 0, 0, 0⟩ ((restServer 1).run ([] ++ .request ⟨0, 0, 0⟩
      ⟨0, 0, 0, 0, 0⟩ postWeb :: [.packet ⟨1, 2, 3, 80, 6⟩])) deleteFirst).1
      = .json 200 "\x7b\"status\": \"deleted\"\x7d" := by
  have hfresh : (policyEngine 1).Meets FreshId (serverCalls ([] ++ .request ⟨0, 0, 0⟩
      ⟨0, 0, 0, 0, 0⟩ postWeb :: [.packet ⟨1, 2, 3, 80, 6⟩])) :=
    (policyEngine 1).meets_of_meetsFrom (by decide +kernel)
  have hcreated : (handleRequest ⟨0, 0, 0⟩ ⟨0, 0, 0, 0, 0⟩ ((restServer 1).run []) postWeb).1
      = (HttpReply.created 1).response := by
    decide +kernel
  have hdelete : deleteFirst.text
      = "DELETE /rules/".toList ++ ((toString (1 : Int)).toList
        ++ ' ' :: "HTTP/1.1\x0d\n\x0d\n".toList) := by
    decide +kernel
  exact (posted_rule_lifecycle hfresh hcreated (by decide +kernel) hdelete).2.1

end PrismFirewall.DocaFirewall
