import PrismFirewall.Admin.Calls

/-!
# Complete calls on the admin store

The calls of `store.rs` that change it, each taken as a whole.  The identifiers a
call draws are arguments, and nothing is assumed about them; a push draws several and
takes them from a sequence.

In `Calls` a push is cut into its sections.  A push that has the pool for itself does
there what it does here (`applyDesiredState_alone`).
-/

namespace PrismFirewall.Admin

open PrismFirewall.Lib (Dict Machine)

structure CreatePolicyRequest where
  name : String
  priority : UInt32
  defaultAction : RuleAction

def CreatePolicyRequest.policy (req : CreatePolicyRequest) (uuid firewallId : String)
    (generation : UInt64) : Policy :=
  ⟨uuid, firewallId, req.name, req.priority, req.defaultAction, generation⟩

def CreateRuleRequest.rule (req : CreateRuleRequest) (uuid policyId : String) : Rule :=
  ⟨uuid, policyId, req.priority, req.srcCidr, req.dstCidr, req.srcPortRange, req.dstPortRange,
    req.protocol, req.action, req.offloadEligible⟩

namespace AppStore

def createFirewall (s : AppStore) (req : CreateFirewallRequest) (uuid now : String) :
    Firewall × AppStore :=
  let (gen, s) := s.nextGeneration
  let fw := req.firewall uuid now gen
  (fw, s.insertFirewall fw)

def updateFirewall (s : AppStore) (id : String) (req : UpdateFirewallRequest) (now : String) :
    Except StoreError Firewall × AppStore :=
  match s.checkGeneration id req.generation with
  | .error e => (.error e, s)
  | .ok fw =>
    let (gen, s) := s.nextGeneration
    let fw := { req.setFields fw with generation := gen, updatedAt := now }
    (.ok fw, s.putFirewall id fw)

def deleteFirewall (s : AppStore) (id : String) : Except StoreError Firewall × AppStore :=
  match s.firewalls.get? id with
  | none => (.error (.NotFound ("firewall " ++ id ++ " not found")), s)
  | some fw => (.ok fw, { s with firewalls := s.firewalls.erase id })

def createPolicy (s : AppStore) (firewallId : String) (req : CreatePolicyRequest) (uuid : String) :
    Except StoreError Policy × AppStore :=
  if firewallId ∉ s.firewalls then
    (.error (.NotFound ("firewall " ++ firewallId ++ " not found")), s)
  else
    let (gen, s) := s.nextGeneration
    let policy := req.policy uuid firewallId gen
    (.ok policy, { s with policies := s.policies.insert policy.id policy })

def createRule (s : AppStore) (policyId : String) (req : CreateRuleRequest) (uuid : String) :
    Except StoreError Rule × AppStore :=
  if policyId ∉ s.policies then
    (.error (.NotFound ("policy " ++ policyId ++ " not found")), s)
  else
    let rule := req.rule uuid policyId
    (.ok rule, { s with rules := s.rules.insert rule.id rule })

def deleteRule (s : AppStore) (id : String) : Except StoreError Rule × AppStore :=
  match s.rules.get? id with
  | none => (.error (.NotFound ("rule " ++ id ++ " not found")), s)
  | some rule => (.ok rule, { s with rules := s.rules.erase id })

/-- The inner loop of a push, from the `n`-th identifier on. -/
def insertRules (uuids : Nat → String) (policyId : String) :
    Nat → List CreateRuleRequest → AppStore → AppStore
  | _, [], s => s
  | n, req :: reqs, s =>
    insertRules uuids policyId (n + 1) reqs (s.insertRule (uuids n) policyId req)

/-- The outer loop of a push. -/
def insertPolicies (uuids : Nat → String) (firewallId : String) :
    Nat → List DesiredPolicy → AppStore → AppStore
  | _, [], s => s
  | n, desired :: todo, s =>
    let (gen, s) := s.nextGeneration
    let s := s.insertPolicy (uuids n) firewallId gen desired
    let s := insertRules uuids (uuids n) (n + 1) desired.rules s
    insertPolicies uuids firewallId (n + 1 + desired.rules.length) todo s

def applyDesiredState (s : AppStore) (firewallId : String) (req : DesiredStateRequest)
    (uuids : Nat → String) (now : String) : Except StoreError UInt64 × AppStore :=
  match s.checkGeneration firewallId req.expectedGeneration with
  | .error e => (.error e, s)
  | .ok _ =>
    let policyIds := s.policyIds firewallId
    let s := (s.retainRules policyIds).retainPolicies firewallId
    let s := insertPolicies uuids firewallId 0 req.policies s
    let (newGen, s) := s.nextGeneration
    (.ok newGen, s.writeGeneration firewallId newGen now)

end AppStore

/-! ### The store as a machine -/

inductive Op
  | createFirewall (req : CreateFirewallRequest) (uuid now : String)
  | updateFirewall (id : String) (req : UpdateFirewallRequest) (now : String)
  | deleteFirewall (id : String)
  | createPolicy (firewallId : String) (req : CreatePolicyRequest) (uuid : String)
  | createRule (policyId : String) (req : CreateRuleRequest) (uuid : String)
  | deleteRule (id : String)
  | applyDesiredState (firewallId : String) (req : DesiredStateRequest) (uuids : Nat → String)
      (now : String)

inductive Reply
  | firewall (r : Except StoreError Firewall)
  | policy (r : Except StoreError Policy)
  | rule (r : Except StoreError Rule)
  | generation (r : Except StoreError UInt64)

def AppStore.apply (s : AppStore) : Op → Reply × AppStore
  | .createFirewall req uuid now =>
    let (fw, s) := s.createFirewall req uuid now
    (.firewall (.ok fw), s)
  | .updateFirewall id req now =>
    let (r, s) := s.updateFirewall id req now
    (.firewall r, s)
  | .deleteFirewall id =>
    let (r, s) := s.deleteFirewall id
    (.firewall r, s)
  | .createPolicy firewallId req uuid =>
    let (r, s) := s.createPolicy firewallId req uuid
    (.policy r, s)
  | .createRule policyId req uuid =>
    let (r, s) := s.createRule policyId req uuid
    (.rule r, s)
  | .deleteRule id =>
    let (r, s) := s.deleteRule id
    (.rule r, s)
  | .applyDesiredState firewallId req uuids now =>
    let (r, s) := s.applyDesiredState firewallId req uuids now
    (.generation r, s)

def admin : Machine AppStore Op Reply where
  init := AppStore.new
  step := AppStore.apply

/-! ### A call that has the pool for itself -/

section Alone

variable {ι : Type*} [DecidableEq ι]

theorem Pool.advance_advance (p : Pool ι) (i : ι) (s s' : AppStore) (c c' : Call) :
    (p.advance i s c).advance i s' c' = p.advance i s' c' := by
  simp only [Pool.advance, Function.update_idem]

/-- Turns of call `i` alone lead from one place of it to another. -/
def Pool.Leads (p : Pool ι) (i : ι) (s : AppStore) (c : Call) (s' : AppStore) (c' : Call) : Prop :=
  ∃ turns : List (Turn ι), (∀ turn ∈ turns, turn.call = i) ∧
    turns.foldl Pool.step (p.advance i s c) = p.advance i s' c'

namespace Pool.Leads

variable {p : Pool ι} {i : ι} {s s' s'' : AppStore} {c c' c'' : Call}

theorem refl : p.Leads i s c s c := ⟨[], by simp, rfl⟩

theorem trans (h : p.Leads i s c s' c') (h' : p.Leads i s' c' s'' c'') :
    p.Leads i s c s'' c'' := by
  obtain ⟨turns, hi, he⟩ := h
  obtain ⟨turns', hi', he'⟩ := h'
  refine ⟨turns ++ turns', fun turn hturn => ?_, by rw [List.foldl_append, he, he']⟩
  rcases List.mem_append.mp hturn with hturn | hturn
  · exact hi turn hturn
  · exact hi' turn hturn

theorem one (uuid now : String)
    (h : (p.advance i s c).step ⟨i, uuid, now⟩ = (p.advance i s c).advance i s' c') :
    p.Leads i s c s' c' := by
  refine ⟨[⟨i, uuid, now⟩], by simp, ?_⟩
  rw [List.foldl_cons, List.foldl_nil, h, advance_advance]

end Pool.Leads

variable {p : Pool ι} {i : ι} {s : AppStore}

theorem step_applyDesiredState (firewallId : String) (req : DesiredStateRequest) (pc : ApplyPc)
    (turn : Turn ι) (hturn : turn.call = i) :
    (p.advance i s (.applyDesiredState firewallId req pc)).step turn
      = (p.advance i s (.applyDesiredState firewallId req pc)).stepApply turn firewallId req
          pc := by
  simp [Pool.step, Pool.advance, hturn]

theorem leads_insertRules (firewallId : String) (req : DesiredStateRequest) (uuids : Nat → String)
    (policyId : String) (todo : List DesiredPolicy) (rules : List CreateRuleRequest) :
    ∀ n s, p.Leads i s (.applyDesiredState firewallId req (.insertRules policyId rules todo))
      (AppStore.insertRules uuids policyId n rules s)
      (.applyDesiredState firewallId req (.create todo)) := by
  induction rules with
  | nil =>
    intro n s
    exact .one "" "" (step_applyDesiredState firewallId req _ _ rfl)
  | cons rule rules ih =>
    intro n s
    exact (Pool.Leads.one (uuids n) "" (step_applyDesiredState firewallId req _ _ rfl)).trans
      (ih (n + 1) (s.insertRule (uuids n) policyId rule))

theorem leads_insertPolicies (firewallId : String) (req : DesiredStateRequest)
    (uuids : Nat → String) (todo : List DesiredPolicy) :
    ∀ n s, p.Leads i s (.applyDesiredState firewallId req (.create todo))
      (AppStore.insertPolicies uuids firewallId n todo s)
      (.applyDesiredState firewallId req (.create [])) := by
  induction todo with
  | nil => exact fun n s => .refl
  | cons desired todo ih =>
    intro n s
    have hdraw : p.Leads i s (.applyDesiredState firewallId req (.create (desired :: todo)))
        s.nextGeneration.2
        (.applyDesiredState firewallId req (.insertPolicy s.nextGeneration.1 desired todo)) :=
      .one "" "" (step_applyDesiredState firewallId req _ _ rfl)
    have hpolicy : p.Leads i s.nextGeneration.2
        (.applyDesiredState firewallId req (.insertPolicy s.nextGeneration.1 desired todo))
        (s.nextGeneration.2.insertPolicy (uuids n) firewallId s.nextGeneration.1 desired)
        (.applyDesiredState firewallId req (.insertRules (uuids n) desired.rules todo)) :=
      .one (uuids n) "" (step_applyDesiredState firewallId req _ _ rfl)
    exact (hdraw.trans hpolicy).trans
      ((leads_insertRules firewallId req uuids (uuids n) todo desired.rules (n + 1) _).trans
        (ih (n + 1 + desired.rules.length) _))

/-- **A push on its own** does in its sections what the complete call does. -/
theorem applyDesiredState_alone (hw : p.writer = none) (firewallId : String)
    (req : DesiredStateRequest) (uuids : Nat → String) (now : String) (s : AppStore) :
    p.Leads i s (.applyDesiredState firewallId req .start)
      (s.applyDesiredState firewallId req uuids now).2
      (.applyDesiredState firewallId req
        (.returned (s.applyDesiredState firewallId req uuids now).1)) := by
  have hfree : ∀ c, ((p.advance i s c).writer.isSome = true) = False := by
    intro c
    simp [Pool.advance, hw]
  unfold AppStore.applyDesiredState
  cases hc : s.checkGeneration firewallId req.expectedGeneration with
  | error e =>
    refine .one "" "" ((step_applyDesiredState firewallId req _ _ rfl).trans ?_)
    simp only [Pool.stepApply, hfree, if_false]
    rw [show (p.advance i s _).store = s from rfl, hc]
  | ok fw =>
    have hcheck : p.Leads i s (.applyDesiredState firewallId req .start) s
        (.applyDesiredState firewallId req .collect) := by
      refine .one "" "" ((step_applyDesiredState firewallId req _ _ rfl).trans ?_)
      simp only [Pool.stepApply, hfree, if_false]
      rw [show (p.advance i s _).store = s from rfl, hc]
    have hretain : p.Leads i s (.applyDesiredState firewallId req .collect)
        ((s.retainRules (s.policyIds firewallId)).retainPolicies firewallId)
        (.applyDesiredState firewallId req (.create req.policies)) :=
      ((Pool.Leads.one "" "" (step_applyDesiredState firewallId req _ _ rfl)).trans
        (.one "" "" (step_applyDesiredState firewallId req _ _ rfl))).trans
        (.one "" "" (step_applyDesiredState firewallId req _ _ rfl))
    have hpolicies := leads_insertPolicies (p := p) (i := i) firewallId req uuids req.policies 0
      ((s.retainRules (s.policyIds firewallId)).retainPolicies firewallId)
    refine (hcheck.trans (hretain.trans hpolicies)).trans
      ((Pool.Leads.one "" "" (step_applyDesiredState firewallId req _ _ rfl)).trans
        (.one "" now ((step_applyDesiredState firewallId req _ _ rfl).trans ?_)))
    simp only [Pool.stepApply]
    rw [if_neg (by simp [Pool.advance, hw])]
    rfl

end Alone

end PrismFirewall.Admin
