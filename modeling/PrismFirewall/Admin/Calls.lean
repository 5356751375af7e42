import Mathlib.Logic.Function.Basic
import PrismFirewall.Lib.Run
import PrismFirewall.Admin.Store

/-!
# Calls on the admin store

Calls on the store run at the same time.  A call is its request and the place it
has reached; one turn of a call is one section under a lock, or one operation on
the counter.  `update_firewall` draws its generation while it holds the lock on
the firewalls for writing, so that lock has a holder; every other section begins
and ends within a turn, and a turn that needs the firewalls while another call
holds them changes nothing.

`pool` is the machine whose inputs are the turns, in any order.
-/

namespace PrismFirewall.Admin

open PrismFirewall.Lib (Dict Machine)

inductive CreatePc
  | start
  | insert (generation : UInt64)
  | returned (fw : Firewall)

inductive UpdatePc
  | start
  | draw (fw : Firewall)
  | write (fw : Firewall) (generation : UInt64)
  | returned (r : Except StoreError Firewall)

inductive ApplyPc
  | start
  | collect
  | retainRules (policyIds : List String)
  | retainPolicies
  | create (todo : List DesiredPolicy)
  | insertPolicy (generation : UInt64) (desired : DesiredPolicy) (todo : List DesiredPolicy)
  | insertRules (policyId : String) (rules : List CreateRuleRequest) (todo : List DesiredPolicy)
  | write (newGen : UInt64)
  | returned (r : Except StoreError UInt64)

inductive Request
  | createFirewall (req : CreateFirewallRequest)
  | updateFirewall (id : String) (req : UpdateFirewallRequest)
  | applyDesiredState (firewallId : String) (req : DesiredStateRequest)

inductive Call
  | createFirewall (req : CreateFirewallRequest) (pc : CreatePc)
  | updateFirewall (id : String) (req : UpdateFirewallRequest) (pc : UpdatePc)
  | applyDesiredState (firewallId : String) (req : DesiredStateRequest) (pc : ApplyPc)

def Request.start : Request → Call
  | .createFirewall req => .createFirewall req .start
  | .updateFirewall id req => .updateFirewall id req .start
  | .applyDesiredState firewallId req => .applyDesiredState firewallId req .start

/-- A turn of a call, with the identifier and the time it would draw. -/
structure Turn (ι : Type*) where
  call : ι
  uuid : String
  now : String

/-- The store, the call that holds the firewalls for writing, and the calls. -/
structure Pool (ι : Type*) where
  store : AppStore
  writer : Option ι
  calls : ι → Call

namespace Pool

variable {ι : Type*} [DecidableEq ι]

/-- A call goes to its next place, and leaves the store as given. -/
def advance (p : Pool ι) (i : ι) (store : AppStore) (c : Call) : Pool ι :=
  ⟨store, p.writer, Function.update p.calls i c⟩

def stepCreate (p : Pool ι) (turn : Turn ι) (req : CreateFirewallRequest) : CreatePc → Pool ι
  | .start =>
    let (gen, s) := p.store.nextGeneration
    p.advance turn.call s (.createFirewall req (.insert gen))
  | .insert gen =>
    if p.writer.isSome then p
    else
      let fw := req.firewall turn.uuid turn.now gen
      p.advance turn.call (p.store.insertFirewall fw) (.createFirewall req (.returned fw))
  | .returned _ => p

def stepUpdate (p : Pool ι) (turn : Turn ι) (id : String) (req : UpdateFirewallRequest) :
    UpdatePc → Pool ι
  | .start =>
    if p.writer.isSome then p
    else
      match p.store.checkGeneration id req.generation with
      | .error e => p.advance turn.call p.store (.updateFirewall id req (.returned (.error e)))
      | .ok fw =>
        -- the lock is kept
        let fw := req.setFields fw
        { p.advance turn.call (p.store.putFirewall id fw) (.updateFirewall id req (.draw fw)) with
          writer := some turn.call }
  | .draw fw =>
    let (gen, s) := p.store.nextGeneration
    p.advance turn.call s (.updateFirewall id req (.write fw gen))
  | .write fw gen =>
    let fw := { fw with generation := gen, updatedAt := turn.now }
    { p.advance turn.call (p.store.putFirewall id fw)
        (.updateFirewall id req (.returned (.ok fw))) with
      writer := none }
  | .returned _ => p

def stepApply (p : Pool ι) (turn : Turn ι) (firewallId : String) (req : DesiredStateRequest) :
    ApplyPc → Pool ι :=
  let goto := fun store pc => p.advance turn.call store (.applyDesiredState firewallId req pc)
  fun
  | .start =>
    if p.writer.isSome then p
    else
      match p.store.checkGeneration firewallId req.expectedGeneration with
      | .error e => goto p.store (.returned (.error e))
      | .ok _ => goto p.store .collect
  | .collect => goto p.store (.retainRules (p.store.policyIds firewallId))
  | .retainRules policyIds => goto (p.store.retainRules policyIds) .retainPolicies
  | .retainPolicies => goto (p.store.retainPolicies firewallId) (.create req.policies)
  | .create [] =>
    let (newGen, s) := p.store.nextGeneration
    goto s (.write newGen)
  | .create (desired :: todo) =>
    let (gen, s) := p.store.nextGeneration
    goto s (.insertPolicy gen desired todo)
  | .insertPolicy gen desired todo =>
    goto (p.store.insertPolicy turn.uuid firewallId gen desired)
      (.insertRules turn.uuid desired.rules todo)
  -- no section of the source: the inner loop is over
  | .insertRules _ [] todo => goto p.store (.create todo)
  | .insertRules policyId (rule :: rules) todo =>
    goto (p.store.insertRule turn.uuid policyId rule) (.insertRules policyId rules todo)
  | .write newGen =>
    if p.writer.isSome then p
    else goto (p.store.writeGeneration firewallId newGen turn.now) (.returned (.ok newGen))
  | .returned _ => p

def step (p : Pool ι) (turn : Turn ι) : Pool ι :=
  match p.calls turn.call with
  | .createFirewall req pc => p.stepCreate turn req pc
  | .updateFirewall id req pc => p.stepUpdate turn id req pc
  | .applyDesiredState firewallId req pc => p.stepApply turn firewallId req pc

end Pool

/-- The calls of `requests`, all of them about to start on an empty store. -/
def pool {ι : Type*} [DecidableEq ι] (requests : ι → Request) : Machine (Pool ι) (Turn ι) Unit where
  init := ⟨AppStore.new, none, fun i => (requests i).start⟩
  step p turn := ((), p.step turn)

end PrismFirewall.Admin
