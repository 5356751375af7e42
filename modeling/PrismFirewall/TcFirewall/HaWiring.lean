import PrismFirewall.TcFirewall.HaGeneration
import PrismFirewall.TcFirewall.Requests

/-!
# The HA endpoints

`main.py` serves the HA endpoints next to the others.  The manager is made by the
first of them that is called, on its own and with no peer, so it starts active; its
flush callback is `None`.  A demotion calls the callback if there is one.

`App` is the process with everything in it.  No request sets the callback
(`flushCallback_run`), so a demotion leaves the kernel as it was.
-/

namespace PrismFirewall.TcFirewall.Ha

open Lib

/-- `HAState(…)`. -/
def HAState.ofText : String → Option HAState
  | "ACTIVE" => some .ACTIVE
  | "STANDBY" => some .STANDBY
  | "FENCING" => some .FENCING
  | _ => none

/-- An `HAManager` with what its `_flush_callback` does. -/
structure Wired where
  manager : HAManager
  flushCallback : Option (Daemon → Daemon)

/-- The process: the daemon, the module-level `ha_manager`, and the generation
file. -/
structure App where
  daemon : Daemon
  haManager : Option Wired
  genFile : Option String

inductive AppCall
  | rest (c : Call)
  | haStatus
  | haHeartbeat (now : Rat) (generation : Option Int) (role : Option String)
  | haPromote
  | haDemote

inductive AppReply
  | rest (r : Response)
  | ha (r : Reply)
  | valueError

/-- The answer of a call that went through `_demote`. -/
def Reply.isDemotion : Reply → Bool
  | .accepted action => action == "self_demoted"
  | .demoted _ _ => true
  | _ => false

namespace App

/-- `get_ha_manager`. -/
def getHaManager (s : App) : Wired :=
  s.haManager.getD ⟨.new ⟨none, 100, 300, loadGeneration s.genFile⟩, none⟩

def role (s : App) : HAState := s.getHaManager.manager.role

/-- Call a method of the manager.  `_demote` flushes through the callback, and
`promote` writes the generation file. -/
def callHa (s : App) (f : HAManager → Reply × HAManager) : AppReply × App :=
  let h := s.getHaManager
  let r := f h.manager
  (.ha r.1, {
    daemon := if r.1.isDemotion then h.flushCallback.elim s.daemon (· s.daemon) else s.daemon
    haManager := some { h with manager := r.2 }
    genFile := if r.1.isPromotion then some (toString r.2.generation) else s.genFile })

/-- `ha_heartbeat`; a role that is none of the three raises, when the time and the
generation have been noted already. -/
def haHeartbeat (s : App) (now : Rat) (generation : Option Int) (role : Option String) :
    AppReply × App :=
  match HAState.ofText (role.getD "STANDBY") with
  | some r => s.callHa (fun m => m.receiveHeartbeat now (generation.getD 0) r)
  | none => (.valueError, (s.callHa (fun m => (.none, { m with
      lastHeartbeatReceived := now
      peerGeneration := generation.getD 0 }))).2)

def step (s : App) : AppCall → AppReply × App
  | .rest c => (.rest (serve s.daemon c).1, { s with daemon := (serve s.daemon c).2 })
  | .haStatus => s.callHa (fun m => (.none, m))
  | .haHeartbeat now generation role => s.haHeartbeat now generation role
  | .haPromote => s.callHa HAManager.promote
  | .haDemote => s.callHa HAManager.demote

end App

/-- The process after its start, with a generation file that may be there
already. -/
def app (genFile : Option String) : Machine App AppCall AppReply where
  init := ⟨.init, none, genFile⟩
  step := App.step

/-! ### The callback is never set -/

theorem flushCallback_step {s : App} {e : AppCall} (h : s.getHaManager.flushCallback = none) :
    (s.step e).2.getHaManager.flushCallback = none := by
  cases e with
  | rest c => exact h
  | haStatus => exact h
  | haHeartbeat now generation role =>
    rw [App.step, App.haHeartbeat]
    split
    · exact h
    · exact h
  | haPromote => exact h
  | haDemote => exact h

theorem flushCallback_run (genFile : Option String) (l : List AppCall) :
    ((app genFile).run l).getHaManager.flushCallback = none :=
  (app genFile).run_induction (P := fun _ s => s.getHaManager.flushCallback = none) rfl
    (fun _ _ _ h => flushCallback_step h) l

/-! ### A demotion -/

/-- Without a callback no HA request reaches the daemon, and the other requests do
not reach the role. -/
theorem daemon_step {s : App} {e : AppCall} (h : s.getHaManager.flushCallback = none) :
    (s.step e).2.daemon = s.daemon ∨ (s.step e).2.role = s.role := by
  have hcall : ∀ f, (s.callHa f).2.daemon = s.daemon := by
    intro f
    simp only [App.callHa, h, Option.elim_none, ite_self]
  cases e with
  | rest c => exact Or.inr rfl
  | haStatus => exact Or.inl (hcall _)
  | haHeartbeat now generation role =>
    rw [App.step, App.haHeartbeat]
    split
    · exact Or.inl (hcall _)
    · dsimp only
      exact Or.inl (hcall _)
  | haPromote => exact Or.inl (hcall _)
  | haDemote => exact Or.inl (hcall _)

/-- The filter was put on the device by an `add_rule` of the run. -/
def Installed (genFile : Option String) (l : List AppCall) (dev : String) (f : Filter) : Prop :=
  ∃ l₁ c l₂ rule, l = l₁ ++ .rest c :: l₂ ∧ Adds ((app genFile).run l₁).daemon c rule dev f

/-- **When a demoted node holds no rules.**  After any run, at a step from active to
standby, the daemon stays as it is: no filter that `add_rule` installed is left on
a port afterwards if and only if none was there before. -/
theorem demoted_holds_no_rules_iff (genFile : Option String) (l : List AppCall) (e : AppCall)
    (hbefore : ((app genFile).run l).role = .ACTIVE)
    (hafter : ((app genFile).run (l ++ [e])).role = .STANDBY) :
    ((app genFile).run (l ++ [e])).daemon = ((app genFile).run l).daemon ∧
    ((∀ dev f, Installed genFile l dev f →
      f ∉ ((app genFile).run (l ++ [e])).daemon.kernel.filters dev) ↔
    (∀ dev f, Installed genFile l dev f →
      f ∉ ((app genFile).run l).daemon.kernel.filters dev)) := by
  have hdaemon : ((app genFile).run (l ++ [e])).daemon = ((app genFile).run l).daemon := by
    rw [Machine.run_append_singleton] at hafter ⊢
    rcases daemon_step (e := e) (flushCallback_run genFile l) with h | h
    · exact h
    · have hrole : ((app genFile).run l).role = .STANDBY := h.symm.trans hafter
      rw [hbefore] at hrole
      exact absurd hrole (by simp)
  exact ⟨hdaemon, by rw [hdaemon]⟩

/-- A call whose listings show one filter, with the handle `0x1`. -/
def listedCall (request : Request) : AppCall :=
  .rest { sampleCall request "a" firstId with
    replies := fun _ => .exit 0 "filter protocol ip pref 100 flower chain 0 handle 0x1" "" 1 }

/-- A rule is added and deleted again. -/
def ruleRemoved : List AppCall :=
  [.rest (sampleTenant "a"), listedCall (.addRule (sampleRule port80 none)),
    listedCall (.deleteRule firstId.val)]

theorem demoted_holds_no_rules_iff_ruleRemoved :
    ((app none).run ruleRemoved).daemon.kernel = ⟨[], []⟩ ∧
    ((app none).run (ruleRemoved ++ [.haDemote])).daemon = ((app none).run ruleRemoved).daemon ∧
    ((∀ dev f, Installed none ruleRemoved dev f →
      f ∉ ((app none).run (ruleRemoved ++ [.haDemote])).daemon.kernel.filters dev) ↔
    (∀ dev f, Installed none ruleRemoved dev f →
      f ∉ ((app none).run ruleRemoved).daemon.kernel.filters dev)) :=
  ⟨by decide +kernel,
    demoted_holds_no_rules_iff none ruleRemoved .haDemote (by decide +kernel) (by decide +kernel)⟩

/-- Tenant `a` has one rule. -/
def oneRule : List AppCall :=
  [.rest (sampleTenant "a"),
    .rest (sampleCall (.addRule (sampleRule port80 none)) "a" firstId)]

/-- **Rules survive a demotion**: the node goes from active to standby and its
filters stay. -/
theorem rules_survive_demotion :
    ((app none).run oneRule).role = .ACTIVE ∧
    ((app none).run (oneRule ++ [.haDemote])).role = .STANDBY ∧
    ((app none).run (oneRule ++ [.haDemote])).daemon.kernel.filters internetPort
      = [forwardFilter (sampleRule port80 none) 1] ∧
    ¬ ∀ dev f, Installed none oneRule dev f →
      f ∉ ((app none).run (oneRule ++ [.haDemote])).daemon.kernel.filters dev := by
  have hleft : ((app none).run (oneRule ++ [.haDemote])).daemon.kernel.filters internetPort
      = [forwardFilter (sampleRule port80 none) 1] := by decide +kernel
  refine ⟨by decide +kernel, by decide +kernel, hleft, fun h => ?_⟩
  refine h internetPort (forwardFilter (sampleRule port80 none) 1) ?_ (by rw [hleft]; simp)
  exact ⟨[.rest (sampleTenant "a")], _, [], newRule firstId "a" (sampleRule port80 none)
    ("", "", false), rfl, by decide +kernel⟩

end PrismFirewall.TcFirewall.Ha
