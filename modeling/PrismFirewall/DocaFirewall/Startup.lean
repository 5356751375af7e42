import PrismFirewall.DocaFirewall.Policy
import PrismFirewall.Lib.Scope

/-!
# Start and stop of the DOCA firewall

`main` and `fw_flow_init`: a long row of calls that can fail, each with a `goto` to the label
from which what has been set up is taken down again.  Whether a call succeeds, and whether a
signal comes in before it returns, is said by the script of the outside; a script that ends
is a daemon that has come so far.

A label and the code below it is the end of the function that holds the calls above it, so
each of `withArgp`, `withDpdk`, `withPorts` and `withFlow` is what `main` does between taking
a resource and giving it back.

* `released_in_reverse`: however the calls turn out, each resource is given back once, the
  last one first, and nothing is used that is not there.
* `stops_iff_signal`: from `ct_offload_init` on the daemon runs until a signal comes; a signal
  that came before is forgotten.
-/

namespace PrismFirewall.DocaFirewall

open Lib

/-! ### The outside -/

/-- What is given back in the reverse order. -/
inductive Resource
  | argp
  | dpdk
  | queuesAndPorts
  | docaFlow
  | docaFlowCt
  | port (i : Nat)
  | pipeCfg
  | restThread
  deriving DecidableEq

/-- What `main` does, as far as it can be seen from outside. -/
inductive StartupEvent
  | act (a : Act Resource)
  | initDevs
  | destroyDevs
  | policyInit
  | policyDestroy
  | signal
  | ctOffloadInit
  /-- A round of `ct_offload_main_loop`. -/
  | round
  deriving DecidableEq

/-- How a call turns out: it succeeds or fails, and a signal comes in before it returns. -/
structure Outside where
  ok : Bool
  signal : Bool

structure Startup where
  script : List Outside
  log : List StartupEvent
  /-- The handlers of SIGINT and SIGTERM are installed. -/
  handling : Bool
  /-- `g_ct_ctx.running`. -/
  running : Bool

/-- The run is not further, or a signal ended it that is not handled. -/
inductive Ending
  | pending
  | killed
  deriving DecidableEq

abbrev StartupM := EStateM Ending Startup

def Startup.start (script : List Outside) : Startup := ⟨script, [], false, false⟩

def StartupEvent.act? : StartupEvent → Option (Act Resource)
  | .act a => some a
  | _ => none

/-- What was done with the resources. -/
def Startup.acts (w : Startup) : List (Act Resource) := w.log.filterMap StartupEvent.act?

def event (e : StartupEvent) : StartupM PUnit :=
  modify fun w => { w with log := w.log ++ [e] }

/-- `signal_handler`. -/
def signalHandler : StartupM PUnit := do
  if (← get).handling then
    event .signal
    modify fun w => { w with running := false }
  else throw .killed

/-- A call that can fail. -/
def outside : StartupM Bool := do
  match (← get).script with
  | [] => throw .pending
  | o :: script =>
    modify fun w => { w with script := script }
    if o.signal then signalHandler
    return o.ok

/-- A call that takes a resource if it succeeds. -/
def acquire (r : Resource) : StartupM Bool := do
  if ← outside then
    event (.act (.acquire r))
    return true
  else return false

def release (r : Resource) : StartupM PUnit := event (.act (.release r))

/-- A call that can fail, with a resource that was taken before. -/
def useOf (r : Resource) : StartupM Bool := do
  event (.act (.use r))
  outside

/-! ### `flow_init.c` -/

def maxPorts : Nat := 8

/-- `struct fw_flow_ctx`: the ports that are started, a null pointer as `false`. -/
structure FwFlowCtx where
  nbPorts : Nat
  ports : Vector Bool maxPorts

/-- The calls that set up a pipe configuration, each with a `goto` to where it is destroyed. -/
def setPipeCfg : Nat → StartupM Bool
  | 0 => return true
  | n + 1 => do
    if ← useOf .pipeCfg then setPipeCfg n
    else return false

/-- The entries of a pipe. -/
def addEntries : Nat → StartupM Bool
  | 0 => return true
  | n + 1 => do
    if ← useOf (.port 0) then addEntries n
    else return false

/-- The shape of the functions that create a pipe of the switch port: a configuration with
`nrSet` settings and the creation itself, and then `nrEntries` entries. -/
def createPipe (nrSet nrEntries : Nat) : StartupM Bool := do
  if ← useOf (.port 0) then
    event (.act (.acquire .pipeCfg))
    -- the settings and `doca_flow_pipe_create`
    let created ← setPipeCfg (nrSet + 1)
    release .pipeCfg
    if created then addEntries nrEntries
    else return false
  else return false

/-- The entry, and `doca_flow_entries_process`. -/
def createRssPipe : StartupM Bool := createPipe 2 2

def createPostCtPipe : StartupM Bool := createPipe 3 2

/-- The pipe has no entries. -/
def createCtPipe : StartupM Bool := createPipe 3 0

/-- The entries for TCP and UDP, and `doca_flow_entries_process`. -/
def createRootPipe : StartupM Bool := createPipe 1 3

/-- `fw_flow_destroy`: the ports in reverse order, the switch port last. -/
def fwFlowDestroy (ctx : FwFlowCtx) : StartupM PUnit := do
  (List.range ctx.nbPorts).reverse.forM fun i =>
    if cell ctx.ports i then release (.port i) else return
  release .docaFlowCt
  release .docaFlow

/-- The switch port and the representors. -/
def nbPortsOf (nbReps : Int) : Nat := 1 + (if nbReps > 0 then nbReps.toNat else 0)

/-- What `init_doca_flow_switch_ports` leaves in a context that was cleared before. -/
def FwFlowCtx.started (nbPorts : Nat) : FwFlowCtx where
  nbPorts := nbPorts
  ports := Vector.ofFn fun i => decide (i.val < nbPorts)

/-- `init_doca_flow_switch_ports`: it starts all ports or none. -/
def initSwitchPorts (nbPorts : Nat) : StartupM Bool := do
  if ← outside then
    (List.range nbPorts).forM fun i => event (.act (.acquire (.port i)))
    return true
  else return false

/-- The pipes of the switch port, one after the other, and the entries that are pending. -/
def createPipes : StartupM Bool := do
  if ← createRssPipe then
    if ← createPostCtPipe then
      if ← createCtPipe then
        if ← createRootPipe then useOf (.port 0)
        else return false
      else return false
    else return false
  else return false

/-- `fw_flow_init`. -/
def fwFlowInit (nbReps : Int) : StartupM (Option FwFlowCtx) := do
  if ← acquire .docaFlow then
    if ← acquire .docaFlowCt then
      if ← initSwitchPorts (nbPortsOf nbReps) then
        let ctx := FwFlowCtx.started (nbPortsOf nbReps)
        if ← createPipes then return some ctx
        else
          fwFlowDestroy ctx
          return none
      else
        release .docaFlowCt
        release .docaFlow
        return none
    else
      release .docaFlow
      return none
  else return none

/-! ### `main.c` -/

inductive ExitStatus
  | success
  | failure
  deriving DecidableEq

/-- `ct_offload_init`: whatever `running` was before, it is set. -/
def ctOffloadInit : StartupM PUnit := do
  event .ctOffloadInit
  modify fun w => { w with running := true }

/-- `ct_offload_main_loop`, for as many rounds as there are. -/
def rounds : Nat → StartupM PUnit
  | 0 => throw .pending
  | n + 1 => do
    if (← get).running then
      event .round
      let _ ← useOf (.port 0)
      rounds n
    else return

def ctOffloadMainLoop : StartupM PUnit := do
  rounds ((← get).script.length + 1)

/-- From `ct_offload_init` to the label `cleanup_flow`. -/
def withFlow : StartupM ExitStatus := do
  ctOffloadInit
  if ← acquire .restThread then
    ctOffloadMainLoop
    release .restThread
    return .success
  else return .failure

/-- To the label `dpdk_ports_queues_cleanup`. -/
def withPorts (nbReps : Int) : StartupM ExitStatus := do
  event .policyInit
  match ← fwFlowInit nbReps with
  | some ctx =>
    let status ← withFlow
    fwFlowDestroy ctx
    return status
  | none => return .failure

/-- To the label `dpdk_cleanup`. -/
def withDpdk (nbReps : Int) : StartupM ExitStatus := do
  if ← outside then
    event .initDevs
    if ← acquire .queuesAndPorts then
      let status ← withPorts nbReps
      release .queuesAndPorts
      return status
    else return .failure
  else return .failure

/-- To the label `argp_cleanup`. -/
def withArgp (nbReps : Int) : StartupM ExitStatus := do
  -- `flow_ct_register_params`
  if ← outside then
    -- `doca_argp_start`, which brings up DPDK
    if ← acquire .dpdk then
      let status ← withDpdk nbReps
      release .dpdk
      return status
    else return .failure
  else return .failure

/-- The three calls that set up logging. -/
def setupLogging : StartupM Bool := do
  if ← outside then
    if ← outside then outside
    else return false
  else return false

/-- To the label `sample_exit`. -/
def withLogging (nbReps : Int) : StartupM ExitStatus := do
  if ← setupLogging then
    modify fun w => { w with handling := true }
    if ← acquire .argp then
      let status ← withArgp nbReps
      release .argp
      return status
    else return .failure
  else return .failure

def main (nbReps : Int) : StartupM ExitStatus := do
  let status ← withLogging nbReps
  event .destroyDevs
  event .policyDestroy
  return status

/-- **What a call that can fail does**: the script is at its end, or it says whether a signal
comes in. -/
theorem wp_outside {w : Startup} {Q : Bool → Startup → Prop} {E : Ending → Startup → Prop}
    (hpending : w.script = [] → E .pending w)
    (hquiet : ∀ o script, w.script = o :: script → Q o.ok { w with script := script })
    (hsignal : ∀ o script, w.script = o :: script → w.handling = true →
      Q o.ok { w with script := script, log := w.log ++ [.signal], running := false })
    (hkilled : ∀ o script, w.script = o :: script → w.handling = false →
      E .killed { w with script := script }) : wp outside w Q E := by
  rw [outside, wp_bind, wp_get]
  cases hscript : w.script with
  | nil => exact hpending hscript
  | cons o script =>
    dsimp only
    rw [wp_bind, wp_modify]
    cases o.signal with
    | false => exact hquiet o script hscript
    | true =>
      simp only [if_true, wp_bind, signalHandler, wp_get]
      by_cases hhandling : w.handling = true
      · rw [if_pos hhandling]
        exact hsignal o script hscript hhandling
      · rw [if_neg hhandling]
        exact hkilled o script hscript (Bool.eq_false_iff.mpr hhandling)

/-! ### What is held -/

section Held

variable {s t : List Resource}

theorem leaves_event {e : StartupEvent} (he : e.act? = none) :
    Leaves Startup.acts s (event e) (fun _ => s) := by
  apply Leaves.of_acts_eq
  intro w
  show Startup.acts { w with log := w.log ++ [e] } = w.acts
  simp [Startup.acts, he]

theorem leaves_act {a : Act Resource} (ha : a.after s = some t) :
    Leaves Startup.acts s (event (.act a)) (fun _ => t) := by
  intro w hw
  show held (Startup.acts { w with log := w.log ++ [.act a] }) [] = some t
  have hacts : Startup.acts { w with log := w.log ++ [.act a] } = w.acts ++ [a] := by
    simp [Startup.acts, StartupEvent.act?]
  rw [hacts, held_append_singleton hw, ha]

theorem leaves_outside : Leaves Startup.acts s outside (fun _ => s) := by
  intro w hw
  apply wp_outside
  · intro _
    exact ⟨s, hw⟩
  · intro o script _
    exact hw
  · intro o script _ _
    have hacts : Startup.acts
        { w with script := script, log := w.log ++ [.signal], running := false } = w.acts := by
      simp [Startup.acts, StartupEvent.act?]
    rw [hacts]
    exact hw
  · intro o script _ _
    exact ⟨s, hw⟩

theorem leaves_acquire {r : Resource} (hr : r ∉ s) :
    Leaves Startup.acts s (acquire r) (fun ok => if ok then r :: s else s) := by
  refine leaves_outside.guarded rfl ?_
  refine (leaves_act (Act.after_acquire hr)).bind (fun _ => Leaves.pure rfl)

theorem leaves_release {r : Resource} :
    Leaves Startup.acts (r :: s) (release r) (fun _ => s) :=
  leaves_act (Act.after_release r s)

theorem leaves_useOf {r : Resource} (hr : r ∈ s) :
    Leaves Startup.acts s (useOf r) (fun _ => s) :=
  (leaves_act (Act.after_use hr)).bind (fun _ => leaves_outside)

theorem leaves_setPipeCfg (hr : .pipeCfg ∈ s) :
    ∀ n, Leaves Startup.acts s (setPipeCfg n) (fun _ => s) := by
  intro n
  induction n with
  | zero => exact Leaves.pure rfl
  | succ n ih => exact (leaves_useOf hr).guarded rfl ih

theorem leaves_addEntries (hr : .port 0 ∈ s) :
    ∀ n, Leaves Startup.acts s (addEntries n) (fun _ => s) := by
  intro n
  induction n with
  | zero => exact Leaves.pure rfl
  | succ n ih => exact (leaves_useOf hr).guarded rfl ih

/-- The configuration of a pipe is destroyed whether the pipe was created or not. -/
theorem leaves_createPipe (hport : .port 0 ∈ s) (hcfg : .pipeCfg ∉ s) (nrSet nrEntries : Nat) :
    Leaves Startup.acts s (createPipe nrSet nrEntries) (fun _ => s) := by
  refine (leaves_useOf hport).guarded rfl ?_
  refine (leaves_act (Act.after_acquire hcfg)).bind (fun _ => ?_)
  refine (leaves_setPipeCfg List.mem_cons_self _).bind (fun created => ?_)
  refine leaves_release.bind (fun _ => ?_)
  cases created with
  | true => exact leaves_addEntries hport nrEntries
  | false => exact Leaves.pure rfl

theorem leaves_createPipes (hport : .port 0 ∈ s) (hcfg : .pipeCfg ∉ s) :
    Leaves Startup.acts s createPipes (fun _ => s) := by
  refine (leaves_createPipe hport hcfg _ _).guarded rfl ?_
  refine (leaves_createPipe hport hcfg _ _).guarded rfl ?_
  refine (leaves_createPipe hport hcfg _ _).guarded rfl ?_
  refine (leaves_createPipe hport hcfg _ _).guarded rfl ?_
  exact leaves_useOf hport

/-- What a context stands for: its ports, and the library below them. -/
def FwFlowCtx.held (ctx : FwFlowCtx) : List Resource :=
  (((List.range ctx.nbPorts).filter (cell ctx.ports)).reverse.map Resource.port)
    ++ [.docaFlowCt, .docaFlow]

/-- The ports that are not stopped yet are held. -/
theorem leaves_fwFlowDestroy (ctx : FwFlowCtx) :
    Leaves Startup.acts (ctx.held ++ s) (fwFlowDestroy ctx) (fun _ => s) := by
  let ports := (List.range ctx.nbPorts).reverse
  let rest := .docaFlowCt :: .docaFlow :: s
  have hstop : Leaves Startup.acts (ctx.held ++ s)
      (ports.forM fun i => if cell ctx.ports i then release (.port i) else return)
      (fun _ => rest) := by
    have hheld : ((ports.drop ports.length).filter (cell ctx.ports)).map Resource.port ++ rest
        = rest := by
      rw [List.drop_length]
      rfl
    rw [← hheld]
    apply Leaves.forM (g := fun done =>
      ((ports.drop done.length).filter (cell ctx.ports)).map Resource.port ++ rest)
    · intro done i remaining e
      have hdrop : ports.drop done.length = i :: remaining := by rw [e, List.drop_left]
      have hnext : ports.drop (done ++ [i]).length = remaining := by
        rw [e, List.append_cons done i remaining, List.drop_left]
      simp only [hdrop, hnext, List.filter_cons]
      cases cell ctx.ports i with
      | true => exact leaves_release
      | false => exact Leaves.pure rfl
    · simp [FwFlowCtx.held, ports, rest, List.filter_reverse]
  refine hstop.bind (fun _ => ?_)
  exact leaves_release.bind (fun _ => leaves_release)

/-- The ports of a context that was filled are those that were started. -/
theorem held_started {nbPorts : Nat} (hn : nbPorts ≤ maxPorts) :
    (FwFlowCtx.started nbPorts).held
      = (List.range nbPorts).reverse.map Resource.port ++ [.docaFlowCt, .docaFlow] := by
  have hall : (List.range nbPorts).filter (cell (FwFlowCtx.started nbPorts).ports)
      = List.range nbPorts := by
    rw [List.filter_eq_self]
    intro i hi
    have hlt := List.mem_range.mp hi
    have hmax : i < maxPorts := Nat.lt_of_lt_of_le hlt hn
    simp [cell, FwFlowCtx.started, hlt, hmax]
  rw [FwFlowCtx.held, show (FwFlowCtx.started nbPorts).nbPorts = nbPorts from rfl, hall]

theorem leaves_initSwitchPorts {nbPorts : Nat} (hn : nbPorts ≤ maxPorts)
    (hs : ∀ i, .port i ∉ s) :
    Leaves Startup.acts (.docaFlowCt :: .docaFlow :: s) (initSwitchPorts nbPorts)
      (fun ok => if ok then (FwFlowCtx.started nbPorts).held ++ s
        else .docaFlowCt :: .docaFlow :: s) := by
  refine leaves_outside.guarded rfl ?_
  have hstart : Leaves Startup.acts (.docaFlowCt :: .docaFlow :: s)
      ((List.range nbPorts).forM fun i => event (.act (.acquire (.port i))))
      (fun _ =>
        (List.range nbPorts).reverse.map Resource.port ++ .docaFlowCt :: .docaFlow :: s) := by
    apply Leaves.forM (g := fun done =>
      done.reverse.map Resource.port ++ .docaFlowCt :: .docaFlow :: s)
    · intro done i remaining e
      have hnodup : (done ++ i :: remaining).Nodup := e ▸ List.nodup_range
      have hi : i ∉ done := fun h =>
        (List.nodup_append.mp hnodup).2.2 i h i List.mem_cons_self rfl
      have hnot : Resource.port i ∉ done.reverse.map Resource.port
          ++ .docaFlowCt :: .docaFlow :: s := by
        simpa using ⟨hi, hs i⟩
      have hnext : (done ++ [i]).reverse.map Resource.port ++ .docaFlowCt :: .docaFlow :: s
          = .port i :: (done.reverse.map Resource.port ++ .docaFlowCt :: .docaFlow :: s) := by
        simp
      rw [hnext]
      exact leaves_act (Act.after_acquire hnot)
    · rfl
  refine hstart.bind (fun _ => Leaves.pure ?_)
  simp [held_started hn]

theorem nbPortsOf_le {nbReps : Int} (h : nbReps < maxPorts) : nbPortsOf nbReps ≤ maxPorts := by
  unfold nbPortsOf maxPorts at *
  split <;> omega

theorem port_zero_mem_held {nbReps : Int} (h : nbReps < maxPorts) :
    .port 0 ∈ (FwFlowCtx.started (nbPortsOf nbReps)).held := by
  have hpos : 0 < nbPortsOf nbReps := by
    unfold nbPortsOf
    omega
  rw [held_started (nbPortsOf_le h)]
  simp [hpos]

theorem pipeCfg_not_mem_held (ctx : FwFlowCtx) : .pipeCfg ∉ ctx.held := by
  simp [FwFlowCtx.held]

/-- **`fw_flow_init` leaves the library, its connection tracking and all ports, or nothing.** -/
theorem leaves_fwFlowInit {nbReps : Int} (hreps : nbReps < maxPorts) (hflow : .docaFlow ∉ s)
    (hct : .docaFlowCt ∉ s) (hcfg : .pipeCfg ∉ s) (hports : ∀ i, .port i ∉ s) :
    Leaves Startup.acts s (fwFlowInit nbReps)
      (fun ctx => ctx.elim s (fun ctx => ctx.held ++ s)) := by
  refine (leaves_acquire hflow).guarded rfl ?_
  refine (leaves_acquire (r := .docaFlowCt) (by simpa using hct)).bind (fun ok => ?_)
  cases ok with
  | false => exact leaves_release.bind (fun _ => Leaves.pure rfl)
  | true =>
    refine (leaves_initSwitchPorts (nbPortsOf_le hreps) hports).bind (fun ok => ?_)
    cases ok with
    | false => exact leaves_release.bind (fun _ => leaves_release.bind (fun _ => Leaves.pure rfl))
    | true =>
      refine (leaves_createPipes ?_ ?_).bind (fun ok => ?_)
      · exact List.mem_append_left s (port_zero_mem_held hreps)
      · exact List.not_mem_append (pipeCfg_not_mem_held _) hcfg
      · cases ok with
        | true => exact Leaves.pure rfl
        | false => exact (leaves_fwFlowDestroy _).bind (fun _ => Leaves.pure rfl)

/-- A context that is handed out has its ports filled in. -/
theorem returns_fwFlowInit (nbReps : Int) : Returns (fwFlowInit nbReps)
    (fun ctx => ∀ c ∈ ctx, c = FwFlowCtx.started (nbPortsOf nbReps)) := by
  refine Returns.bind (fun ok => ?_)
  cases ok with
  | false => exact Returns.pure (by simp)
  | true =>
    refine Returns.bind (fun ok => ?_)
    cases ok with
    | false => exact Returns.bind (fun _ => Returns.pure (by simp))
    | true =>
      refine Returns.bind (fun ok => ?_)
      cases ok with
      | false => exact Returns.bind (fun _ => Returns.bind (fun _ => Returns.pure (by simp)))
      | true =>
        refine Returns.bind (fun ok => ?_)
        cases ok with
        | false => exact Returns.bind (fun _ => Returns.pure (by simp))
        | true => exact Returns.pure (by simp)

theorem leaves_rounds (hport : .port 0 ∈ s) :
    ∀ n, Leaves Startup.acts s (rounds n) (fun _ => s) := by
  intro n
  induction n with
  | zero => exact fun w hw => ⟨s, hw⟩
  | succ n ih =>
    intro w hw
    rw [rounds, wp_bind, wp_get]
    split
    · refine (leaves_event rfl).bind (fun _ => ?_) w hw
      exact (leaves_useOf hport).bind (fun _ => ih)
    · exact hw

theorem leaves_withFlow (hport : .port 0 ∈ s) (hthread : .restThread ∉ s) :
    Leaves Startup.acts s withFlow (fun _ => s) := by
  refine Leaves.bind (f := fun _ => s) ?_ (fun _ => ?_)
  · exact (leaves_event rfl).bind (fun _ => Leaves.of_acts_eq (fun w => rfl))
  · refine (leaves_acquire hthread).guarded rfl ?_
    refine Leaves.bind (f := fun _ => .restThread :: s) ?_ (fun _ => ?_)
    · intro w hw
      exact leaves_rounds (List.mem_cons_of_mem _ hport) _ w hw
    · exact leaves_release.bind (fun _ => Leaves.pure rfl)

theorem leaves_withPorts {nbReps : Int} (hreps : nbReps < maxPorts) :
    Leaves Startup.acts [.queuesAndPorts, .dpdk, .argp] (withPorts nbReps)
      (fun _ => [.queuesAndPorts, .dpdk, .argp]) := by
  refine (leaves_event rfl).bind (fun _ => ?_)
  refine (leaves_fwFlowInit hreps (by simp) (by simp) (by simp) (by simp)).bind_of_returns
    (returns_fwFlowInit nbReps) (fun ctx hctx => ?_)
  cases ctx with
  | none => exact Leaves.pure rfl
  | some ctx =>
    obtain rfl := hctx ctx rfl
    refine (leaves_withFlow ?_ ?_).bind (fun status => ?_)
    · exact List.mem_append_left _ (port_zero_mem_held hreps)
    · simp [FwFlowCtx.held]
    · exact (leaves_fwFlowDestroy _).bind (fun _ => Leaves.pure rfl)

theorem leaves_withLogging {nbReps : Int} (hreps : nbReps < maxPorts) :
    Leaves Startup.acts [] (withLogging nbReps) (fun _ => []) := by
  have hdpdk : Leaves Startup.acts [.dpdk, .argp] (withDpdk nbReps) (fun _ => [.dpdk, .argp]) := by
    refine leaves_outside.guarded rfl ((leaves_event rfl).bind (fun _ => ?_))
    exact Leaves.scope (leaves_acquire (by simp)) (leaves_withPorts hreps) leaves_release
  have hargp : Leaves Startup.acts [.argp] (withArgp nbReps) (fun _ => [.argp]) := by
    refine leaves_outside.guarded rfl ?_
    exact Leaves.scope (leaves_acquire (by simp)) hdpdk leaves_release
  have hlogging : Leaves Startup.acts [] setupLogging (fun _ => []) := by
    refine leaves_outside.guarded rfl ?_
    exact leaves_outside.guarded rfl leaves_outside
  refine hlogging.guarded rfl ?_
  refine Leaves.bind (f := fun _ => []) (Leaves.of_acts_eq (fun w => rfl)) (fun _ => ?_)
  exact Leaves.scope (leaves_acquire (by simp)) hargp leaves_release

theorem leaves_main {nbReps : Int} (hreps : nbReps < maxPorts) :
    Leaves Startup.acts [] (main nbReps) (fun _ => []) := by
  refine (leaves_withLogging hreps).bind (fun status => ?_)
  refine (leaves_event rfl).bind (fun _ => ?_)
  exact (leaves_event rfl).bind (fun _ => Leaves.pure rfl)

end Held

/-! ### What is logged -/

/-- A part of `main` that does no more than take, use and give back resources. -/
structure Quiet (w w' : Startup) : Prop where
  handling : w'.handling = w.handling
  log : ∃ l, w'.log = w.log ++ l ∧ ∀ e ∈ l, e = .signal ∨ ∃ a, e = .act a

theorem Quiet.refl (w : Startup) : Quiet w w :=
  ⟨rfl, [], (List.append_nil _).symm, fun _ he => absurd he List.not_mem_nil⟩

theorem Quiet.trans (w w' w'' : Startup) (h : Quiet w w') (h' : Quiet w' w'') : Quiet w w'' := by
  obtain ⟨l, hl, hquiet⟩ := h.log
  obtain ⟨l', hl', hquiet'⟩ := h'.log
  refine ⟨h'.handling.trans h.handling, l ++ l', by rw [hl', hl, List.append_assoc], ?_⟩
  intro e he
  rcases List.mem_append.mp he with he | he
  · exact hquiet e he
  · exact hquiet' e he

theorem Quiet.guarded {α : Type} {m : StartupM Bool} {body rest : StartupM α}
    (hm : Keeps Quiet m) (hbody : Keeps Quiet body) (hrest : Keeps Quiet rest) :
    Keeps Quiet (m >>= fun ok => if ok = true then body else rest) := by
  refine Keeps.bind Quiet.trans hm (fun ok => ?_)
  cases ok with
  | true => exact hbody
  | false => exact hrest

theorem quiet_pure {α : Type} (a : α) : Keeps Quiet (pure a : StartupM α) :=
  Keeps.pure Quiet.refl a

theorem quiet_event {e : StartupEvent} (he : e = .signal ∨ ∃ a, e = .act a) :
    Keeps Quiet (event e) :=
  fun _ => ⟨rfl, [e], rfl, fun _ h => List.mem_singleton.mp h ▸ he⟩

theorem quiet_release (r : Resource) : Keeps Quiet (release r) :=
  quiet_event (Or.inr ⟨_, rfl⟩)

theorem quiet_outside : Keeps Quiet outside := by
  intro w
  apply wp_outside
  · intro _
    exact Quiet.refl w
  · intro o script _
    exact ⟨rfl, [], (List.append_nil _).symm, fun _ he => absurd he List.not_mem_nil⟩
  · intro o script _ _
    exact ⟨rfl, [.signal], rfl, fun _ he => Or.inl (List.mem_singleton.mp he)⟩
  · intro o script _ _
    exact ⟨rfl, [], (List.append_nil _).symm, fun _ he => absurd he List.not_mem_nil⟩

theorem quiet_acquire (r : Resource) : Keeps Quiet (acquire r) := by
  refine Quiet.guarded quiet_outside ?_ (quiet_pure _)
  exact Keeps.bind Quiet.trans (quiet_event (Or.inr ⟨_, rfl⟩)) (fun _ => quiet_pure _)

theorem quiet_useOf (r : Resource) : Keeps Quiet (useOf r) :=
  Keeps.bind Quiet.trans (quiet_event (Or.inr ⟨_, rfl⟩)) (fun _ => quiet_outside)

theorem quiet_setPipeCfg (n : Nat) : Keeps Quiet (setPipeCfg n) := by
  induction n with
  | zero => exact quiet_pure _
  | succ n ih => exact Quiet.guarded (quiet_useOf _) ih (quiet_pure _)

theorem quiet_addEntries (n : Nat) : Keeps Quiet (addEntries n) := by
  induction n with
  | zero => exact quiet_pure _
  | succ n ih => exact Quiet.guarded (quiet_useOf _) ih (quiet_pure _)

theorem quiet_createPipe (nrSet nrEntries : Nat) : Keeps Quiet (createPipe nrSet nrEntries) := by
  refine Quiet.guarded (quiet_useOf _) ?_ (quiet_pure _)
  refine Keeps.bind Quiet.trans (quiet_event (Or.inr ⟨_, rfl⟩)) (fun _ => ?_)
  refine Keeps.bind Quiet.trans (quiet_setPipeCfg _) (fun created => ?_)
  refine Keeps.bind Quiet.trans (quiet_release _) (fun _ => ?_)
  cases created with
  | true => exact quiet_addEntries _
  | false => exact quiet_pure _

theorem quiet_createPipes : Keeps Quiet createPipes := by
  refine Quiet.guarded (quiet_createPipe _ _) ?_ (quiet_pure _)
  refine Quiet.guarded (quiet_createPipe _ _) ?_ (quiet_pure _)
  refine Quiet.guarded (quiet_createPipe _ _) ?_ (quiet_pure _)
  exact Quiet.guarded (quiet_createPipe _ _) (quiet_useOf _) (quiet_pure _)

theorem quiet_forM {f : Nat → StartupM PUnit} (hf : ∀ i, Keeps Quiet (f i)) (l : List Nat) :
    Keeps Quiet (l.forM f) := by
  induction l with
  | nil => exact quiet_pure _
  | cons i l ih => exact Keeps.bind Quiet.trans (hf i) (fun _ => ih)

theorem quiet_fwFlowDestroy (ctx : FwFlowCtx) : Keeps Quiet (fwFlowDestroy ctx) := by
  refine Keeps.bind Quiet.trans (quiet_forM (fun i => ?_) _) (fun _ => ?_)
  · split
    · exact quiet_release _
    · exact quiet_pure _
  · exact Keeps.bind Quiet.trans (quiet_release _) (fun _ => quiet_release _)

theorem quiet_fwFlowInit (nbReps : Int) : Keeps Quiet (fwFlowInit nbReps) := by
  refine Quiet.guarded (quiet_acquire _) ?_ (quiet_pure _)
  refine Quiet.guarded (quiet_acquire _) ?_ ?_
  · refine Quiet.guarded ?_ ?_ ?_
    · refine Quiet.guarded quiet_outside ?_ (quiet_pure _)
      exact Keeps.bind Quiet.trans (quiet_forM (fun i => quiet_event (Or.inr ⟨_, rfl⟩)) _)
        (fun _ => quiet_pure _)
    · refine Quiet.guarded quiet_createPipes (quiet_pure _) ?_
      exact Keeps.bind Quiet.trans (quiet_fwFlowDestroy _) (fun _ => quiet_pure _)
    · refine Keeps.bind Quiet.trans (quiet_release _) (fun _ => ?_)
      exact Keeps.bind Quiet.trans (quiet_release _) (fun _ => quiet_pure _)
  · exact Keeps.bind Quiet.trans (quiet_release _) (fun _ => quiet_pure _)

/-! ### Signals -/

/-- What was logged since `ct_offload_init`. -/
def sinceInit : List StartupEvent → Option (List StartupEvent)
  | [] => none
  | e :: l => if e = .ctOffloadInit then some l else sinceInit l

theorem sinceInit_append_of_some {l l' : List StartupEvent} (h : sinceInit l = some l')
    (l'' : List StartupEvent) : sinceInit (l ++ l'') = some (l' ++ l'') := by
  induction l with
  | nil => cases h
  | cons e l ih =>
    rw [List.cons_append, sinceInit]
    rw [sinceInit] at h
    split at h
    · rename_i he
      rw [if_pos he, Option.some.inj h]
    · rename_i he
      rw [if_neg he, ih h]

theorem sinceInit_append_of_none {l : List StartupEvent} (h : sinceInit l = none)
    (l' : List StartupEvent) : sinceInit (l ++ l') = sinceInit l' := by
  induction l with
  | nil => rfl
  | cons e l ih =>
    rw [sinceInit] at h
    split at h
    · cases h
    · rename_i he
      rw [List.cons_append, sinceInit, if_neg he, ih h]

/-- Before `ct_offload_init`, and no further. -/
theorem Quiet.sinceInit_eq_none {w w' : Startup} (hq : Quiet w w') (h : sinceInit w.log = none) :
    sinceInit w'.log = none := by
  obtain ⟨l, hl, hquiet⟩ := hq.log
  rw [hl, sinceInit_append_of_none h]
  clear hl
  induction l with
  | nil => rfl
  | cons e l ih =>
    have he : e ≠ .ctOffloadInit := by
      rcases hquiet e List.mem_cons_self with rfl | ⟨a, rfl⟩
      · exact StartupEvent.noConfusion
      · exact StartupEvent.noConfusion
    rw [sinceInit, if_neg he]
    exact ih (fun e' he' => hquiet e' (List.mem_cons_of_mem e he'))

/-- The daemon is to go on exactly if no signal has come since `ct_offload_init`. -/
structure Serving (w : Startup) : Prop where
  handling : w.handling = true
  running : ∃ l, sinceInit w.log = some l ∧ (w.running = true ↔ .signal ∉ l)

/-- An event that is no signal. -/
theorem Serving.event {w : Startup} (h : Serving w) {e : StartupEvent} (he : e ≠ .signal) :
    Serving { w with log := w.log ++ [e] } := by
  obtain ⟨l, hl, hrunning⟩ := h.running
  refine ⟨h.handling, l ++ [e], sinceInit_append_of_some hl [e], ?_⟩
  rw [hrunning]
  simp [Ne.symm he]

theorem Serving.outside {w : Startup} (h : Serving w) :
    wp outside w (fun _ w' => Serving w' ∧ w'.script.length + 1 = w.script.length)
      (fun _ w' => w' = w) := by
  apply wp_outside
  · intro _
    rfl
  · intro o script hscript
    exact ⟨⟨h.handling, h.running⟩, by rw [hscript]; rfl⟩
  · intro o script hscript hhandling
    obtain ⟨l, hl, -⟩ := h.running
    refine ⟨⟨h.handling, l ++ [.signal], sinceInit_append_of_some hl _, ?_⟩, by rw [hscript]; rfl⟩
    simp
  · intro o script _ hhandling
    rw [h.handling] at hhandling
    cases hhandling

theorem Serving.acquire {w : Startup} (h : Serving w) (r : Resource) :
    wp (acquire r) w (fun _ w' => Serving w') (fun _ w' => w' = w) := by
  rw [DocaFirewall.acquire, wp_bind]
  refine wp_mono h.outside ?_ (fun _ _ h' => h')
  rintro ok w' ⟨h', -⟩
  cases ok with
  | true => exact h'.event (e := .act (.acquire r)) StartupEvent.noConfusion
  | false => exact h'

theorem Serving.useOf {w : Startup} (h : Serving w) (r : Resource) :
    wp (useOf r) w (fun _ w' => Serving w' ∧ w'.script.length + 1 = w.script.length)
      (fun _ w' => Serving w' ∧ w'.running = w.running) := by
  have hused := h.event (e := .act (.use r)) StartupEvent.noConfusion
  refine wp_mono hused.outside (fun _ _ h' => h') ?_
  rintro e w' rfl
  exact ⟨hused, rfl⟩

/-- One round: it is begun only if no signal has come. -/
theorem Serving.round {w : Startup} (h : Serving w) {n : Nat}
    (hnext : ∀ w', Serving w' → w'.script.length + 1 = w.script.length →
      wp (rounds n) w' (fun _ w'' => Serving w'' ∧ w''.running = false)
        (fun _ w'' => Serving w'' ∧ w''.running = true)) :
    wp (rounds (n + 1)) w (fun _ w' => Serving w' ∧ w'.running = false)
      (fun _ w' => Serving w' ∧ w'.running = true) := by
  rw [rounds, wp_bind, wp_get]
  by_cases hrunning : w.running = true
  · have hround := h.event (e := .round) StartupEvent.noConfusion
    rw [if_pos hrunning]
    show wp (DocaFirewall.useOf _ >>= fun _ => rounds n) { w with log := w.log ++ [.round] } _ _
    rw [wp_bind]
    refine wp_mono (hround.useOf _) ?_ ?_
    · intro _ w' hw'
      exact hnext w' hw'.1 hw'.2
    · intro _ w' hw'
      exact ⟨hw'.1, hw'.2.trans hrunning⟩
  · rw [if_neg hrunning]
    exact ⟨h, Bool.eq_false_iff.mpr hrunning⟩

/-- **The loop ends when a signal has come, and not before.** -/
theorem serving_rounds (n : Nat) : ∀ w : Startup, Serving w → w.script.length = n →
    wp (rounds (n + 1)) w (fun _ w' => Serving w' ∧ w'.running = false)
      (fun _ w' => Serving w' ∧ w'.running = true) := by
  induction n with
  | zero =>
    intro w h hn
    apply h.round
    intro w' _ hlen
    omega
  | succ n ih =>
    intro w h hn
    apply h.round
    intro w' h' hlen
    exact ih w' h' (by omega)

/-- A signal has come since `ct_offload_init`. -/
def SignalledSince (log : List StartupEvent) : Prop := ∃ l ∈ sinceInit log, .signal ∈ l

theorem Serving.signalled_iff {w : Startup} (h : Serving w) :
    SignalledSince w.log ↔ w.running = false := by
  obtain ⟨l, hl, hrunning⟩ := h.running
  rw [← Bool.not_eq_true, hrunning, not_not, SignalledSince, hl]
  simp

theorem not_signalledSince {log : List StartupEvent} (h : sinceInit log = none) :
    ¬ SignalledSince log := by
  rintro ⟨l, hl, -⟩
  rw [h] at hl
  cases hl

theorem SignalledSince.append {log : List StartupEvent} (h : SignalledSince log)
    (l : List StartupEvent) : SignalledSince (log ++ l) := by
  obtain ⟨l', hl', hsignal⟩ := h
  exact ⟨l' ++ l, sinceInit_append_of_some hl' l, List.mem_append_left l hsignal⟩

/-- What is to be shown of each part of `main`: where it ends well a signal has come, and where
it has not ended none has come. -/
def EndsBySignal (m : StartupM ExitStatus) (w : Startup) : Prop :=
  wp m w (fun status w' => status = .success → SignalledSince w'.log)
    (fun _ w' => ¬ SignalledSince w'.log)

/-- From `ct_offload_init` on. -/
theorem endsBySignal_withFlow {w : Startup} (hhandling : w.handling = true)
    (hnone : sinceInit w.log = none) : EndsBySignal withFlow w := by
  have hserving : Serving { w with log := w.log ++ [.ctOffloadInit], running := true } := by
    refine ⟨hhandling, [], ?_, by simp⟩
    rw [sinceInit_append_of_none hnone]
    rfl
  show wp (acquire .restThread >>= fun ok => if ok = true then _ else _)
    { w with log := w.log ++ [.ctOffloadInit], running := true } _ _
  rw [wp_bind]
  refine wp_mono (hserving.acquire _) ?_ ?_
  · intro ok w' h'
    cases ok with
    | false => exact fun he => ExitStatus.noConfusion he
    | true =>
      rw [if_pos rfl, wp_bind]
      refine wp_mono (serving_rounds _ w' h' rfl) ?_ ?_
      · intro _ w'' hw'' _
        have hreleased := hw''.1.event (e := .act (.release .restThread)) StartupEvent.noConfusion
        exact hreleased.signalled_iff.mpr hw''.2
      · intro _ w'' hw''
        rw [hw''.1.signalled_iff, hw''.2]
        exact Bool.noConfusion
  · rintro _ w' rfl
    rw [hserving.signalled_iff]
    exact Bool.noConfusion

/-- Tearing down does not fail. -/
theorem wp_fwFlowDestroy (ctx : FwFlowCtx) (w : Startup) :
    wp (fwFlowDestroy ctx) w (fun _ w' => ∃ l, w'.log = w.log ++ l) (fun _ _ => False) := by
  have hstop : ∀ (ports : List Nat) (w : Startup),
      wp (ports.forM fun i => if cell ctx.ports i then release (.port i) else return) w
        (fun _ w' => ∃ l, w'.log = w.log ++ l) (fun _ _ => False) := by
    intro ports
    induction ports with
    | nil => exact fun w => ⟨[], (List.append_nil _).symm⟩
    | cons i ports ih =>
      intro w
      show wp ((if cell ctx.ports i then release (.port i) else pure ()) >>= fun _ =>
        ports.forM fun i => if cell ctx.ports i then release (.port i) else return) w _ _
      rw [wp_bind]
      split
      · show wp (ports.forM _) (⟨w.script, w.log ++ [.act (.release (.port i))], w.handling,
          w.running⟩ : Startup) _ _
        refine wp_mono (ih _) ?_ (fun _ _ h => h)
        rintro _ w' ⟨l, hl⟩
        exact ⟨_ :: l, by rw [hl, List.append_assoc]; rfl⟩
      · exact ih w
  rw [fwFlowDestroy, wp_bind]
  refine wp_mono (hstop _ w) ?_ (fun _ _ h => h)
  rintro _ w' ⟨l, hl⟩
  refine ⟨l ++ [.act (.release .docaFlowCt), .act (.release .docaFlow)], ?_⟩
  show w'.log ++ [_] ++ [_] = _
  rw [hl]
  simp

section Parts

variable {nbReps : Int} {w : Startup} {body : StartupM ExitStatus}

/-- A call that fails before `ct_offload_init`. -/
theorem endsBySignal_guarded {m : StartupM Bool} (hm : Keeps Quiet m)
    (hbody : ∀ w', w'.handling = w.handling → sinceInit w'.log = none → EndsBySignal body w')
    (hnone : sinceInit w.log = none) :
    EndsBySignal (m >>= fun ok => if ok = true then body else pure .failure) w := by
  rw [EndsBySignal, wp_bind]
  refine wp_mono (hm w) ?_ ?_
  · intro ok w' hq
    cases ok with
    | true => exact hbody w' hq.handling (hq.sinceInit_eq_none hnone)
    | false => exact fun he => ExitStatus.noConfusion he
  · intro _ w' hq
    exact not_signalledSince (hq.sinceInit_eq_none hnone)

theorem endsBySignal_scope {r : Resource}
    (hbody : ∀ w', w'.handling = w.handling → sinceInit w'.log = none → EndsBySignal body w')
    (hnone : sinceInit w.log = none) :
    EndsBySignal (acquire r >>= fun ok => if ok = true then
      (do let status ← body; release r; return status) else pure .failure) w := by
  apply endsBySignal_guarded (quiet_acquire r) _ hnone
  intro w' hhandling hnone'
  rw [EndsBySignal, wp_bind]
  refine wp_mono (hbody w' hhandling hnone') ?_ (fun _ _ h => h)
  intro status w'' h hsuccess
  exact (h hsuccess).append _

/-- An event of `main` itself that is not `ct_offload_init`. -/
theorem sinceInit_event {e : StartupEvent} (he : e ≠ .ctOffloadInit)
    (hnone : sinceInit w.log = none) : sinceInit (w.log ++ [e]) = none := by
  rw [sinceInit_append_of_none hnone, sinceInit, if_neg he]
  rfl

theorem endsBySignal_withPorts (hhandling : w.handling = true) (hnone : sinceInit w.log = none) :
    EndsBySignal (withPorts nbReps) w := by
  have hnone' := sinceInit_event (e := .policyInit) StartupEvent.noConfusion hnone
  show wp (fwFlowInit nbReps >>= _) { w with log := w.log ++ [.policyInit] } _ _
  rw [wp_bind]
  refine wp_mono (quiet_fwFlowInit nbReps _) ?_ ?_
  · intro ctx w' hq
    cases ctx with
    | none => exact fun he => ExitStatus.noConfusion he
    | some ctx =>
      dsimp only
      rw [wp_bind]
      refine wp_mono (endsBySignal_withFlow (hq.handling.trans hhandling)
        (hq.sinceInit_eq_none hnone')) ?_ (fun _ _ h => h)
      intro status w'' h
      rw [wp_bind]
      refine wp_mono (wp_fwFlowDestroy ctx w'') ?_ (fun _ _ h => absurd h not_false)
      rintro _ w''' ⟨l, hl⟩ hsuccess
      rw [hl]
      exact (h hsuccess).append l
  · intro _ w' hq
    exact not_signalledSince (hq.sinceInit_eq_none hnone')

theorem endsBySignal_withArgp (hhandling : w.handling = true) (hnone : sinceInit w.log = none) :
    EndsBySignal (withArgp nbReps) w := by
  apply endsBySignal_guarded quiet_outside _ hnone
  intro w' hh' hnone'
  apply endsBySignal_scope _ hnone'
  intro w'' hh'' hnone''
  apply endsBySignal_guarded quiet_outside _ hnone''
  intro w₃ hh₃ hnone₃
  have hnone₄ := sinceInit_event (e := .initDevs) StartupEvent.noConfusion hnone₃
  refine endsBySignal_scope (w := { w₃ with log := w₃.log ++ [.initDevs] }) ?_ hnone₄
  intro w₅ hh₅ hnone₅
  exact endsBySignal_withPorts (hh₅.trans (hh₃.trans (hh''.trans (hh'.trans hhandling)))) hnone₅

theorem quiet_setupLogging : Keeps Quiet setupLogging := by
  refine Quiet.guarded quiet_outside ?_ (quiet_pure _)
  exact Quiet.guarded quiet_outside quiet_outside (quiet_pure _)

end Parts

/-- **From `ct_offload_init` on the daemon runs until a signal comes.**  Where `main` has ended
well, a signal has come since; where it has not ended, none has, whatever came before. -/
theorem stops_iff_signal (nbReps : Int) (script : List Outside) :
    wp (main nbReps) (Startup.start script)
      (fun status w => status = .success → SignalledSince w.log)
      (fun _ w => ¬ SignalledSince w.log) := by
  have hlogging : EndsBySignal (withLogging nbReps) (Startup.start script) := by
    apply endsBySignal_guarded quiet_setupLogging _ rfl
    intro w' _ hnone
    refine endsBySignal_scope (w := { w' with handling := true }) ?_ hnone
    intro w'' hhandling hnone'
    exact endsBySignal_withArgp hhandling hnone'
  rw [main, wp_bind]
  refine wp_mono hlogging ?_ (fun _ _ h => h)
  intro status w h hsuccess
  exact ((h hsuccess).append _).append _

/-! ### The end of `main` -/

/-- Everything before the label `sample_exit`: the devices and the lock of the table are left
alone. -/
def Inner (w w' : Startup) : Prop :=
  ∃ l, w'.log = w.log ++ l ∧ .destroyDevs ∉ l ∧ .policyDestroy ∉ l

theorem Inner.refl (w : Startup) : Inner w w :=
  ⟨[], (List.append_nil _).symm, List.not_mem_nil, List.not_mem_nil⟩

theorem Inner.trans (w w' w'' : Startup) (h : Inner w w') (h' : Inner w' w'') : Inner w w'' := by
  obtain ⟨l, hl, hdevs, hpolicy⟩ := h
  obtain ⟨l', hl', hdevs', hpolicy'⟩ := h'
  exact ⟨l ++ l', by rw [hl', hl, List.append_assoc], List.not_mem_append hdevs hdevs',
    List.not_mem_append hpolicy hpolicy'⟩

theorem Quiet.inner {w w' : Startup} (h : Quiet w w') : Inner w w' := by
  obtain ⟨l, hl, hquiet⟩ := h.log
  refine ⟨l, hl, fun he => ?_, fun he => ?_⟩
  · rcases hquiet _ he with h | ⟨a, h⟩
    · cases h
    · cases h
  · rcases hquiet _ he with h | ⟨a, h⟩
    · cases h
    · cases h

theorem inner_of_quiet {α : Type} {m : StartupM α} (h : Keeps Quiet m) : Keeps Inner m :=
  fun w => wp_mono (h w) (fun _ _ h => h.inner) (fun _ _ h => h.inner)

theorem inner_pure {α : Type} (a : α) : Keeps Inner (pure a : StartupM α) :=
  Keeps.pure Inner.refl a

theorem inner_event {e : StartupEvent} (hdevs : e ≠ .destroyDevs) (hpolicy : e ≠ .policyDestroy) :
    Keeps Inner (event e) :=
  fun _ => ⟨[e], rfl, by simpa using hdevs.symm, by simpa using hpolicy.symm⟩

theorem inner_guarded {α : Type} {m : StartupM Bool} {body : StartupM α} {a : α}
    (hm : Keeps Quiet m) (hbody : Keeps Inner body) :
    Keeps Inner (m >>= fun ok => if ok = true then body else pure a) := by
  refine Keeps.bind Inner.trans (inner_of_quiet hm) (fun ok => ?_)
  cases ok with
  | true => exact hbody
  | false => exact inner_pure a

theorem inner_scope {r : Resource} {body : StartupM ExitStatus} (hbody : Keeps Inner body) :
    Keeps Inner (acquire r >>= fun ok => if ok = true then
      (do let status ← body; release r; return status) else pure .failure) := by
  apply inner_guarded (quiet_acquire r)
  refine Keeps.bind Inner.trans hbody (fun status => ?_)
  exact Keeps.bind Inner.trans (inner_of_quiet (quiet_release r)) (fun _ => inner_pure _)

theorem inner_rounds (n : Nat) : Keeps Inner (rounds n) := by
  induction n with
  | zero => exact fun w => Inner.refl w
  | succ n ih =>
    intro w
    rw [rounds, wp_bind, wp_get]
    split
    · refine Keeps.bind Inner.trans ?_ (fun _ => ?_) w
      · exact inner_event StartupEvent.noConfusion StartupEvent.noConfusion
      · exact Keeps.bind Inner.trans (inner_of_quiet (quiet_useOf _)) (fun _ => ih)
    · exact Inner.refl w

theorem inner_withFlow : Keeps Inner withFlow := by
  refine Keeps.bind Inner.trans ?_ (fun _ => ?_)
  · exact fun _ => ⟨[.ctOffloadInit], rfl, by simp, by simp⟩
  · apply inner_guarded (quiet_acquire _)
    refine Keeps.bind Inner.trans (fun w => inner_rounds _ w) (fun _ => ?_)
    exact Keeps.bind Inner.trans (inner_of_quiet (quiet_release _)) (fun _ => inner_pure _)

theorem inner_withLogging (nbReps : Int) : Keeps Inner (withLogging nbReps) := by
  have hports : Keeps Inner (withPorts nbReps) := by
    refine Keeps.bind Inner.trans ?_ (fun _ => ?_)
    · exact inner_event StartupEvent.noConfusion StartupEvent.noConfusion
    · refine Keeps.bind Inner.trans (inner_of_quiet (quiet_fwFlowInit nbReps)) (fun ctx => ?_)
      cases ctx with
      | none => exact inner_pure _
      | some ctx =>
        refine Keeps.bind Inner.trans inner_withFlow (fun status => ?_)
        exact Keeps.bind Inner.trans (inner_of_quiet (quiet_fwFlowDestroy ctx))
          (fun _ => inner_pure _)
  have hdpdk : Keeps Inner (withDpdk nbReps) := by
    apply inner_guarded quiet_outside
    refine Keeps.bind Inner.trans ?_ (fun _ => inner_scope hports)
    exact inner_event StartupEvent.noConfusion StartupEvent.noConfusion
  apply inner_guarded quiet_setupLogging
  refine Keeps.bind Inner.trans (fun w => Inner.refl w) (fun _ => inner_scope ?_)
  exact inner_guarded quiet_outside (inner_scope hdpdk)

/-- **However the calls turn out, everything is given back once, the last one first.**  In a
run that is not over, what is in use was taken before; in one that is over nothing is held,
and the devices and the lock of the policy table were destroyed last, once. -/
theorem released_in_reverse (nbReps : Int) (hreps : nbReps < maxPorts) (script : List Outside) :
    wp (main nbReps) (Startup.start script)
      (fun _ w => held w.acts [] = some [] ∧
        (∀ r, w.acts.count (.acquire r) = w.acts.count (.release r)) ∧
        ∃ l, w.log = l ++ [.destroyDevs, .policyDestroy] ∧ .destroyDevs ∉ l ∧ .policyDestroy ∉ l)
      (fun _ w => ∃ s, held w.acts [] = some s) := by
  have hheld := leaves_main hreps (Startup.start script) rfl
  have hinner := inner_withLogging nbReps (Startup.start script)
  rw [main, wp_bind] at hheld ⊢
  unfold wp at hheld hinner ⊢
  cases hrun : withLogging nbReps (Startup.start script) with
  | error e w =>
    rw [hrun] at hheld
    exact hheld
  | ok status w =>
    rw [hrun] at hheld hinner
    obtain ⟨l, hl, hdevs, hpolicy⟩ := hinner
    have hlog : w.log = l := hl
    refine ⟨hheld, fun r => count_acquire_of_held hheld r, l, ?_, hdevs, hpolicy⟩
    show w.log ++ [_] ++ [_] = _
    rw [hlog, List.append_assoc]
    rfl

/-- Everything is set up until the entry for TCP in the root pipe fails. -/
def rootEntryFails : List Outside := List.replicate 32 ⟨true, false⟩ ++ [⟨false, false⟩]

theorem released_in_reverse_rootEntryFails : (4 : Int) < maxPorts ∧
    wp (main 4) (Startup.start rootEntryFails)
      (fun _ w => held w.acts [] = some [] ∧
        (∀ r, w.acts.count (.acquire r) = w.acts.count (.release r)) ∧
        ∃ l, w.log = l ++ [.destroyDevs, .policyDestroy] ∧ .destroyDevs ∉ l ∧ .policyDestroy ∉ l)
      (fun _ w => ∃ s, held w.acts [] = some s) :=
  ⟨by decide, released_in_reverse 4 (by decide) rootEntryFails⟩

end PrismFirewall.DocaFirewall
