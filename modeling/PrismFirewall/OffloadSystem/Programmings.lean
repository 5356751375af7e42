import PrismFirewall.OffloadSystem.System

/-!
# How often a session is programmed

The client tries again whatever an error means, and what it has given up may still come in.
This file bounds what that can do: a flow's request is executed at most three times, over
every run of the system (`programmed_at_most`).

`pending` counts the executions that a state can still lead to: three for a request in the
channel, one for each attempt that the task has left, one for each request that is late.  A
step that executes a request uses one of them up, and only the channel adds to them, three
when it accepts the request of a flow; it does that once for each flow.
-/

namespace PrismFirewall.OffloadSystem

open Lib
open PrismFirewall.Datapath

variable (c : Setup)

/-- The request is one for the flow. -/
def isFor (key : FlowKey) (req : OffloadRequest) : Bool := decide (req.flow = key)

/-- How often a request for the flow has been executed. -/
def Setup.programmedFor (ops : List Op) (key : FlowKey) : Nat :=
  (c.executions ops).countP (isFor key)

/-- The attempts of the task's call that may still be executed. -/
def Sender.attemptsLeft (key : FlowKey) : Sender → Nat
  | .calling req attempt none =>
    if isFor key req then maxRetries - 1 - attempt + 1 else 0
  | .calling req attempt (some _) => if isFor key req then maxRetries - 1 - attempt else 0
  | _ => 0

/-- How often a state can still lead to an execution for the flow, if the channel accepts
nothing more for it. -/
def System.pending (s : System) (key : FlowKey) : Nat :=
  maxRetries * s.queued.countP (isFor key) + s.sender.attemptsLeft key
    + s.late.countP (isFor key)

/-! ### The channel -/

section

variable (checked : Bool) (p₀ : Pipeline)

/-- Only a packet that offloads the flow adds to what the channel has accepted for it. -/
theorem acceptedFor_append_singleton_le (ops : List Datapath.Op) (op : Datapath.Op)
    (key : FlowKey) :
    acceptedFor (machine checked p₀) (ops ++ [op]) key
      ≤ acceptedFor (machine checked p₀) ops key
        + (offloadedFlow op ((machine checked p₀).step ((machine checked p₀).run ops) op).1
          ).toList.count key := by
  cases hr : (machine checked p₀).run ops with
  | none =>
    have hnone : receivedRequest none op = none := by
      cases op <;> rfl
    rw [acceptedFor, acceptedFor, accepted, accepted, Machine.events_append_singleton,
      Machine.run_append_singleton, hr, hnone, Option.toList_none, List.append_nil]
    exact Nat.le_add_right _ _
  | some p =>
    cases happly : p.apply checked op with
    | none =>
      -- a packet that panics: what was queued is lost
      have hnone : receivedRequest (some p) op = none := by
        cases op with
        | receive => cases happly
        | _ => rfl
      rw [acceptedFor, acceptedFor, accepted, accepted, Machine.events_append_singleton,
        Machine.run_append_singleton, hr, machine_step_of_panic p₀ happly, hnone,
        Option.toList_none, List.append_nil, Option.map_none, Option.getD_none, List.append_nil,
        List.countP_append]
      omega
    | some r =>
      rw [machine_step_of_apply p₀ happly, acceptedFor, accepted_append_singleton hr happly,
        List.countP_append, countP_newlyAccepted happly, acceptedFor]
      refine Nat.add_le_add_left ?_ _
      split
      · rename_i hnew
        rw [hnew.2, Option.toList_some, List.count_singleton_self]
      · exact Nat.zero_le _

theorem acceptedFor_append_le (ops ops' : List Datapath.Op) (key : FlowKey) :
    ∃ later, offloadVerdicts (machine checked p₀) (ops ++ ops')
        = offloadVerdicts (machine checked p₀) ops ++ later ∧
      acceptedFor (machine checked p₀) (ops ++ ops') key
        ≤ acceptedFor (machine checked p₀) ops key + later.count key := by
  induction ops' using List.reverseRecOn with
  | nil => exact ⟨[], by simp, by simp⟩
  | append_singleton ops' op ih =>
    obtain ⟨later, hverdicts, hle⟩ := ih
    have hstep := acceptedFor_append_singleton_le checked p₀ (ops ++ ops') op key
    rw [List.append_assoc] at hstep
    refine ⟨later ++ (offloadedFlow op ((machine checked p₀).step
      ((machine checked p₀).run (ops ++ ops')) op).1).toList, ?_, ?_⟩
    · rw [← List.append_assoc, offloadVerdicts_append_singleton, hverdicts, List.append_assoc]
    · rw [List.count_append]
      omega

end

/-- The channel accepts at most one request for a flow, and none once the flow has been
offloaded. -/
theorem acceptedFor_le (ops ops' : List Datapath.Op) (key : FlowKey) :
    acceptedFor c.pipeline ops key ≤ 1 ∧ (key ∈ offloadVerdicts c.pipeline ops →
      acceptedFor c.pipeline (ops ++ ops') key ≤ acceptedFor c.pipeline ops key) := by
  have hnodup : ∀ ops, (offloadVerdicts c.pipeline ops).Nodup :=
    nodup_offloadVerdicts c.checked c.acl c.minPackets c.idleTimeoutSecs ⟨c.capacity, [], false⟩
  constructor
  · obtain ⟨later, hverdicts, hle⟩ := acceptedFor_append_le c.checked
      (.new c.acl c.minPackets c.idleTimeoutSecs ⟨c.capacity, [], false⟩) [] ops key
    have hone : later.count key ≤ 1 := by
      have h := List.nodup_iff_count_le_one.mp (hnodup ops) key
      rw [show offloadVerdicts c.pipeline ops = [] ++ later from hverdicts] at h
      exact h
    exact Nat.le_trans hle (Nat.le_trans (Nat.le_of_eq (Nat.zero_add _)) hone)
  · intro hkey
    obtain ⟨later, hverdicts, hle⟩ := acceptedFor_append_le c.checked
      (.new c.acl c.minPackets c.idleTimeoutSecs ⟨c.capacity, [], false⟩) ops ops' key
    have hzero : later.count key = 0 := by
      have h := hnodup (ops ++ ops')
      rw [show offloadVerdicts c.pipeline (ops ++ ops') = _ from hverdicts, List.nodup_append] at h
      exact List.count_eq_zero.mpr (fun hin => h.2.2 key hkey key hin rfl)
    rw [hzero] at hle
    exact hle

/-! ### The task and the daemon -/

theorem countP_eraseIdx {α : Type*} (p : α → Bool) (l : List α) : ∀ i,
    ((l[i]?).toList.countP p) + (l.eraseIdx i).countP p = l.countP p := by
  induction l with
  | nil => exact fun i => rfl
  | cons a l ih =>
    intro i
    cases i with
    | zero =>
      rw [List.getElem?_cons_zero, Option.toList_some, List.eraseIdx_cons_zero,
        List.countP_singleton, List.countP_cons, Nat.add_comm]
    | succ i =>
      rw [List.getElem?_cons_succ, List.eraseIdx_cons_succ, List.countP_cons, List.countP_cons,
        ← ih i]
      omega

/-- What the task takes from the channel in a step. -/
def System.takes (s : System) : Op → Option OffloadRequest
  | .receive => s.taking
  | _ => none

/-- A failed attempt leaves the later ones. -/
theorem attemptsLeft_nextAttempt (req : OffloadRequest) (attempt : Nat) (error : String)
    (key : FlowKey) : (System.nextAttempt req attempt error).2.attemptsLeft key
      = if isFor key req then maxRetries - 1 - attempt else 0 := by
  unfold System.nextAttempt
  split
  · rename_i hlt
    simp only [Sender.attemptsLeft]
    split
    · omega
    · rfl
  · rename_i hge
    simp only [Sender.attemptsLeft]
    split
    · omega
    · rfl

/-- A failed attempt is one of those that were left, or it has been executed. -/
theorem attempts_fail {s : System} {req : OffloadRequest} {attempt : Nat}
    {reply : Option (Except OffloadDaemon.Status OffloadDaemon.ProgramSessionResponse)}
    (hs : s.sender = .calling req attempt reply) (error : String) (late : Bool) (key : FlowKey) :
    (s.nextSender (.fail error late)).2.attemptsLeft key
      + (s.nextLate (.fail error late)).countP (isFor key)
    ≤ (Sender.calling req attempt reply).attemptsLeft key + s.late.countP (isFor key) := by
  have hnext : (s.nextSender (.fail error late)).2.attemptsLeft key
      = if isFor key req then maxRetries - 1 - attempt else 0 := by
    simp only [System.nextSender, hs]
    exact attemptsLeft_nextAttempt req attempt error key
  rw [hnext]
  cases reply with
  | none =>
    have hlate : (s.nextLate (.fail error late)).countP (isFor key)
        ≤ s.late.countP (isFor key) + if isFor key req then 1 else 0 := by
      simp only [System.nextLate, hs]
      split
      · rw [List.countP_append, List.countP_singleton]
      · exact Nat.le_add_right _ _
    have hleft : (Sender.calling req attempt none).attemptsLeft key
        = if isFor key req then maxRetries - 1 - attempt + 1 else 0 := rfl
    rw [hleft]
    by_cases hreq : isFor key req
    · rw [if_pos hreq] at hlate ⊢
      rw [if_pos hreq]
      omega
    · rw [if_neg hreq] at hlate ⊢
      rw [if_neg hreq]
      omega
  | some reply =>
    have hlate : s.nextLate (.fail error late) = s.late := by
      simp only [System.nextLate, hs]
    have hleft : (Sender.calling req attempt (some reply)).attemptsLeft key
        = if isFor key req then maxRetries - 1 - attempt else 0 := rfl
    rw [hleft, hlate]

/-- **A step pays for the execution it makes.** -/
theorem attempts_step (s : System) (op : Op) (key : FlowKey) :
    ((s.executing op).map Prod.snd).toList.countP (isFor key)
      + (s.nextSender op).2.attemptsLeft key + (s.nextLate op).countP (isFor key)
    ≤ s.sender.attemptsLeft key + s.late.countP (isFor key)
      + maxRetries * (s.takes op).toList.countP (isFor key) := by
  cases op with
  | receive =>
    cases hs : s.sender with
    | idle =>
      cases ht : s.taking with
      | none => simp [System.executing, System.nextSender, System.nextLate, System.takes, hs, ht]
      | some req =>
        simp only [System.executing, System.nextSender, System.nextLate, System.takes, hs, ht,
          Sender.attemptsLeft, Option.toList_some, List.countP_singleton, Option.map_none,
          Option.toList_none, List.countP_nil, maxRetries]
        split <;> omega
    | draining =>
      cases ht : s.taking <;>
        simp [System.executing, System.nextSender, System.nextLate, System.takes, hs, ht]
    | connecting =>
      have ht : s.taking = none := by rw [System.taking, hs]
      simp [System.executing, System.nextSender, System.nextLate, System.takes, hs, ht]
    | calling req attempt reply =>
      have ht : s.taking = none := by rw [System.taking, hs]
      simp [System.executing, System.nextSender, System.nextLate, System.takes, hs, ht]
  | connect ok =>
    cases hs : s.sender <;> cases ok <;>
      simp [System.executing, System.nextSender, System.nextLate, System.takes, hs,
        Sender.attemptsLeft]
  | execute now =>
    cases hs : s.sender with
    | calling req attempt reply =>
      cases reply with
      | none =>
        simp only [System.executing, System.nextSender, System.nextLate, System.takes, hs,
          Sender.attemptsLeft, Option.toList_some, List.countP_singleton, Option.map_some,
          Option.toList_none, List.countP_nil]
        split <;> omega
      | some reply => simp [System.executing, System.nextSender, System.nextLate, hs]
    | _ => simp [System.executing, System.nextSender, System.nextLate, hs]
  | answer =>
    cases hs : s.sender with
    | calling req attempt reply =>
      rcases reply with _ | (status | inner)
      · simp [System.executing, System.nextSender, System.nextLate, hs]
      · simp [System.executing, System.nextSender, System.nextLate, hs]
      · simp only [System.executing, System.nextSender, System.nextLate, hs, Sender.attemptsLeft,
          Option.map_none, Option.toList_none, List.countP_nil]
        omega
    | _ => simp [System.executing, System.nextSender, System.nextLate, hs]
  | fail error late =>
    cases hs : s.sender with
    | calling req attempt reply =>
      have hpaid := attempts_fail hs error late key
      rw [show (s.executing (.fail error late)).map Prod.snd = none from rfl,
        Option.toList_none, List.countP_nil]
      omega
    | _ => simp [System.executing, System.nextSender, System.nextLate, hs]
  | arrive i now =>
    have hlate := countP_eraseIdx (isFor key) s.late i
    have hexec : ((s.executing (.arrive i now)).map Prod.snd) = s.late[i]? := by
      simp [System.executing, Option.map_map, Function.comp_def]
    rw [hexec]
    simp only [System.nextSender, System.nextLate, System.takes, Option.toList_none,
      List.countP_nil]
    omega
  | _ => simp [System.executing, System.nextSender, System.nextLate]

/-! ### Every run -/

theorem taken_append_singleton (ops : List Op) (op : Op) :
    c.taken (ops ++ [op]) = c.taken ops ++ ((c.system.run ops).takes op).toList := by
  rw [Setup.taken, Machine.events_append_singleton]
  cases op <;> rfl

/-- What has been executed since a state was reached was left to execute there, or was taken
from the channel since. -/
theorem programmedFor_append_le (ops ops' : List Op) (key : FlowKey) :
    c.programmedFor (ops ++ ops') key + (c.system.run (ops ++ ops')).sender.attemptsLeft key
        + (c.system.run (ops ++ ops')).late.countP (isFor key)
        + maxRetries * (c.taken ops).countP (isFor key)
      ≤ c.programmedFor ops key + (c.system.run ops).sender.attemptsLeft key
        + (c.system.run ops).late.countP (isFor key)
        + maxRetries * (c.taken (ops ++ ops')).countP (isFor key) := by
  induction ops' using List.reverseRecOn with
  | nil => rw [List.append_nil]
  | append_singleton ops' op ih =>
    have hstep := attempts_step (c.system.run (ops ++ ops')) op key
    rw [← List.append_assoc, Machine.run_append_singleton, taken_append_singleton,
      Setup.programmedFor, Setup.executions, Machine.events_append_singleton, List.countP_append,
      List.countP_append, ← Setup.executions, ← Setup.programmedFor]
    rw [Nat.mul_add]
    show _ + _ + ((c.system.run (ops ++ ops')).nextSender op).2.attemptsLeft key
      + ((c.system.run (ops ++ ops')).nextLate op).countP (isFor key) + _ ≤ _
    omega

/-- **A flow is programmed at most three times**, whatever is lost and however late it comes.
Once it has been offloaded, what is pending for it is all that can still be executed: with
nothing pending, a session that has been flushed is never programmed again. -/
theorem programmed_at_most (ops : List Op) (key : FlowKey) :
    c.programmedFor ops key + (c.system.run ops).pending key ≤ maxRetries ∧
    (key ∈ offloadVerdicts c.pipeline (c.pipelineOps ops) → ∀ ops',
      c.programmedFor (ops ++ ops') key
        ≤ c.programmedFor ops key + (c.system.run ops).pending key) := by
  have haccepted : ∀ ops, acceptedFor c.pipeline (c.pipelineOps ops) key
      = (c.taken ops).countP (isFor key)
        + (c.system.run ops).queued.countP (isFor key) := by
    intro ops
    rw [acceptedFor, accepted_eq_taken_append, List.countP_append]
    rfl
  constructor
  · have hrun := programmedFor_append_le c [] ops key
    have hone := (acceptedFor_le c (c.pipelineOps ops) [] key).1
    have hstart : c.programmedFor [] key = 0 ∧
        (c.system.run []).sender.attemptsLeft key = 0 ∧
        (c.system.run []).late.countP (isFor key) = 0 ∧
        (c.taken []).countP (isFor key) = 0 := ⟨rfl, rfl, rfl, rfl⟩
    obtain ⟨h1, h2, h3, h4⟩ := hstart
    rw [haccepted] at hone
    rw [List.nil_append, h1, h2, h3, h4] at hrun
    rw [System.pending]
    simp only [maxRetries] at hrun ⊢
    omega
  · intro hkey ops'
    have hrun := programmedFor_append_le c ops ops' key
    obtain ⟨later, hlater⟩ := Machine.events_append_prefix c.system
      (fun s op _ => s.pipelineInput op) ops ops'
    have hle := (acceptedFor_le c (c.pipelineOps ops) later key).2 hkey
    rw [show c.pipelineOps ops ++ later = c.pipelineOps (ops ++ ops') from hlater.symm, haccepted,
      haccepted] at hle
    rw [System.pending]
    simp only [maxRetries] at hrun ⊢
    omega

end PrismFirewall.OffloadSystem
