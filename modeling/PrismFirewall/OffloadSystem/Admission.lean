import PrismFirewall.OffloadDaemon.Provenance
import PrismFirewall.OffloadSystem.System

/-!
# What the hardware may forward

The hardware forwards without asking the access list.  In every state of the system, with
requests lost, repeated and late, and with flushes, queries and sweeps in between, each of
its entries is for a flow that a rule of the access list lets through and allows to offload,
or for the other direction of such a flow (`hardware_admitted`); the daemon's table names the
place of that rule.
-/

namespace PrismFirewall.OffloadSystem

open Lib
open PrismFirewall.Datapath
open PrismFirewall.OffloadDaemon (MockHwEntry SessionEntry sessionKeyString reverseKey HwFrom
  EntryFrom from_requests)

variable (c : Setup)

/-- The rule at place `i` lets the flow of the request through and allows to offload it. -/
structure Admitted (req : OffloadRequest) (i : Nat) (r : AclRule) : Prop where
  rule : c.acl.rules[i]? = some r
  matched : c.acl.matched c.checked req.tuple = some r
  allowed : r.action ≠ .Deny
  eligible : r.offloadEligible = true
  eq : req = ⟨req.vni, req.tuple, .Forward, true, some i⟩

variable {c}

/-- The next step of the pipeline is a panic, or it adds what `newlyAccepted` says. -/
theorem mem_accepted_append_singleton {ops : List Datapath.Op} {op : Datapath.Op}
    {req : OffloadRequest} (h : req ∈ accepted c.pipeline (ops ++ [op])) :
    req ∈ accepted c.pipeline ops ∨ ∃ p o p', c.pipeline.run ops = some p ∧
      p.apply c.checked op = some (o, p') ∧ req ∈ newlyAccepted p.offloadTx op o := by
  have hkeep : req ∈ c.pipeline.events (fun s op _ => receivedRequest s op) ops →
      req ∈ accepted c.pipeline ops := fun hmem => List.mem_append_left _ hmem
  cases hr : c.pipeline.run ops with
  | none =>
    have hnone : receivedRequest none op = none := by
      cases op <;> rfl
    rw [accepted, Machine.events_append_singleton, Machine.run_append_singleton, hr, hnone] at h
    refine Or.inl (hkeep ?_)
    simpa [Setup.pipeline, machine] using h
  | some p =>
    cases happly : p.apply c.checked op with
    | none =>
      have hnone : receivedRequest (some p) op = none := by
        cases op with
        | receive => cases happly
        | _ => rfl
      rw [accepted, Machine.events_append_singleton, Machine.run_append_singleton, hr,
        show c.pipeline.step (some p) op = (none, none) from machine_step_of_panic _ happly,
        hnone] at h
      refine Or.inl (hkeep ?_)
      simpa using h
    | some x =>
      rw [show accepted c.pipeline (ops ++ [op]) = _ from accepted_append_singleton hr happly,
        List.mem_append] at h
      rcases h with h | h
      · exact Or.inl h
      · exact Or.inr ⟨p, x.1, x.2, rfl, happly, h⟩

/-- What the channel accepts is admitted, and its flow has been offloaded. -/
theorem admitted_of_accepted (ops : List Datapath.Op) :
    ∀ req ∈ accepted c.pipeline ops, req.flow ∈ offloadVerdicts c.pipeline ops ∧
      ∃ i r, Admitted c req i r := by
  induction ops using List.reverseRecOn with
  | nil => exact fun req hreq => by cases hreq
  | append_singleton ops op ih =>
    intro req hreq
    rw [offloadVerdicts_append_singleton]
    rcases mem_accepted_append_singleton hreq with hreq | ⟨p, o, p', hr, happly, hreq⟩
    · exact ⟨List.mem_append_left _ (ih req hreq).1, (ih req hreq).2⟩
    · have hinv := aclInv_run c.checked c.acl c.minPackets c.idleTimeoutSecs
        ⟨c.capacity, [], false⟩ ops p hr
      rw [hr, show c.pipeline.step (some p) op = (o, some p') from
        machine_step_of_apply _ happly]
      cases op with
      | processPacket vni tuple pktLen now =>
        obtain ⟨v, rfl, hp⟩ := processPacket_of_apply happly
        have hmem : offloadRequest tuple v = some req := by
          simp only [newlyAccepted] at hreq
          split at hreq
          · exact Option.mem_toList.mp hreq
          · cases hreq
        obtain ⟨w, hw, hdeny, hoff, rfl⟩ := (processPacket_offload hp).2 req hmem
        rw [hinv.acl_eq] at hw
        obtain ⟨i, r, rfl, hrule, hmatched⟩ := evaluate_spec c.checked hw hdeny
        refine ⟨List.mem_append_right _ ?_, i, r, hrule, hmatched, hdeny, hoff, rfl⟩
        cases v with
        | OffloadAndForward vni' idx =>
          obtain ⟨rfl, -⟩ := OffloadRequest.mk.inj (Option.some.inj hmem)
          exact List.mem_singleton_self _
        | _ => cases hmem
      | _ => cases hreq

/-! ### The task and the daemon -/

/-- The task and the daemon deal with requests that have been taken from the channel. -/
theorem taken_of_task (c : Setup) (ops : List Op) :
    (∀ req ∈ (c.system.run ops).late, req ∈ c.taken ops) ∧
    ∀ req ∈ c.executions ops, req ∈ c.taken ops := by
  induction ops using List.reverseRecOn with
  | nil => exact ⟨fun req hreq => (by cases hreq), fun req hreq => (by cases hreq)⟩
  | append_singleton ops op ih =>
    obtain ⟨hlate, hexec⟩ := ih
    have hcurrent : ∀ req attempt reply, (c.system.run ops).sender = .calling req attempt reply →
        req ∈ c.taken ops := by
      intro req attempt reply hs
      rw [taken_eq_done_append, hs]
      exact List.mem_append_right _ (List.mem_singleton_self req)
    have hmono : ∀ req ∈ c.taken ops, req ∈ c.taken (ops ++ [op]) := by
      intro req hreq
      rw [Setup.taken, Machine.events_append_singleton]
      exact List.mem_append_left _ hreq
    refine ⟨fun req hreq => hmono req ?_, fun req hreq => hmono req ?_⟩
    · rw [Machine.run_append_singleton] at hreq
      have hnext : req ∈ (c.system.run ops).nextLate op := hreq
      unfold System.nextLate at hnext
      split at hnext
      · split at hnext
        · rename_i req' attempt hs
          split at hnext
          · rcases List.mem_append.mp hnext with hnext | hnext
            · exact hlate req hnext
            · rw [List.mem_singleton.mp hnext]
              exact hcurrent _ _ _ hs
          · exact hlate req hnext
        · exact hlate req hnext
      · exact hlate req (List.mem_of_mem_eraseIdx hnext)
      · exact hlate req hnext
    · rw [Setup.executions, Machine.events_append_singleton, ← Setup.executions] at hreq
      rcases List.mem_append.mp hreq with hreq | hreq
      · exact hexec req hreq
      · obtain ⟨x, hx, rfl⟩ := Option.map_eq_some_iff.mp (Option.mem_toList.mp hreq)
        unfold System.executing at hx
        split at hx
        · split at hx
          · rename_i hs
            rw [← Option.some.inj hx]
            exact hcurrent _ _ _ hs
          · cases hx
        · obtain ⟨req', hget, rfl⟩ := Option.map_eq_some_iff.mp hx
          exact hlate req' (List.mem_of_getElem? hget)
        · cases hx

/-- The daemon is asked to program what is admitted, and nothing else. -/
theorem admitted_of_daemonOps {ops : List Op} {now : OffloadDaemon.Nanos}
    {preq : OffloadDaemon.ProgramSessionRequest}
    (h : OffloadDaemon.Op.programSession now preq ∈ c.daemonOps ops) :
    ∃ req i r, preq = buildProgramRequest req ∧ Admitted c req i r ∧
      req.flow ∈ offloadVerdicts c.pipeline (c.pipelineOps ops) := by
  obtain ⟨ops₁, op, ops₂, rfl, hin⟩ := (Machine.mem_events_iff _).mp h
  have hexec : ∃ x, (c.system.run ops₁).executing op = some x ∧
      preq = buildProgramRequest x.2 := by
    cases op with
    | execute now' =>
      obtain ⟨x, hx, he⟩ := Option.map_eq_some_iff.mp hin
      exact ⟨x, hx, (OffloadDaemon.Op.programSession.inj he).2.symm⟩
    | arrive i now' =>
      obtain ⟨x, hx, he⟩ := Option.map_eq_some_iff.mp hin
      exact ⟨x, hx, (OffloadDaemon.Op.programSession.inj he).2.symm⟩
    | _ => cases hin
  obtain ⟨x, hx, rfl⟩ := hexec
  have hmem : x.2 ∈ c.executions (ops₁ ++ op :: ops₂) :=
    (Machine.mem_events_iff _).mpr ⟨ops₁, op, ops₂, rfl, by rw [hx]; rfl⟩
  have haccepted : x.2 ∈ accepted c.pipeline (c.pipelineOps (ops₁ ++ op :: ops₂)) := by
    rw [accepted_eq_taken_append]
    exact List.mem_append_left _ ((taken_of_task c _).2 _ hmem)
  obtain ⟨hflow, i, r, hadm⟩ := admitted_of_accepted _ _ haccepted
  exact ⟨x.2, i, r, rfl, hadm, hflow⟩

/-- **Whatever is lost, repeated or late, the hardware forwards only what was let through.**
In every state of the system a hardware entry forwards an offloaded flow, or its other
direction, that a rule lets through and allows to offload; an entry of the daemon's table is
filed under such a flow and names the place of that rule. -/
theorem hardware_admitted (c : Setup) (ops : List Op) :
    (∀ h entry, (c.system.run ops).daemon.service.docaManager.entries.get? h = some entry →
      ∃ vni tuple i r, Admitted c ⟨vni, tuple, .Forward, true, some i⟩ i r ∧
        (vni, tuple) ∈ offloadVerdicts c.pipeline (c.pipelineOps ops) ∧
        entry.action = OffloadAction.Forward.number ∧
        (entry.Serves (fiveTupleToSessionKey vni tuple) ∨
          entry.Serves (fiveTupleToSessionKey vni tuple.reverse))) ∧
    ∀ k e, (c.system.run ops).daemon.service.sessionTable.map.get? k = some e →
      ∃ vni tuple i r, Admitted c ⟨vni, tuple, .Forward, true, some i⟩ i r ∧
        (vni, tuple) ∈ offloadVerdicts c.pipeline (c.pipelineOps ops) ∧
        e.ruleId = "rule_" ++ toString i ∧ k = sessionKeyString e.key ∧
        (e.key = fiveTupleToSessionKey vni tuple ∨
          e.key = fiveTupleToSessionKey vni tuple.reverse) := by
  rw [c.run_daemon]
  obtain ⟨hhw, htable⟩ := from_requests c.checked c.ager (c.daemonOps ops)
  refine ⟨fun h entry hentry => ?_, fun k e he => ?_⟩
  · obtain ⟨now, preq, hmem, hfrom⟩ := hhw h entry hentry
    obtain ⟨req, i, r, rfl, hadm, hflow⟩ := admitted_of_daemonOps hmem
    obtain ⟨key, hkey, hserves⟩ := hfrom.serves
    obtain rfl := Option.some.inj hkey
    refine ⟨req.vni, req.tuple, i, r, ?_, hflow, ?_, ?_⟩
    · rw [← hadm.eq]
      exact hadm
    · rw [hfrom.action, hadm.eq]
      rfl
    · rcases hserves with hs | ⟨-, hs⟩
      · exact Or.inl hs
      · exact Or.inr hs
  · obtain ⟨now, preq, hmem, hfrom⟩ := htable k e he
    obtain ⟨req, i, r, rfl, hadm, hflow⟩ := admitted_of_daemonOps hmem
    obtain ⟨key, hkey, -, hkeys⟩ := hfrom.key
    obtain rfl := Option.some.inj hkey
    refine ⟨req.vni, req.tuple, i, r, ?_, hflow, ?_, hfrom.text, ?_⟩
    · rw [← hadm.eq]
      exact hadm
    · rw [hfrom.ruleId, hadm.eq]
      rfl
    · rcases hkeys with hk | ⟨-, hk⟩
      · exact Or.inl hk
      · exact Or.inr hk

end PrismFirewall.OffloadSystem
