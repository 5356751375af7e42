import Mathlib.Algebra.BigOperators.Group.Finset.Basic
import Mathlib.Algebra.Order.BigOperators.Group.Finset
import PrismFirewall.OffloadSystem.Admission
import PrismFirewall.OffloadSystem.Programmings

/-!
# How much hardware the offloads take

The mock hardware has no bound, so nothing in the code tells how many entries a run can
program.  An execution programs two, a flow's request is executed at most three times, and
only what is removed makes room: `hardware_size_le`.
-/

namespace PrismFirewall.OffloadSystem

open Lib
open PrismFirewall.Datapath
open PrismFirewall.OffloadDaemon (DocaFlowManager OffloadServiceImpl SessionAger drawn
  mem_entries_programSession)

/-- A list in which nothing has more than `n` elements has at most `n` times as many elements as
there are things that have one. -/
theorem length_le_mul_of_countP_le {α β : Type*} [DecidableEq α] {n : Nat} (l : List β) (f : β → α)
    (h : ∀ a, l.countP (fun b => decide (f b = a)) ≤ n) :
    l.length ≤ n * (l.map f).toFinset.card := by
  rw [← List.length_map f, ← List.sum_toFinset_count_eq_length, Nat.mul_comm]
  refine Finset.sum_le_card_nsmul _ _ _ (fun a _ => ?_)
  rw [List.count, List.countP_map]
  refine Nat.le_trans (Nat.le_of_eq (List.countP_congr (fun b _ => ?_))) (h a)
  simp

theorem size_le_of_mem {κ ν : Type*} [DecidableEq κ] {d : Dict κ ν} {ks : List κ}
    (h : ∀ k ∈ d, k ∈ ks) : d.size ≤ ks.length := by
  have hle := (List.Nodup.subperm d.nodup h).length_le
  rw [List.length_map] at hle
  exact hle

/-- The operation is a programming. -/
def isProgram : OffloadDaemon.Op → Bool
  | .programSession _ _ => true
  | _ => false

theorem length_drawn_le (d : OffloadDaemon.Daemon) (op : OffloadDaemon.Op) :
    (drawn d op).length ≤ 2 * if isProgram op then 1 else 0 := by
  cases op with
  | programSession now req =>
    show (d.service.programmedHandles req).length ≤ 2
    unfold OffloadServiceImpl.programmedHandles
    split
    · exact Nat.zero_le 2
    · split
      · exact Nat.le_refl 2
      · exact Nat.le_succ 1
  | _ => exact Nat.le_refl 0

/-- Nothing is programmed but under the handles that are drawn. -/
theorem mem_entries_step {checked : Bool} {ager : SessionAger} {d : OffloadDaemon.Daemon}
    {op : OffloadDaemon.Op} {h : UInt64}
    (hh : h ∈ (d.step checked ager op).2.service.docaManager.entries) :
    h ∈ drawn d op ∨ h ∈ d.service.docaManager.entries := by
  cases op with
  | programSession now req => exact (mem_entries_programSession d.service now req h).mp hh
  | flushSessions req =>
    obtain ⟨entry, hentry⟩ := Dict.mem_iff_get?.mp hh
    exact Or.inr (Dict.mem_of_get? ((d.service.get?_of_flushSessions req).2 h entry hentry))
  | querySession now req =>
    exact Or.inr (((d.service.querySession_frame checked now req).2.2 h).mp hh)
  | sweep now =>
    have hsweep : h ∈ (ager.sweep d.service now d.tracker).1.docaManager.entries := hh
    rw [SessionAger.sweep_fst] at hsweep
    exact Or.inr (DocaFlowManager.mem_of_mem_foldl_removeBoth hsweep)

/-- The daemon programs at most two entries for each request. -/
theorem size_entries_le (checked : Bool) (ager : SessionAger) (ops : List OffloadDaemon.Op) :
    ((OffloadDaemon.daemon checked ager).run ops).service.docaManager.entries.size
      ≤ 2 * ops.countP isProgram := by
  refine Machine.run_induction (M := OffloadDaemon.daemon checked ager)
    (P := fun ops d => d.service.docaManager.entries.size ≤ 2 * ops.countP isProgram)
    (Nat.le_refl 0) (fun ops op d ih => ?_) ops
  have hsize : ((OffloadDaemon.daemon checked ager).step d op).2.service.docaManager.entries.size
      ≤ (drawn d op ++ d.service.docaManager.entries.keys).length :=
    size_le_of_mem (fun h hh => List.mem_append.mpr (mem_entries_step hh))
  have hdrawn := length_drawn_le d op
  rw [List.length_append, show d.service.docaManager.entries.keys.length
    = d.service.docaManager.entries.size from List.length_map ..] at hsize
  rw [List.countP_append, List.countP_singleton]
  omega

theorem countP_daemonOps (c : Setup) (ops : List Op) :
    (c.daemonOps ops).countP isProgram = (c.executions ops).length := by
  induction ops using List.reverseRecOn with
  | nil => rfl
  | append_singleton ops op ih =>
    rw [Setup.daemonOps, Setup.executions, Machine.events_append_singleton,
      Machine.events_append_singleton, List.countP_append, List.length_append, ← Setup.daemonOps,
      ← Setup.executions, ih]
    have hone : (((c.system.run ops).daemonInput op).toList.countP isProgram)
        = (((c.system.run ops).executing op).map Prod.snd).toList.length := by
      cases op with
      | execute now =>
        show ((((c.system.run ops).executing (.execute now)).map _).toList.countP isProgram) = _
        cases (c.system.run ops).executing (.execute now) <;> rfl
      | arrive i now =>
        show ((((c.system.run ops).executing (.arrive i now)).map _).toList.countP isProgram) = _
        cases (c.system.run ops).executing (.arrive i now) <;> rfl
      | _ => rfl
    rw [hone]

/-- **The hardware never holds more than six entries for each flow that has been offloaded**,
whatever is lost, repeated or late, and even if nothing is ever removed. -/
theorem hardware_size_le (c : Setup) (ops : List Op) :
    (c.system.run ops).daemon.service.docaManager.entries.size
      ≤ 2 * maxRetries * (offloadVerdicts c.pipeline (c.pipelineOps ops)).toFinset.card := by
  have hsize := size_entries_le c.checked c.ager (c.daemonOps ops)
  rw [countP_daemonOps] at hsize
  have hcount : ∀ key, (c.executions ops).countP (fun req => decide (req.flow = key))
      ≤ maxRetries := by
    intro key
    have hmost := (programmed_at_most c ops key).1
    exact Nat.le_trans (Nat.le_add_right _ _) hmost
  have hlength := length_le_mul_of_countP_le _ _ hcount
  have hsub : ((c.executions ops).map OffloadRequest.flow).toFinset
      ⊆ (offloadVerdicts c.pipeline (c.pipelineOps ops)).toFinset := by
    intro key hkey
    obtain ⟨req, hreq, rfl⟩ := List.mem_map.mp (List.mem_toFinset.mp hkey)
    refine List.mem_toFinset.mpr (admitted_of_accepted _ req ?_).1
    rw [accepted_eq_taken_append]
    exact List.mem_append_left _ ((taken_of_task c ops).2 req hreq)
  have hcard := Finset.card_le_card hsub
  rw [c.run_daemon]
  calc ((OffloadDaemon.daemon c.checked c.ager).run (c.daemonOps ops)
        ).service.docaManager.entries.size
      ≤ 2 * (c.executions ops).length := hsize
    _ ≤ 2 * (maxRetries * ((c.executions ops).map OffloadRequest.flow).toFinset.card) :=
        Nat.mul_le_mul_left 2 hlength
    _ ≤ 2 * (maxRetries
          * (offloadVerdicts c.pipeline (c.pipelineOps ops)).toFinset.card) :=
        Nat.mul_le_mul_left 2 (Nat.mul_le_mul_left maxRetries hcard)
    _ = 2 * maxRetries * (offloadVerdicts c.pipeline (c.pipelineOps ops)).toFinset.card :=
        (Nat.mul_assoc _ _ _).symm

end PrismFirewall.OffloadSystem
