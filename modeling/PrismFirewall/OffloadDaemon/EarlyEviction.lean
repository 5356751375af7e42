import PrismFirewall.OffloadDaemon.Flush

/-!
# Early evictions

The tracker of the aging loop is kept by the text of the session key.  A session that is
programmed while the tracker still holds an older session's baseline under that text (the
old one was programmed over, or flushed and not yet forgotten by a sweep) inherits the
baseline, and is evicted as if it had stood idle since then.

A run is without queries here, so counters stay at zero, and its times do not decrease
(`Timely`).  `NotEarly d now` says that a sweep at `now` would keep every session younger
than the timeout; `not_early_iff` says that it holds at every point of a run exactly if no
programming finds an older baseline (`NoOldBaseline`).
-/

namespace PrismFirewall.OffloadDaemon

open PrismFirewall.Lib (Dict Machine)

def Op.time : Op → Option Nanos
  | .programSession now _ => some now
  | .flushSessions _ => none
  | .querySession now _ => some now
  | .sweep now => some now

/-- The times of a run. -/
def times (ops : List Op) : List Nanos := ops.filterMap Op.time

/-- Times do not decrease along the run. -/
def Timely (ops : List Op) : Prop := (times ops).Pairwise (· ≤ ·)

instance (ops : List Op) : Decidable (Timely ops) := inferInstanceAs (Decidable (List.Pairwise _ _))

theorem times_append (ops ops' : List Op) : times (ops ++ ops') = times ops ++ times ops' :=
  List.filterMap_append

/-- The time of an operation is not before those of the operations before it. -/
theorem Timely.le_of_append {ops : List Op} {op : Op} {post : List Op}
    (h : Timely (ops ++ op :: post)) {now : Nanos} (hnow : op.time = some now) :
    ∀ t ∈ times ops, t ≤ now := by
  intro t ht
  rw [Timely, times_append] at h
  refine (List.pairwise_append.mp h).2.2 t ht now ?_
  exact List.mem_filterMap.mpr ⟨op, List.mem_cons_self, hnow⟩

theorem Timely.of_append {ops ops' : List Op} (h : Timely (ops ++ ops')) : Timely ops := by
  rw [Timely, times_append] at h
  exact (List.pairwise_append.mp h).1

/-- A sweep at `now` evicts no session that was created less than the timeout before, if its
hardware entry is there. -/
def NotEarly (ager : SessionAger) (d : Daemon) (now : Nanos) : Prop :=
  ∀ k e, d.service.sessionTable.map.get? k = some e →
    e.entryHandle ∈ d.service.docaManager.entries → now < e.createdAt + ager.idleTimeout →
    (ager.sweep d.service now d.tracker).1.sessionTable.map.get? k = some e

/-- No session is programmed under a text whose baseline is older than the session. -/
def NoOldBaseline (ager : SessionAger) (d : Daemon) : Op → Prop
  | .programSession now req => ager.idleTimeout = 0 ∨
    ∀ k ∈ d.service.programmedTexts req, ∀ b ∈ d.tracker.get? k, now ≤ b.2
  | _ => True

instance (ager : SessionAger) (d : Daemon) : (op : Op) → Decidable (NoOldBaseline ager d op)
  | .programSession _ _ => inferInstanceAs (Decidable (_ ∨ ∀ k ∈ _, ∀ b ∈ _, _))
  | .flushSessions _ => inferInstanceAs (Decidable True)
  | .querySession _ _ => inferInstanceAs (Decidable True)
  | .sweep _ => inferInstanceAs (Decidable True)

/-! ### Without queries -/

/-- The state after a run without queries: sessions are as old as an operation of the run,
and nothing has been counted. -/
structure Quiet (ops : List Op) (d : Daemon) : Prop where
  created : ∀ k e, d.service.sessionTable.map.get? k = some e → e.createdAt ∈ times ops
  hardware : ∀ h entry, d.service.docaManager.entries.get? h = some entry → entry.packets = 0
  tracker : ∀ k b, d.tracker.get? k = some b → b.1 = 0

variable {ops : List Op} {d : Daemon} {ager : SessionAger}

theorem mem_times_append {ops : List Op} {t : Nanos} (h : t ∈ times ops) (op : Op) :
    t ∈ times (ops ++ [op]) := by
  rw [times_append]
  exact List.mem_append_left _ h

theorem Quiet.programSession (h : Quiet ops d) (checked : Bool) (ager : SessionAger)
    (now : Nanos) (req : ProgramSessionRequest) :
    Quiet (ops ++ [.programSession now req])
      (d.step checked ager (.programSession now req)).2 where
  created := by
    intro k e he
    have he' : (d.service.programSession now req).2.sessionTable.map.get? k = some e := he
    have htable := d.service.get?_programSession now req k
    split at htable
    · obtain ⟨e', hget, hnow, -⟩ := htable
      obtain rfl := Option.some.inj (hget.symm.trans he')
      rw [hnow, times_append]
      exact List.mem_append_right _ List.mem_cons_self
    · rw [htable] at he'
      exact mem_times_append (h.created k e he') _
  hardware := by
    intro handle entry hentry
    have hentry' : (d.service.programSession now req).2.docaManager.entries.get? handle
        = some entry := hentry
    have hhw := d.service.get?_entries_programSession now req handle
    split at hhw
    · obtain ⟨entry', hget, hzero⟩ := hhw
      obtain rfl := Option.some.inj (hget.symm.trans hentry')
      exact hzero
    · rw [hhw] at hentry'
      exact h.hardware handle entry hentry'
  tracker := h.tracker

theorem Quiet.flushSessions (h : Quiet ops d) (checked : Bool) (ager : SessionAger)
    (req : FlushSessionsRequest) :
    Quiet (ops ++ [.flushSessions req]) (d.step checked ager (.flushSessions req)).2 := by
  obtain ⟨htable, hhw⟩ := d.service.get?_of_flushSessions req
  exact ⟨fun k e he => mem_times_append (h.created k e (htable k e he)) _,
    fun handle entry hentry => h.hardware handle entry (hhw handle entry hentry), h.tracker⟩

theorem Quiet.sweep (h : Quiet ops d) (checked : Bool) (ager : SessionAger) (now : Nanos) :
    Quiet (ops ++ [.sweep now]) (d.step checked ager (.sweep now)).2 where
  created := by
    intro k e he
    have hkeep := (ager.get?_sweep now d.service d.tracker).mp he
    exact mem_times_append (h.created k e hkeep.1) _
  hardware := by
    intro handle entry hentry
    have hentry' : (ager.sweep d.service now d.tracker).1.docaManager.entries.get? handle
        = some entry := hentry
    rw [SessionAger.sweep_fst] at hentry'
    exact h.hardware handle entry
      ((DocaFlowManager.foldl_removeBoth_frame _ _).2.2 handle entry hentry')
  tracker := by
    intro k b hb
    have hb' : (ager.sweep d.service now d.tracker).2.get? k = some b := hb
    obtain ⟨e, he⟩ := ager.get?_sweep_of_tracker now d.service d.tracker hb'
    obtain ⟨entry, f, -, hentry, htracker, -⟩ := ager.exists_baseline_of_kept now _ _ he
    rw [Option.some.inj (hb'.symm.trans htracker)]
    exact h.hardware _ entry hentry

theorem quiet_run (checked : Bool) (ager : SessionAger) (ops : List Op) :
    (∀ op ∈ ops, op.isQuery = false) → Quiet ops ((daemon checked ager).run ops) := by
  induction ops using List.reverseRecOn with
  | nil =>
    intro _
    refine ⟨fun k e he => ?_, fun handle entry he => ?_, fun k b hb => ?_⟩
    · cases he
    · cases he
    · cases hb
  | append_singleton ops op ih =>
    intro hq
    have h := ih (fun op' hop' => hq op' (List.mem_append_left _ hop'))
    rw [Machine.run_append_singleton]
    cases op with
    | programSession now req => exact h.programSession checked ager now req
    | flushSessions req => exact h.flushSessions checked ager req
    | querySession now req => exact absurd (hq _ List.mem_concat_self) (by simp [Op.isQuery])
    | sweep now => exact h.sweep checked ager now

/-! ### Baselines are younger than their sessions -/

/-- The tracker has seen each session of the table after it was created. -/
def SeenAfterCreation (ager : SessionAger) (d : Daemon) : Prop :=
  ager.idleTimeout = 0 ∨ ∀ k e b, d.service.sessionTable.map.get? k = some e →
    d.tracker.get? k = some b → e.createdAt ≤ b.2

theorem SeenAfterCreation.programSession (h : SeenAfterCreation ager d) (checked : Bool)
    {now : Nanos} {req : ProgramSessionRequest}
    (hold : NoOldBaseline ager d (.programSession now req)) :
    SeenAfterCreation ager (d.step checked ager (.programSession now req)).2 := by
  rcases h with h | h
  · exact Or.inl h
  rcases hold with hold | hold
  · exact Or.inl hold
  refine Or.inr (fun k e b he hb => ?_)
  have he' : (d.service.programSession now req).2.sessionTable.map.get? k = some e := he
  have htable := d.service.get?_programSession now req k
  split at htable
  · rename_i hk
    obtain ⟨e', hget, hnow, -⟩ := htable
    obtain rfl := Option.some.inj (hget.symm.trans he')
    rw [hnow]
    exact hold k hk b hb
  · rw [htable] at he'
    exact h k e b he' hb

theorem SeenAfterCreation.flushSessions (h : SeenAfterCreation ager d) (checked : Bool)
    (req : FlushSessionsRequest) :
    SeenAfterCreation ager (d.step checked ager (.flushSessions req)).2 := by
  obtain ⟨htable, -⟩ := d.service.get?_of_flushSessions req
  exact h.imp_right (fun h k e b he hb => h k e b (htable k e he) hb)

/-- A baseline is either the old one, or as young as the sweep. -/
theorem SeenAfterCreation.sweep (h : SeenAfterCreation ager d) (checked : Bool) {now : Nanos}
    (hnow : ∀ k e, d.service.sessionTable.map.get? k = some e → e.createdAt ≤ now) :
    SeenAfterCreation ager (d.step checked ager (.sweep now)).2 := by
  rcases h with h | h
  · exact Or.inl h
  refine Or.inr (fun k e b he hb => ?_)
  have he' : (ager.sweep d.service now d.tracker).1.sessionTable.map.get? k = some e := he
  have hkeep := (ager.get?_sweep now d.service d.tracker).mp he'
  obtain ⟨entry, f, -, -, htracker, hf⟩ := ager.exists_baseline_of_kept now _ _ he'
  rw [Option.some.inj (hb.symm.trans htracker)]
  rcases hf with rfl | hf
  · exact hnow k e hkeep.1
  · exact h k e _ hkeep.1 hf

theorem seenAfterCreation_run (checked : Bool) (ager : SessionAger) (ops : List Op) :
    (∀ op ∈ ops, op.isQuery = false) → Timely ops →
    (daemon checked ager).Meets (NoOldBaseline ager) ops →
    SeenAfterCreation ager ((daemon checked ager).run ops) := by
  induction ops using List.reverseRecOn with
  | nil => exact fun _ _ _ => Or.inr (fun k e b he hb => by cases hb)
  | append_singleton ops op ih =>
    intro hq ht hmeets
    have hq' : ∀ op' ∈ ops, op'.isQuery = false :=
      fun op' hop' => hq op' (List.mem_append_left _ hop')
    obtain ⟨hmeets, hop⟩ := (daemon checked ager).meets_append_singleton.mp hmeets
    have h := ih hq' ht.of_append hmeets
    rw [Machine.run_append_singleton]
    cases op with
    | programSession now req => exact h.programSession checked hop
    | flushSessions req => exact h.flushSessions checked req
    | querySession now req => exact absurd (hq _ List.mem_concat_self) (by simp [Op.isQuery])
    | sweep now =>
      refine h.sweep checked (fun k e he => ?_)
      exact ht.le_of_append rfl e.createdAt ((quiet_run checked ager ops hq').created k e he)

/-! ### One sweep -/

/-- Whoever has stood still since `f` for the whole timeout is at least that old. -/
theorem old_of_idle {created f now timeout : Nat} (hcreated : created ≤ now)
    (hf : timeout = 0 ∨ created ≤ f) (hidle : timeout ≤ now - f) : created + timeout ≤ now := by
  omega

theorem SeenAfterCreation.notEarly (h : SeenAfterCreation ager d)
    (hp : d.service.docaManager.poisoned = false) {now : Nanos}
    (hnow : ∀ k e, d.service.sessionTable.map.get? k = some e → e.createdAt ≤ now) :
    NotEarly ager d now := by
  intro k e he hin hyoung
  refine (ager.get?_sweep now d.service d.tracker).mpr ⟨he, ?_⟩
  by_contra hev
  rw [Bool.not_eq_false] at hev
  obtain ⟨entry, hentry⟩ := Dict.mem_iff_get?.mp hin
  obtain ⟨f, htracker, hidle⟩ := ager.baseline_of_shouldEvict now hp hentry hev
  have hf : ager.idleTimeout = 0 ∨ e.createdAt ≤ f := h.imp_right (fun h => h k e _ he htracker)
  exact Nat.not_lt.mpr (old_of_idle (hnow k e he) hf hidle) hyoung

/-- A session that inherits an older baseline is evicted before its time. -/
theorem not_notEarly_of_baseline (hp : d.service.docaManager.poisoned = false) {now t : Nanos}
    {k : String} {e : SessionEntry} {entry : MockHwEntry} {f : Nanos}
    (he : d.service.sessionTable.map.get? k = some e) (hnow : e.createdAt = now)
    (hentry : d.service.docaManager.entries.get? e.entryHandle = some entry)
    (hbase : d.tracker.get? k = some (entry.packets, f)) (hold : f + ager.idleTimeout ≤ t)
    (hyoung : t < now + ager.idleTimeout) : ¬ NotEarly ager d t := by
  intro h
  rw [← hnow] at hyoung
  have hkeep := h k e he (Dict.mem_of_get? hentry) hyoung
  have hev := ((ager.get?_sweep t d.service d.tracker).mp hkeep).2
  rw [SessionAger.shouldEvict, DocaFlowManager.querySessionCounters_of_get? hp hentry] at hev
  simp only [hbase, true_and, decide_eq_false_iff_not] at hev
  exact hev (Nat.le_sub_of_add_le (Nat.add_comm f _ ▸ hold))

/-- **A programming that finds an older baseline** files a session that inherits it: a sweep at
the time when that baseline is due evicts the session early. -/
theorem exists_not_notEarly (checked : Bool) (ager : SessionAger) {pre : List Op}
    (hq : ∀ op ∈ pre, op.isQuery = false) {now : Nanos} {req : ProgramSessionRequest}
    (hnot : ¬ NoOldBaseline ager ((daemon checked ager).run pre) (.programSession now req)) :
    ∃ t, now ≤ t ∧
      ¬ NotEarly ager ((daemon checked ager).run (pre ++ [.programSession now req])) t := by
  simp only [NoOldBaseline, not_or, not_forall, Nat.not_le] at hnot
  obtain ⟨hpos, k, hk, b, hb, hlt⟩ := hnot
  have hquiet := quiet_run checked ager pre hq
  have hp := run_not_poisoned checked ager pre hq
  have htable := OffloadServiceImpl.get?_programSession
    ((daemon checked ager).run pre).service now req k
  rw [if_pos hk] at htable
  obtain ⟨e, he, hnow, hhandle⟩ := htable
  have hhw := OffloadServiceImpl.get?_entries_programSession
    ((daemon checked ager).run pre).service now req e.entryHandle
  rw [if_pos hhandle] at hhw
  obtain ⟨entry, hentry, hzero⟩ := hhw
  have hrun : (daemon checked ager).run (pre ++ [.programSession now req])
      = ⟨(((daemon checked ager).run pre).service.programSession now req).2,
          ((daemon checked ager).run pre).tracker⟩ :=
    Machine.run_append_singleton _ pre _
  refine ⟨max now (b.2 + ager.idleTimeout), Nat.le_max_left _ _, ?_⟩
  rw [hrun]
  refine not_notEarly_of_baseline ?_ he hnow hentry ?_ (Nat.le_max_right _ _) ?_
  · exact (programSession_poisoned_eq _ now req).trans hp
  · rw [hzero, ← hquiet.tracker k b hb]
    exact hb
  · exact Nat.max_lt.mpr ⟨Nat.lt_add_of_pos_right (Nat.pos_of_ne_zero hpos),
      Nat.add_lt_add_right hlt _⟩

/-! ### Every run -/

/-- **Aging never evicts early exactly if no session inherits an older baseline.**  At every
point of a run of programmings, flushes and sweeps at non-decreasing times, a sweep keeps
the sessions younger than the timeout, if and only if no programming of the run finds an
older baseline under a text it files a session under. -/
theorem not_early_iff (checked : Bool) (ager : SessionAger) (ops : List Op)
    (hq : ∀ op ∈ ops, op.isQuery = false) (ht : Timely ops) :
    (∀ pre post now, ops = pre ++ post → (∀ t ∈ times pre, t ≤ now) →
      NotEarly ager ((daemon checked ager).run pre) now) ↔
    (daemon checked ager).Meets (NoOldBaseline ager) ops := by
  constructor
  · intro h pre op post e
    subst e
    cases op with
    | flushSessions req => exact trivial
    | querySession now req => exact trivial
    | sweep now => exact trivial
    | programSession now req =>
      have hq' : ∀ op ∈ pre, op.isQuery = false := fun op hop => hq op (List.mem_append_left _ hop)
      by_contra hnot
      obtain ⟨t, hle, hearly⟩ := exists_not_notEarly checked ager hq' hnot
      refine hearly (h (pre ++ [.programSession now req]) post t (by simp) (fun t' htime => ?_))
      refine Nat.le_trans ?_ hle
      rw [times_append, List.mem_append] at htime
      rcases htime with htime | htime
      · exact ht.le_of_append rfl t' htime
      · exact Nat.le_of_eq (List.mem_singleton.mp htime)
  · intro h pre post now e hnow
    subst e
    have hq' : ∀ op ∈ pre, op.isQuery = false := fun op hop => hq op (List.mem_append_left _ hop)
    have hseen := seenAfterCreation_run checked ager pre hq' ht.of_append h.of_append
    refine hseen.notEarly (run_not_poisoned checked ager pre hq') (fun k e he => ?_)
    exact hnow e.createdAt ((quiet_run checked ager pre hq').created k e he)

/-- A flushed session is forgotten by a sweep before it is programmed again. -/
def forgottenBetween : List Op :=
  [.programSession 0 (sampleRequest true), .sweep 0, .flushSessions ⟨some (.All true)⟩,
    .sweep 1000000000, .programSession 59000000000 (sampleRequest true), .sweep 60000000000]

theorem not_early_iff_forgottenBetween :
    (∀ op ∈ forgottenBetween, op.isQuery = false) ∧ Timely forgottenBetween ∧
    (daemon true defaultAger).Meets (NoOldBaseline defaultAger) forgottenBetween ∧
    ∀ pre post now, forgottenBetween = pre ++ post → (∀ t ∈ times pre, t ≤ now) →
      NotEarly defaultAger ((daemon true defaultAger).run pre) now := by
  have hq : ∀ op ∈ forgottenBetween, op.isQuery = false := by decide
  have ht : Timely forgottenBetween := by decide
  have hmeets : (daemon true defaultAger).Meets (NoOldBaseline defaultAger) forgottenBetween :=
    Machine.meets_of_meetsFrom _ (by decide +kernel)
  exact ⟨hq, ht, hmeets, (not_early_iff true defaultAger forgottenBetween hq ht).mpr hmeets⟩

/-- A session is programmed over 59 seconds after a sweep has seen it. -/
def replacedAfterSweep : List Op :=
  [.programSession 0 (sampleRequest false), .sweep 0,
    .programSession 59000000000 (sampleRequest false)]

/-- A session is flushed and programmed again, with no sweep in between. -/
def flushedAndProgrammed : List Op :=
  [.programSession 0 (sampleRequest false), .sweep 0, .flushSessions ⟨some (.All true)⟩,
    .programSession 59000000000 (sampleRequest false)]

/-- Both sessions are one second old when the sweep after 60 seconds evicts them; the
timeout is 60 seconds. -/
theorem evicted_after_one_second :
    Timely (replacedAfterSweep ++ [.sweep 60000000000]) ∧
    ¬ NotEarly defaultAger ((daemon true defaultAger).run replacedAfterSweep) 60000000000 ∧
    Timely (flushedAndProgrammed ++ [.sweep 60000000000]) ∧
    ¬ NotEarly defaultAger ((daemon true defaultAger).run flushedAndProgrammed) 60000000000 := by
  have hlost : ∀ d : Daemon, (∃ x ∈ d.service.sessionTable.map.entries,
      x.2.entryHandle ∈ d.service.docaManager.entries ∧
      60000000000 < x.2.createdAt + defaultAger.idleTimeout ∧
      (defaultAger.sweep d.service 60000000000 d.tracker).1.sessionTable.map.get? x.1
        ≠ some x.2) → ¬ NotEarly defaultAger d 60000000000 := by
    rintro d ⟨x, hx, hin, hyoung, hgone⟩ h
    exact hgone (h x.1 x.2 (Dict.mem_entries_iff.mp hx) hin hyoung)
  refine ⟨by decide, hlost _ ?_, by decide, hlost _ ?_⟩
  · decide +kernel
  · decide +kernel

end PrismFirewall.OffloadDaemon
