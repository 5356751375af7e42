import PrismFirewall.OffloadDaemon.Flush

/-!
# Active directions

Each direction of a session has a table entry and a hardware entry of its own, and the
aging loop judges each by its own packet counter.  An eviction, however, removes the
hardware entry of the other direction too, whether that one stands still or not.

`Watched` is the daemon with what its sweeps have seen: the packet count of a hardware
entry at the last sweep that looked at it.  An entry is active if its count has changed
since (`Active`).  The verdict of a sweep never falls on an active entry itself
(`not_active_of_shouldEvict`), because the tracker holds the count that was seen
(`Remembered`), so an active entry is lost exactly if it is the other direction of one
that is evicted: `sweep_spares_iff`.
-/

namespace PrismFirewall.OffloadDaemon

open PrismFirewall.Lib (Dict Machine)

/-- The daemon, and the packet counts its sweeps have seen. -/
structure Watched where
  daemon : Daemon
  seen : UInt64 → Option UInt64

/-- What is known of a handle after an operation.  A sweep looks at the handles of the
table; a handle that is programmed belongs to a new entry, which nobody has seen. -/
def Watched.see (w : Watched) (op : Op) (h : UInt64) : Option UInt64 :=
  match op with
  | .sweep _ =>
    if h ∈ (SessionAger.sessionKeys w.daemon.service.sessionTable).map Prod.snd then
      match w.daemon.service.docaManager.querySessionCounters h with
      | .ok (packets, _) => some packets
      | .error _ => w.seen h
    else w.seen h
  | .programSession _ req => if h ∈ w.daemon.service.programmedHandles req then none else w.seen h
  | .flushSessions _ => w.seen h
  | .querySession _ _ => w.seen h

def watched (checked : Bool) (ager : SessionAger) : Machine Watched Op Reply where
  init := ⟨(daemon checked ager).init, fun _ => none⟩
  step w op := ((w.daemon.step checked ager op).1, ⟨(w.daemon.step checked ager op).2, w.see op⟩)

/-- Watching changes nothing. -/
theorem watched_run_daemon (checked : Bool) (ager : SessionAger) (ops : List Op) :
    ((watched checked ager).run ops).daemon = (daemon checked ager).run ops := by
  induction ops using List.reverseRecOn with
  | nil => rfl
  | append_singleton ops op ih =>
    rw [Machine.run_append_singleton, Machine.run_append_singleton, ← ih]
    rfl

/-- The hardware entry has counted packets since the last sweep that saw it. -/
def Active (w : Watched) (h : UInt64) : Prop :=
  ∃ c ∈ w.seen h, ∃ entry ∈ w.daemon.service.docaManager.entries.get? h, entry.packets ≠ c

instance (w : Watched) (h : UInt64) : Decidable (Active w h) :=
  inferInstanceAs (Decidable (∃ c ∈ _, ∃ entry ∈ _, _))

/-- A sweep leaves the active entries in hardware. -/
def SparesActive (ager : SessionAger) (w : Watched) : Op → Prop
  | .sweep now => ∀ h, Active w h →
    h ∈ (ager.sweep w.daemon.service now w.daemon.tracker).1.docaManager.entries
  | _ => True

/-- No session that a sweep is to evict has an active other direction (with a poisoned lock
nothing is removed). -/
def PartnersIdle (ager : SessionAger) (w : Watched) : Op → Prop
  | .sweep now => w.daemon.service.docaManager.poisoned = false →
    ∀ x ∈ w.daemon.service.sessionTable.map.entries,
      ager.shouldEvict w.daemon.service.docaManager now w.daemon.tracker (x.1, x.2.entryHandle)
        = true → ∀ h ∈ x.2.reverseHandle, ¬ Active w h
  | _ => True

/-! ### What the tracker remembers -/

/-- For every table entry whose hardware entry has been seen, the tracker holds the count
that was seen. -/
def Remembered (w : Watched) : Prop :=
  ∀ k e c, w.daemon.service.sessionTable.map.get? k = some e → w.seen e.entryHandle = some c →
    ∃ f, w.daemon.tracker.get? k = some (c, f)

variable {w : Watched} {checked : Bool} {ager : SessionAger}

theorem Remembered.programSession (h : Remembered w) (now : Nanos) (req : ProgramSessionRequest) :
    Remembered ((watched checked ager).step w (.programSession now req)).2 := by
  intro k e c he hseen
  have htable := w.daemon.service.get?_programSession now req k
  have hold : e.entryHandle ∉ w.daemon.service.programmedHandles req ∧
      w.seen e.entryHandle = some c := by
    have hs : (if e.entryHandle ∈ w.daemon.service.programmedHandles req then none
      else w.seen e.entryHandle) = some c := hseen
    split at hs
    · cases hs
    · rename_i hnot
      exact ⟨hnot, hs⟩
  have he' : (w.daemon.service.programSession now req).2.sessionTable.map.get? k = some e := he
  split at htable
  · obtain ⟨e', hget, -, hmem⟩ := htable
    obtain rfl := Option.some.inj (hget.symm.trans he')
    exact absurd hmem hold.1
  · rw [htable] at he'
    exact h k e c he' hold.2

theorem Remembered.flushSessions (h : Remembered w) (req : FlushSessionsRequest) :
    Remembered ((watched checked ager).step w (.flushSessions req)).2 := by
  obtain ⟨htable, -⟩ := w.daemon.service.get?_of_flushSessions req
  exact fun k e c he hseen => h k e c (htable k e he) hseen

theorem Remembered.querySession (h : Remembered w) (now : Nanos) (req : QuerySessionRequest) :
    Remembered ((watched checked ager).step w (.querySession now req)).2 := by
  intro k e c he hseen
  obtain ⟨hslots, -⟩ := w.daemon.service.querySession_frame checked now req
  have hslot : (w.daemon.service.querySession checked now req).2.sessionTable.slots k
      = some e.slot := SessionTable.slots_eq_some.mpr ⟨e, he, rfl⟩
  rw [hslots] at hslot
  obtain ⟨e', he', heq⟩ := SessionTable.slots_eq_some.mp hslot
  have hhandle : e'.entryHandle = e.entryHandle := congrArg Lib.Slot.handle heq
  exact h k e' c he' (by rw [hhandle]; exact hseen)

/-- A sweep sees the hardware entries of the sessions it keeps, and writes down what it
sees. -/
theorem Remembered.sweep (now : Nanos) :
    Remembered ((watched checked ager).step w (.sweep now)).2 := by
  intro k e c he hseen
  have he' : (ager.sweep w.daemon.service now w.daemon.tracker).1.sessionTable.map.get? k
      = some e := he
  obtain ⟨entry, f, hq, -, htracker, -⟩ := ager.exists_baseline_of_kept now _ _ he'
  have hlooked : e.entryHandle
      ∈ (SessionAger.sessionKeys w.daemon.service.sessionTable).map Prod.snd := by
    have hget := ((ager.get?_sweep now _ _).mp he').1
    exact List.mem_map.mpr ⟨(k, e.entryHandle),
      List.mem_map.mpr ⟨(k, e), Dict.mem_entries_iff.mpr hget, rfl⟩, rfl⟩
  have hcount : entry.packets = c := by
    have hs : w.see (.sweep now) e.entryHandle = some c := hseen
    simp only [Watched.see, hlooked, if_true, hq, Option.some.injEq] at hs
    exact hs
  rw [← hcount]
  exact ⟨f, htracker⟩

theorem Remembered.step (h : Remembered w) (op : Op) :
    Remembered ((watched checked ager).step w op).2 := by
  cases op with
  | programSession now req => exact h.programSession now req
  | flushSessions req => exact h.flushSessions req
  | querySession now req => exact h.querySession now req
  | sweep now => exact Remembered.sweep now

theorem remembered_run (checked : Bool) (ager : SessionAger) (ops : List Op) :
    Remembered ((watched checked ager).run ops) := by
  refine Machine.run_induction (M := watched checked ager) (P := fun _ w => Remembered w) ?_
    (fun _ op w h => h.step op) ops
  intro k e c _ hseen
  cases hseen

/-! ### One sweep -/

/-- **The verdict never falls on an active entry itself.** -/
theorem Remembered.not_active_of_shouldEvict (h : Remembered w) {now : Nanos}
    (hp : w.daemon.service.docaManager.poisoned = false) {k : String} {e : SessionEntry}
    (he : w.daemon.service.sessionTable.map.get? k = some e)
    (hev : ager.shouldEvict w.daemon.service.docaManager now w.daemon.tracker (k, e.entryHandle)
      = true) : ¬ Active w e.entryHandle := by
  rintro ⟨c, hseen, entry, hentry, hne⟩
  obtain ⟨f, htracker, -⟩ := ager.baseline_of_shouldEvict now hp hentry hev
  obtain ⟨f', htracker'⟩ := h k e c he hseen
  rw [htracker] at htracker'
  exact hne (Prod.mk.inj (Option.some.inj htracker')).1

/-- What a sweep leaves in hardware. -/
theorem mem_entries_sweep {s : OffloadServiceImpl} {tracker : IdleTracker} {now : Nanos}
    (hp : s.docaManager.poisoned = false) (h : UInt64) :
    h ∈ (ager.sweep s now tracker).1.docaManager.entries ↔ h ∈ s.docaManager.entries ∧
      ¬ ∃ k e, s.sessionTable.map.get? k = some e ∧
        ager.shouldEvict s.docaManager now tracker (k, e.entryHandle) = true ∧
        (e.entryHandle = h ∨ e.reverseHandle = some h) := by
  rw [SessionAger.sweep_fst, DocaFlowManager.mem_foldl_removeBoth _ hp]
  refine and_congr_right (fun _ => not_congr ?_)
  simp only [SessionTable.mem_removeKeys_fst, ager.mem_collect_toEvict]
  constructor
  · rintro ⟨x, ⟨k, ⟨e, he, hev⟩, e', he', rfl⟩, hor⟩
    obtain rfl := Option.some.inj (he.symm.trans he')
    exact ⟨k, e, he, hev, hor⟩
  · rintro ⟨k, e, he, hev, hor⟩
    exact ⟨_, ⟨k, ⟨e, he, hev⟩, e, he, rfl⟩, hor⟩

theorem mem_entries_sweep_of_poisoned {s : OffloadServiceImpl} {tracker : IdleTracker}
    {now : Nanos} (hp : s.docaManager.poisoned = true) (h : UInt64)
    (hh : h ∈ s.docaManager.entries) :
    h ∈ (ager.sweep s now tracker).1.docaManager.entries := by
  rw [SessionAger.sweep_fst]
  exact DocaFlowManager.mem_foldl_removeBoth_of_poisoned _ hp hh

/-- **A sweep spares the active entries exactly if no session it evicts has an active other
direction.** -/
theorem Remembered.sparesActive_iff (h : Remembered w) (op : Op) :
    SparesActive ager w op ↔ PartnersIdle ager w op := by
  cases op with
  | programSession now req => exact Iff.rfl
  | flushSessions req => exact Iff.rfl
  | querySession now req => exact Iff.rfl
  | sweep now =>
    constructor
    · intro hs hp x hx hev handle hrev hactive
      have hmem := (mem_entries_sweep hp handle).mp (hs handle hactive)
      exact hmem.2 ⟨x.1, x.2, Dict.mem_entries_iff.mp hx, hev, Or.inr hrev⟩
    · intro hs handle hactive
      obtain ⟨c, hseen, entry, hentry, hne⟩ := id hactive
      have hin : handle ∈ w.daemon.service.docaManager.entries := Dict.mem_of_get? hentry
      cases hp : w.daemon.service.docaManager.poisoned with
      | true => exact mem_entries_sweep_of_poisoned hp handle hin
      | false =>
        refine (mem_entries_sweep hp handle).mpr ⟨hin, ?_⟩
        rintro ⟨k, e, he, hev, rfl | hrev⟩
        · exact h.not_active_of_shouldEvict hp he hev hactive
        · exact hs hp (k, e) (Dict.mem_entries_iff.mpr he) hev handle hrev hactive

/-! ### Every run -/

/-- **Aging spares the active entries all along a run exactly if no session that is evicted
in it has an active other direction.** -/
theorem sweep_spares_iff (checked : Bool) (ager : SessionAger) (ops : List Op) :
    (watched checked ager).Meets (SparesActive ager) ops ↔
      (watched checked ager).Meets (PartnersIdle ager) ops := by
  constructor
  · intro h pre op post e
    exact ((remembered_run checked ager pre).sparesActive_iff op).mp (h pre op post e)
  · intro h pre op post e
    exact ((remembered_run checked ager pre).sparesActive_iff op).mpr (h pre op post e)

/-- Only the forward direction has counted packets between the two sweeps; the second one
finds the other direction idle and removes both. -/
theorem active_direction_killed :
    ¬ (watched true defaultAger).Meets (SparesActive defaultAger) halfIdle := by
  intro h
  have hlast := h [.programSession 0 (sampleRequest true), .sweep 0,
    .querySession 1000000000 ⟨some ⟨100, "10.0.0.1", "10.0.0.2", 5000, 80, 1⟩⟩]
    (.sweep 60000000000) [] rfl
  exact absurd (hlast 1 (by decide +kernel)) (by decide +kernel)

end PrismFirewall.OffloadDaemon
