import PrismFirewall.OffloadDaemon.GrpcServer

/-!
# The aging sweep

One turn of the loop in `aging.rs`.  The loop keeps, for each key of the session
table, the packet count it saw and when it first saw it; a session whose count
has stood still for the idle timeout is evicted, and so is one whose hardware
entry is gone.  The keys are collected first, looked at one by one, and only
then evicted.

`shouldEvict` is the verdict on one session, and `sweep` decides every session
with the tracker as it stood before the turn: `mem_collect_toEvict`.  What the turn
leaves in the table and in the tracker is `get?_sweep` and `get?_sweep_tracker`.
-/

namespace PrismFirewall.OffloadDaemon

open PrismFirewall.Lib (Dict)

/-- The last packet count of a key, and when it was first seen. -/
abbrev IdleTracker := Dict String (UInt64 × Nanos)

structure SessionAger where
  idleTimeout : Nanos

namespace SessionAger

/-- The look at one session: the keys to evict so far, and the tracker. -/
def look (a : SessionAger) (m : DocaFlowManager) (now : Nanos) (acc : List String × IdleTracker)
    (session : String × UInt64) : List String × IdleTracker :=
  let (toEvict, tracker) := acc
  let (key, handle) := session
  match m.querySessionCounters handle with
  | .error _ => (toEvict ++ [key], tracker)
  | .ok (currentPackets, _) =>
    match tracker.get? key with
    | some (lastPackets, firstIdleAt) =>
      if currentPackets = lastPackets then
        -- an earlier clock reading counts as no time at all
        if a.idleTimeout ≤ now - firstIdleAt then (toEvict ++ [key], tracker)
        else (toEvict, tracker)
      else (toEvict, tracker.insert key (currentPackets, now))
    | none => (toEvict, tracker.insert key (currentPackets, now))

def sessionKeys (t : SessionTable) : List (String × UInt64) :=
  t.map.entries.map (fun e => (e.1, e.2.entryHandle))

/-- The first half of a turn: look at every session. -/
def collect (a : SessionAger) (s : OffloadServiceImpl) (now : Nanos) (tracker : IdleTracker) :
    List String × IdleTracker :=
  (sessionKeys s.sessionTable).foldl (a.look s.docaManager now) ([], tracker)

def evict (acc : OffloadServiceImpl × IdleTracker) (key : String) :
    OffloadServiceImpl × IdleTracker :=
  let (s, tracker) := acc
  match s.sessionTable.removeByKeyString key with
  | (some entry, t) =>
    (⟨t, s.docaManager.removeBoth (entry.entryHandle, entry.reverseHandle)⟩, tracker.erase key)
  | (none, t) => ({ s with sessionTable := t }, tracker.erase key)

def sweep (a : SessionAger) (s : OffloadServiceImpl) (now : Nanos) (tracker : IdleTracker) :
    OffloadServiceImpl × IdleTracker :=
  let (toEvict, tracker) := a.collect s now tracker
  let (s, tracker) := toEvict.foldl evict (s, tracker)
  let activeKeys := s.sessionTable.map.keys
  (s, tracker.filter (fun e => decide (e.1 ∈ activeKeys)))

/-! ### Which sessions a turn evicts -/

/-- The verdict on one session. -/
def shouldEvict (a : SessionAger) (m : DocaFlowManager) (now : Nanos) (tracker : IdleTracker)
    (session : String × UInt64) : Bool :=
  match m.querySessionCounters session.2 with
  | .error _ => true
  | .ok (currentPackets, _) =>
    match tracker.get? session.1 with
    | some (lastPackets, firstIdleAt) =>
      decide (currentPackets = lastPackets ∧ a.idleTimeout ≤ now - firstIdleAt)
    | none => false

variable (a : SessionAger) (m : DocaFlowManager) (now : Nanos)

theorem look_fst (acc : List String × IdleTracker) (x : String × UInt64) :
    (a.look m now acc x).1
      = acc.1 ++ if a.shouldEvict m now acc.2 x then [x.1] else [] := by
  obtain ⟨toEvict, tracker⟩ := acc
  obtain ⟨key, handle⟩ := x
  cases hq : m.querySessionCounters handle with
  | error e => simp [look, shouldEvict, hq]
  | ok c =>
    cases ht : tracker.get? key with
    | none => simp [look, shouldEvict, hq, ht]
    | some p =>
      by_cases h1 : c.1 = p.1
      · by_cases h2 : a.idleTimeout ≤ now - p.2
        · simp [look, shouldEvict, hq, ht, h1, h2]
        · simp [look, shouldEvict, hq, ht, h1, h2]
      · simp [look, shouldEvict, hq, ht, h1]

/-- A look writes the tracker at its own key only. -/
theorem look_snd_get? (acc : List String × IdleTracker) (x : String × UInt64) {k : String}
    (hk : k ≠ x.1) : (a.look m now acc x).2.get? k = acc.2.get? k := by
  obtain ⟨toEvict, tracker⟩ := acc
  obtain ⟨key, handle⟩ := x
  simp only [look]
  split
  · rfl
  · split
    · split
      · split <;> rfl
      · exact Dict.get?_insert_ne hk _
    · exact Dict.get?_insert_ne hk _

theorem shouldEvict_congr {tracker tracker' : IdleTracker} {x : String × UInt64}
    (h : tracker'.get? x.1 = tracker.get? x.1) :
    a.shouldEvict m now tracker' x = a.shouldEvict m now tracker x := by
  simp only [shouldEvict, h]

/-- No key is looked at twice, so each look sees the tracker of the start. -/
theorem foldl_look_fst (tracker : IdleTracker) : ∀ (xs : List (String × UInt64))
    (acc : List String × IdleTracker), (xs.map Prod.fst).Nodup →
    (∀ x ∈ xs, acc.2.get? x.1 = tracker.get? x.1) →
    (xs.foldl (a.look m now) acc).1
      = acc.1 ++ (xs.filter (a.shouldEvict m now tracker)).map Prod.fst := by
  intro xs
  induction xs with
  | nil => intro acc _ _; simp
  | cons x xs ih =>
    intro acc hnodup hacc
    rw [List.map_cons, List.nodup_cons] at hnodup
    have hx := a.shouldEvict_congr m now (hacc x List.mem_cons_self)
    have hrest : ∀ y ∈ xs, (a.look m now acc x).2.get? y.1 = tracker.get? y.1 := by
      intro y hy
      have hne : y.1 ≠ x.1 := fun he => hnodup.1 (he ▸ List.mem_map_of_mem hy)
      rw [look_snd_get? a m now acc x hne]
      exact hacc y (List.mem_cons_of_mem x hy)
    rw [List.foldl_cons, ih _ hnodup.2 hrest, look_fst, hx, List.append_assoc, List.filter_cons]
    cases a.shouldEvict m now tracker x with
    | true => simp
    | false => simp

/-- **The sessions a turn evicts** are those the verdict falls on before the
turn. -/
theorem mem_collect_toEvict (s : OffloadServiceImpl) (tracker : IdleTracker) (k : String) :
    k ∈ (a.collect s now tracker).1 ↔ ∃ e, s.sessionTable.map.get? k = some e ∧
      a.shouldEvict s.docaManager now tracker (k, e.entryHandle) = true := by
  have hnodup : ((sessionKeys s.sessionTable).map Prod.fst).Nodup := by
    rw [sessionKeys, List.map_map]
    exact s.sessionTable.map.nodup
  rw [collect, foldl_look_fst a _ now tracker _ _ hnodup (fun _ _ => rfl), List.nil_append]
  simp only [List.mem_map, List.mem_filter, sessionKeys]
  constructor
  · intro h
    obtain ⟨x, ⟨⟨⟨k', e⟩, hmem, rfl⟩, hev⟩, rfl⟩ := h
    exact ⟨e, Dict.mem_entries_iff.mp hmem, hev⟩
  · intro h
    obtain ⟨e, hget, hev⟩ := h
    exact ⟨(k, e.entryHandle), ⟨⟨(k, e), Dict.mem_entries_iff.mpr hget, rfl⟩, hev⟩, rfl⟩

/-! ### What the evictions do -/

/-- The eviction loop is the removal loop of a flush, with the hardware removals
made as the entries are met. -/
theorem foldl_evict_eq (ks : List String) : ∀ acc : OffloadServiceImpl × IdleTracker,
    (ks.foldl evict acc).1 = ⟨(acc.1.sessionTable.removeKeys ks).2,
      (acc.1.sessionTable.removeKeys ks).1.foldl DocaFlowManager.removeBoth
        acc.1.docaManager⟩ := by
  induction ks with
  | nil => intro acc; rfl
  | cons k ks ih =>
    intro acc
    rw [List.foldl_cons, ih, SessionTable.removeKeys]
    obtain ⟨s, tracker⟩ := acc
    cases hget : s.sessionTable.map.get? k with
    | none => simp only [evict, SessionTable.removeByKeyString, hget]
    | some entry =>
      simp only [evict, SessionTable.removeByKeyString, hget, List.foldl_cons]

theorem sweep_fst (s : OffloadServiceImpl) (tracker : IdleTracker) :
    (a.sweep s now tracker).1
      = ⟨(s.sessionTable.removeKeys (a.collect s now tracker).1).2,
          (s.sessionTable.removeKeys (a.collect s now tracker).1).1.foldl
            DocaFlowManager.removeBoth s.docaManager⟩ := by
  rw [← foldl_evict_eq _ (s, (a.collect s now tracker).2)]
  rfl

/-- The table keeps the sessions the verdict does not fall on. -/
theorem get?_sweep (s : OffloadServiceImpl) (tracker : IdleTracker) {k : String}
    {e : SessionEntry} : (a.sweep s now tracker).1.sessionTable.map.get? k = some e ↔
      s.sessionTable.map.get? k = some e ∧
      a.shouldEvict s.docaManager now tracker (k, e.entryHandle) = false := by
  rw [sweep_fst, SessionTable.removeKeys_snd, Dict.get?_eraseAll]
  by_cases hk : k ∈ (a.collect s now tracker).1
  · obtain ⟨e', he', hev⟩ := (a.mem_collect_toEvict now s tracker k).mp hk
    rw [if_pos hk, he']
    refine iff_of_false (by simp) (fun h => ?_)
    obtain rfl := Option.some.inj h.1
    rw [hev] at h
    cases h.2
  · rw [if_neg hk]
    refine ⟨fun h => ⟨h, ?_⟩, fun h => h.1⟩
    by_contra hev
    rw [Bool.not_eq_false] at hev
    exact hk ((a.mem_collect_toEvict now s tracker k).mpr ⟨e, h, hev⟩)

/-! ### What a turn leaves in the tracker -/

/-- What a look leaves under its own key. -/
def lookedAt (m : DocaFlowManager) (now : Nanos) (tracker : IdleTracker)
    (session : String × UInt64) : Option (UInt64 × Nanos) :=
  match m.querySessionCounters session.2 with
  | .error _ => tracker.get? session.1
  | .ok (currentPackets, _) =>
    match tracker.get? session.1 with
    | some (lastPackets, firstIdleAt) =>
      if currentPackets = lastPackets then some (lastPackets, firstIdleAt)
      else some (currentPackets, now)
    | none => some (currentPackets, now)

theorem look_snd_get?_self (acc : List String × IdleTracker) (x : String × UInt64) :
    (a.look m now acc x).2.get? x.1 = lookedAt m now acc.2 x := by
  obtain ⟨toEvict, tracker⟩ := acc
  obtain ⟨key, handle⟩ := x
  cases hq : m.querySessionCounters handle with
  | error e => simp [look, lookedAt, hq]
  | ok c =>
    cases ht : tracker.get? key with
    | none => simp [look, lookedAt, hq, ht]
    | some p =>
      by_cases h1 : c.1 = p.1
      · by_cases h2 : a.idleTimeout ≤ now - p.2
        · simp [look, lookedAt, hq, ht, h1, h2]
        · simp [look, lookedAt, hq, ht, h1, h2]
      · simp [look, lookedAt, hq, ht, h1]

theorem foldl_look_snd_of_not_mem (xs : List (String × UInt64)) {k : String} :
    ∀ acc : List String × IdleTracker, k ∉ xs.map Prod.fst →
      (xs.foldl (a.look m now) acc).2.get? k = acc.2.get? k := by
  induction xs with
  | nil => exact fun acc _ => rfl
  | cons x xs ih =>
    intro acc hk
    rw [List.map_cons, List.mem_cons, not_or] at hk
    rw [List.foldl_cons, ih _ hk.2, look_snd_get? a m now acc x hk.1]

/-- Each session is looked at once. -/
theorem foldl_look_snd (xs : List (String × UInt64)) :
    ∀ acc : List String × IdleTracker, (xs.map Prod.fst).Nodup → ∀ x ∈ xs,
      (xs.foldl (a.look m now) acc).2.get? x.1 = lookedAt m now acc.2 x := by
  induction xs with
  | nil => exact fun acc _ x hx => absurd hx List.not_mem_nil
  | cons y xs ih =>
    intro acc hnodup x hx
    rw [List.map_cons, List.nodup_cons] at hnodup
    rw [List.foldl_cons]
    rcases List.mem_cons.mp hx with rfl | hx
    · rw [foldl_look_snd_of_not_mem a m now xs _ hnodup.1, look_snd_get?_self]
    · have hne : x.1 ≠ y.1 := fun he => hnodup.1 (he ▸ List.mem_map_of_mem hx)
      rw [ih _ hnodup.2 x hx, lookedAt, lookedAt, look_snd_get? a m now acc y hne]

theorem foldl_evict_snd (ks : List String) : ∀ acc : OffloadServiceImpl × IdleTracker,
    (ks.foldl evict acc).2 = acc.2.eraseAll ks := by
  induction ks with
  | nil => exact fun acc => rfl
  | cons k ks ih =>
    intro acc
    obtain ⟨s, tracker⟩ := acc
    have hone : (evict (s, tracker) k).2 = tracker.erase k := by
      cases hget : s.sessionTable.map.get? k with
      | none => simp only [evict, SessionTable.removeByKeyString, hget]
      | some entry => simp only [evict, SessionTable.removeByKeyString, hget]
    rw [List.foldl_cons, ih, hone]
    rfl

/-- **What the tracker holds for a session that is kept.** -/
theorem get?_sweep_tracker (s : OffloadServiceImpl) (tracker : IdleTracker) {k : String}
    {e : SessionEntry} (h : (a.sweep s now tracker).1.sessionTable.map.get? k = some e) :
    (a.sweep s now tracker).2.get? k
      = lookedAt s.docaManager now tracker (k, e.entryHandle) := by
  have hkeep := (a.get?_sweep now s tracker).mp h
  have hnot : k ∉ (a.collect s now tracker).1 := by
    intro hk
    obtain ⟨e', he', hev⟩ := (a.mem_collect_toEvict now s tracker k).mp hk
    obtain rfl := Option.some.inj (he'.symm.trans hkeep.1)
    rw [hkeep.2] at hev
    cases hev
  have hmem : (k, e.entryHandle) ∈ sessionKeys s.sessionTable :=
    List.mem_map.mpr ⟨(k, e), Dict.mem_entries_iff.mpr hkeep.1, rfl⟩
  have hnodup : ((sessionKeys s.sessionTable).map Prod.fst).Nodup := by
    rw [sessionKeys, List.map_map]
    exact s.sessionTable.map.nodup
  have hactive : k ∈ (a.sweep s now tracker).1.sessionTable.map.keys := Dict.mem_of_get? h
  show (Dict.filter (((a.collect s now tracker).1.foldl evict (s, (a.collect s now tracker).2)).2)
    (fun x => decide (x.1 ∈ (a.sweep s now tracker).1.sessionTable.map.keys))).get? k = _
  rw [Dict.get?_filter, foldl_evict_snd, Dict.get?_eraseAll, if_neg hnot]
  have hlook : (a.collect s now tracker).2.get? k = lookedAt s.docaManager now tracker
      (k, e.entryHandle) := foldl_look_snd a s.docaManager now _ ([], tracker) hnodup _ hmem
  rw [hlook]
  simp only [hactive, decide_true]
  cases lookedAt s.docaManager now tracker (k, e.entryHandle) <;> rfl

/-- The tracker forgets the sessions that are not in the table. -/
theorem get?_sweep_of_tracker (s : OffloadServiceImpl) (tracker : IdleTracker) {k : String}
    {b : UInt64 × Nanos} (h : (a.sweep s now tracker).2.get? k = some b) :
    ∃ e, (a.sweep s now tracker).1.sessionTable.map.get? k = some e := by
  have hfilter : (Dict.filter
      (((a.collect s now tracker).1.foldl evict (s, (a.collect s now tracker).2)).2)
      (fun x => decide (x.1 ∈ (a.sweep s now tracker).1.sessionTable.map.keys))).get? k
        = some b := h
  obtain ⟨-, hactive⟩ := Dict.get?_filter_eq_some_iff.mp hfilter
  exact Dict.mem_iff_get?.mp (of_decide_eq_true hactive)

/-- A session is kept only if its hardware entry is there, and the tracker then holds the
packet count of that entry, since this turn or since before. -/
theorem exists_baseline_of_kept (s : OffloadServiceImpl) (tracker : IdleTracker) {k : String}
    {e : SessionEntry} (h : (a.sweep s now tracker).1.sessionTable.map.get? k = some e) :
    ∃ entry f, s.docaManager.querySessionCounters e.entryHandle
        = .ok (entry.packets, entry.bytes) ∧
      s.docaManager.entries.get? e.entryHandle = some entry ∧
      (a.sweep s now tracker).2.get? k = some (entry.packets, f) ∧
      (f = now ∨ tracker.get? k = some (entry.packets, f)) := by
  rw [a.get?_sweep_tracker now s tracker h, lookedAt]
  have hkeep := ((a.get?_sweep now s tracker).mp h).2
  cases hq : s.docaManager.querySessionCounters e.entryHandle with
  | error err =>
    rw [shouldEvict, hq] at hkeep
    cases hkeep
  | ok c =>
    obtain ⟨-, entry, hentry, rfl⟩ := DocaFlowManager.get?_of_querySessionCounters hq
    cases ht : tracker.get? k with
    | none => exact ⟨entry, now, rfl, hentry, rfl, Or.inl rfl⟩
    | some p =>
      obtain ⟨last, first⟩ := p
      by_cases hc : entry.packets = last
      · subst hc
        exact ⟨entry, first, rfl, hentry, if_pos rfl, Or.inr rfl⟩
      · exact ⟨entry, now, rfl, hentry, if_neg hc, Or.inl rfl⟩

/-- A session whose hardware entry is there is evicted for standing still only. -/
theorem baseline_of_shouldEvict {m : DocaFlowManager} (hp : m.poisoned = false)
    {tracker : IdleTracker} {k : String} {handle : UInt64} {entry : MockHwEntry}
    (hentry : m.entries.get? handle = some entry)
    (hev : a.shouldEvict m now tracker (k, handle) = true) :
    ∃ f, tracker.get? k = some (entry.packets, f) ∧ a.idleTimeout ≤ now - f := by
  rw [shouldEvict, DocaFlowManager.querySessionCounters_of_get? hp hentry] at hev
  cases ht : tracker.get? k with
  | none =>
    rw [ht] at hev
    cases hev
  | some p =>
    rw [ht] at hev
    obtain ⟨hc, hle⟩ := of_decide_eq_true hev
    rw [hc]
    exact ⟨p.2, rfl, hle⟩

end SessionAger

end PrismFirewall.OffloadDaemon
