import PrismFirewall.Lib.Handles
import PrismFirewall.Lib.Run
import PrismFirewall.OffloadDaemon.Aging

/-!
# Table and hardware

The daemon as a machine: its inputs are the requests and the turns of the aging
loop.  `HardwareAgrees` says that the handles programmed in hardware are those of
the table's entries.

The agreement is broken in four ways: a session is programmed over one that is
filed under the same text (the old handle stays programmed); the handle counter
wraps onto a handle in use; the sweep finds only one direction of a session idle
(the hardware entries of both go, the table entry of the other stays); and a
flush or a sweep meets a poisoned lock.  `Undisturbed` excludes exactly these, one
operation at a time, and `hardware_agrees` says that runs without them keep the
agreement.

The invariant is `Lib.Owns`: a table entry owns its handle and names its partner's.
-/

namespace PrismFirewall.OffloadDaemon

open PrismFirewall.Lib (Dict Machine Slot Owns PartnerClosed Releases)

structure Daemon where
  service : OffloadServiceImpl
  tracker : IdleTracker

inductive Op
  | programSession (now : Nanos) (req : ProgramSessionRequest)
  | flushSessions (req : FlushSessionsRequest)
  | querySession (now : Nanos) (req : QuerySessionRequest)
  | sweep (now : Nanos)

inductive Reply
  | programSession (r : Except Status ProgramSessionResponse)
  | flushSessions (r : Except Status FlushSessionsResponse)
  | querySession (r : Option (Except Status QuerySessionResponse))
  | sweep

def Daemon.step (checked : Bool) (ager : SessionAger) (d : Daemon) : Op → Reply × Daemon
  | .programSession now req =>
    let (r, s) := d.service.programSession now req
    (.programSession r, { d with service := s })
  | .flushSessions req =>
    let (r, s) := d.service.flushSessions req
    (.flushSessions r, { d with service := s })
  | .querySession now req =>
    let (r, s) := d.service.querySession checked now req
    (.querySession r, { d with service := s })
  | .sweep now =>
    let (s, tracker) := ager.sweep d.service now d.tracker
    (.sweep, ⟨s, tracker⟩)

def daemon (checked : Bool) (ager : SessionAger) : Machine Daemon Op Reply where
  init := ⟨⟨SessionTable.new, DocaFlowManager.init⟩, Dict.empty⟩
  step := Daemon.step checked ager

/-- The handles programmed in hardware are the handles of the table's entries. -/
def HardwareAgrees (s : OffloadServiceImpl) : Prop :=
  ∀ h, h ∈ s.docaManager.entries ↔
    ∃ k e, s.sessionTable.map.get? k = some e ∧ e.entryHandle = h

/-- The entries a flush asks for. -/
def MatchCriteria.covers (e : SessionEntry) : MatchCriteria → Bool
  | .RuleId ruleId => e.ruleId == ruleId
  | .Vni vni => e.vni == vni
  | .All all => all

/-- The session is filed under a text, and its hardware entry under a handle, that
nothing else is under. -/
def FreshSession (s : OffloadServiceImpl) (key : SessionKey) (handle : UInt64) : Prop :=
  sessionKeyString key ∉ s.sessionTable.map ∧ handle ∉ s.docaManager.entries

instance (s : OffloadServiceImpl) (key : SessionKey) (handle : UInt64) :
    Decidable (FreshSession s key handle) :=
  inferInstanceAs (Decidable (_ ∧ _))

/-- The operation does not break the agreement of the table with the hardware. -/
def Undisturbed (ager : SessionAger) (d : Daemon) : Op → Prop
  | .programSession _ req =>
    d.service.docaManager.poisoned = false → ∀ key ∈ req.key,
      FreshSession d.service key d.service.docaManager.nextHandle ∧
      (req.bidirectional = true →
        FreshSession d.service (reverseKey key) (d.service.docaManager.nextHandle + 1) ∧
        sessionKeyString (reverseKey key) ≠ sessionKeyString key)
  | .flushSessions req =>
    d.service.docaManager.poisoned = true → ∀ criteria ∈ req.matchCriteria,
      ∀ x ∈ d.service.sessionTable.map.entries, criteria.covers x.2 = false
  | .querySession _ _ => True
  | .sweep now =>
    (d.service.docaManager.poisoned = true → d.service.sessionTable.map.entries = []) ∧
    ∀ x ∈ d.service.sessionTable.map.entries, ∀ y ∈ d.service.sessionTable.map.entries,
      x.2.reverseHandle = some y.2.entryHandle →
      ager.shouldEvict d.service.docaManager now d.tracker (x.1, x.2.entryHandle) = true →
      ager.shouldEvict d.service.docaManager now d.tracker (y.1, y.2.entryHandle) = true

instance (ager : SessionAger) (d : Daemon) : (op : Op) → Decidable (Undisturbed ager d op)
  | .programSession _ _ => inferInstanceAs (Decidable (_ → ∀ key ∈ _, _ ∧ (_ → _ ∧ _)))
  | .flushSessions _ => inferInstanceAs (Decidable (_ → ∀ criteria ∈ _, ∀ x ∈ _, _))
  | .querySession _ _ => inferInstanceAs (Decidable True)
  | .sweep _ => inferInstanceAs (Decidable ((_ → _) ∧ ∀ x ∈ _, ∀ y ∈ _, _ → _ → _))

/-! ### The invariant -/

def SessionEntry.slot (e : SessionEntry) : Slot UInt64 (String × UInt32) :=
  ⟨e.entryHandle, e.reverseHandle, (e.ruleId, e.vni)⟩

def SessionTable.slots (t : SessionTable) : String → Option (Slot UInt64 (String × UInt32)) :=
  fun k => (t.map.get? k).map SessionEntry.slot

/-- Each programmed handle is owned by one table entry, and the two directions of
a session name each other. -/
def Owned (s : OffloadServiceImpl) : Prop :=
  Owns s.sessionTable.slots (fun h => h ∈ s.docaManager.entries)

theorem SessionTable.slots_eq_some {t : SessionTable} {k : String}
    {x : Slot UInt64 (String × UInt32)} :
    t.slots k = some x ↔ ∃ e, t.map.get? k = some e ∧ e.slot = x :=
  Option.map_eq_some_iff

theorem SessionTable.slot_eq {t : SessionTable} {k : String} {e : SessionEntry}
    {x : Slot UInt64 (String × UInt32)} (he : t.map.get? k = some e) (hx : t.slots k = some x) :
    e.slot = x := by
  rw [slots, he] at hx
  exact Option.some.inj hx

theorem Owned.hardwareAgrees {s : OffloadServiceImpl} (h : Owned s) : HardwareAgrees s := by
  intro handle
  refine (h.live_iff handle).trans (exists_congr (fun k => ?_))
  constructor
  · intro h
    obtain ⟨x, hx, rfl⟩ := h
    obtain ⟨e, he, rfl⟩ := SessionTable.slots_eq_some.mp hx
    exact ⟨e, he, rfl⟩
  · intro h
    obtain ⟨e, he, rfl⟩ := h
    exact ⟨e.slot, SessionTable.slots_eq_some.mpr ⟨e, he, rfl⟩, rfl⟩

/-! ### Programming -/

theorem SessionTable.slots_insert (t : SessionTable) (key : SessionKey) (e : SessionEntry) :
    (t.insert key e).slots
      = fun k => if k = sessionKeyString key then some e.slot else t.slots k := by
  funext k
  simp only [slots, SessionTable.insert, Dict.get?_insert]
  by_cases hk : k = sessionKeyString key
  · rw [if_pos hk, if_pos hk]
    rfl
  · rw [if_neg hk, if_neg hk]

/-- One entry over the table. -/
theorem SessionTable.slots_insert_or (t : SessionTable) (key : SessionKey) (e : SessionEntry) :
    (t.insert key e).slots
      = fun k => (if k = sessionKeyString key then some e.slot else none).or (t.slots k) := by
  rw [slots_insert]
  funext k
  split
  · rfl
  · rfl

/-- Two entries over the table, the second one over the first. -/
theorem SessionTable.slots_insert_insert_or (t : SessionTable) (key revKey : SessionKey)
    (e e' : SessionEntry) :
    ((t.insert key e).insert revKey e').slots
      = fun k => (if k = sessionKeyString revKey then some e'.slot
          else if k = sessionKeyString key then some e.slot else none).or (t.slots k) := by
  rw [slots_insert, slots_insert]
  funext k
  dsimp only
  split
  · rfl
  · split
    · rfl
    · rfl

theorem SessionTable.slots_eq_none {t : SessionTable} {k : String} (h : k ∉ t.map) :
    t.slots k = none := by
  rw [slots, Dict.get?_eq_none_iff.mpr h]
  rfl

theorem succ_ne (h : UInt64) : h + 1 ≠ h := by
  intro e
  simp at e

/-- One direction only. -/
theorem Owned.insertOne {t : SessionTable} {m m' : DocaFlowManager} (hO : Owned ⟨t, m⟩)
    {key : SessionKey} {e : SessionEntry} (hkey : sessionKeyString key ∉ t.map)
    (hh : e.entryHandle ∉ m.entries) (hrev : e.reverseHandle = none)
    (hm : ∀ h, h ∈ m'.entries ↔ h = e.entryHandle ∨ h ∈ m.entries) :
    Owned ⟨t.insert key e, m'⟩ := by
  have hu := hO.union (Owns.single (sessionKeyString key) (n := e.slot) hrev)
    (fun k s hs => ?_) (fun h he => ?_)
  · rw [Owned, SessionTable.slots_insert_or, funext (fun h => propext (hm h))]
    exact hu
  · rw [Option.ite_none_right_eq_some] at hs
    rw [hs.1]
    exact SessionTable.slots_eq_none hkey
  · rw [he]
    exact hh

/-- Two directions, under two keys. -/
theorem Owned.insertTwo {t : SessionTable} {m m' : DocaFlowManager} (hO : Owned ⟨t, m⟩)
    {key revKey : SessionKey} {e e' : SessionEntry} (hkey : sessionKeyString key ∉ t.map)
    (hkey' : sessionKeyString revKey ∉ t.map) (hne : sessionKeyString revKey ≠ sessionKeyString key)
    (hh : e.entryHandle ∉ m.entries) (hh' : e'.entryHandle ∉ m.entries)
    (hhne : e'.entryHandle ≠ e.entryHandle) (hrev : e.reverseHandle = some e'.entryHandle)
    (hrev' : e'.reverseHandle = some e.entryHandle) (htag : e'.slot.tag = e.slot.tag)
    (hm : ∀ h, h ∈ m'.entries ↔ h = e'.entryHandle ∨ h = e.entryHandle ∨ h ∈ m.entries) :
    Owned ⟨(t.insert key e).insert revKey e', m'⟩ := by
  have hu := hO.union (Owns.pair hne (n := e'.slot) (m := e.slot) hhne hrev' hrev htag)
    (fun k s hs => ?_) (fun h he => ?_)
  · have hlive : (fun h => h ∈ m'.entries)
        = fun h => (h = e'.slot.handle ∨ h = e.slot.handle) ∨ h ∈ m.entries :=
      funext (fun h => propext ((hm h).trans or_assoc.symm))
    rw [Owned, SessionTable.slots_insert_insert_or, hlive]
    exact hu
  · by_cases hk : k = sessionKeyString revKey
    · rw [hk]
      exact SessionTable.slots_eq_none hkey'
    · rw [if_neg hk, Option.ite_none_right_eq_some] at hs
      rw [hs.1]
      exact SessionTable.slots_eq_none hkey
  · rcases he with he | he
    · rw [he]
      exact hh'
    · rw [he]
      exact hh

theorem Owned.programSession {ager : SessionAger} {d : Daemon} (hO : Owned d.service) {now : Nanos}
    {req : ProgramSessionRequest} (hu : Undisturbed ager d (.programSession now req)) :
    Owned (d.service.programSession now req).2 := by
  cases hkey : req.key with
  | none =>
    rw [OffloadServiceImpl.programSession_none hkey]
    exact hO
  | some key =>
    cases hp : d.service.docaManager.poisoned with
    | true =>
      rw [OffloadServiceImpl.programSession_poisoned hkey hp]
      exact hO
    | false =>
      obtain ⟨⟨hk, hh⟩, hrev⟩ := hu hp key hkey
      cases hb : req.bidirectional with
      | false =>
        rw [OffloadServiceImpl.programSession_unidirectional hkey hb hp]
        exact hO.insertOne hk hh rfl (fun h => Dict.mem_insert)
      | true =>
        obtain ⟨⟨hk', hh'⟩, hne⟩ := hrev hb
        rw [OffloadServiceImpl.programSession_bidirectional hkey hb hp]
        exact hO.insertTwo hk hk' hne hh hh' (succ_ne _) rfl rfl rfl
          (fun h => Dict.mem_insert.trans (or_congr_right Dict.mem_insert))

/-! ### Removing -/

/-- The loops of a flush and of a sweep, over keys that hold both directions of a
session or neither. -/
theorem Owned.removeKeys {s : OffloadServiceImpl} (hO : Owned s)
    (hp : s.docaManager.poisoned = false) {ks : List String}
    (hclosed : PartnerClosed s.sessionTable.slots (fun k => k ∈ ks)) :
    Owned ⟨(s.sessionTable.removeKeys ks).2,
      (s.sessionTable.removeKeys ks).1.foldl DocaFlowManager.removeBoth s.docaManager⟩ := by
  refine hO.release hclosed (fun k x => ?_) (fun h => ?_)
  · rw [SessionTable.removeKeys_snd, SessionTable.slots_eq_some, SessionTable.slots_eq_some]
    simp only [Dict.get?_eraseAll]
    by_cases hk : k ∈ ks
    · simp [hk]
    · simp [hk]
  · rw [DocaFlowManager.mem_foldl_removeBoth _ hp]
    refine and_congr_right (fun _ => not_congr ?_)
    simp only [SessionTable.mem_removeKeys_fst, Releases]
    constructor
    · intro h
      obtain ⟨x, ⟨k, hk, e, he, rfl⟩, hx⟩ := h
      exact ⟨k, e.slot, hk, SessionTable.slots_eq_some.mpr ⟨e, he, rfl⟩, hx⟩
    · intro h
      obtain ⟨k, x, hk, hx, hor⟩ := h
      obtain ⟨e, he, rfl⟩ := SessionTable.slots_eq_some.mp hx
      exact ⟨_, ⟨k, hk, e, he, rfl⟩, hor⟩

theorem MatchCriteria.covers_eq_of_tag {e e' : SessionEntry} (h : e'.slot.tag = e.slot.tag)
    (c : MatchCriteria) : c.covers e' = c.covers e := by
  obtain ⟨hrule, hvni⟩ := Prod.mk.inj h
  cases c with
  | RuleId ruleId => simp only [covers, hrule]
  | Vni vni => simp only [covers, hvni]
  | All all => rfl

/-- A flush removes the entries its criterion covers, and both handles of each. -/
theorem OffloadServiceImpl.flushSessions_some (s : OffloadServiceImpl) (c : MatchCriteria) :
    s.flushSessions ⟨some c⟩
      = (.ok ⟨UInt32.ofNat
            (s.sessionTable.removeKeys (s.sessionTable.keysToRemove c.covers)).1.length⟩,
          ⟨(s.sessionTable.removeKeys (s.sessionTable.keysToRemove c.covers)).2,
            (s.sessionTable.removeKeys (s.sessionTable.keysToRemove c.covers)).1.foldl
              DocaFlowManager.removeBoth s.docaManager⟩) := by
  cases c with
  | RuleId ruleId => rfl
  | Vni vni => rfl
  | All all =>
    cases all with
    | true => rfl
    | false =>
      have hnil : s.sessionTable.keysToRemove (fun e => MatchCriteria.covers e (.All false)) = [] :=
        SessionTable.keysToRemove_eq_nil (fun _ _ _ => rfl)
      rw [hnil]
      rfl

theorem OffloadServiceImpl.flushSessions_snd (s : OffloadServiceImpl) (c : MatchCriteria) :
    (s.flushSessions ⟨some c⟩).2
      = ⟨(s.sessionTable.removeKeys (s.sessionTable.keysToRemove c.covers)).2,
          (s.sessionTable.removeKeys (s.sessionTable.keysToRemove c.covers)).1.foldl
            DocaFlowManager.removeBoth s.docaManager⟩ := by
  rw [flushSessions_some]

/-- What a flush leaves has been there. -/
theorem OffloadServiceImpl.get?_of_flushSessions (s : OffloadServiceImpl)
    (req : FlushSessionsRequest) :
    (∀ k e, (s.flushSessions req).2.sessionTable.map.get? k = some e →
      s.sessionTable.map.get? k = some e) ∧
    ∀ h entry, (s.flushSessions req).2.docaManager.entries.get? h = some entry →
      s.docaManager.entries.get? h = some entry := by
  obtain ⟨_ | c⟩ := req
  · exact ⟨fun k e he => he, fun h entry hentry => hentry⟩
  · rw [flushSessions_snd]
    refine ⟨fun k e he => ?_, (DocaFlowManager.foldl_removeBoth_frame _ _).2.2⟩
    rw [SessionTable.removeKeys_snd] at he
    exact (Dict.get?_eraseAll_eq_some.mp he).1

theorem Owned.flushSessions {ager : SessionAger} {d : Daemon} (hO : Owned d.service)
    {req : FlushSessionsRequest} (hu : Undisturbed ager d (.flushSessions req)) :
    Owned (d.service.flushSessions req).2 := by
  obtain ⟨_ | c⟩ := req
  · exact hO
  · rw [OffloadServiceImpl.flushSessions_snd]
    cases hp : d.service.docaManager.poisoned with
    | false =>
      refine hO.removeKeys hp (fun {k k' x x'} hk hx hx' hpart => ?_)
      obtain ⟨e, he, hc⟩ := SessionTable.mem_keysToRemove.mp hk
      obtain ⟨e', he', rfl⟩ := SessionTable.slots_eq_some.mp hx'
      obtain rfl := SessionTable.slot_eq he hx
      refine SessionTable.mem_keysToRemove.mpr ⟨e', he', ?_⟩
      rw [MatchCriteria.covers_eq_of_tag (hO.partner_symm hx hx' hpart).2]
      exact hc
    | true =>
      -- nothing matches, so the poisoned lock is not asked for
      have hnil : d.service.sessionTable.keysToRemove c.covers = [] :=
        SessionTable.keysToRemove_eq_nil (fun k e he =>
          hu hp c rfl (k, e) (Dict.mem_entries_iff.mpr he))
      rw [hnil]
      exact hO

theorem Owned.sweep {ager : SessionAger} {d : Daemon} (hO : Owned d.service) {now : Nanos}
    (hu : Undisturbed ager d (.sweep now)) : Owned (ager.sweep d.service now d.tracker).1 := by
  rw [SessionAger.sweep_fst]
  obtain ⟨hpoison, hpair⟩ := hu
  cases hp : d.service.docaManager.poisoned with
  | false =>
    refine hO.removeKeys hp (fun {k k' x x'} hk hx hx' hpart => ?_)
    obtain ⟨e, he, hev⟩ := (ager.mem_collect_toEvict now _ _ _).mp hk
    obtain ⟨e', he', rfl⟩ := SessionTable.slots_eq_some.mp hx'
    obtain rfl := SessionTable.slot_eq he hx
    exact (ager.mem_collect_toEvict now _ _ _).mpr ⟨e', he',
      hpair (k, e) (Dict.mem_entries_iff.mpr he) (k', e') (Dict.mem_entries_iff.mpr he') hpart hev⟩
  | true =>
    have hnil : (ager.collect d.service now d.tracker).1 = [] := by
      rw [SessionAger.collect, SessionAger.sessionKeys, hpoison hp]
      rfl
    rw [hnil]
    exact hO

/-! ### Querying -/

/-- New counters leave the handles of an entry alone. -/
theorem SessionTable.slots_insert_counters {t : SessionTable} {key : SessionKey} {e : SessionEntry}
    (he : t.get key = some e) (packets bytes : UInt64) :
    (t.insert key (e.updateCounters packets bytes)).slots = t.slots := by
  funext k
  simp only [slots, SessionTable.insert, Dict.get?_insert]
  by_cases hk : k = sessionKeyString key
  · subst hk
    rw [if_pos rfl, show t.map.get? (sessionKeyString key) = some e from he]
    rfl
  · rw [if_neg hk]

/-- A query changes counters, on both sides, and nothing else. -/
theorem OffloadServiceImpl.querySession_frame (s : OffloadServiceImpl) (checked : Bool)
    (now : Nanos) (req : QuerySessionRequest) :
    (s.querySession checked now req).2.sessionTable.slots = s.sessionTable.slots ∧
    (s.querySession checked now req).2.docaManager.nextHandle = s.docaManager.nextHandle ∧
    ∀ h, h ∈ (s.querySession checked now req).2.docaManager.entries ↔
      h ∈ s.docaManager.entries := by
  unfold querySession
  split
  · exact ⟨rfl, rfl, fun h => Iff.rfl⟩
  · rename_i key hkey
    split
    · exact ⟨rfl, rfl, fun h => Iff.rfl⟩
    · rename_i entry hentry
      have hnext := s.docaManager.querySession_nextHandle checked entry.entryHandle
      have hmem : ∀ h, h ∈ (s.docaManager.querySession checked entry.entryHandle).2.entries ↔
          h ∈ s.docaManager.entries := fun h => DocaFlowManager.mem_querySession
      split
      · rename_i m hq
        rw [hq] at hnext hmem
        exact ⟨rfl, hnext, hmem⟩
      · rename_i r m hq
        rw [hq] at hnext hmem
        refine ⟨?_, hnext, hmem⟩
        simp only [hentry, SessionTable.slots_insert_counters hentry]

theorem Owned.querySession {s : OffloadServiceImpl} (hO : Owned s) (checked : Bool) (now : Nanos)
    (req : QuerySessionRequest) : Owned (s.querySession checked now req).2 := by
  obtain ⟨hslots, -, hmem⟩ := s.querySession_frame checked now req
  rw [Owned, hslots, funext (fun h => propext (hmem h))]
  exact hO

/-! ### Runs -/

theorem Owned.init (checked : Bool) (ager : SessionAger) :
    Owned (daemon checked ager).init.service := by
  have hlive : (fun h => h ∈ (Dict.empty : Dict UInt64 MockHwEntry)) = fun _ => False :=
    funext (fun h => eq_false (by simp [Dict.mem_iff_get?]))
  rw [Owned, daemon, DocaFlowManager.init, hlive]
  exact Owns.empty

theorem Owned.step {ager : SessionAger} {d : Daemon} (hO : Owned d.service) (checked : Bool)
    {op : Op} (hu : Undisturbed ager d op) : Owned (d.step checked ager op).2.service := by
  cases op with
  | programSession now req => exact hO.programSession hu
  | flushSessions req => exact hO.flushSessions hu
  | querySession now req => exact hO.querySession checked now req
  | sweep now => exact hO.sweep hu

/-- **The table and the hardware agree** after every run whose operations each
leave the other sessions alone. -/
theorem hardware_agrees (checked : Bool) (ager : SessionAger) (ops : List Op)
    (h : (daemon checked ager).Meets (Undisturbed ager) ops) :
    HardwareAgrees ((daemon checked ager).run ops).service := by
  have hrun : ∀ ops, (daemon checked ager).Meets (Undisturbed ager) ops →
      Owned ((daemon checked ager).run ops).service :=
    Machine.run_induction_of_meets (P := fun _ (d : Daemon) => Owned d.service) _
      (Owned.init checked ager) (fun _ _ _ hO hu => hO.step checked hu)
  exact (hrun ops h).hardwareAgrees

/-- The daemon's own timeout, 60 seconds. -/
def defaultAger : SessionAger := ⟨60000000000⟩

def sampleRequest (bidirectional : Bool) : ProgramSessionRequest :=
  ⟨some ⟨100, "10.0.0.1", "10.0.0.2", 5000, 80, 1⟩, 1, bidirectional, 0, "r1"⟩

/-- Both directions stand idle and are evicted together. -/
def bothIdle : List Op :=
  [.programSession 0 (sampleRequest true), .sweep 0, .sweep 60000000000]

theorem hardware_agrees_bothIdle :
    (daemon true defaultAger).Meets (Undisturbed defaultAger) bothIdle ∧
    HardwareAgrees ((daemon true defaultAger).run bothIdle).service := by
  have h : (daemon true defaultAger).Meets (Undisturbed defaultAger) bothIdle :=
    Machine.meets_of_meetsFrom _ (by decide +kernel)
  exact ⟨h, hardware_agrees true defaultAger bothIdle h⟩

/-- A client that retries programs the same session twice. -/
def programmedTwice : List Op :=
  [.programSession 0 (sampleRequest false), .programSession 0 (sampleRequest false)]

/-- Only the forward direction of a session is queried between two sweeps. -/
def halfIdle : List Op :=
  [.programSession 0 (sampleRequest true), .sweep 0,
    .querySession 1000000000 ⟨some ⟨100, "10.0.0.1", "10.0.0.2", 5000, 80, 1⟩⟩,
    .sweep 60000000000]

/-- The first of two equal requests leaves a handle no table entry has; an evicted
direction takes the hardware entry of the other with it. -/
theorem handle_orphaned_and_handle_dangling :
    ¬ HardwareAgrees ((daemon true defaultAger).run programmedTwice).service ∧
    ¬ HardwareAgrees ((daemon true defaultAger).run halfIdle).service := by
  constructor
  · intro h
    obtain ⟨k, e, he, hh⟩ := (h 1).mp (by decide +kernel)
    have hall : ∀ x ∈
        ((daemon true defaultAger).run programmedTwice).service.sessionTable.map.entries,
        x.2.entryHandle ≠ 1 := by decide +kernel
    exact hall (k, e) (Dict.mem_entries_iff.mpr he) hh
  · intro h
    have hmem : ∃ x ∈ ((daemon true defaultAger).run halfIdle).service.sessionTable.map.entries,
        x.2.entryHandle = 1 := by decide +kernel
    obtain ⟨x, hx, hh⟩ := hmem
    exact absurd ((h 1).mpr ⟨x.1, x.2, Dict.mem_entries_iff.mp hx, hh⟩) (by decide +kernel)

end PrismFirewall.OffloadDaemon
