import PrismFirewall.OffloadDaemon.Agreement

/-!
# Flushing

What one flush does to a daemon that has run for a while.  Sessions may have been
programmed over each other and directions evicted apart, so the hardware need not
agree with the table, and a removed entry names as its reverse a handle whose entry
is gone or belongs to another session by now.

`Numbered` is the invariant: handles are drawn in order, and an entry that owns a
handle another entry names has that entry's rule and VNI.  It holds as long as the
handle counter does not wrap (`NoWrap`), and it makes a flush exact (`flush_exact`):
an entry that stays keeps its hardware entry.
-/

namespace PrismFirewall.OffloadDaemon

open PrismFirewall.Lib (Dict Machine Slot Groups Releases)

/-- The handle counter does not wrap in the operation. -/
def NoWrap (d : Daemon) : Op → Prop
  | .programSession _ req =>
    d.service.docaManager.nextHandle.toNat + (if req.bidirectional then 2 else 1) < 2 ^ 64
  | _ => True

instance (d : Daemon) : (op : Op) → Decidable (NoWrap d op)
  | .programSession _ _ => inferInstanceAs (Decidable (_ < _))
  | .flushSessions _ => inferInstanceAs (Decidable True)
  | .querySession _ _ => inferInstanceAs (Decidable True)
  | .sweep _ => inferInstanceAs (Decidable True)

def Op.isQuery : Op → Bool
  | .querySession _ _ => true
  | _ => false

/-- What a flush is for: the entries that match go, with their hardware entries and
those of their other direction, and the hardware entry of any other session stays
as it was. -/
structure FlushExact (c : MatchCriteria) (s : OffloadServiceImpl)
    (r : Except Status FlushSessionsResponse × OffloadServiceImpl) : Prop where
  table : ∀ k, r.2.sessionTable.map.get? k
    = (s.sessionTable.map.get? k).filter (fun e => !c.covers e)
  count : r.1 = .ok ⟨UInt32.ofNat (s.sessionTable.map.values.countP c.covers)⟩
  gone : ∀ k e, s.sessionTable.map.get? k = some e → c.covers e = true →
    e.entryHandle ∉ r.2.docaManager.entries ∧
    ∀ h ∈ e.reverseHandle, h ∉ r.2.docaManager.entries
  kept : ∀ k e, r.2.sessionTable.map.get? k = some e →
    (e.entryHandle ∈ r.2.docaManager.entries ↔ e.entryHandle ∈ s.docaManager.entries)

/-! ### The invariant -/

/-- Handles below the counter. -/
def DocaFlowManager.Drawn (m : DocaFlowManager) (h : UInt64) : Prop :=
  h.toNat < m.nextHandle.toNat

structure Numbered (s : OffloadServiceImpl) : Prop where
  groups : Groups s.sessionTable.slots s.docaManager.Drawn
  programmed : ∀ h ∈ s.docaManager.entries, s.docaManager.Drawn h

theorem UInt64.toNat_add_one {n : UInt64} (h : n.toNat + 1 < 2 ^ 64) :
    (n + 1).toNat = n.toNat + 1 := by
  rw [UInt64.toNat_add]
  exact Nat.mod_eq_of_lt h

/-- Writing a table of new handles over the old one. -/
theorem Numbered.overlay {t t' : SessionTable} {m m' : DocaFlowManager}
    (hN : Numbered ⟨t, m⟩) {N : String → Option (Slot UInt64 (String × UInt32))}
    (ht : t'.slots = fun k => (N k).or (t.slots k))
    (hnew : Groups N (fun h => m'.Drawn h ∧ ¬ m.Drawn h))
    (hle : m.nextHandle.toNat ≤ m'.nextHandle.toNat)
    (hm : ∀ h ∈ m'.entries, h ∈ m.entries ∨ m'.Drawn h) : Numbered ⟨t', m'⟩ where
  groups := by
    rw [ht]
    refine (hN.groups.overlay hnew (fun h hh => hh.2)).mono (fun _ _ hs => hs) (fun h hh => ?_)
    rcases hh with hh | hh
    · exact hh.1
    · exact Nat.lt_of_lt_of_le hh hle
  programmed := by
    intro h hh
    rcases hm h hh with hh | hh
    · exact Nat.lt_of_lt_of_le (hN.programmed h hh) hle
    · exact hh

/-- Entries and handles may go. -/
theorem Numbered.mono {t t' : SessionTable} {m m' : DocaFlowManager} (hN : Numbered ⟨t, m⟩)
    (ht : ∀ k x, t'.slots k = some x → t.slots k = some x)
    (hle : m.nextHandle.toNat ≤ m'.nextHandle.toNat)
    (hm : ∀ h ∈ m'.entries, h ∈ m.entries) : Numbered ⟨t', m'⟩ where
  groups := hN.groups.mono ht (fun _ hh => Nat.lt_of_lt_of_le hh hle)
  programmed h hh := Nat.lt_of_lt_of_le (hN.programmed h (hm h hh)) hle

theorem Numbered.init (checked : Bool) (ager : SessionAger) :
    Numbered (daemon checked ager).init.service where
  groups := ⟨fun hs _ => (by cases hs), fun hs _ _ => (by cases hs)⟩
  programmed h hh := by cases hh

/-! ### Programming -/

/-- One direction, under a new handle. -/
theorem Numbered.insertOne {t : SessionTable} {m m' : DocaFlowManager} (hN : Numbered ⟨t, m⟩)
    {key : SessionKey} {e : SessionEntry} (hh : e.entryHandle = m.nextHandle)
    (hrev : e.reverseHandle = none) (hnext : m'.nextHandle.toNat = m.nextHandle.toNat + 1)
    (hm : ∀ h, h ∈ m'.entries ↔ h = m.nextHandle ∨ h ∈ m.entries) :
    Numbered ⟨t.insert key e, m'⟩ := by
  refine hN.overlay (SessionTable.slots_insert_or t key e) ?_ ?_ ?_
  · refine Groups.single _ (fun h hn => ?_)
    rcases hn with hn | hn
    · rw [← show e.entryHandle = h from hn, hh, DocaFlowManager.Drawn, DocaFlowManager.Drawn]
      omega
    · rw [SessionEntry.slot, hrev] at hn
      cases hn
  · omega
  · intro h hin
    rcases (hm h).mp hin with rfl | hin
    · refine Or.inr ?_
      rw [DocaFlowManager.Drawn]
      omega
    · exact Or.inl hin

/-- Two directions, under two new handles. -/
theorem Numbered.insertTwo {t : SessionTable} {m m' : DocaFlowManager} (hN : Numbered ⟨t, m⟩)
    {key revKey : SessionKey} {e e' : SessionEntry} {h₂ : UInt64}
    (hh : e.entryHandle = m.nextHandle) (hrev : e.reverseHandle = some h₂)
    (hh' : e'.entryHandle = h₂)
    (hrev' : e'.reverseHandle = some m.nextHandle) (htag : e.slot.tag = e'.slot.tag)
    (hsecond : h₂.toNat = m.nextHandle.toNat + 1)
    (hnext : m'.nextHandle.toNat = m.nextHandle.toNat + 2)
    (hm : ∀ h, h ∈ m'.entries ↔ h = h₂ ∨ h = m.nextHandle ∨ h ∈ m.entries) :
    Numbered ⟨(t.insert key e).insert revKey e', m'⟩ := by
  have hfwd : m'.Drawn m.nextHandle ∧ ¬ m.Drawn m.nextHandle := by
    rw [DocaFlowManager.Drawn, DocaFlowManager.Drawn]
    omega
  have hbwd : m'.Drawn h₂ ∧ ¬ m.Drawn h₂ := by
    rw [DocaFlowManager.Drawn, DocaFlowManager.Drawn]
    omega
  refine hN.overlay (SessionTable.slots_insert_insert_or t key revKey e e') ?_ ?_ ?_
  · refine Groups.pair _ _ htag (fun h hn => ?_) (fun h hn => ?_)
    · rw [Slot.Names, SessionEntry.slot, hh', hrev', Option.some.injEq] at hn
      rcases hn with rfl | rfl
      · exact hbwd
      · exact hfwd
    · rw [Slot.Names, SessionEntry.slot, hh, hrev, Option.some.injEq] at hn
      rcases hn with rfl | rfl
      · exact hfwd
      · exact hbwd
  · omega
  · intro h hin
    rcases (hm h).mp hin with rfl | rfl | hin
    · exact Or.inr hbwd.1
    · exact Or.inr hfwd.1
    · exact Or.inl hin

theorem Numbered.programSession {d : Daemon} (hN : Numbered d.service) {now : Nanos}
    {req : ProgramSessionRequest} (hw : NoWrap d (.programSession now req)) :
    Numbered (d.service.programSession now req).2 := by
  have h1 : d.service.docaManager.nextHandle.toNat + 1 < 2 ^ 64 := by
    simp only [NoWrap] at hw
    split at hw <;> omega
  have hnext := UInt64.toNat_add_one h1
  cases hkey : req.key with
  | none =>
    rw [OffloadServiceImpl.programSession_none hkey]
    exact hN
  | some key =>
    cases hp : d.service.docaManager.poisoned with
    | true =>
      rw [OffloadServiceImpl.programSession_poisoned hkey hp]
      exact hN.mono (fun _ _ hx => hx) (Nat.le.intro hnext.symm) (fun _ hh => hh)
    | false =>
      cases hb : req.bidirectional with
      | false =>
        rw [OffloadServiceImpl.programSession_unidirectional hkey hb hp]
        exact hN.insertOne rfl rfl hnext (fun h => Dict.mem_insert)
      | true =>
        have h2 : (d.service.docaManager.nextHandle + 1).toNat + 1 < 2 ^ 64 := by
          simp only [NoWrap, hb, if_true] at hw
          omega
        have hnext2 := UInt64.toNat_add_one h2
        rw [OffloadServiceImpl.programSession_bidirectional hkey hb hp]
        exact hN.insertTwo rfl rfl rfl rfl rfl hnext (by rw [hnext2, hnext])
          (fun h => Dict.mem_insert.trans (or_congr_right Dict.mem_insert))

/-! ### Removing and querying -/

/-- The loops of a flush and of a sweep. -/
theorem Numbered.removeKeys {s : OffloadServiceImpl} (hN : Numbered s) (ks : List String) :
    Numbered ⟨(s.sessionTable.removeKeys ks).2,
      (s.sessionTable.removeKeys ks).1.foldl DocaFlowManager.removeBoth s.docaManager⟩ := by
  refine hN.mono (fun k x hx => ?_) ?_ (fun h hh => ?_)
  · rw [SessionTable.removeKeys_snd, SessionTable.slots_eq_some] at hx
    obtain ⟨e, he, rfl⟩ := hx
    exact SessionTable.slots_eq_some.mpr ⟨e, (Dict.get?_eraseAll_eq_some.mp he).1, rfl⟩
  · exact Nat.le_of_eq (congrArg UInt64.toNat (DocaFlowManager.foldl_removeBoth_frame _ _).1.symm)
  · exact DocaFlowManager.mem_of_mem_foldl_removeBoth hh

theorem Numbered.querySession {s : OffloadServiceImpl} (hN : Numbered s) (checked : Bool)
    (now : Nanos) (req : QuerySessionRequest) : Numbered (s.querySession checked now req).2 := by
  obtain ⟨hslots, hnext, hmem⟩ := s.querySession_frame checked now req
  refine hN.mono (fun k x hx => ?_) (Nat.le_of_eq (congrArg UInt64.toNat hnext.symm))
    (fun h hh => (hmem h).mp hh)
  rw [hslots] at hx
  exact hx

theorem Numbered.flushSessions {s : OffloadServiceImpl} (hN : Numbered s)
    (req : FlushSessionsRequest) : Numbered (s.flushSessions req).2 := by
  obtain ⟨_ | c⟩ := req
  · exact hN
  · rw [OffloadServiceImpl.flushSessions_snd]
    exact hN.removeKeys _

theorem Numbered.step {ager : SessionAger} {d : Daemon} (hN : Numbered d.service) (checked : Bool)
    {op : Op} (hw : NoWrap d op) : Numbered (d.step checked ager op).2.service := by
  cases op with
  | programSession now req => exact hN.programSession hw
  | flushSessions req => exact hN.flushSessions req
  | querySession now req => exact hN.querySession checked now req
  | sweep now =>
    show Numbered (ager.sweep d.service now d.tracker).1
    rw [SessionAger.sweep_fst]
    exact hN.removeKeys _

theorem numbered_run (checked : Bool) (ager : SessionAger) : ∀ ops : List Op,
    (daemon checked ager).Meets NoWrap ops → Numbered ((daemon checked ager).run ops).service :=
  Machine.run_induction_of_meets (P := fun _ (d : Daemon) => Numbered d.service) _
    (Numbered.init checked ager) (fun _ _ _ hN hw => hN.step checked hw)

/-! ### The lock -/

theorem programSession_poisoned_eq (s : OffloadServiceImpl) (now : Nanos)
    (req : ProgramSessionRequest) :
    (s.programSession now req).2.docaManager.poisoned = s.docaManager.poisoned := by
  cases hkey : req.key with
  | none => rw [OffloadServiceImpl.programSession_none hkey]
  | some key =>
    cases hp : s.docaManager.poisoned with
    | true =>
      rw [OffloadServiceImpl.programSession_poisoned hkey hp]
      exact hp
    | false =>
      cases hb : req.bidirectional with
      | false => rw [OffloadServiceImpl.programSession_unidirectional hkey hb hp]
      | true => rw [OffloadServiceImpl.programSession_bidirectional hkey hb hp]

/-- Only a query can poison the lock. -/
theorem step_poisoned {checked : Bool} {ager : SessionAger} {d : Daemon} {op : Op}
    (hq : op.isQuery = false) :
    (d.step checked ager op).2.service.docaManager.poisoned = d.service.docaManager.poisoned := by
  cases op with
  | programSession now req => exact programSession_poisoned_eq d.service now req
  | flushSessions req =>
    obtain ⟨_ | c⟩ := req
    · rfl
    · show (d.service.flushSessions ⟨some c⟩).2.docaManager.poisoned = _
      rw [OffloadServiceImpl.flushSessions_snd]
      exact (DocaFlowManager.foldl_removeBoth_frame _ _).2.1
  | querySession now req => cases hq
  | sweep now =>
    show (ager.sweep d.service now d.tracker).1.docaManager.poisoned = _
    rw [SessionAger.sweep_fst]
    exact (DocaFlowManager.foldl_removeBoth_frame _ _).2.1

theorem run_not_poisoned (checked : Bool) (ager : SessionAger) (ops : List Op) :
    (∀ op ∈ ops, op.isQuery = false) →
      ((daemon checked ager).run ops).service.docaManager.poisoned = false := by
  refine Machine.run_induction (M := daemon checked ager) (P := fun ops d =>
    (∀ op ∈ ops, op.isQuery = false) → d.service.docaManager.poisoned = false)
    (fun _ => rfl) (fun ops op d ih hops => ?_) ops
  rw [show (daemon checked ager).step = Daemon.step checked ager from rfl,
    step_poisoned (hops op (by simp))]
  exact ih (fun op' hop' => hops op' (by simp [hop']))

/-! ### One flush -/

theorem flushSessions_fst (s : OffloadServiceImpl) (c : MatchCriteria) :
    (s.flushSessions ⟨some c⟩).1
      = .ok ⟨UInt32.ofNat
          (s.sessionTable.removeKeys (s.sessionTable.keysToRemove c.covers)).1.length⟩ := by
  rw [OffloadServiceImpl.flushSessions_some]

/-- What stays programmed after a flush. -/
theorem mem_flushSessions {s : OffloadServiceImpl} (hp : s.docaManager.poisoned = false)
    (c : MatchCriteria) (h : UInt64) :
    h ∈ (s.flushSessions ⟨some c⟩).2.docaManager.entries ↔ h ∈ s.docaManager.entries ∧
      ¬ Releases s.sessionTable.slots
        (fun k => ∃ e, s.sessionTable.map.get? k = some e ∧ c.covers e = true) h := by
  rw [OffloadServiceImpl.flushSessions_snd, DocaFlowManager.mem_foldl_removeBoth _ hp]
  refine and_congr_right (fun _ => not_congr ?_)
  simp only [SessionTable.mem_removeKeys_fst, SessionTable.mem_keysToRemove]
  constructor
  · intro hx
    obtain ⟨x, ⟨k, hk, e, he, rfl⟩, hx⟩ := hx
    exact ⟨k, e.slot, hk, SessionTable.slots_eq_some.mpr ⟨e, he, rfl⟩, hx⟩
  · intro hx
    obtain ⟨k, x, hk, hs, hor⟩ := hx
    obtain ⟨e, he, rfl⟩ := SessionTable.slots_eq_some.mp hs
    exact ⟨_, ⟨k, hk, e, he, rfl⟩, hor⟩

theorem Numbered.flushExact {s : OffloadServiceImpl} (hN : Numbered s)
    (hp : s.docaManager.poisoned = false) (c : MatchCriteria) :
    FlushExact c s (s.flushSessions ⟨some c⟩) where
  table k := by
    rw [OffloadServiceImpl.flushSessions_snd]
    exact SessionTable.get?_flushWhere s.sessionTable c.covers k
  count := by
    rw [flushSessions_fst, SessionTable.length_removeKeys_fst _ _
      (SessionTable.nodup_keysToRemove _ _), SessionTable.length_keysToRemove]
    intro k hk
    obtain ⟨e, he, -⟩ := SessionTable.mem_keysToRemove.mp hk
    exact Dict.mem_of_get? he
  gone k e he hc := by
    have hs : s.sessionTable.slots k = some e.slot := SessionTable.slots_eq_some.mpr ⟨e, he, rfl⟩
    refine ⟨fun hh => ?_, fun h hrev hh => ?_⟩
    · exact ((mem_flushSessions hp c _).mp hh).2 ⟨k, e.slot, ⟨e, he, hc⟩, hs, Or.inl rfl⟩
    · exact ((mem_flushSessions hp c _).mp hh).2 ⟨k, e.slot, ⟨e, he, hc⟩, hs, Or.inr hrev⟩
  kept k e he := by
    rw [mem_flushSessions hp]
    refine and_iff_left ?_
    have hfilter : (s.sessionTable.map.get? k).filter (fun e => !c.covers e) = some e := by
      rw [← he, OffloadServiceImpl.flushSessions_snd]
      exact (SessionTable.get?_flushWhere s.sessionTable c.covers k).symm
    obtain ⟨he, hc⟩ := Option.filter_eq_some_iff.mp hfilter
    refine hN.groups.not_releases (fun {k k' x x'} hk hx hx' htag => ?_)
      (SessionTable.slots_eq_some.mpr ⟨e, he, rfl⟩) (fun h => ?_)
    · -- the criteria look at the tag only
      obtain ⟨e₁, he₁, hc₁⟩ := hk
      obtain ⟨e₂, he₂, rfl⟩ := SessionTable.slots_eq_some.mp hx'
      obtain rfl := SessionTable.slot_eq he₁ hx
      exact ⟨e₂, he₂, (MatchCriteria.covers_eq_of_tag htag.symm c).trans hc₁⟩
    · obtain ⟨e', he', hc'⟩ := h
      rw [he] at he'
      cases he'
      rw [hc'] at hc
      cases hc

/-- **A flush is exact and local** in every state that programming, flushing and
sweeping reach. -/
theorem flush_exact (checked : Bool) (ager : SessionAger) (ops : List Op)
    (hq : ∀ op ∈ ops, op.isQuery = false) (hw : (daemon checked ager).Meets NoWrap ops)
    (c : MatchCriteria) :
    FlushExact c ((daemon checked ager).run ops).service
      (((daemon checked ager).run ops).service.flushSessions ⟨some c⟩) :=
  (numbered_run checked ager ops hw).flushExact (run_not_poisoned checked ager ops hq) c

/-- One direction of a session is programmed again under another rule: the entry of
the other direction still names the handle that was overwritten. -/
def programmedOver : List Op :=
  [.programSession 0 (sampleRequest true),
    .programSession 0 ⟨some ⟨100, "10.0.0.2", "10.0.0.1", 80, 5000, 1⟩, 1, false, 0, "r2"⟩,
    .sweep 1000000000]

theorem flush_exact_programmedOver :
    (∀ op ∈ programmedOver, op.isQuery = false) ∧
    (daemon true defaultAger).Meets NoWrap programmedOver ∧
    FlushExact (.RuleId "r1") ((daemon true defaultAger).run programmedOver).service
      (((daemon true defaultAger).run programmedOver).service.flushSessions
        ⟨some (.RuleId "r1")⟩) := by
  have hq : ∀ op ∈ programmedOver, op.isQuery = false := by decide
  have hw : (daemon true defaultAger).Meets NoWrap programmedOver :=
    Machine.meets_of_meetsFrom _ (by decide +kernel)
  exact ⟨hq, hw, flush_exact true defaultAger programmedOver hq hw (.RuleId "r1")⟩

end PrismFirewall.OffloadDaemon
