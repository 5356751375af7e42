import PrismFirewall.OffloadDaemon.Flush

/-!
# Leaked hardware entries

`Agreement.lean` says in which runs the table and the hardware agree.  This file is about
one of the two ways in which they can differ, the one that costs hardware: an entry that is
programmed and that no table entry names, neither as its own nor as that of its other
direction (`Unreachable`).

`unreachable_step_iff` says what one operation makes unreachable: the handles that only the
entries it forgets have named.  A programming forgets the entries it writes over, and a
removal forgets the entries it removes if the lock is poisoned.  So a run is free of leaks
exactly if no step forgets the last name of an entry (`leak_free_iff`), and a leak is never
repaired (`unreachable_forever`).
-/

namespace PrismFirewall.OffloadDaemon

open PrismFirewall.Lib (Dict Machine Slot Releases)

/-- A table entry has the handle, or names it as that of its other direction. -/
def InTable (s : OffloadServiceImpl) (h : UInt64) : Prop :=
  ∃ k x, s.sessionTable.slots k = some x ∧ x.Names h

/-- The handle is programmed, and no flush and no sweep can come upon it. -/
def Unreachable (s : OffloadServiceImpl) (h : UInt64) : Prop :=
  h ∈ s.docaManager.entries ∧ ¬ InTable s h

theorem named_iff_exists_mem {s : OffloadServiceImpl} {h : UInt64} :
    InTable s h ↔ ∃ y ∈ s.sessionTable.map.entries,
      y.2.entryHandle = h ∨ y.2.reverseHandle = some h := by
  constructor
  · intro hn
    obtain ⟨k, x, hx, hn⟩ := hn
    obtain ⟨e, he, rfl⟩ := SessionTable.slots_eq_some.mp hx
    exact ⟨(k, e), Dict.mem_entries_iff.mpr he, hn⟩
  · intro hn
    obtain ⟨⟨k, e⟩, hmem, hn⟩ := hn
    exact ⟨k, e.slot, SessionTable.slots_eq_some.mpr ⟨e, Dict.mem_entries_iff.mp hmem, rfl⟩, hn⟩

instance (s : OffloadServiceImpl) (h : UInt64) : Decidable (InTable s h) :=
  decidable_of_iff _ named_iff_exists_mem.symm

instance (s : OffloadServiceImpl) (h : UInt64) : Decidable (Unreachable s h) :=
  inferInstanceAs (Decidable (_ ∧ ¬ _))

/-- Where each handle has one owner, the handles that are named are programmed. -/
theorem Owned.mem_of_named {s : OffloadServiceImpl} (hO : Owned s) {h : UInt64} (hn : InTable s h) :
    h ∈ s.docaManager.entries := by
  obtain ⟨k, x, hx, hn⟩ := hn
  rcases hn with rfl | hn
  · exact (hO.live_iff _).mpr ⟨k, x, hx, rfl⟩
  · obtain ⟨k', x', hx', rfl, -⟩ := hO.partner hx hn
    exact (hO.live_iff _).mpr ⟨k', x', hx', rfl⟩

theorem Owned.named_of_mem {s : OffloadServiceImpl} (hO : Owned s) {h : UInt64}
    (hh : h ∈ s.docaManager.entries) : InTable s h := by
  obtain ⟨k, x, hx, rfl⟩ := (hO.live_iff h).mp hh
  exact ⟨k, x, hx, Or.inl rfl⟩

theorem owned_run (checked : Bool) (ager : SessionAger) : ∀ ops : List Op,
    (daemon checked ager).Meets (Undisturbed ager) ops →
      Owned ((daemon checked ager).run ops).service :=
  Machine.run_induction_of_meets (P := fun _ (d : Daemon) => Owned d.service) _
    (Owned.init checked ager) (fun _ _ _ hO hu => hO.step checked hu)

theorem hardwareAgrees_iff_slots {s : OffloadServiceImpl} : HardwareAgrees s ↔
    ∀ h, h ∈ s.docaManager.entries ↔ ∃ k x, s.sessionTable.slots k = some x ∧ x.handle = h := by
  refine forall_congr' (fun h => iff_congr Iff.rfl (exists_congr (fun k => ?_)))
  constructor
  · intro he
    obtain ⟨e, he, rfl⟩ := he
    exact ⟨e.slot, SessionTable.slots_eq_some.mpr ⟨e, he, rfl⟩, rfl⟩
  · intro hx
    obtain ⟨x, hx, rfl⟩ := hx
    obtain ⟨e, he, rfl⟩ := SessionTable.slots_eq_some.mp hx
    exact ⟨e, he, rfl⟩

/-- The handles an operation draws. -/
def drawn (d : Daemon) : Op → List UInt64
  | .programSession _ req => d.service.programmedHandles req
  | _ => []

/-- The keys whose entries go without their hardware entries. -/
def forgets (ager : SessionAger) (d : Daemon) : Op → List String
  | .programSession _ req => d.service.programmedTexts req
  | .flushSessions req =>
    if d.service.docaManager.poisoned then
      req.matchCriteria.elim [] (fun c => d.service.sessionTable.keysToRemove c.covers)
    else []
  | .querySession _ _ => []
  | .sweep now =>
    if d.service.docaManager.poisoned then (ager.collect d.service now d.tracker).1 else []

/-- An entry that is not forgotten names the handle. -/
def NamedBeside (s : OffloadServiceImpl) (ks : List String) (h : UInt64) : Prop :=
  ∃ k x, k ∉ ks ∧ s.sessionTable.slots k = some x ∧ x.Names h

theorem namedBeside_nil {s : OffloadServiceImpl} {h : UInt64} :
    NamedBeside s [] h ↔ InTable s h := by
  constructor
  · intro hn
    obtain ⟨k, x, -, hx, hn⟩ := hn
    exact ⟨k, x, hx, hn⟩
  · intro hn
    obtain ⟨k, x, hx, hn⟩ := hn
    exact ⟨k, x, List.not_mem_nil, hx, hn⟩

/-! ### Programming -/

/-- A programming files entries that name the handles it draws, and no others. -/
theorem slots_programSession (s : OffloadServiceImpl) (now : Nanos) (req : ProgramSessionRequest)
    (k : String) :
    if k ∈ s.programmedTexts req then
      ∃ x, (s.programSession now req).2.sessionTable.slots k = some x ∧
        ∀ h, x.Names h ↔ h ∈ s.programmedHandles req
    else (s.programSession now req).2.sessionTable.slots k = s.sessionTable.slots k := by
  cases hkey : req.key with
  | none =>
    rw [OffloadServiceImpl.programSession_none hkey, if_neg]
    unfold OffloadServiceImpl.programmedTexts
    rw [hkey]
    split <;> exact List.not_mem_nil
  | some key =>
    cases hp : s.docaManager.poisoned with
    | true =>
      rw [OffloadServiceImpl.programSession_poisoned hkey hp, if_neg]
      rw [OffloadServiceImpl.programmedTexts, if_pos hp]
      exact List.not_mem_nil
    | false =>
      cases hb : req.bidirectional with
      | false =>
        rw [OffloadServiceImpl.programSession_unidirectional hkey hb hp]
        simp only [OffloadServiceImpl.programmedTexts, OffloadServiceImpl.programmedHandles, hp,
          hkey, hb, OffloadServiceImpl.insertSession, SessionTable.slots_insert,
          Bool.false_eq_true, if_false, List.mem_singleton, reduceCtorEq, or_self]
        by_cases hk : k = sessionKeyString key
        · rw [if_pos hk, if_pos hk]
          refine ⟨_, rfl, fun h => ⟨fun hn => ?_, fun hn => Or.inl hn.symm⟩⟩
          rcases hn with hn | hn
          · exact hn.symm
          · cases hn
        · rw [if_neg hk, if_neg hk]
      | true =>
        rw [OffloadServiceImpl.programSession_bidirectional hkey hb hp]
        simp only [OffloadServiceImpl.programmedTexts, OffloadServiceImpl.programmedHandles, hp,
          hkey, hb, OffloadServiceImpl.insertSession, SessionTable.slots_insert,
          Bool.false_eq_true, if_false, if_true, List.mem_cons, List.not_mem_nil, or_false,
          reduceCtorEq, or_self]
        have hnames : ∀ (a b h : UInt64) (t : String × UInt32),
            (Slot.mk a (some b) t).Names h ↔ h = a ∨ h = b := by
          intro a b h t
          rw [Slot.Names, Option.some.injEq]
          exact or_congr eq_comm eq_comm
        by_cases hrev : k = sessionKeyString (reverseKey key)
        · rw [if_pos (Or.inr hrev), if_pos hrev]
          exact ⟨_, rfl, fun h => (hnames _ _ h _).trans or_comm⟩
        · by_cases hfwd : k = sessionKeyString key
          · rw [if_pos (Or.inl hfwd), if_neg hrev, if_pos hfwd]
            exact ⟨_, rfl, fun h => hnames _ _ h _⟩
          · rw [if_neg (by rintro (h | h); exacts [hfwd h, hrev h]), if_neg hrev, if_neg hfwd]

theorem mem_entries_programSession (s : OffloadServiceImpl) (now : Nanos)
    (req : ProgramSessionRequest) (h : UInt64) :
    h ∈ (s.programSession now req).2.docaManager.entries ↔
      h ∈ s.programmedHandles req ∨ h ∈ s.docaManager.entries := by
  have hget := s.get?_entries_programSession now req h
  by_cases hmem : h ∈ s.programmedHandles req
  · rw [if_pos hmem] at hget
    obtain ⟨entry, hentry, -⟩ := hget
    exact iff_of_true (Dict.mem_of_get? hentry) (Or.inl hmem)
  · rw [if_neg hmem] at hget
    rw [Dict.mem_iff_get?, Dict.mem_iff_get?, hget]
    exact (or_iff_right hmem).symm

/-- Where a handle is drawn, an entry is filed. -/
theorem exists_text_of_handle {s : OffloadServiceImpl} {req : ProgramSessionRequest} {h : UInt64}
    (hh : h ∈ s.programmedHandles req) : ∃ k, k ∈ s.programmedTexts req := by
  unfold OffloadServiceImpl.programmedHandles at hh
  split at hh
  · exact absurd hh List.not_mem_nil
  · rename_i hnot
    obtain ⟨hp, hkey⟩ := not_or.mp hnot
    obtain ⟨key, hkey⟩ := Option.ne_none_iff_exists'.mp hkey
    refine ⟨sessionKeyString key, ?_⟩
    rw [OffloadServiceImpl.programmedTexts, if_neg hp, hkey]
    dsimp only
    split
    · exact List.mem_cons_self
    · exact List.mem_cons_self

theorem named_programSession (s : OffloadServiceImpl) (now : Nanos) (req : ProgramSessionRequest)
    (h : UInt64) : InTable (s.programSession now req).2 h ↔
      h ∈ s.programmedHandles req ∨ NamedBeside s (s.programmedTexts req) h := by
  constructor
  · intro hn
    obtain ⟨k, x, hx, hn⟩ := hn
    have hslot := slots_programSession s now req k
    split at hslot
    · obtain ⟨y, hy, hnames⟩ := hslot
      obtain rfl := Option.some.inj (hx.symm.trans hy)
      exact Or.inl ((hnames h).mp hn)
    · rename_i hk
      rw [hslot] at hx
      exact Or.inr ⟨k, x, hk, hx, hn⟩
  · intro hn
    rcases hn with hmem | ⟨k, x, hk, hx, hn⟩
    · obtain ⟨k, hk⟩ := exists_text_of_handle hmem
      have hslot := slots_programSession s now req k
      rw [if_pos hk] at hslot
      obtain ⟨x, hx, hnames⟩ := hslot
      exact ⟨k, x, hx, (hnames h).mpr hmem⟩
    · have hslot := slots_programSession s now req k
      rw [if_neg hk] at hslot
      exact ⟨k, x, hslot.trans hx, hn⟩

/-! ### Removing -/

theorem slots_removeKeys (t : SessionTable) (ks : List String) (k : String)
    (x : Slot UInt64 (String × UInt32)) :
    (t.removeKeys ks).2.slots k = some x ↔ k ∉ ks ∧ t.slots k = some x := by
  rw [SessionTable.removeKeys_snd, SessionTable.slots_eq_some, SessionTable.slots_eq_some]
  simp only [Dict.get?_eraseAll_eq_some]
  constructor
  · intro h
    obtain ⟨e, ⟨he, hk⟩, hx⟩ := h
    exact ⟨hk, e, he, hx⟩
  · intro h
    obtain ⟨hk, e, he, hx⟩ := h
    exact ⟨e, ⟨he, hk⟩, hx⟩

/-- The handles a removal loop collects are those that the removed entries name. -/
theorem exists_removed_iff (t : SessionTable) (ks : List String) (h : UInt64) :
    (∃ x ∈ (t.removeKeys ks).1, x.1 = h ∨ x.2 = some h) ↔
      ∃ k x, k ∈ ks ∧ t.slots k = some x ∧ x.Names h := by
  simp only [SessionTable.mem_removeKeys_fst]
  constructor
  · intro hx
    obtain ⟨x, ⟨k, hk, e, he, rfl⟩, hn⟩ := hx
    exact ⟨k, e.slot, hk, SessionTable.slots_eq_some.mpr ⟨e, he, rfl⟩, hn⟩
  · intro hx
    obtain ⟨k, x, hk, hx, hn⟩ := hx
    obtain ⟨e, he, rfl⟩ := SessionTable.slots_eq_some.mp hx
    exact ⟨_, ⟨k, hk, e, he, rfl⟩, hn⟩

/-- The loops of a flush and of a sweep leave out of reach what was out of reach; behind a
poisoned lock they add what only the removed entries have named. -/
theorem unreachable_removeKeys (s : OffloadServiceImpl) (ks : List String) (h : UInt64) :
    Unreachable ⟨(s.sessionTable.removeKeys ks).2,
      (s.sessionTable.removeKeys ks).1.foldl DocaFlowManager.removeBoth s.docaManager⟩ h ↔
    h ∈ s.docaManager.entries ∧
      ¬ NamedBeside s (if s.docaManager.poisoned then ks else []) h := by
  have hnamed : InTable ⟨(s.sessionTable.removeKeys ks).2,
      (s.sessionTable.removeKeys ks).1.foldl DocaFlowManager.removeBoth s.docaManager⟩ h ↔
      NamedBeside s ks h := by
    simp only [InTable, NamedBeside, slots_removeKeys, and_assoc]
  rw [Unreachable, hnamed]
  cases hp : s.docaManager.poisoned with
  | true =>
    rw [if_pos rfl]
    refine and_congr_left (fun _ => ⟨fun hh => ?_, fun hh => ?_⟩)
    · exact DocaFlowManager.mem_of_mem_foldl_removeBoth hh
    · exact DocaFlowManager.mem_foldl_removeBoth_of_poisoned _ hp hh
  | false =>
    rw [if_neg Bool.false_ne_true, DocaFlowManager.mem_foldl_removeBoth _ hp, namedBeside_nil,
      and_assoc, exists_removed_iff]
    refine and_congr_right (fun _ => ⟨fun hh hn => ?_, fun hn => ⟨fun hh => ?_, fun hh => ?_⟩⟩)
    · obtain ⟨k, x, hx, hn⟩ := hn
      by_cases hk : k ∈ ks
      · exact hh.1 ⟨k, x, hk, hx, hn⟩
      · exact hh.2 ⟨k, x, hk, hx, hn⟩
    · obtain ⟨k, x, -, hx, hnames⟩ := hh
      exact hn ⟨k, x, hx, hnames⟩
    · obtain ⟨k, x, -, hx, hnames⟩ := hh
      exact hn ⟨k, x, hx, hnames⟩

/-! ### One operation -/

variable {checked : Bool} {ager : SessionAger} {d : Daemon} {op : Op} {h : UInt64}

/-- **What is unreachable after an operation**: what is programmed and not drawn by it, and
has no name beside the entries that it forgets. -/
theorem unreachable_step_iff : Unreachable (d.step checked ager op).2.service h ↔
    h ∈ d.service.docaManager.entries ∧ h ∉ drawn d op ∧
      ¬ NamedBeside d.service (forgets ager d op) h := by
  cases op with
  | programSession now req =>
    show Unreachable (d.service.programSession now req).2 h ↔ h ∈ d.service.docaManager.entries ∧
      h ∉ d.service.programmedHandles req ∧
      ¬ NamedBeside d.service (d.service.programmedTexts req) h
    rw [Unreachable, named_programSession, mem_entries_programSession, not_or]
    constructor
    · intro hh
      obtain ⟨hmem, hnot, hbeside⟩ := hh
      exact ⟨hmem.resolve_left hnot, hnot, hbeside⟩
    · intro hh
      obtain ⟨hmem, hnot, hbeside⟩ := hh
      exact ⟨Or.inr hmem, hnot, hbeside⟩
  | flushSessions req =>
    obtain ⟨_ | c⟩ := req
    · simp only [drawn, forgets, Option.elim_none, ite_self, namedBeside_nil, List.not_mem_nil,
        not_false_eq_true, true_and]
      exact Iff.rfl
    · show Unreachable (d.service.flushSessions ⟨some c⟩).2 h ↔ _
      rw [OffloadServiceImpl.flushSessions_snd, unreachable_removeKeys]
      simp only [drawn, forgets, Option.elim_some, List.not_mem_nil, not_false_eq_true, true_and]
  | querySession now req =>
    obtain ⟨hslots, -, hmem⟩ := d.service.querySession_frame checked now req
    show Unreachable (d.service.querySession checked now req).2 h ↔ _
    rw [Unreachable, InTable, hslots, hmem, forgets, namedBeside_nil]
    simp only [drawn, List.not_mem_nil, not_false_eq_true, true_and]
    exact Iff.rfl
  | sweep now =>
    show Unreachable (ager.sweep d.service now d.tracker).1 h ↔ _
    rw [SessionAger.sweep_fst, unreachable_removeKeys]
    simp only [drawn, forgets, List.not_mem_nil, not_false_eq_true, true_and]

/-! ### Runs without leaks -/

/-- Whatever a forgotten entry names is not programmed, or it is drawn again, or an entry
that stays names it too. -/
def StillNamed (ager : SessionAger) (d : Daemon) (op : Op) : Prop :=
  ∀ k ∈ forgets ager d op, ∀ x, d.service.sessionTable.slots k = some x → ∀ h, x.Names h →
    h ∈ d.service.docaManager.entries →
    h ∈ drawn d op ∨ NamedBeside d.service (forgets ager d op) h

/-- **A run leaks nothing exactly if no step of it forgets the last name of a programmed
entry.** -/
theorem leak_free_iff (checked : Bool) (ager : SessionAger) (ops : List Op) :
    (∀ ops₁ ops₂, ops = ops₁ ++ ops₂ → ∀ h,
      ¬ Unreachable ((daemon checked ager).run ops₁).service h) ↔
    (daemon checked ager).Meets (StillNamed ager) ops := by
  refine Machine.forall_run_iff_meets _
    (A := fun (d : Daemon) => ∀ h, ¬ Unreachable d.service h) ?_ (fun ops₁ op hA => ?_) ops
  · intro h hh
    exact absurd hh.1 (by simp [daemon, DocaFlowManager.init, Dict.mem_iff_get?])
  · have hstep : ∀ h, Unreachable ((daemon checked ager).step
        ((daemon checked ager).run ops₁) op).2.service h ↔ _ := fun h => unreachable_step_iff
    simp only [hstep]
    constructor
    · intro hno k hk x hx h hn hmem
      by_contra hor
      obtain ⟨hdrawn, hbeside⟩ := not_or.mp hor
      exact hno h ⟨hmem, hdrawn, hbeside⟩
    · intro hstill h hh
      obtain ⟨hmem, hdrawn, hbeside⟩ := hh
      -- before the step the entry had a name, which has been forgotten
      have hnamed : InTable ((daemon checked ager).run ops₁).service h := by
        by_contra hn
        exact hA h ⟨hmem, hn⟩
      obtain ⟨k, x, hx, hn⟩ := hnamed
      by_cases hk : k ∈ forgets ager ((daemon checked ager).run ops₁) op
      · rcases hstill k hk x hx h hn hmem with hd | hb
        · exact hdrawn hd
        · exact hbeside hb
      · exact hbeside ⟨k, x, hk, hx, hn⟩

/-! ### A leak is never repaired -/

/-- A query counts packets for the handle it asks for. -/
theorem DocaFlowManager.get?_querySession_of_ne (m : DocaFlowManager) (checked : Bool)
    {handle h : UInt64} (hne : h ≠ handle) :
    (m.querySession checked handle).2.entries.get? h = m.entries.get? h := by
  unfold querySession
  split
  · rfl
  · split
    · rfl
    · split
      · exact Dict.get?_insert_ne hne _
      · exact Dict.get?_insert_ne hne _

theorem get?_querySession_of_not_named {s : OffloadServiceImpl} {h : UInt64} (hn : ¬ InTable s h)
    (checked : Bool) (now : Nanos) (req : QuerySessionRequest) :
    (s.querySession checked now req).2.docaManager.entries.get? h
      = s.docaManager.entries.get? h := by
  unfold OffloadServiceImpl.querySession
  split
  · rfl
  · rename_i key hkey
    split
    · rfl
    · rename_i entry hentry
      have hne : h ≠ entry.entryHandle := by
        rintro rfl
        exact hn ⟨_, entry.slot, SessionTable.slots_eq_some.mpr ⟨entry, hentry, rfl⟩, Or.inl rfl⟩
      have hget := s.docaManager.get?_querySession_of_ne checked hne
      split
      · rename_i m hq
        rw [hq] at hget
        exact hget
      · rename_i r m hq
        rw [hq] at hget
        exact hget

/-- The handles an operation draws are at or above the counter. -/
theorem not_drawn_of_mem_drawn (hw : NoWrap d op) (hh : h ∈ drawn d op) :
    ¬ d.service.docaManager.Drawn h := by
  cases op with
  | programSession now req =>
    simp only [drawn, OffloadServiceImpl.programmedHandles] at hh
    split at hh
    · exact absurd hh List.not_mem_nil
    · rw [DocaFlowManager.Drawn]
      split at hh
      · rename_i hb
        simp only [NoWrap, hb, if_true] at hw
        have hsucc := UInt64.toNat_add_one (n := d.service.docaManager.nextHandle) (by omega)
        rcases List.mem_pair.mp hh with rfl | rfl
        · omega
        · omega
      · rw [List.mem_singleton.mp hh]
        exact Nat.lt_irrefl _
  | flushSessions req => exact absurd hh List.not_mem_nil
  | querySession now req => exact absurd hh List.not_mem_nil
  | sweep now => exact absurd hh List.not_mem_nil

theorem Unreachable.step (hu : Unreachable d.service h) (hd : h ∉ drawn d op) :
    Unreachable (d.step checked ager op).2.service h := by
  refine unreachable_step_iff.mpr ⟨hu.1, hd, fun hn => ?_⟩
  obtain ⟨k, x, -, hx, hn⟩ := hn
  exact hu.2 ⟨k, x, hx, hn⟩

/-- Not even the counters of an unreachable entry change. -/
theorem Unreachable.get?_step (hu : Unreachable d.service h) (hd : h ∉ drawn d op) :
    (d.step checked ager op).2.service.docaManager.entries.get? h
      = d.service.docaManager.entries.get? h := by
  have hafter : Unreachable (d.step checked ager op).2.service h := hu.step hd
  obtain ⟨entry, hentry⟩ := Dict.mem_iff_get?.mp hafter.1
  rw [hentry]
  cases op with
  | programSession now req =>
    have hget := d.service.get?_entries_programSession now req h
    rw [if_neg (show h ∉ d.service.programmedHandles req from hd)] at hget
    rw [← hget]
    exact hentry.symm
  | flushSessions req => exact ((d.service.get?_of_flushSessions req).2 h entry hentry).symm
  | querySession now req =>
    rw [← get?_querySession_of_not_named hu.2 checked now req]
    exact hentry.symm
  | sweep now =>
    have hsweep : (ager.sweep d.service now d.tracker).1.docaManager.entries.get? h
        = some entry := hentry
    rw [SessionAger.sweep_fst] at hsweep
    exact ((DocaFlowManager.foldl_removeBoth_frame _ _).2.2 h entry hsweep).symm

/-- **A leaked entry stays as it is for ever**: from the state that a run reaches, no request
and no sweep removes it, counts for it or names it, as long as the handle counter does not
wrap. -/
theorem unreachable_forever (checked : Bool) (ager : SessionAger) (ops ops' : List Op)
    (hw : (daemon checked ager).Meets NoWrap (ops ++ ops')) (h : UInt64)
    (hu : Unreachable ((daemon checked ager).run ops).service h) :
    Unreachable ((daemon checked ager).run (ops ++ ops')).service h ∧
    ((daemon checked ager).run (ops ++ ops')).service.docaManager.entries.get? h
      = ((daemon checked ager).run ops).service.docaManager.entries.get? h := by
  induction ops' using List.reverseRecOn with
  | nil =>
    rw [List.append_nil]
    exact ⟨hu, rfl⟩
  | append_singleton ops' op ih =>
    rw [← List.append_assoc] at hw ⊢
    obtain ⟨hrun, hop⟩ := (Machine.meets_append_singleton _).mp hw
    obtain ⟨hbefore, hget⟩ := ih hrun
    have hnot : h ∉ drawn ((daemon checked ager).run (ops ++ ops')) op := fun hd =>
      not_drawn_of_mem_drawn hop hd ((numbered_run checked ager _ hrun).programmed h hbefore.1)
    rw [Machine.run_append_singleton, ← hget]
    exact ⟨hbefore.step hnot, hbefore.get?_step hnot⟩

/-- Everything is flushed and swept after the session has been programmed twice. -/
def cleanUp : List Op := [.flushSessions ⟨some (.All true)⟩, .sweep 60000000000]

theorem unreachable_forever_programmedTwice :
    (daemon true defaultAger).Meets NoWrap (programmedTwice ++ cleanUp) ∧
    Unreachable ((daemon true defaultAger).run programmedTwice).service 1 ∧
    Unreachable ((daemon true defaultAger).run (programmedTwice ++ cleanUp)).service 1 ∧
    ((daemon true defaultAger).run (programmedTwice ++ cleanUp)).service.docaManager.entries.get? 1
      = ((daemon true defaultAger).run programmedTwice).service.docaManager.entries.get? 1 := by
  have hw : (daemon true defaultAger).Meets NoWrap (programmedTwice ++ cleanUp) :=
    Machine.meets_of_meetsFrom _ (by decide +kernel)
  have hu : Unreachable ((daemon true defaultAger).run programmedTwice).service 1 := by
    decide +kernel
  exact ⟨hw, hu, unreachable_forever true defaultAger programmedTwice cleanUp hw 1 hu⟩

end PrismFirewall.OffloadDaemon
