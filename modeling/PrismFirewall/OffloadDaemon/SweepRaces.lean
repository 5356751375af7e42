import Mathlib.Logic.Function.Iterate
import PrismFirewall.OffloadDaemon.Leaks

/-!
# A sweep beside requests

The aging loop of `aging.rs` holds no lock over a turn: it collects the keys of the table,
looks at them one by one, and removes the idle ones one by one, and requests are served
between any two of these steps.  `agerStep` is one step of the loop; taken without a break,
the steps are the turn of `Aging.lean` (`agerStep_alone`).

A key that is collected and not yet dealt with is `pending`.  What is filed under it when
its turn comes need not be what the loop has looked at: a request may have programmed the
session again.  `settled_iff` says that this is the only way, and `evicted_was_looked_at`
that without it a turn evicts nothing that it has not itself found idle.
-/

namespace PrismFirewall.OffloadDaemon

open PrismFirewall.Lib (Dict Machine Slot)

/-! ### The steps of a turn -/

/-- Where a turn stands: the keys with their handles as they were collected, those still to
be looked at, the keys to evict, and the handles of the entry that was removed last. -/
inductive SweepAt
  | waiting
  | looking (now : Nanos) (sessionKeys rest : List (String × UInt64)) (toEvict : List String)
  | evicting (sessionKeys : List (String × UInt64)) (toEvict : List String)
  | releasing (sessionKeys : List (String × UInt64)) (key : String) (handles : List UInt64)
      (toEvict : List String)

structure Sweeping extends Daemon where
  sweepAt : SweepAt

/-- One step of the loop; `now` is the clock at the start of a turn. -/
def agerStep (a : SessionAger) (now : Nanos) (c : Sweeping) : Sweeping :=
  match c.sweepAt with
  | .waiting =>
    let keys := SessionAger.sessionKeys c.service.sessionTable
    { c with sweepAt := .looking now keys keys [] }
  | .looking now keys (x :: rest) toEvict =>
    let (toEvict, tracker) := a.look c.service.docaManager now (toEvict, c.tracker) x
    { c with tracker := tracker, sweepAt := .looking now keys rest toEvict }
  | .looking _ keys [] toEvict => { c with sweepAt := .evicting keys toEvict }
  | .evicting keys (k :: ks) =>
    match c.service.sessionTable.removeByKeyString k with
    | (some entry, t) =>
      { c with
        service := { c.service with sessionTable := t }
        sweepAt := .releasing keys k (entry.entryHandle :: entry.reverseHandle.toList) ks }
    | (none, t) =>
      { c with
        service := { c.service with sessionTable := t }
        tracker := c.tracker.erase k
        sweepAt := .evicting keys ks }
  | .evicting _ [] =>
    let activeKeys := c.service.sessionTable.map.keys
    { c with
      tracker := c.tracker.filter (fun e => decide (e.1 ∈ activeKeys))
      sweepAt := .waiting }
  | .releasing keys k (h :: hs) ks =>
    { c with
      service := { c.service with docaManager := (c.service.docaManager.removeSession h).2 }
      sweepAt := .releasing keys k hs ks }
  | .releasing keys k [] ks =>
    { c with tracker := c.tracker.erase k, sweepAt := .evicting keys ks }

/-- The requests of the service. -/
inductive ServiceRequest
  | programSession (now : Nanos) (req : ProgramSessionRequest)
  | flushSessions (req : FlushSessionsRequest)
  | querySession (now : Nanos) (req : QuerySessionRequest)

def ServiceRequest.op : ServiceRequest → Op
  | .programSession now req => .programSession now req
  | .flushSessions req => .flushSessions req
  | .querySession now req => .querySession now req

inductive SweepInput
  | request (r : ServiceRequest)
  | ager (now : Nanos)

def Sweeping.step (checked : Bool) (a : SessionAger) (c : Sweeping) : SweepInput → Unit × Sweeping
  | .request r => ((), { c with toDaemon := (c.toDaemon.step checked a r.op).2 })
  | .ager now => ((), agerStep a now c)

/-- The daemon, with the aging loop between two turns. -/
def sweeping (checked : Bool) (a : SessionAger) : Machine Sweeping SweepInput Unit where
  init := ⟨(daemon checked a).init, .waiting⟩
  step := Sweeping.step checked a

/-! ### A turn without a break -/

section Alone

variable (a : SessionAger) (now : Nanos)

/-- The loop gets from one state to another when it is left alone. -/
def Leads (c c' : Sweeping) : Prop := ∃ n, (agerStep a now)^[n] c = c'

variable {a now}

theorem Leads.refl (c : Sweeping) : Leads a now c c := ⟨0, rfl⟩

/-- One step, and on from there. -/
theorem Leads.step {c c' : Sweeping} (h : Leads a now (agerStep a now c) c') :
    Leads a now c c' := by
  obtain ⟨n, hn⟩ := h
  exact ⟨n + 1, hn⟩

theorem Leads.trans {c c' c'' : Sweeping} (h : Leads a now c c') (h' : Leads a now c' c'') :
    Leads a now c c'' := by
  obtain ⟨n, rfl⟩ := h
  obtain ⟨n', rfl⟩ := h'
  exact ⟨n' + n, Function.iterate_add_apply _ _ _ _⟩

theorem leads_looking (keys rest : List (String × UInt64)) (s : OffloadServiceImpl) :
    ∀ acc : List String × IdleTracker,
      Leads a now ⟨⟨s, acc.2⟩, .looking now keys rest acc.1⟩
        ⟨⟨s, (rest.foldl (a.look s.docaManager now) acc).2⟩,
          .evicting keys (rest.foldl (a.look s.docaManager now) acc).1⟩ := by
  induction rest with
  | nil =>
    intro acc
    exact (Leads.refl _).step
  | cons x rest ih =>
    intro acc
    exact (ih (a.look s.docaManager now acc x)).step

theorem leads_releasing (handles : List UInt64) (keys : List (String × UInt64)) (k : String)
    (ks : List String) (t : SessionTable) (tracker : IdleTracker) : ∀ m : DocaFlowManager,
      Leads a now ⟨⟨⟨t, m⟩, tracker⟩, .releasing keys k handles ks⟩
        ⟨⟨⟨t, handles.foldl (fun m h => (m.removeSession h).2) m⟩, tracker.erase k⟩,
          .evicting keys ks⟩ := by
  induction handles with
  | nil =>
    intro m
    exact (Leads.refl _).step
  | cons h handles ih =>
    intro m
    exact (ih (m.removeSession h).2).step

/-- The eviction of one key. -/
theorem leads_evict (keys : List (String × UInt64)) (k : String) (ks : List String)
    (acc : OffloadServiceImpl × IdleTracker) :
    Leads a now ⟨⟨acc.1, acc.2⟩, .evicting keys (k :: ks)⟩
      ⟨⟨(SessionAger.evict acc k).1, (SessionAger.evict acc k).2⟩, .evicting keys ks⟩ := by
  obtain ⟨⟨t, m⟩, tracker⟩ := acc
  apply Leads.step
  cases hget : t.map.get? k with
  | none =>
    simp only [agerStep, SessionAger.evict, SessionTable.removeByKeyString, hget]
    exact Leads.refl _
  | some entry =>
    have hboth : (entry.entryHandle :: entry.reverseHandle.toList).foldl
        (fun m h => (m.removeSession h).2) m
          = m.removeBoth (entry.entryHandle, entry.reverseHandle) := by
      cases hrev : entry.reverseHandle with
      | none => simp [DocaFlowManager.removeBoth]
      | some rev => simp [DocaFlowManager.removeBoth]
    simp only [agerStep, SessionAger.evict, SessionTable.removeByKeyString, hget]
    rw [← hboth]
    exact leads_releasing _ keys k ks _ tracker m

theorem leads_evicting (keys : List (String × UInt64)) (ks : List String) :
    ∀ acc : OffloadServiceImpl × IdleTracker,
      Leads a now ⟨⟨acc.1, acc.2⟩, .evicting keys ks⟩
        ⟨⟨(ks.foldl SessionAger.evict acc).1, (ks.foldl SessionAger.evict acc).2⟩,
          .evicting keys []⟩ := by
  induction ks with
  | nil =>
    intro acc
    exact Leads.refl _
  | cons k ks ih =>
    intro acc
    exact (leads_evict keys k ks acc).trans (ih (SessionAger.evict acc k))

/-- **The steps of a turn, taken without a break, are the turn.** -/
theorem agerStep_alone (d : Daemon) : Leads a now ⟨d, .waiting⟩
    ⟨⟨(a.sweep d.service now d.tracker).1, (a.sweep d.service now d.tracker).2⟩, .waiting⟩ := by
  apply Leads.step
  refine (leads_looking _ _ d.service ([], d.tracker)).trans ?_
  refine (leads_evicting _ _ (d.service, (a.collect d.service now d.tracker).2)).trans ?_
  exact (Leads.refl _).step

end Alone

/-! ### What a turn still has to deal with -/

/-- What is still to be looked at. -/
def SweepAt.rest : SweepAt → List (String × UInt64)
  | .looking _ _ rest _ => rest
  | _ => []

/-- The keys that are to go. -/
def SweepAt.toEvict : SweepAt → List String
  | .waiting => []
  | .looking _ _ _ toEvict => toEvict
  | .evicting _ toEvict => toEvict
  | .releasing _ _ _ toEvict => toEvict

/-- The keys that were collected and are not yet dealt with. -/
def SweepAt.pending (p : SweepAt) : List String :=
  p.rest.map Prod.fst ++ p.toEvict

/-- The keys and handles as they were collected. -/
def SweepAt.sessionKeys : SweepAt → List (String × UInt64)
  | .waiting => []
  | .looking _ keys _ _ => keys
  | .evicting keys _ => keys
  | .releasing keys _ _ _ => keys

/-- What is filed under a pending key is what was collected. -/
def Settled (c : Sweeping) : Prop :=
  ∀ k ∈ c.sweepAt.pending, ∀ e, c.service.sessionTable.map.get? k = some e →
    (k, e.entryHandle) ∈ c.sweepAt.sessionKeys

/-- The texts under which a request files a session. -/
def ServiceRequest.files (s : OffloadServiceImpl) : ServiceRequest → List String
  | .programSession _ req => s.programmedTexts req
  | _ => []

/-- No session is programmed under a pending key. -/
def NoneProgrammed (c : Sweeping) : SweepInput → Prop
  | .request r => ∀ k ∈ r.files c.service, k ∉ c.sweepAt.pending
  | .ager _ => True

instance (c : Sweeping) : (i : SweepInput) → Decidable (NoneProgrammed c i)
  | .request _ => inferInstanceAs (Decidable (∀ k ∈ _, _))
  | .ager _ => inferInstanceAs (Decidable True)

/-- The handle counter does not wrap in the step. -/
def KeepsNumbers (c : Sweeping) : SweepInput → Prop
  | .request r => NoWrap c.toDaemon r.op
  | .ager _ => True

instance (c : Sweeping) : (i : SweepInput) → Decidable (KeepsNumbers c i)
  | .request r => inferInstanceAs (Decidable (NoWrap c.toDaemon r.op))
  | .ager _ => inferInstanceAs (Decidable True)

section Steps

variable {checked : Bool} {a : SessionAger} {c : Sweeping}

/-- What is in the table after a request was filed by it, or was there with the same
handle. -/
theorem get?_request (r : ServiceRequest) {k : String} {e : SessionEntry}
    (he : (c.toDaemon.step checked a r.op).2.service.sessionTable.map.get? k = some e) :
    (k ∈ r.files c.service ∧ e.entryHandle ∈ drawn c.toDaemon r.op) ∨
    ∃ e', c.service.sessionTable.map.get? k = some e' ∧ e'.entryHandle = e.entryHandle := by
  cases r with
  | programSession now req =>
    have hget := c.service.get?_programSession now req k
    by_cases hk : k ∈ c.service.programmedTexts req
    · rw [if_pos hk] at hget
      obtain ⟨e', he', -, hh⟩ := hget
      obtain rfl := Option.some.inj (he'.symm.trans he)
      exact Or.inl ⟨hk, hh⟩
    · rw [if_neg hk] at hget
      exact Or.inr ⟨e, hget ▸ he, rfl⟩
  | flushSessions req =>
    exact Or.inr ⟨e, (c.service.get?_of_flushSessions req).1 k e he, rfl⟩
  | querySession now req =>
    obtain ⟨hslots, -, -⟩ := c.service.querySession_frame checked now req
    have hslot := SessionTable.slots_eq_some.mpr ⟨e, he, rfl⟩
    have hbefore : c.service.sessionTable.slots k = some e.slot := by
      rw [← hslots]
      exact hslot
    obtain ⟨e', he', hslot'⟩ := SessionTable.slots_eq_some.mp hbefore
    exact Or.inr ⟨e', he', congrArg Slot.handle hslot'⟩

/-- A text that is filed under has an entry with a handle that the request draws. -/
theorem exists_of_mem_files (r : ServiceRequest) {k : String} (hk : k ∈ r.files c.service) :
    ∃ e, (c.toDaemon.step checked a r.op).2.service.sessionTable.map.get? k = some e ∧
      e.entryHandle ∈ drawn c.toDaemon r.op := by
  cases r with
  | programSession now req =>
    have hget := c.service.get?_programSession now req k
    rw [if_pos (show k ∈ c.service.programmedTexts req from hk)] at hget
    obtain ⟨e, he, -, hh⟩ := hget
    exact ⟨e, he, hh⟩
  | flushSessions req => exact absurd hk List.not_mem_nil
  | querySession now req => exact absurd hk List.not_mem_nil

/-- What a step of a turn can do to what is there: nothing is added to the table or to the
hardware, and nothing becomes pending but at the start of a turn. -/
structure Removes (c c' : Sweeping) : Prop where
  table : ∀ k e, c'.service.sessionTable.map.get? k = some e →
    c.service.sessionTable.map.get? k = some e
  nextHandle : c'.service.docaManager.nextHandle = c.service.docaManager.nextHandle
  hardware : ∀ h ∈ c'.service.docaManager.entries, h ∈ c.service.docaManager.entries
  pending : ∀ k ∈ c'.sweepAt.pending, k ∈ c.sweepAt.pending
  sessionKeys : c'.sweepAt.sessionKeys = c.sweepAt.sessionKeys ∨ c'.sweepAt = .waiting

theorem removes_of_service_eq {c c' : Sweeping} (hs : c'.service = c.service)
    (hpending : ∀ k ∈ c'.sweepAt.pending, k ∈ c.sweepAt.pending)
    (hkeys : c'.sweepAt.sessionKeys = c.sweepAt.sessionKeys ∨ c'.sweepAt = .waiting) :
    Removes c c' :=
  ⟨fun k e he => hs ▸ he, by rw [hs], fun h hh => hs ▸ hh, hpending, hkeys⟩

/-- **One step of the loop**: it collects the keys, or it removes. -/
theorem agerStep_cases (a : SessionAger) (now : Nanos) (c : Sweeping) :
    (c.sweepAt = .waiting ∧ agerStep a now c = ⟨c.toDaemon, .looking now
      (SessionAger.sessionKeys c.service.sessionTable)
      (SessionAger.sessionKeys c.service.sessionTable) []⟩) ∨
    c.sweepAt ≠ .waiting ∧ Removes c (agerStep a now c) := by
  obtain ⟨d, sweepAt⟩ := c
  cases sweepAt with
  | waiting => exact Or.inl ⟨rfl, rfl⟩
  | looking start keys rest toEvict =>
    refine Or.inr ⟨by simp, ?_⟩
    cases rest with
    | nil =>
      apply removes_of_service_eq
      · rfl
      · intro k hk
        exact hk
      · exact Or.inl rfl
    | cons x rest =>
      apply removes_of_service_eq
      · rfl
      · intro k hk
        -- the key just looked at may be among those to evict now
        have hk' : k ∈ rest.map Prod.fst ++
            (a.look d.service.docaManager start (toEvict, d.tracker) x).1 := hk
        rw [SessionAger.look_fst] at hk'
        show k ∈ x.1 :: (rest.map Prod.fst ++ toEvict)
        split at hk'
        · simp only [List.mem_append, List.mem_cons] at hk' ⊢
          tauto
        · simp only [List.append_nil, List.mem_append, List.mem_cons] at hk' ⊢
          tauto
      · exact Or.inl rfl
  | evicting keys toEvict =>
    refine Or.inr ⟨by simp, ?_⟩
    cases toEvict with
    | nil =>
      apply removes_of_service_eq
      · rfl
      · intro k hk
        exact hk
      · exact Or.inr rfl
    | cons k ks =>
      have herase : ∀ k' e, (d.service.sessionTable.map.erase k).get? k' = some e →
          d.service.sessionTable.map.get? k' = some e :=
        fun k' e he => (Dict.get?_erase_eq_some.mp he).2
      cases hget : d.service.sessionTable.map.get? k with
      | none =>
        simp only [agerStep, SessionTable.removeByKeyString, hget]
        exact ⟨herase, rfl, fun h hh => hh, fun k' hk => List.mem_cons_of_mem k hk, Or.inl rfl⟩
      | some entry =>
        simp only [agerStep, SessionTable.removeByKeyString, hget]
        exact ⟨herase, rfl, fun h hh => hh, fun k' hk => List.mem_cons_of_mem k hk, Or.inl rfl⟩
  | releasing keys k handles toEvict =>
    refine Or.inr ⟨by simp, ?_⟩
    cases handles with
    | nil =>
      apply removes_of_service_eq
      · rfl
      · intro k' hk
        exact hk
      · exact Or.inl rfl
    | cons h hs =>
      refine ⟨fun k' e he => he, d.service.docaManager.removeSession_nextHandle h, ?_,
        fun k' hk => hk, Or.inl rfl⟩
      intro h' hh
      obtain ⟨entry, hentry⟩ := Dict.mem_iff_get?.mp hh
      exact Dict.mem_of_get? (DocaFlowManager.get?_of_removeSession hentry)

/-! ### One step, and what is settled -/

variable (checked a)

/-- A request leaves the turn where it is. -/
theorem settled_request (r : ServiceRequest) (hc : Settled c)
    (hnone : NoneProgrammed c (.request r)) :
    Settled (Sweeping.step checked a c (.request r)).2 := by
  intro k hpending e he
  rcases get?_request r he with ⟨hk, -⟩ | ⟨e', he', hhandle⟩
  · exact absurd hpending (hnone k hk)
  · rw [← hhandle]
    exact hc k hpending e' he'

/-- What it files under a pending key is not what was collected. -/
theorem settled_request_iff (r : ServiceRequest) (hw : NoWrap c.toDaemon r.op)
    (hdrawn : ∀ x ∈ c.sweepAt.sessionKeys, c.service.docaManager.Drawn x.2) (hc : Settled c) :
    Settled (Sweeping.step checked a c (.request r)).2 ↔ NoneProgrammed c (.request r) := by
  constructor
  · intro hafter k hk hpending
    obtain ⟨e, he, hnew⟩ := @exists_of_mem_files checked a c r k hk
    exact not_drawn_of_mem_drawn hw hnew (hdrawn _ (hafter k hpending e he))
  · exact settled_request checked a r hc

theorem mem_sessionKeys {t : SessionTable} {k : String} {e : SessionEntry}
    (he : t.map.get? k = some e) : (k, e.entryHandle) ∈ SessionAger.sessionKeys t :=
  List.mem_map.mpr ⟨(k, e), Dict.mem_entries_iff.mpr he, rfl⟩

/-- The loop itself leaves what is pending as it was collected. -/
theorem settled_agerStep (now : Nanos) (hc : Settled c) : Settled (agerStep a now c) := by
  intro k hk e he
  rcases agerStep_cases a now c with ⟨-, hstep⟩ | ⟨-, hremoves⟩
  · rw [hstep] at he ⊢
    exact mem_sessionKeys he
  · rcases hremoves.sessionKeys with hkeys | hwaiting
    · rw [hkeys]
      exact hc k (hremoves.pending k hk) e (hremoves.table k e he)
    · rw [hwaiting] at hk
      exact absurd hk List.not_mem_nil

/-- What a run keeps while the counter does not wrap: the service is numbered, and what was
collected was drawn before. -/
structure Counted (c : Sweeping) : Prop where
  numbered : Numbered c.service
  drawn : ∀ x ∈ c.sweepAt.sessionKeys, c.service.docaManager.Drawn x.2

variable {checked a}

/-- A request does not set the counter back. -/
theorem nextHandle_le_request (r : ServiceRequest) (hw : NoWrap c.toDaemon r.op) :
    c.service.docaManager.nextHandle.toNat
      ≤ (c.toDaemon.step checked a r.op).2.service.docaManager.nextHandle.toNat := by
  cases r with
  | programSession now req =>
    have hlt : c.service.docaManager.nextHandle.toNat
        + (if req.bidirectional then 2 else 1) < 2 ^ 64 := hw
    have hnext := UInt64.toNat_add_one (n := c.service.docaManager.nextHandle)
      (by split at hlt <;> omega)
    show _ ≤ (c.service.programSession now req).2.docaManager.nextHandle.toNat
    cases hkey : req.key with
    | none =>
      exact Nat.le_of_eq (by rw [OffloadServiceImpl.programSession_none hkey])
    | some key =>
      cases hp : c.service.docaManager.poisoned with
      | true =>
        rw [OffloadServiceImpl.programSession_poisoned hkey hp]
        exact Nat.le.intro hnext.symm
      | false =>
        cases hb : req.bidirectional with
        | false =>
          rw [OffloadServiceImpl.programSession_unidirectional hkey hb hp]
          exact Nat.le.intro hnext.symm
        | true =>
          rw [hb, if_pos rfl] at hlt
          have hnext2 := UInt64.toNat_add_one (n := c.service.docaManager.nextHandle + 1)
            (by omega)
          rw [OffloadServiceImpl.programSession_bidirectional hkey hb hp]
          show _ ≤ (c.service.docaManager.nextHandle + 1 + 1).toNat
          omega
  | flushSessions req =>
    obtain ⟨_ | criteria⟩ := req
    · exact Nat.le_refl _
    · show _ ≤ (c.service.flushSessions ⟨some criteria⟩).2.docaManager.nextHandle.toNat
      rw [OffloadServiceImpl.flushSessions_snd]
      exact Nat.le_of_eq
        (congrArg UInt64.toNat (DocaFlowManager.foldl_removeBoth_frame _ _).1.symm)
  | querySession now req =>
    obtain ⟨-, hnext, -⟩ := c.service.querySession_frame checked now req
    exact Nat.le_of_eq (congrArg UInt64.toNat hnext.symm)

theorem Counted.request (hC : Counted c) (r : ServiceRequest) (hw : NoWrap c.toDaemon r.op) :
    Counted (Sweeping.step checked a c (.request r)).2 where
  numbered := hC.numbered.step checked hw
  drawn x hx := Nat.lt_of_lt_of_le (hC.drawn x hx) (nextHandle_le_request r hw)

theorem Counted.agerStep (hC : Counted c) (now : Nanos) : Counted (agerStep a now c) := by
  rcases agerStep_cases a now c with ⟨-, hstep⟩ | ⟨-, hremoves⟩
  · rw [hstep]
    refine ⟨hC.numbered, fun x hx => ?_⟩
    obtain ⟨⟨k, e⟩, hmem, rfl⟩ := List.mem_map.mp hx
    exact hC.numbered.groups.drawn_of_names
      (SessionTable.slots_eq_some.mpr ⟨e, Dict.mem_entries_iff.mp hmem, rfl⟩) (Or.inl rfl)
  · have hnext := Nat.le_of_eq (congrArg UInt64.toNat hremoves.nextHandle.symm)
    refine ⟨hC.numbered.mono ?_ hnext hremoves.hardware, fun x hx => ?_⟩
    · intro k x hx
      obtain ⟨e, he, hslot⟩ := SessionTable.slots_eq_some.mp hx
      exact SessionTable.slots_eq_some.mpr ⟨e, hremoves.table k e he, hslot⟩
    · rw [DocaFlowManager.Drawn, hremoves.nextHandle]
      rcases hremoves.sessionKeys with hkeys | hwaiting
      · exact hC.drawn x (hkeys ▸ hx)
      · rw [hwaiting] at hx
        exact absurd hx List.not_mem_nil

end Steps

theorem counted_run (checked : Bool) (a : SessionAger) : ∀ l : List SweepInput,
    (sweeping checked a).Meets KeepsNumbers l → Counted ((sweeping checked a).run l) := by
  apply Machine.run_induction_of_meets (P := fun _ c => Counted c)
  · exact ⟨Numbered.init checked a, fun x hx => absurd hx List.not_mem_nil⟩
  · intro l i c hC hw
    cases i with
    | request r => exact hC.request r hw
    | ager now => exact hC.agerStep now

theorem settled_run (checked : Bool) (a : SessionAger) : ∀ l : List SweepInput,
    (sweeping checked a).Meets NoneProgrammed l → Settled ((sweeping checked a).run l) := by
  apply Machine.run_induction_of_meets (P := fun _ c => Settled c)
  · intro k hk
    exact absurd hk List.not_mem_nil
  · intro l i c hc hnone
    cases i with
    | request r => exact settled_request checked a r hc hnone
    | ager now => exact settled_agerStep a now hc

/-- **What is filed under a pending key is what was collected, all along a run, exactly if no
session is programmed under a key that the loop has collected and not yet dealt with.** -/
theorem settled_iff (checked : Bool) (a : SessionAger) (l : List SweepInput)
    (hw : (sweeping checked a).Meets KeepsNumbers l) :
    (∀ l₁ l₂, l = l₁ ++ l₂ → Settled ((sweeping checked a).run l₁)) ↔
      (sweeping checked a).Meets NoneProgrammed l := by
  refine Machine.forall_run_iff_meets_of_meets _ (fun k hk => absurd hk List.not_mem_nil) ?_ l hw
  intro l i hl hsettled
  obtain ⟨hbefore, hi⟩ := (Machine.meets_append_singleton _).mp hl
  cases i with
  | request r =>
    exact settled_request_iff checked a r hi (counted_run checked a l hbefore).drawn hsettled
  | ager now => exact iff_of_true (settled_agerStep a now hsettled) trivial

/-- A session stands idle over a turn and is found so in the next. -/
def stoodIdle : List SweepInput :=
  .request (.programSession 0 (sampleRequest false)) :: List.replicate 4 (.ager 0) ++
    List.replicate 3 (.ager 60000000000)

/-- It is programmed again while the loop is about to evict it. -/
def overtaken : List SweepInput :=
  stoodIdle ++ [.request (.programSession 60000000000 (sampleRequest false))]

theorem settled_iff_overtaken :
    (sweeping true defaultAger).Meets KeepsNumbers overtaken ∧
    ¬ (sweeping true defaultAger).Meets NoneProgrammed overtaken ∧
    ¬ ∀ l₁ l₂, overtaken = l₁ ++ l₂ → Settled ((sweeping true defaultAger).run l₁) := by
  have hw : (sweeping true defaultAger).Meets KeepsNumbers overtaken :=
    Machine.meets_of_meetsFrom _ (by decide +kernel)
  have hnot : ¬ (sweeping true defaultAger).Meets NoneProgrammed overtaken := by
    intro h
    have hlast := h stoodIdle (.request (.programSession 60000000000 (sampleRequest false))) [] rfl
    exact absurd hlast (by decide +kernel)
  exact ⟨hw, hnot, fun h => hnot ((settled_iff true defaultAger overtaken hw).mp h)⟩

/-! ### What a turn evicts -/

/-- The session that a step takes out of the table. -/
def evicted (c : Sweeping) : SweepInput → Option (String × SessionEntry)
  | .request _ => none
  | .ager _ =>
    match c.sweepAt with
    | .evicting _ (k :: _) => (c.service.sessionTable.map.get? k).map (fun e => (k, e))
    | _ => none

section Turns

variable (checked : Bool) (a : SessionAger)

/-- In the turn that is on at the end of `l`, the loop has looked at a session and found that
it should go. -/
def FoundIdle (l : List SweepInput) (session : String × UInt64) : Prop :=
  ∃ l₁ clock l₂ now keys rest toEvict, l = l₁ ++ .ager clock :: l₂ ∧
    ((sweeping checked a).run l₁).sweepAt = .looking now keys (session :: rest) toEvict ∧
    a.shouldEvict ((sweeping checked a).run l₁).service.docaManager now
      ((sweeping checked a).run l₁).tracker session = true ∧
    ∀ l₃ l₄, l₂ = l₃ ++ l₄ →
      ((sweeping checked a).run (l₁ ++ .ager clock :: l₃)).sweepAt ≠ .waiting

variable {checked a}

theorem FoundIdle.append {l : List SweepInput} {x : String × UInt64} (hx : FoundIdle checked a l x)
    {i : SweepInput} (hon : ((sweeping checked a).run (l ++ [i])).sweepAt ≠ .waiting) :
    FoundIdle checked a (l ++ [i]) x := by
  obtain ⟨l₁, clock, l₂, now, keys, rest, toEvict, rfl, hat, hidle, hturn⟩ := hx
  refine ⟨l₁, clock, l₂ ++ [i], now, keys, rest, toEvict, by simp, hat, hidle, ?_⟩
  intro l₃ l₄ e
  rcases List.eq_nil_or_concat l₄ with rfl | ⟨l₅, j, rfl⟩
  · rw [List.append_nil] at e
    subst e
    rw [← List.cons_append, ← List.append_assoc]
    exact hon
  · rw [List.concat_eq_append, ← List.append_assoc] at e
    exact hturn l₃ l₅ (List.append_inj_left' e rfl)

/-- What a turn knows of the keys it goes through. -/
structure InTurn (checked : Bool) (a : SessionAger) (l : List SweepInput) (c : Sweeping) :
    Prop where
  nodup : (c.sweepAt.sessionKeys.map Prod.fst).Nodup
  rest : ∀ x ∈ c.sweepAt.rest, x ∈ c.sweepAt.sessionKeys
  found : ∀ k ∈ c.sweepAt.toEvict, ∃ h, (k, h) ∈ c.sweepAt.sessionKeys ∧
    FoundIdle checked a l (k, h)

/-- A step that goes on with the same turn, and has no new keys to evict. -/
theorem InTurn.keep {l : List SweepInput} {i : SweepInput}
    (hI : InTurn checked a l ((sweeping checked a).run l))
    (hkeys : ((sweeping checked a).run (l ++ [i])).sweepAt.sessionKeys
      = ((sweeping checked a).run l).sweepAt.sessionKeys)
    (hrest : ∀ x ∈ ((sweeping checked a).run (l ++ [i])).sweepAt.rest,
      x ∈ ((sweeping checked a).run l).sweepAt.rest)
    (hevict : ∀ k ∈ ((sweeping checked a).run (l ++ [i])).sweepAt.toEvict,
      k ∈ ((sweeping checked a).run l).sweepAt.toEvict) :
    InTurn checked a (l ++ [i]) ((sweeping checked a).run (l ++ [i])) where
  nodup := hkeys ▸ hI.nodup
  rest x hx := hkeys ▸ hI.rest x (hrest x hx)
  found := by
    intro k hk
    obtain ⟨h, hmem, hfound⟩ := hI.found k (hevict k hk)
    refine ⟨h, hkeys ▸ hmem, hfound.append fun hwaiting => ?_⟩
    rw [hwaiting] at hk
    exact absurd hk List.not_mem_nil

/-- The look at one session: what is found here is found in this turn. -/
theorem InTurn.look {l : List SweepInput} (hI : InTurn checked a l ((sweeping checked a).run l))
    {clock now : Nanos} {keys rest : List (String × UInt64)} {x : String × UInt64}
    {toEvict : List String}
    (hrun : (sweeping checked a).run (l ++ [.ager clock])
      = agerStep a clock ((sweeping checked a).run l))
    (hat : ((sweeping checked a).run l).sweepAt = .looking now keys (x :: rest) toEvict) :
    InTurn checked a (l ++ [.ager clock]) ((sweeping checked a).run (l ++ [.ager clock])) := by
  have hlook : ((sweeping checked a).run (l ++ [.ager clock])).sweepAt
      = .looking now keys rest (toEvict ++
          if a.shouldEvict ((sweeping checked a).run l).service.docaManager now
            ((sweeping checked a).run l).tracker x then [x.1] else []) := by
    rw [hrun, agerStep, hat, ← SessionAger.look_fst a _ now (toEvict, _) x]
  have hon : ((sweeping checked a).run (l ++ [.ager clock])).sweepAt ≠ .waiting := by
    rw [hlook]
    exact SweepAt.noConfusion
  have hmem : ∀ y ∈ x :: rest, y ∈ keys := by
    have hrest := hI.rest
    rw [hat] at hrest
    exact hrest
  have hnodup := hI.nodup
  have hfound := hI.found
  rw [hat] at hnodup hfound
  refine ⟨?_, ?_, ?_⟩
  · rw [hlook]
    exact hnodup
  · rw [hlook]
    intro y hy
    exact hmem y (List.mem_cons_of_mem x hy)
  · intro k hk
    rw [hlook] at hk ⊢
    rcases List.mem_append.mp hk with hk | hk
    · obtain ⟨h, hin, hidle⟩ := hfound k hk
      exact ⟨h, hin, hidle.append hon⟩
    · split at hk
      · rename_i hidle
        rw [List.mem_singleton.mp hk]
        refine ⟨x.2, hmem x List.mem_cons_self, l, clock, [], now, keys, rest, toEvict, rfl, hat,
          hidle, ?_⟩
        intro l₃ l₄ e
        rw [(List.append_eq_nil_iff.mp e.symm).1]
        exact hon
      · exact absurd hk List.not_mem_nil

/-- While entries are removed, the keys stay as they were collected, and those to evict are
taken one by one. -/
theorem agerStep_removing (now : Nanos) {c : Sweeping} {keys : List (String × UInt64)}
    {ks : List String} (hat : (∃ k, c.sweepAt = .evicting keys (k :: ks)) ∨
      ∃ k handles, c.sweepAt = .releasing keys k handles ks) :
    (agerStep a now c).sweepAt.sessionKeys = keys ∧ (agerStep a now c).sweepAt.rest = [] ∧
      (agerStep a now c).sweepAt.toEvict = ks := by
  rcases hat with ⟨k, hat⟩ | ⟨k, handles, hat⟩
  · cases hget : c.service.sessionTable.map.get? k with
    | none =>
      simp only [agerStep, hat, SessionTable.removeByKeyString, hget]
      exact ⟨rfl, rfl, rfl⟩
    | some entry =>
      simp only [agerStep, hat, SessionTable.removeByKeyString, hget]
      exact ⟨rfl, rfl, rfl⟩
  · cases handles with
    | nil =>
      rw [agerStep, hat]
      exact ⟨rfl, rfl, rfl⟩
    | cons h hs =>
      rw [agerStep, hat]
      exact ⟨rfl, rfl, rfl⟩

/-- A step of the loop that looks at no session. -/
theorem InTurn.removes {l : List SweepInput} (hI : InTurn checked a l ((sweeping checked a).run l))
    {now : Nanos}
    (hkeys : (agerStep a now ((sweeping checked a).run l)).sweepAt.sessionKeys
      = ((sweeping checked a).run l).sweepAt.sessionKeys)
    (hrest : (agerStep a now ((sweeping checked a).run l)).sweepAt.rest = [])
    (hevict : ∀ k ∈ (agerStep a now ((sweeping checked a).run l)).sweepAt.toEvict,
      k ∈ ((sweeping checked a).run l).sweepAt.toEvict) :
    InTurn checked a (l ++ [.ager now]) ((sweeping checked a).run (l ++ [.ager now])) := by
  have hrun : (sweeping checked a).run (l ++ [.ager now])
      = agerStep a now ((sweeping checked a).run l) := Machine.run_append_singleton _ _ _
  apply hI.keep
  · rw [hrun]
    exact hkeys
  · intro x hx
    rw [hrun, hrest] at hx
    exact absurd hx List.not_mem_nil
  · rw [hrun]
    exact hevict

/-- **One step keeps what a turn knows.** -/
theorem InTurn.step {l : List SweepInput} (hI : InTurn checked a l ((sweeping checked a).run l))
    (i : SweepInput) :
    InTurn checked a (l ++ [i]) ((sweeping checked a).run (l ++ [i])) := by
  cases i with
  | request r =>
    apply hI.keep
    · rw [Machine.run_append_singleton]
      rfl
    · intro x hx
      rw [Machine.run_append_singleton] at hx
      exact hx
    · intro k hk
      rw [Machine.run_append_singleton] at hk
      exact hk
  | ager now =>
    have hrun : (sweeping checked a).run (l ++ [.ager now])
        = agerStep a now ((sweeping checked a).run l) := Machine.run_append_singleton _ _ _
    cases hat : ((sweeping checked a).run l).sweepAt with
    | waiting =>
      have hnodup : ((SessionAger.sessionKeys
          ((sweeping checked a).run l).service.sessionTable).map Prod.fst).Nodup := by
        rw [SessionAger.sessionKeys, List.map_map]
        exact ((sweeping checked a).run l).service.sessionTable.map.nodup
      rw [hrun, agerStep, hat]
      exact ⟨hnodup, fun x hx => hx, fun k hk => absurd hk List.not_mem_nil⟩
    | looking start keys rest toEvict =>
      cases rest with
      | nil =>
        apply hI.removes
        · rw [agerStep, hat]
          rfl
        · rw [agerStep, hat]
          rfl
        · rw [agerStep, hat]
          exact fun k hk => hk
      | cons x rest => exact hI.look hrun hat
    | evicting keys toEvict =>
      cases toEvict with
      | nil =>
        rw [hrun, agerStep, hat]
        exact ⟨List.nodup_nil, fun x hx => absurd hx List.not_mem_nil,
          fun k hk => absurd hk List.not_mem_nil⟩
      | cons k ks =>
        obtain ⟨hkeys, hrest, hevict⟩ := agerStep_removing (a := a) now (Or.inl ⟨k, hat⟩)
        refine hI.removes ?_ hrest ?_
        · rw [hkeys, hat]
          rfl
        · rw [hevict, hat]
          exact fun k' hk => List.mem_cons_of_mem k hk
    | releasing keys k handles toEvict =>
      obtain ⟨hkeys, hrest, hevict⟩ := agerStep_removing (a := a) now (Or.inr ⟨k, handles, hat⟩)
      refine hI.removes ?_ hrest ?_
      · rw [hkeys, hat]
        rfl
      · rw [hevict, hat]
        exact fun k' hk => hk

theorem inTurn_run (l : List SweepInput) :
    InTurn checked a l ((sweeping checked a).run l) := by
  induction l using List.reverseRecOn with
  | nil =>
    exact ⟨List.nodup_nil, fun x hx => absurd hx List.not_mem_nil,
      fun k hk => absurd hk List.not_mem_nil⟩
  | append_singleton l i ih => exact ih.step i

end Turns

/-- **A session that a turn evicts is one that it has itself found idle**, in every run in
which no session is programmed under a key that the turn has collected and not yet dealt
with. -/
theorem evicted_was_looked_at (checked : Bool) (a : SessionAger) (l : List SweepInput)
    (hnone : (sweeping checked a).Meets NoneProgrammed l) {i : SweepInput} {k : String}
    {e : SessionEntry} (he : evicted ((sweeping checked a).run l) i = some (k, e)) :
    FoundIdle checked a l (k, e.entryHandle) := by
  have hsettled : Settled ((sweeping checked a).run l) := settled_run checked a l hnone
  have hI : InTurn checked a l ((sweeping checked a).run l) := inTurn_run l
  cases i with
  | request r => cases he
  | ager clock =>
    simp only [evicted] at he
    split at he
    · rename_i keys k' ks hat
      obtain ⟨e', hget, hpair⟩ := Option.map_eq_some_iff.mp he
      cases hpair
      have hmem := hsettled k (by rw [hat]; exact List.mem_cons_self) e hget
      obtain ⟨h, hin, hidle⟩ := hI.found k (by rw [hat]; exact List.mem_cons_self)
      have hhandle : h = e.entryHandle := by
        have hpair := List.inj_on_of_nodup_map hI.nodup hin hmem rfl
        exact congrArg Prod.snd hpair
      exact hhandle ▸ hidle
    · cases he

theorem evicted_was_looked_at_stoodIdle :
    (sweeping true defaultAger).Meets NoneProgrammed stoodIdle ∧
    ∃ x, evicted ((sweeping true defaultAger).run stoodIdle) (.ager 60000000000) = some x ∧
      FoundIdle true defaultAger stoodIdle (x.1, x.2.entryHandle) := by
  have hnone : (sweeping true defaultAger).Meets NoneProgrammed stoodIdle :=
    Machine.meets_of_meetsFrom _ (by decide +kernel)
  have hsome : (evicted ((sweeping true defaultAger).run stoodIdle)
      (.ager 60000000000)).isSome = true := by decide +kernel
  obtain ⟨⟨k, e⟩, he⟩ := Option.isSome_iff_exists.mp hsome
  exact ⟨hnone, (k, e), he, evicted_was_looked_at true defaultAger stoodIdle hnone he⟩

end PrismFirewall.OffloadDaemon
