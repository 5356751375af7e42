import Mathlib.Logic.Function.Iterate
import PrismFirewall.OffloadDaemon.Flush

/-!
# Programming beside a flush

Two requests in flight at once: one `program_session` and one `flush_sessions`, cut
into the calls they make.  A call of the DOCA manager, one insertion, one removal and
one iteration over the table are each one step; the steps of the two requests come in
any order.  Run on their own, the steps add up to the whole calls of the service
(`programStep_alone`, `flushStep_alone`).

Programming writes the hardware first and then the table, one direction after the
other.  A flush that collects its keys between the two insertions sees one direction
only: it removes that entry and the hardware entries of both directions, and then the
other direction is inserted, with no hardware behind it.  `Unsplit` excludes exactly
that step, and `all_or_nothing_iff` says that nothing else goes wrong.
-/

namespace PrismFirewall.OffloadDaemon

open PrismFirewall.Lib (Dict Machine Slot Groups)

/-- Where a `program_session` call stands. -/
inductive ProgramAt
  | start
  | forward (forwardHandle : UInt64)
  | rollBack (forwardHandle : UInt64) (e : DocaFlowError)
  | programmed (forwardHandle : UInt64) (reverseHandle : Option UInt64)
  | inserted (forwardHandle revHandle : UInt64)
  | returned (r : ProgramSessionResponse)

/-- Where a `flush_sessions` call stands: its loops with what is left of them. -/
inductive FlushAt
  | start
  | removing (keys : List String) (handles : List (UInt64 × Option UInt64))
  | releasing (count : UInt32) (handles : List UInt64)
  | returned (r : Except Status FlushSessionsResponse)

section Steps

variable (now : Nanos) (req : ProgramSessionRequest) (key : SessionKey)

def forwardEntry (forwardHandle : UInt64) (reverseHandle : Option UInt64) : SessionEntry :=
  SessionEntry.new now forwardHandle key.vni key req.action req.bidirectional reverseHandle
    req.ruleId

def reverseEntry (forwardHandle revHandle : UInt64) : SessionEntry :=
  SessionEntry.new now revHandle key.vni (reverseKey key) req.action true (some forwardHandle)
    req.ruleId

def programmedResponse (forwardHandle : UInt64) : ProgramSessionResponse :=
  ⟨true, toString forwardHandle, ""⟩

def programStep (s : OffloadServiceImpl) : ProgramAt → OffloadServiceImpl × ProgramAt
  | .start =>
    match s.docaManager.programSession key.vni key.srcIp key.dstIp key.srcPort key.dstPort
        key.protocol req.action req.forwardPort with
    | (.error e, m) =>
      ({ s with docaManager := m }, .returned (OffloadServiceImpl.programFailed e.toString))
    | (.ok h, m) =>
      ({ s with docaManager := m }, if req.bidirectional then .forward h else .programmed h none)
  | .forward h =>
    match s.docaManager.programSession key.vni key.dstIp key.srcIp key.dstPort key.srcPort
        key.protocol req.action req.forwardPort with
    | (.error e, m) => ({ s with docaManager := m }, .rollBack h e)
    | (.ok r, m) => ({ s with docaManager := m }, .programmed h (some r))
  | .rollBack h e =>
    ({ s with docaManager := (s.docaManager.removeSession h).2 },
      .returned (OffloadServiceImpl.programFailed ("reverse entry failed: " ++ e.toString)))
  | .programmed h rev =>
    ({ s with sessionTable := s.sessionTable.insert key (forwardEntry now req key h rev) },
      match rev with
      | some r => .inserted h r
      | none => .returned (programmedResponse h))
  | .inserted h r =>
    ({ s with
        sessionTable := s.sessionTable.insert (reverseKey key) (reverseEntry now req key h r) },
      .returned (programmedResponse h))
  | .returned r => (s, .returned r)

/-- The handles in the order in which the last loop of a flush removes them. -/
def flattenHandles (handles : List (UInt64 × Option UInt64)) : List UInt64 :=
  handles.flatMap (fun x => x.1 :: x.2.toList)

/-- The end of a loop is a step of its own, which touches nothing. -/
def flushStep (freq : FlushSessionsRequest) (s : OffloadServiceImpl) :
    FlushAt → OffloadServiceImpl × FlushAt
  | .start =>
    match freq.matchCriteria with
    | none => (s, .returned (.error (.invalidArgument "match_criteria is required")))
    | some (.All false) => (s, .returned (.ok ⟨0⟩))
    | some c => (s, .removing (s.sessionTable.keysToRemove c.covers) [])
  | .removing (k :: ks) handles =>
    match s.sessionTable.removeByKeyString k with
    | (some e, t) =>
      ({ s with sessionTable := t }, .removing ks (handles ++ [(e.entryHandle, e.reverseHandle)]))
    | (none, t) => ({ s with sessionTable := t }, .removing ks handles)
  | .removing [] handles =>
    (s, .releasing (UInt32.ofNat handles.length) (flattenHandles handles))
  | .releasing count (h :: hs) =>
    ({ s with docaManager := (s.docaManager.removeSession h).2 }, .releasing count hs)
  | .releasing count [] => (s, .returned (.ok ⟨count⟩))
  | .returned r => (s, .returned r)

end Steps

/-! ### Each call on its own -/

/-- **The steps of a programming, taken without a break, are the call.** -/
theorem programStep_alone {req : ProgramSessionRequest} {key : SessionKey}
    (hkey : req.key = some key) (now : Nanos) (s : OffloadServiceImpl) :
    ∃ n r, (fun p : OffloadServiceImpl × ProgramAt => programStep now req key p.1 p.2)^[n]
        (s, .start) = ((s.programSession now req).2, .returned r) ∧
      (s.programSession now req).1 = .ok r := by
  cases hp : s.docaManager.poisoned with
  | true =>
    rw [OffloadServiceImpl.programSession_poisoned hkey hp]
    refine ⟨1, _, ?_, rfl⟩
    simp only [Function.iterate_one, programStep, DocaFlowManager.programSession_poisoned hp]
  | false =>
    cases hb : req.bidirectional with
    | false =>
      rw [OffloadServiceImpl.programSession_unidirectional hkey hb hp]
      refine ⟨2, programmedResponse s.docaManager.nextHandle, ?_, rfl⟩
      simp [Function.iterate_succ_apply, programStep, hb, DocaFlowManager.programSession_ok hp,
        OffloadServiceImpl.insertSession, forwardEntry]
    | true =>
      rw [OffloadServiceImpl.programSession_bidirectional hkey hb hp]
      refine ⟨4, programmedResponse s.docaManager.nextHandle, ?_, rfl⟩
      simp [Function.iterate_succ_apply, programStep, hb, DocaFlowManager.programSession_ok, hp,
        OffloadServiceImpl.insertSession, forwardEntry, reverseEntry]

/-- One step of a flush, as a function to iterate. -/
def flushOn (freq : FlushSessionsRequest) (p : OffloadServiceImpl × FlushAt) :
    OffloadServiceImpl × FlushAt :=
  flushStep freq p.1 p.2

theorem flushOn_removing (freq : FlushSessionsRequest) (ks : List String) :
    ∀ (t : SessionTable) (m : DocaFlowManager) (hs : List (UInt64 × Option UInt64)),
      (flushOn freq)^[ks.length] (⟨t, m⟩, .removing ks hs)
        = (⟨(t.removeKeys ks).2, m⟩, .removing [] (hs ++ (t.removeKeys ks).1)) := by
  induction ks with
  | nil => intro t m hs; simp [SessionTable.removeKeys]
  | cons k ks ih =>
    intro t m hs
    rw [List.length_cons, Function.iterate_succ_apply]
    cases hget : t.map.get? k with
    | none =>
      simp only [flushOn, flushStep, SessionTable.removeByKeyString, SessionTable.removeKeys, hget]
      exact ih _ m hs
    | some e =>
      simp only [flushOn, flushStep, SessionTable.removeByKeyString, SessionTable.removeKeys, hget]
      refine (ih _ m _).trans ?_
      rw [List.append_assoc, List.singleton_append]

theorem flushOn_releasing (freq : FlushSessionsRequest) (count : UInt32) (hs : List UInt64) :
    ∀ (t : SessionTable) (m : DocaFlowManager),
      (flushOn freq)^[hs.length] (⟨t, m⟩, .releasing count hs)
        = (⟨t, hs.foldl (fun m h => (m.removeSession h).2) m⟩, .releasing count []) := by
  induction hs with
  | nil => intro t m; rfl
  | cons h hs ih =>
    intro t m
    rw [List.length_cons, Function.iterate_succ_apply]
    exact ih t (m.removeSession h).2

theorem foldl_flattenHandles (xs : List (UInt64 × Option UInt64)) : ∀ m : DocaFlowManager,
    (flattenHandles xs).foldl (fun m h => (m.removeSession h).2) m
      = xs.foldl DocaFlowManager.removeBoth m := by
  induction xs with
  | nil => intro m; rfl
  | cons x xs ih =>
    intro m
    obtain ⟨h, rev⟩ := x
    rw [List.foldl_cons, ← ih]
    cases rev with
    | none => rfl
    | some r => rfl

/-- Every criterion but `all = false` starts a collection of keys. -/
theorem flushStep_start {c : MatchCriteria} (hc : c ≠ .All false) (s : OffloadServiceImpl) :
    flushStep ⟨some c⟩ s .start = (s, .removing (s.sessionTable.keysToRemove c.covers) []) := by
  cases c with
  | RuleId ruleId => rfl
  | Vni vni => rfl
  | All all =>
    cases all with
    | true => rfl
    | false => exact absurd rfl hc

/-- **The steps of a flush, taken without a break, are the call.** -/
theorem flushStep_alone (freq : FlushSessionsRequest) (s : OffloadServiceImpl) :
    ∃ n, (flushOn freq)^[n] (s, .start)
      = ((s.flushSessions freq).2, .returned (s.flushSessions freq).1) := by
  obtain ⟨t, m⟩ := s
  have hrun : ∀ c : MatchCriteria, ∃ n,
      (flushOn freq)^[n] (⟨t, m⟩, .removing (t.keysToRemove c.covers) [])
        = (((⟨t, m⟩ : OffloadServiceImpl).flushSessions ⟨some c⟩).2,
            .returned ((⟨t, m⟩ : OffloadServiceImpl).flushSessions ⟨some c⟩).1) := by
    intro c
    refine ⟨1 + ((flattenHandles (t.removeKeys (t.keysToRemove c.covers)).1).length
      + (1 + (t.keysToRemove c.covers).length)), ?_⟩
    rw [Function.iterate_add_apply, Function.iterate_add_apply, Function.iterate_add_apply,
      flushOn_removing, Function.iterate_one, List.nil_append]
    have hstep : flushOn freq (⟨(t.removeKeys (t.keysToRemove c.covers)).2, m⟩,
        .removing [] (t.removeKeys (t.keysToRemove c.covers)).1)
          = (⟨(t.removeKeys (t.keysToRemove c.covers)).2, m⟩,
            .releasing (UInt32.ofNat (t.removeKeys (t.keysToRemove c.covers)).1.length)
              (flattenHandles (t.removeKeys (t.keysToRemove c.covers)).1)) := rfl
    rw [hstep, flushOn_releasing, foldl_flattenHandles, OffloadServiceImpl.flushSessions_snd,
      flushSessions_fst]
    rfl
  obtain ⟨_ | c⟩ := freq
  · exact ⟨1, rfl⟩
  · by_cases hc : c = .All false
    · subst hc
      exact ⟨1, rfl⟩
    · obtain ⟨n, hn⟩ := hrun c
      refine ⟨n + 1, ?_⟩
      rw [Function.iterate_succ_apply, flushOn, flushStep_start hc]
      exact hn

/-! ### The two calls together -/

structure InFlight where
  service : OffloadServiceImpl
  program : ProgramAt
  flush : FlushAt

/-- Which call takes the next step. -/
inductive Turn
  | program
  | flush
  deriving DecidableEq

section Machine

variable (now : Nanos) (req : ProgramSessionRequest) (key : SessionKey)
  (freq : FlushSessionsRequest)

def InFlight.step (c : InFlight) : Turn → Unit × InFlight
  | .program =>
    let (s, p) := programStep now req key c.service c.program
    ((), { c with service := s, program := p })
  | .flush =>
    let (s, f) := flushStep freq c.service c.flush
    ((), { c with service := s, flush := f })

def inFlight (s : OffloadServiceImpl) : Machine InFlight Turn Unit where
  init := ⟨s, .start, .start⟩
  step := InFlight.step now req key freq

/-- Both directions are in the table, and every hardware entry of theirs is
programmed. -/
def FullyPresent (forwardHandle revHandle : UInt64) (s : OffloadServiceImpl) : Prop :=
  (∃ e ∈ s.sessionTable.get key, e.entryHandle ∈ s.docaManager.entries) ∧
  (∃ e ∈ s.sessionTable.get (reverseKey key), e.entryHandle ∈ s.docaManager.entries) ∧
  forwardHandle ∈ s.docaManager.entries ∧ revHandle ∈ s.docaManager.entries

def FullyAbsent (forwardHandle revHandle : UInt64) (s : OffloadServiceImpl) : Prop :=
  s.sessionTable.get key = none ∧ s.sessionTable.get (reverseKey key) = none ∧
  forwardHandle ∉ s.docaManager.entries ∧ revHandle ∉ s.docaManager.entries

/-- What the two calls may leave behind, where the first handle of the session is
`n`. -/
def AllOrNothing (n : UInt64) (s : OffloadServiceImpl) : Prop :=
  FullyPresent key n (n + 1) s ∨ FullyAbsent key n (n + 1) s

/-- The flush does not cut the session in two.  Where the two directions are filed
under different texts, it does not collect the session's keys between the two
insertions; where they are filed under one text, it does not remove that text there. -/
def Unsplit (c : InFlight) : Turn → Prop
  | .program => True
  | .flush =>
    match c.program, c.flush with
    | .inserted h r, .start =>
      sessionKeyString (reverseKey key) ≠ sessionKeyString key →
        ∀ criteria ∈ freq.matchCriteria,
          criteria.covers (forwardEntry now req key h (some r)) = false
    | .inserted _ _, .removing ks _ =>
      sessionKeyString (reverseKey key) = sessionKeyString key →
        ks.head? ≠ some (sessionKeyString key)
    | _, _ => True

instance (c : InFlight) : (i : Turn) → Decidable (Unsplit now req key freq c i)
  | .program => inferInstanceAs (Decidable True)
  | .flush =>
    match c with
    | ⟨_, .inserted _ _, .start⟩ => inferInstanceAs (Decidable (_ → ∀ criteria ∈ _, _))
    | ⟨_, .inserted _ _, .removing _ _⟩ => inferInstanceAs (Decidable (_ → _ ≠ _))
    | ⟨_, .inserted _ _, .releasing _ _⟩ => inferInstanceAs (Decidable True)
    | ⟨_, .inserted _ _, .returned _⟩ => inferInstanceAs (Decidable True)
    | ⟨_, .start, _⟩ => inferInstanceAs (Decidable True)
    | ⟨_, .forward _, _⟩ => inferInstanceAs (Decidable True)
    | ⟨_, .rollBack _ _, _⟩ => inferInstanceAs (Decidable True)
    | ⟨_, .programmed _ _, _⟩ => inferInstanceAs (Decidable True)
    | ⟨_, .returned _, _⟩ => inferInstanceAs (Decidable True)

end Machine

/-- The keys a flush has collected and not yet removed. -/
def FlushAt.keys : FlushAt → List String
  | .removing ks _ => ks
  | _ => []

theorem mem_keys_removing {t : SessionTable} {c : MatchCriteria} {k : String}
    {hs : List (UInt64 × Option UInt64)} :
    k ∈ (FlushAt.removing (t.keysToRemove c.covers) hs).keys ↔
      ∃ e, t.map.get? k = some e ∧ c.covers e = true :=
  SessionTable.mem_keysToRemove (p := fun e => c.covers e)

/-- The handles a flush has still to remove. -/
def FlushAt.handles : FlushAt → List UInt64
  | .removing _ hs => flattenHandles hs
  | .releasing _ hs => hs
  | _ => []

theorem mem_flattenHandles_concat {hs : List (UInt64 × Option UInt64)} {e : SessionEntry}
    {h : UInt64} : h ∈ flattenHandles (hs ++ [(e.entryHandle, e.reverseHandle)]) ↔
      h ∈ flattenHandles hs ∨ e.slot.Names h := by
  rw [flattenHandles, flattenHandles, List.flatMap_append, List.mem_append, List.flatMap_singleton,
    List.mem_cons, Option.mem_toList]
  exact or_congr_right (or_congr_left eq_comm)

/-- What one step of a flush can do. -/
theorem flushStep_cases (freq : FlushSessionsRequest) (s : OffloadServiceImpl) (f : FlushAt) :
    (∃ f', flushStep freq s f = (s, f') ∧ f' ≠ .start ∧ f'.keys = f.keys ∧
      f'.handles = f.handles) ∨
    (f = .start ∧ ∃ c ∈ freq.matchCriteria,
      flushStep freq s f = (s, .removing (s.sessionTable.keysToRemove c.covers) [])) ∨
    (∃ k ks hs hs', f = .removing (k :: ks) hs ∧
      flushStep freq s f = (⟨⟨s.sessionTable.map.erase k⟩, s.docaManager⟩, .removing ks hs') ∧
      ∀ h, h ∈ flattenHandles hs' ↔
        h ∈ flattenHandles hs ∨ ∃ e, s.sessionTable.map.get? k = some e ∧ e.slot.Names h) ∨
    (∃ count h hs, f = .releasing count (h :: hs) ∧
      flushStep freq s f
        = (⟨s.sessionTable, (s.docaManager.removeSession h).2⟩, .releasing count hs)) := by
  cases f with
  | start =>
    obtain ⟨_ | c⟩ := freq
    · exact Or.inl ⟨_, rfl, by simp, rfl, rfl⟩
    · by_cases hc : c = .All false
      · subst hc
        exact Or.inl ⟨_, rfl, by simp, rfl, rfl⟩
      · exact Or.inr (Or.inl ⟨rfl, c, rfl, flushStep_start hc s⟩)
  | removing ks hs =>
    cases ks with
    | nil => exact Or.inl ⟨_, rfl, by simp, rfl, rfl⟩
    | cons k ks =>
      refine Or.inr (Or.inr (Or.inl ?_))
      cases hget : s.sessionTable.map.get? k with
      | none =>
        refine ⟨k, ks, hs, hs, rfl, ?_, fun h => ?_⟩
        · simp only [flushStep, SessionTable.removeByKeyString, hget]
        · simp [hget]
      | some e =>
        refine ⟨k, ks, hs, hs ++ [(e.entryHandle, e.reverseHandle)], rfl, ?_, fun h => ?_⟩
        · simp only [flushStep, SessionTable.removeByKeyString, hget]
        · simp only [mem_flattenHandles_concat, hget, Option.some.injEq, exists_eq_left']
  | releasing count hs =>
    cases hs with
    | nil => exact Or.inl ⟨_, rfl, by simp, rfl, rfl⟩
    | cons h hs => exact Or.inr (Or.inr (Or.inr ⟨count, h, hs, rfl, rfl⟩))
  | returned r => exact Or.inl ⟨_, rfl, by simp, rfl, rfl⟩

/-! ### The invariant

`n` is the handle of the forward direction, `n + 1` that of the other one. -/

section Invariant

variable (now : Nanos) (req : ProgramSessionRequest) (key : SessionKey)
  (freq : FlushSessionsRequest) (n : UInt64)

/-- One of the two entries of the session. -/
def OfSession (e : SessionEntry) : Prop :=
  e.slot = ⟨n, some (n + 1), (req.ruleId, key.vni)⟩ ∨
  e.slot = ⟨n + 1, some n, (req.ruleId, key.vni)⟩

/-- The other entries of the table have nothing to do with the session. -/
def Apart (t : SessionTable) : Prop :=
  ∀ k e, t.map.get? k = some e → k ≠ sessionKeyString key → k ≠ sessionKeyString (reverseKey key) →
    ¬ e.slot.Names n ∧ ¬ e.slot.Names (n + 1)

/-- The flush has nothing of the session in its lists. -/
structure Untouched (f : FlushAt) : Prop where
  fwdKey : sessionKeyString key ∉ f.keys
  revKey : sessionKeyString (reverseKey key) ∉ f.keys
  handle : n ∉ f.handles
  revHandle : n + 1 ∉ f.handles

/-- The hardware before the session is in the table. -/
def Stage (m : DocaFlowManager) : ProgramAt → Prop
  | .start => m.nextHandle = n ∧ n ∉ m.entries ∧ n + 1 ∉ m.entries
  | .forward h => h = n ∧ m.poisoned = false ∧ m.nextHandle = n + 1 ∧ n ∈ m.entries ∧
      n + 1 ∉ m.entries
  | .programmed h rev => h = n ∧ rev = some (n + 1) ∧ m.poisoned = false ∧ n ∈ m.entries ∧
      n + 1 ∈ m.entries
  | .returned _ => n ∉ m.entries ∧ n + 1 ∉ m.entries
  | _ => False

/-- Where the session stands, as long as it has not been cut in two. -/
inductive Phase (c : InFlight) : Prop
  | before (hu : Untouched key n c.flush) (hK : sessionKeyString key ∉ c.service.sessionTable.map)
      (hR : sessionKeyString (reverseKey key) ∉ c.service.sessionTable.map)
      (hstage : Stage n c.service.docaManager c.program)
  | half (hp : c.program = .inserted n (n + 1)) (hlock : c.service.docaManager.poisoned = false)
      (hlive : n ∈ c.service.docaManager.entries ∧ n + 1 ∈ c.service.docaManager.entries)
      (he : c.service.sessionTable.map.get? (sessionKeyString key)
        = some (forwardEntry now req key n (some (n + 1))))
      (hpend : n ∉ c.flush.handles ∧ n + 1 ∉ c.flush.handles)
      (hne : sessionKeyString (reverseKey key) ≠ sessionKeyString key →
        sessionKeyString (reverseKey key) ∉ c.service.sessionTable.map ∧
        Untouched key n c.flush)
  | present (r : ProgramSessionResponse) (hp : c.program = .returned r)
      (hlock : c.service.docaManager.poisoned = false) (hu : Untouched key n c.flush)
      (hlive : n ∈ c.service.docaManager.entries ∧ n + 1 ∈ c.service.docaManager.entries)
      (hK : ∃ e, c.service.sessionTable.map.get? (sessionKeyString key) = some e ∧
        OfSession req key n e)
      (hR : ∃ e, c.service.sessionTable.map.get? (sessionKeyString (reverseKey key)) = some e ∧
        OfSession req key n e)
  | leaving (r : ProgramSessionResponse) (hp : c.program = .returned r)
      (hlock : c.service.docaManager.poisoned = false) (hs : c.flush ≠ .start)
      (hkeys : ∀ k e, k = sessionKeyString key ∨ k = sessionKeyString (reverseKey key) →
        c.service.sessionTable.map.get? k = some e → k ∈ c.flush.keys ∧ OfSession req key n e)
      (hpend : ∀ h, h = n ∨ h = n + 1 → h ∈ c.service.docaManager.entries →
        h ∈ c.flush.handles ∨ sessionKeyString key ∈ c.service.sessionTable.map ∨
          sessionKeyString (reverseKey key) ∈ c.service.sessionTable.map)

structure Good (c : InFlight) : Prop where
  apart : Apart key n c.service.sessionTable
  nodup : c.flush.keys.Nodup
  phase : Phase now req key n c

/-- The session has been cut in two: the other direction is or will be in the table
for good, and the hardware entry of this one is or will be removed. -/
structure Cut (c : InFlight) : Prop where
  started : c.flush ≠ .start
  lock : c.service.docaManager.poisoned = false
  rev : sessionKeyString (reverseKey key) ∉ c.flush.keys
  program : c.program = .inserted n (n + 1) ∨ ∃ r, c.program = .returned r ∧
    sessionKeyString (reverseKey key) ∈ c.service.sessionTable.map
  pend : (n ∈ c.service.docaManager.entries → n ∈ c.flush.handles) ∨
    sessionKeyString (reverseKey key) ≠ sessionKeyString key ∧ sessionKeyString key ∈ c.flush.keys ∧
      ∃ e, c.service.sessionTable.map.get? (sessionKeyString key) = some e ∧ OfSession req key n e

variable {now req key freq n}

theorem OfSession.names {e : SessionEntry} (h : OfSession req key n e) :
    e.slot.Names n ∧ e.slot.Names (n + 1) := by
  rcases h with h | h
  · rw [h]
    exact ⟨Or.inl rfl, Or.inr rfl⟩
  · rw [h]
    exact ⟨Or.inr rfl, Or.inl rfl⟩

theorem OfSession.covers_eq {e e' : SessionEntry} (h : OfSession req key n e)
    (h' : OfSession req key n e') (c : MatchCriteria) : c.covers e = c.covers e' := by
  have htag : ∀ {e}, OfSession req key n e → e.slot.tag = (req.ruleId, key.vni) := by
    intro e h
    rcases h with h | h
    · rw [h]
    · rw [h]
  exact MatchCriteria.covers_eq_of_tag ((htag h).trans (htag h').symm) c

/-! ### A step of the programming -/

theorem Apart.insert {t : SessionTable} (h : Apart key n t) {k' : SessionKey}
    (hk' : k' = key ∨ k' = reverseKey key) (e : SessionEntry) : Apart key n (t.insert k' e) := by
  intro k e' he hk hr
  have hne : k ≠ sessionKeyString k' := by
    rcases hk' with rfl | rfl
    · exact hk
    · exact hr
  rw [SessionTable.insert, Dict.get?_insert_ne hne] at he
  exact h k e' he hk hr

/-- The second insertion completes the session. -/
theorem phase_insertReverse {t : SessionTable} {m : DocaFlowManager} {f : FlushAt}
    {r : ProgramSessionResponse} (hlock : m.poisoned = false)
    (hlive : n ∈ m.entries ∧ n + 1 ∈ m.entries)
    (he : t.map.get? (sessionKeyString key) = some (forwardEntry now req key n (some (n + 1))))
    (hpend : n ∉ f.handles ∧ n + 1 ∉ f.handles)
    (hne : sessionKeyString (reverseKey key) ≠ sessionKeyString key →
      sessionKeyString (reverseKey key) ∉ t.map ∧ Untouched key n f) :
    Phase now req key n ⟨⟨t.insert (reverseKey key) (reverseEntry now req key n (n + 1)), m⟩,
      .returned r, f⟩ := by
  have hrev : OfSession req key n (reverseEntry now req key n (n + 1)) := Or.inr rfl
  have hR : (t.insert (reverseKey key) (reverseEntry now req key n (n + 1))).map.get?
      (sessionKeyString (reverseKey key)) = some (reverseEntry now req key n (n + 1)) :=
    Dict.get?_insert_self _ _ _
  have hK : ∃ e, (t.insert (reverseKey key) (reverseEntry now req key n (n + 1))).map.get?
      (sessionKeyString key) = some e ∧ OfSession req key n e := by
    rw [SessionTable.insert, Dict.get?_insert]
    by_cases hk : sessionKeyString key = sessionKeyString (reverseKey key)
    · rw [if_pos hk]
      exact ⟨_, rfl, hrev⟩
    · rw [if_neg hk]
      exact ⟨_, he, Or.inl rfl⟩
  by_cases hk : sessionKeyString (reverseKey key) = sessionKeyString key
  · by_cases hmem : sessionKeyString (reverseKey key) ∈ f.keys
    · -- collected between the two insertions, under the one text they share
      refine .leaving r rfl hlock ?_ (fun k e hk' he' => ?_) (fun h _ _ => Or.inr (Or.inr ?_))
      · intro h
        rw [show f = .start from h] at hmem
        cases hmem
      · have hkk : k = sessionKeyString (reverseKey key) := by
          rcases hk' with rfl | rfl
          · exact hk.symm
          · rfl
        rw [hkk] at he' ⊢
        exact ⟨hmem, (Option.some.inj (hR.symm.trans he')).symm ▸ hrev⟩
      · exact Dict.mem_of_get? hR
    · have hmem' : sessionKeyString key ∉ f.keys := by
        rw [← hk]
        exact hmem
      exact .present r rfl hlock ⟨hmem', hmem, hpend.1, hpend.2⟩ hlive hK ⟨_, hR, hrev⟩
  · exact .present r rfl hlock (hne hk).2 hlive hK ⟨_, hR, hrev⟩

theorem Good.program (freq : FlushSessionsRequest) {c : InFlight} (hG : Good now req key n c)
    (hb : req.bidirectional = true) :
    Good now req key n (c.step now req key freq .program).2 := by
  obtain ⟨⟨t, m⟩, p, f⟩ := c
  obtain ⟨hap, hnd, hphase⟩ := hG
  cases hphase with
  | before hu hK hR hstage =>
    cases p with
    | start =>
      obtain ⟨hn, h1, h2⟩ := hstage
      dsimp only at hn h1 h2
      cases hp : m.poisoned with
      | true =>
        simp only [InFlight.step, programStep, DocaFlowManager.programSession_poisoned hp]
        exact ⟨hap, hnd, .before hu hK hR ⟨h1, h2⟩⟩
      | false =>
        simp only [InFlight.step, programStep, DocaFlowManager.programSession_ok hp, hb, if_true]
        refine ⟨hap, hnd, .before hu hK hR ⟨hn, rfl, by rw [hn], ?_, ?_⟩⟩
        · exact Dict.mem_insert.mpr (Or.inl hn.symm)
        · intro h
          rcases Dict.mem_insert.mp h with h | h
          · exact succ_ne n (h.trans hn)
          · exact h2 h
    | forward h =>
      obtain ⟨rfl, hp, hnext, h1, h2⟩ := hstage
      dsimp only at hp hnext h1 h2
      simp only [InFlight.step, programStep, DocaFlowManager.programSession_ok hp]
      refine ⟨hap, hnd, .before hu hK hR ⟨rfl, by rw [hnext], rfl, ?_, ?_⟩⟩
      · exact Dict.mem_insert.mpr (Or.inr h1)
      · exact Dict.mem_insert.mpr (Or.inl hnext.symm)
    | rollBack h e => exact hstage.elim
    | programmed h rev =>
      obtain ⟨rfl, rfl, hp, h1, h2⟩ := hstage
      simp only [InFlight.step, programStep]
      refine ⟨hap.insert (Or.inl rfl) _, hnd, .half rfl hp ⟨h1, h2⟩ ?_ ⟨hu.handle, hu.revHandle⟩
        (fun hne => ⟨?_, hu⟩)⟩
      · exact Dict.get?_insert_self _ _ _
      · intro h
        rcases Dict.mem_insert.mp h with h | h
        · exact hne h
        · exact hR h
    | inserted h r => exact hstage.elim
    | returned r => exact ⟨hap, hnd, .before hu hK hR hstage⟩
  | half hp hlock hlive he hpend hne =>
    dsimp only at hp
    subst hp
    simp only [InFlight.step, programStep]
    exact ⟨hap.insert (Or.inr rfl) _, hnd, phase_insertReverse hlock hlive he hpend hne⟩
  | present r hp hlock hu hlive hK hR =>
    dsimp only at hp
    subst hp
    exact ⟨hap, hnd, .present r rfl hlock hu hlive hK hR⟩
  | leaving r hp hlock hs hkeys hpend =>
    dsimp only at hp
    subst hp
    exact ⟨hap, hnd, .leaving r rfl hlock hs hkeys hpend⟩

/-! ### A step of the flush -/

theorem Untouched.congr {f f' : FlushAt} (h : Untouched key n f) (hk : f'.keys = f.keys)
    (hh : f'.handles = f.handles) : Untouched key n f' := by
  obtain ⟨h1, h2, h3, h4⟩ := h
  rw [← hk] at h1 h2
  rw [← hh] at h3 h4
  exact ⟨h1, h2, h3, h4⟩

theorem Stage.congr {m m' : DocaFlowManager} {p : ProgramAt} (h : Stage n m p)
    (hnext : m'.nextHandle = m.nextHandle) (hpoison : m'.poisoned = m.poisoned)
    (h1 : n ∈ m'.entries ↔ n ∈ m.entries) (h2 : n + 1 ∈ m'.entries ↔ n + 1 ∈ m.entries) :
    Stage n m' p := by
  cases p with
  | start => simpa only [Stage, hnext, h1, h2] using h
  | forward _ => simpa only [Stage, hnext, hpoison, h1, h2] using h
  | rollBack _ _ => exact h
  | programmed _ _ => simpa only [Stage, hpoison, h1, h2] using h
  | inserted _ _ => exact h
  | returned _ => simpa only [Stage, h1, h2] using h

/-- The loop end or an idle step. -/
theorem Phase.idle {s : OffloadServiceImpl} {p : ProgramAt} {f f' : FlushAt}
    (h : Phase now req key n ⟨s, p, f⟩) (hs : f' ≠ .start) (hk : f'.keys = f.keys)
    (hh : f'.handles = f.handles) : Phase now req key n ⟨s, p, f'⟩ := by
  cases h with
  | before hu hK hR hstage => exact .before (hu.congr hk hh) hK hR hstage
  | half hp hlock hlive he hpend hne =>
    refine .half hp hlock hlive he ?_ (fun h => ⟨(hne h).1, (hne h).2.congr hk hh⟩)
    rw [← hh] at hpend
    exact hpend
  | present r hp hlock hu hlive hK hR => exact .present r hp hlock (hu.congr hk hh) hlive hK hR
  | leaving r hp hlock _ hkeys hpend =>
    rw [← hk] at hkeys
    rw [← hh] at hpend
    exact .leaving r hp hlock hs hkeys hpend

/-- The keys are collected. -/
theorem Phase.collect {t : SessionTable} {m : DocaFlowManager} {p : ProgramAt}
    (h : Phase now req key n ⟨⟨t, m⟩, p, .start⟩) {c : MatchCriteria}
    (hc : c ∈ freq.matchCriteria)
    (hu : Unsplit now req key freq ⟨⟨t, m⟩, p, .start⟩ .flush) :
    Phase now req key n ⟨⟨t, m⟩, p, .removing (t.keysToRemove c.covers) []⟩ := by
  have hmem : ∀ {k}, k ∉ t.map → k ∉ (FlushAt.removing (t.keysToRemove c.covers) []).keys := by
    intro k hk h
    obtain ⟨e, he, -⟩ := mem_keys_removing.mp h
    exact hk (Dict.mem_of_get? he)
  have hnil : ∀ h : UInt64, h ∉ flattenHandles [] := fun h hh => by cases hh
  cases h with
  | before _ hK hR hstage => exact .before ⟨hmem hK, hmem hR, hnil _, hnil _⟩ hK hR hstage
  | half hp hlock hlive he _ hne =>
    dsimp only at hp
    subst hp
    refine .half rfl hlock hlive he ⟨hnil _, hnil _⟩ (fun h => ⟨(hne h).1, ?_⟩)
    refine ⟨fun hk => ?_, hmem (hne h).1, hnil _, hnil _⟩
    obtain ⟨e, he', hcov⟩ := mem_keys_removing.mp hk
    obtain rfl := Option.some.inj (he.symm.trans he')
    rw [hu h c hc] at hcov
    cases hcov
  | present r hp hlock _ hlive hK hR =>
    obtain ⟨e, he, hse⟩ := hK
    obtain ⟨e', he', hse'⟩ := hR
    cases hcov : c.covers e with
    | true =>
      refine .leaving r hp hlock (by simp) (fun k x hk hx => ?_)
        (fun _ _ _ => Or.inr (Or.inl (Dict.mem_of_get? he)))
      have hsx : OfSession req key n x := by
        rcases hk with rfl | rfl
        · exact Option.some.inj (he.symm.trans hx) ▸ hse
        · exact Option.some.inj (he'.symm.trans hx) ▸ hse'
      exact ⟨mem_keys_removing.mpr ⟨x, hx, (hsx.covers_eq hse c).trans hcov⟩, hsx⟩
    | false =>
      refine .present r hp hlock ⟨fun hk => ?_, fun hk => ?_, hnil _, hnil _⟩ hlive ⟨e, he, hse⟩
        ⟨e', he', hse'⟩
      · obtain ⟨x, hx, hcx⟩ := mem_keys_removing.mp hk
        obtain rfl := Option.some.inj (he.symm.trans hx)
        exact Bool.false_ne_true (hcov.symm.trans hcx)
      · obtain ⟨x, hx, hcx⟩ := mem_keys_removing.mp hk
        obtain rfl := Option.some.inj (he'.symm.trans hx)
        rw [hse'.covers_eq hse, hcov] at hcx
        cases hcx
  | leaving _ _ _ hs _ _ => exact absurd rfl hs

theorem Apart.erase {t : SessionTable} (h : Apart key n t) (k : String) :
    Apart key n ⟨t.map.erase k⟩ := by
  intro k' e he hk hr
  exact h k' e (Dict.get?_erase_eq_some.mp he).2 hk hr

/-- A key is removed from the table. -/
theorem Phase.remove {t : SessionTable} {m : DocaFlowManager} {p : ProgramAt} {k : String}
    {ks : List String} {hs hs' : List (UInt64 × Option UInt64)} (hap : Apart key n t)
    (h : Phase now req key n ⟨⟨t, m⟩, p, .removing (k :: ks) hs⟩)
    (hhs : ∀ h, h ∈ flattenHandles hs' ↔
      h ∈ flattenHandles hs ∨ ∃ e, t.map.get? k = some e ∧ e.slot.Names h)
    (hu : Unsplit now req key freq ⟨⟨t, m⟩, p, .removing (k :: ks) hs⟩ .flush) :
    Phase now req key n ⟨⟨⟨t.map.erase k⟩, m⟩, p, .removing ks hs'⟩ := by
  -- a key of another session adds none of the two handles
  have hother : k ≠ sessionKeyString key → k ≠ sessionKeyString (reverseKey key) →
      ∀ h, h = n ∨ h = n + 1 → h ∉ flattenHandles hs → h ∉ flattenHandles hs' := by
    intro hk hr h hh hnot hmem
    rcases (hhs h).mp hmem with hmem | ⟨e, he, hn⟩
    · exact hnot hmem
    · obtain ⟨h1, h2⟩ := hap k e he hk hr
      rcases hh with rfl | rfl
      · exact h1 hn
      · exact h2 hn
  have huntouched : Untouched key n (.removing (k :: ks) hs) →
      Untouched key n (.removing ks hs') ∧ sessionKeyString key ≠ k ∧
        sessionKeyString (reverseKey key) ≠ k := by
    intro hu
    obtain ⟨h1, h2, h3, h4⟩ := hu
    obtain ⟨hk, h1⟩ := not_or.mp (List.mem_cons.not.mp h1)
    obtain ⟨hr, h2⟩ := not_or.mp (List.mem_cons.not.mp h2)
    exact ⟨⟨h1, h2, hother (Ne.symm hk) (Ne.symm hr) n (Or.inl rfl) h3,
      hother (Ne.symm hk) (Ne.symm hr) (n + 1) (Or.inr rfl) h4⟩, hk, hr⟩
  have hget : ∀ {k'}, k' ≠ k → (t.map.erase k).get? k' = t.map.get? k' :=
    fun hk' => by rw [Dict.get?_erase, if_neg hk']
  cases h with
  | before hu hK hR hstage =>
    exact .before (huntouched hu).1 (fun h => hK (Dict.mem_erase.mp h).2)
      (fun h => hR (Dict.mem_erase.mp h).2) hstage
  | half hp hlock hlive he hpend hne =>
    dsimp only at hp
    subst hp
    have hk : sessionKeyString key ≠ k ∧ sessionKeyString (reverseKey key) ≠ k := by
      by_cases hkr : sessionKeyString (reverseKey key) = sessionKeyString key
      · have hhead : k ≠ sessionKeyString key := fun h => hu hkr (congrArg some h)
        exact ⟨Ne.symm hhead, fun h => hhead (h.symm.trans hkr)⟩
      · exact (huntouched (hne hkr).2).2
    refine .half rfl hlock hlive ((hget hk.1).trans he) ⟨?_, ?_⟩ (fun h => ⟨?_, ?_⟩)
    · exact hother (Ne.symm hk.1) (Ne.symm hk.2) n (Or.inl rfl) hpend.1
    · exact hother (Ne.symm hk.1) (Ne.symm hk.2) (n + 1) (Or.inr rfl) hpend.2
    · exact fun hm => (hne h).1 (Dict.mem_erase.mp hm).2
    · exact (huntouched (hne h).2).1
  | present r hp hlock hu hlive hK hR =>
    obtain ⟨hu, hk, hr⟩ := huntouched hu
    rw [← hget hk] at hK
    rw [← hget hr] at hR
    exact .present r hp hlock hu hlive hK hR
  | leaving r hp hlock _ hkeys hpend =>
    refine .leaving r hp hlock (by simp) (fun k' e hk' he => ?_) (fun h hh hmem => ?_)
    · rw [Dict.get?_erase] at he
      split at he
      · cases he
      · rename_i hne
        obtain ⟨hin, hse⟩ := hkeys k' e hk' he
        exact ⟨(List.mem_cons.mp hin).resolve_left hne, hse⟩
    · -- a key of this session brings its handles along
      have hbring : ∀ {k'}, k' = sessionKeyString key ∨ k' = sessionKeyString (reverseKey key) →
          k' ∈ t.map → h ∈ flattenHandles hs' ∨ k' ∈ t.map.erase k := by
        intro k' hk' hin
        obtain ⟨e, he⟩ := Dict.mem_iff_get?.mp hin
        by_cases hkk : k' = k
        · subst hkk
          refine Or.inl ((hhs h).mpr (Or.inr ⟨e, he, ?_⟩))
          have hn := (hkeys k' e hk' he).2.names
          rcases hh with rfl | rfl
          · exact hn.1
          · exact hn.2
        · exact Or.inr (Dict.mem_erase.mpr ⟨hkk, hin⟩)
      rcases hpend h hh hmem with hm | hm | hm
      · exact Or.inl ((hhs h).mpr (Or.inl hm))
      · exact (hbring (Or.inl rfl) hm).imp_right Or.inl
      · exact (hbring (Or.inr rfl) hm).imp_right Or.inr

/-- A handle is removed from the hardware. -/
theorem Phase.release {t : SessionTable} {m : DocaFlowManager} {p : ProgramAt} {count : UInt32}
    {h₀ : UInt64} {hs : List UInt64}
    (h : Phase now req key n ⟨⟨t, m⟩, p, .releasing count (h₀ :: hs)⟩) :
    Phase now req key n ⟨⟨t, (m.removeSession h₀).2⟩, p, .releasing count hs⟩ := by
  have hsub : ∀ {h}, h ∉ (FlushAt.releasing count (h₀ :: hs)).handles →
      h ∉ (FlushAt.releasing count hs).handles ∧
        (h ∈ (m.removeSession h₀).2.entries ↔ h ∈ m.entries) := by
    intro h hnot
    obtain ⟨hne, hnot⟩ := not_or.mp (List.mem_cons.not.mp hnot)
    exact ⟨hnot, DocaFlowManager.mem_removeSession_of_ne hne⟩
  have huntouched : Untouched key n (.releasing count (h₀ :: hs)) →
      Untouched key n (.releasing count hs) := by
    intro hu
    exact ⟨hu.fwdKey, hu.revKey, (hsub hu.handle).1, (hsub hu.revHandle).1⟩
  cases h with
  | before hu hK hR hstage =>
    exact .before (huntouched hu) hK hR (hstage.congr (m.removeSession_nextHandle h₀)
      (m.removeSession_poisoned h₀) (hsub hu.handle).2 (hsub hu.revHandle).2)
  | half hp hlock hlive he hpend hne =>
    exact .half hp ((m.removeSession_poisoned h₀).trans hlock)
      ⟨(hsub hpend.1).2.mpr hlive.1, (hsub hpend.2).2.mpr hlive.2⟩ he
      ⟨(hsub hpend.1).1, (hsub hpend.2).1⟩ (fun h => ⟨(hne h).1, huntouched (hne h).2⟩)
  | present r hp hlock hu hlive hK hR =>
    exact .present r hp ((m.removeSession_poisoned h₀).trans hlock) (huntouched hu)
      ⟨(hsub hu.handle).2.mpr hlive.1, (hsub hu.revHandle).2.mpr hlive.2⟩ hK hR
  | leaving r hp hlock _ hkeys hpend =>
    refine .leaving r hp ((m.removeSession_poisoned h₀).trans hlock) (by simp) hkeys
      (fun h hh hmem => ?_)
    rw [DocaFlowManager.removeSession_entries hlock, Dict.mem_erase] at hmem
    rcases hpend h hh hmem.2 with hm | hm
    · exact Or.inl ((List.mem_cons.mp hm).resolve_left hmem.1)
    · exact Or.inr hm

theorem Good.flush {c : InFlight} (hG : Good now req key n c)
    (hu : Unsplit now req key freq c .flush) :
    Good now req key n (c.step now req key freq .flush).2 := by
  obtain ⟨⟨t, m⟩, p, f⟩ := c
  obtain ⟨hap, hnd, hphase⟩ := hG
  simp only [InFlight.step]
  rcases flushStep_cases freq ⟨t, m⟩ f with ⟨f', he, hs, hk, hh⟩ | ⟨rfl, cr, hcr, he⟩ |
    ⟨k, ks, hs, hs', rfl, he, hhs⟩ | ⟨count, h, hs, rfl, he⟩
  · rw [he]
    refine ⟨hap, ?_, hphase.idle hs hk hh⟩
    rw [← hk] at hnd
    exact hnd
  · rw [he]
    exact ⟨hap, t.nodup_keysToRemove cr.covers, hphase.collect hcr hu⟩
  · rw [he]
    exact ⟨hap.erase k, (List.nodup_cons.mp hnd).2, hphase.remove hap hhs hu⟩
  · rw [he]
    exact ⟨hap, hnd, hphase.release⟩

/-! ### The cut -/

/-- Between the two insertions the session stands half in the table. -/
theorem Good.half_of_inserted {s : OffloadServiceImpl} {h r : UInt64} {f : FlushAt}
    (hG : Good now req key n ⟨s, .inserted h r, f⟩) :
    h = n ∧ r = n + 1 ∧ s.docaManager.poisoned = false ∧
    s.sessionTable.map.get? (sessionKeyString key)
      = some (forwardEntry now req key n (some (n + 1))) ∧
    (sessionKeyString (reverseKey key) ≠ sessionKeyString key →
      sessionKeyString (reverseKey key) ∉ s.sessionTable.map) := by
  cases hG.phase with
  | before _ _ _ hstage => exact hstage.elim
  | half hp hlock hlive he hpend hne =>
    cases hp
    exact ⟨rfl, rfl, hlock, he, fun h => (hne h).1⟩
  | present _ hp => cases hp
  | leaving _ hp => cases hp

theorem Good.cut {c : InFlight} (hG : Good now req key n c) {i : Turn}
    (hu : ¬ Unsplit now req key freq c i) :
    Cut req key n (c.step now req key freq i).2 := by
  obtain ⟨⟨t, m⟩, p, f⟩ := c
  cases i with
  | program => exact absurd trivial hu
  | flush =>
    cases p with
    | inserted h r =>
      obtain ⟨rfl, rfl, hlock, he, hR⟩ := hG.half_of_inserted
      have hse : OfSession req key h (forwardEntry now req key h (some (h + 1))) := Or.inl rfl
      cases f with
      | start =>
        simp only [Unsplit, Classical.not_imp, not_forall, Bool.not_eq_false] at hu
        obtain ⟨hne, cr, hcr, hcov⟩ := hu
        have hstep : flushStep freq ⟨t, m⟩ .start
            = (⟨t, m⟩, .removing (t.keysToRemove cr.covers) []) := by
          obtain ⟨_ | c⟩ := freq
          · cases hcr
          · cases hcr
            refine flushStep_start (fun hall => ?_) _
            rw [hall] at hcov
            cases hcov
        simp only [InFlight.step, hstep]
        refine ⟨by simp, hlock, fun hk => ?_, Or.inl rfl, Or.inr ⟨hne, ?_, _, he, hse⟩⟩
        · obtain ⟨e, he', -⟩ := mem_keys_removing.mp hk
          exact hR hne (Dict.mem_of_get? he')
        · exact mem_keys_removing.mpr ⟨_, he, hcov⟩
      | removing ks hs =>
        simp only [Unsplit, Classical.not_imp, ne_eq, not_not] at hu
        obtain ⟨heq, hhead⟩ := hu
        obtain ⟨ks', rfl⟩ : ∃ ks', ks = sessionKeyString key :: ks' := by
          cases ks with
          | nil => cases hhead
          | cons a ks' => exact ⟨ks', by rw [Option.some.inj hhead]⟩
        have hstep : flushStep freq ⟨t, m⟩ (.removing (sessionKeyString key :: ks') hs)
            = (⟨⟨t.map.erase (sessionKeyString key)⟩, m⟩, .removing ks'
                (hs ++ [(h, some (h + 1))])) := by
          simp only [flushStep, SessionTable.removeByKeyString]
          rw [he]
          rfl
        simp only [InFlight.step, hstep]
        refine ⟨by simp, hlock, ?_, Or.inl rfl, Or.inl (fun _ => ?_)⟩
        · rw [heq]
          exact (List.nodup_cons.mp hG.nodup).1
        · exact mem_flattenHandles_concat.mpr (Or.inr hse.names.1)
      | releasing count hs => exact absurd trivial hu
      | returned r => exact absurd trivial hu
    | start => exact absurd trivial hu
    | forward h => exact absurd trivial hu
    | rollBack h e => exact absurd trivial hu
    | programmed h rev => exact absurd trivial hu
    | returned r => exact absurd trivial hu

theorem Cut.program_step (freq : FlushSessionsRequest) {c : InFlight} (hC : Cut req key n c) :
    Cut req key n (c.step now req key freq .program).2 := by
  obtain ⟨⟨t, m⟩, p, f⟩ := c
  obtain ⟨hs, hlock, hrev, hprog, hpend⟩ := hC
  dsimp only at hprog
  rcases hprog with rfl | ⟨r, rfl, hR⟩
  · refine ⟨hs, hlock, hrev, Or.inr ⟨_, rfl, Dict.mem_insert.mpr (Or.inl rfl)⟩, ?_⟩
    rcases hpend with hpend | ⟨hne, hk, e, he, hse⟩
    · exact Or.inl hpend
    · refine Or.inr ⟨hne, hk, e, ?_, hse⟩
      exact (Dict.get?_insert_ne (Ne.symm hne) _).trans he
  · exact ⟨hs, hlock, hrev, Or.inr ⟨r, rfl, hR⟩, hpend⟩

theorem Cut.flush_step (now : Nanos) {c : InFlight} (hC : Cut req key n c) :
    Cut req key n (c.step now req key freq .flush).2 := by
  obtain ⟨⟨t, m⟩, p, f⟩ := c
  obtain ⟨hstart, hlock, hrev, hprog, hpend⟩ := hC
  dsimp only at hstart hlock hrev hprog hpend
  simp only [InFlight.step]
  rcases flushStep_cases freq ⟨t, m⟩ f with ⟨f', he, hs, hk, hh⟩ | ⟨rfl, -⟩ |
    ⟨k, ks, hs, hs', rfl, he, hhs⟩ | ⟨count, h, hs, rfl, he⟩
  · rw [he]
    rw [← hk] at hrev hpend
    rw [← hh] at hpend
    exact ⟨hs, hlock, hrev, hprog, hpend⟩
  · exact absurd rfl hstart
  · rw [he]
    obtain ⟨hrk, hrev⟩ := not_or.mp (List.mem_cons.not.mp hrev)
    refine ⟨by simp, hlock, hrev, hprog.imp_right (fun hp => ?_), ?_⟩
    · obtain ⟨r, hr, hR⟩ := hp
      exact ⟨r, hr, Dict.mem_erase.mpr ⟨hrk, hR⟩⟩
    · rcases hpend with hpend | ⟨hne, hk, e, hget, hse⟩
      · exact Or.inl (fun hm => (hhs n).mpr (Or.inl (hpend hm)))
      · by_cases hkk : sessionKeyString key = k
        · subst hkk
          exact Or.inl (fun _ => (hhs n).mpr (Or.inr ⟨e, hget, hse.names.1⟩))
        · refine Or.inr ⟨hne, (List.mem_cons.mp hk).resolve_left hkk, e, ?_, hse⟩
          rw [Dict.get?_erase, if_neg hkk]
          exact hget
  · rw [he]
    refine ⟨by simp, (m.removeSession_poisoned h).trans hlock, hrev, hprog, Or.inl (fun hm => ?_)⟩
    rw [DocaFlowManager.removeSession_entries hlock, Dict.mem_erase] at hm
    rcases hpend with hpend | ⟨-, hk, -⟩
    · exact (List.mem_cons.mp (hpend hm.2)).resolve_left hm.1
    · cases hk

/-! ### Both calls have returned -/

theorem Good.all_or_nothing {c : InFlight} (hG : Good now req key n c)
    (hp : ∃ r, c.program = .returned r) (hf : ∃ r, c.flush = .returned r) :
    AllOrNothing key n c.service := by
  obtain ⟨s, p, f⟩ := c
  obtain ⟨r, hp⟩ := hp
  obtain ⟨rf, hf⟩ := hf
  dsimp only at hp hf
  subst hp hf
  cases hG.phase with
  | before _ hK hR hstage =>
    exact Or.inr ⟨Dict.get?_eq_none_iff.mpr hK, Dict.get?_eq_none_iff.mpr hR, hstage⟩
  | half hp => cases hp
  | present _ _ _ _ hlive hK hR =>
    have hhandle : ∀ {e}, OfSession req key n e → e.entryHandle ∈ s.docaManager.entries := by
      intro e he
      rcases he with he | he
      · rw [show e.entryHandle = n from congrArg Slot.handle he]
        exact hlive.1
      · rw [show e.entryHandle = n + 1 from congrArg Slot.handle he]
        exact hlive.2
    obtain ⟨e, he, hse⟩ := hK
    obtain ⟨e', he', hse'⟩ := hR
    exact Or.inl ⟨⟨e, he, hhandle hse⟩, ⟨e', he', hhandle hse'⟩, hlive⟩
  | leaving _ _ _ _ hkeys hpend =>
    have hnone : ∀ {k}, k = sessionKeyString key ∨ k = sessionKeyString (reverseKey key) →
        s.sessionTable.map.get? k = none := by
      intro k hk
      refine Option.eq_none_iff_forall_ne_some.mpr (fun e he => ?_)
      cases (hkeys k e hk he).1
    have hgone : ∀ {h}, h = n ∨ h = n + 1 → h ∉ s.docaManager.entries := by
      intro h hh hm
      rcases hpend h hh hm with hm | hm | hm
      · cases hm
      · exact Dict.get?_eq_none_iff.mp (hnone (Or.inl rfl)) hm
      · exact Dict.get?_eq_none_iff.mp (hnone (Or.inr rfl)) hm
    exact Or.inr ⟨hnone (Or.inl rfl), hnone (Or.inr rfl), hgone (Or.inl rfl), hgone (Or.inr rfl)⟩

theorem Cut.not_all_or_nothing {c : InFlight} (hC : Cut req key n c)
    (hp : ∃ r, c.program = .returned r) (hf : ∃ r, c.flush = .returned r) :
    ¬ AllOrNothing key n c.service := by
  obtain ⟨s, p, f⟩ := c
  obtain ⟨r, hp⟩ := hp
  obtain ⟨rf, hf⟩ := hf
  dsimp only at hp hf
  subst hp hf
  intro h
  rcases h with ⟨-, -, hn, -⟩ | ⟨-, hR, -⟩
  · rcases hC.pend with hpend | ⟨-, hk, -⟩
    · cases hpend hn
    · cases hk
  · rcases hC.program with hp | ⟨-, -, hmem⟩
    · cases hp
    · exact Dict.get?_eq_none_iff.mp hR hmem

theorem good_init {s : OffloadServiceImpl} (hN : Numbered s)
    (hw : s.docaManager.nextHandle.toNat + 1 < 2 ^ 64)
    (hK : sessionKeyString key ∉ s.sessionTable.map)
    (hR : sessionKeyString (reverseKey key) ∉ s.sessionTable.map) :
    Good now req key s.docaManager.nextHandle ⟨s, .start, .start⟩ := by
  have hlt : ∀ {h}, s.docaManager.Drawn h →
      h ≠ s.docaManager.nextHandle ∧ h ≠ s.docaManager.nextHandle + 1 := by
    intro h hh
    rw [DocaFlowManager.Drawn] at hh
    refine ⟨?_, ?_⟩
    · rintro rfl
      omega
    · rintro rfl
      rw [UInt64.toNat_add_one hw] at hh
      omega
  refine ⟨fun k e he _ _ => ?_, List.nodup_nil, .before ⟨?_, ?_, ?_, ?_⟩ hK hR ⟨rfl, ?_, ?_⟩⟩
  · have hslot := SessionTable.slots_eq_some.mpr ⟨e, he, rfl⟩
    exact ⟨fun hn => (hlt (hN.groups.drawn_of_names hslot hn)).1 rfl,
      fun hn => (hlt (hN.groups.drawn_of_names hslot hn)).2 rfl⟩
  · exact List.not_mem_nil
  · exact List.not_mem_nil
  · exact List.not_mem_nil
  · exact List.not_mem_nil
  · exact fun hm => (hlt (hN.programmed _ hm)).1 rfl
  · exact fun hm => (hlt (hN.programmed _ hm)).2 rfl

end Invariant

/-- **A session is all there or not at all, exactly if the flush does not cut it in
two**: in any state the daemon reaches, for any order of the steps of the two
calls. -/
theorem all_or_nothing_iff (checked : Bool) (ager : SessionAger) (ops : List Op) (now : Nanos)
    (req : ProgramSessionRequest) (key : SessionKey) (freq : FlushSessionsRequest)
    (turns : List Turn)
    (hw : (daemon checked ager).Meets NoWrap (ops ++ [.programSession now req]))
    (hb : req.bidirectional = true)
    (hK : ((daemon checked ager).run ops).service.sessionTable.get key = none)
    (hR : ((daemon checked ager).run ops).service.sessionTable.get (reverseKey key) = none)
    (hp : ∃ r, ((inFlight now req key freq ((daemon checked ager).run ops).service).run
      turns).program = .returned r)
    (hf : ∃ r, ((inFlight now req key freq ((daemon checked ager).run ops).service).run
      turns).flush = .returned r) :
    AllOrNothing key ((daemon checked ager).run ops).service.docaManager.nextHandle
      ((inFlight now req key freq ((daemon checked ager).run ops).service).run turns).service ↔
    (inFlight now req key freq ((daemon checked ager).run ops).service).Meets
      (Unsplit now req key freq) turns := by
  obtain ⟨hops, hlast⟩ := (daemon checked ager).meets_append_singleton.mp hw
  have hN := numbered_run checked ager ops hops
  generalize ((daemon checked ager).run ops) = d at hK hR hp hf hlast hN ⊢
  have hnext : d.service.docaManager.nextHandle.toNat + 1 < 2 ^ 64 := by
    simp only [NoWrap, hb, if_true] at hlast
    omega
  have hG0 : Good now req key d.service.docaManager.nextHandle ⟨d.service, .start, .start⟩ :=
    good_init hN hnext (Dict.get?_eq_none_iff.mp hK) (Dict.get?_eq_none_iff.mp hR)
  rcases (inFlight now req key freq d.service).run_dichotomy
      (G := Good now req key d.service.docaManager.nextHandle)
      (B := Cut req key d.service.docaManager.nextHandle) hG0
      (fun c i hG hu => by
        cases i with
        | program => exact hG.program freq hb
        | flush => exact hG.flush hu)
      (fun c i hG hu => hG.cut hu)
      (fun c i hC => by
        cases i with
        | program => exact hC.program_step freq
        | flush => exact hC.flush_step now) turns with ⟨hm, hG⟩ | ⟨hm, hC⟩
  · exact iff_of_true (hG.all_or_nothing hp hf) hm
  · exact iff_of_false (hC.not_all_or_nothing hp hf) hm

def sampleKey : SessionKey := ⟨100, "10.0.0.1", "10.0.0.2", 5000, 80, 1⟩

/-- The keys are collected before the first insertion. -/
def collectedBefore : List Turn :=
  [.program, .program, .flush, .program, .flush, .program, .flush]

/-- The keys are collected between the two insertions. -/
def collectedBetween : List Turn :=
  [.program, .program, .program, .flush, .program, .flush, .flush, .flush, .flush, .flush]

theorem all_or_nothing_iff_collectedBefore :
    (inFlight 0 (sampleRequest true) sampleKey ⟨some (.RuleId "r1")⟩
      (daemon true defaultAger).init.service).Meets
        (Unsplit 0 (sampleRequest true) sampleKey ⟨some (.RuleId "r1")⟩) collectedBefore ∧
    AllOrNothing sampleKey 1 ((inFlight 0 (sampleRequest true) sampleKey
      ⟨some (.RuleId "r1")⟩ (daemon true defaultAger).init.service).run
        collectedBefore).service := by
  have hm : (inFlight 0 (sampleRequest true) sampleKey ⟨some (.RuleId "r1")⟩
      (daemon true defaultAger).init.service).Meets
        (Unsplit 0 (sampleRequest true) sampleKey ⟨some (.RuleId "r1")⟩) collectedBefore :=
    Machine.meets_of_meetsFrom _ (by decide +kernel)
  refine ⟨hm, (all_or_nothing_iff true defaultAger [] 0 (sampleRequest true) sampleKey
    ⟨some (.RuleId "r1")⟩ collectedBefore (Machine.meets_of_meetsFrom _ (by decide +kernel)) rfl
    (by decide +kernel) (by decide +kernel) ⟨_, rfl⟩ ⟨_, rfl⟩).mpr hm⟩

/-- The reverse entry is left in the table and nothing of the session in
hardware. -/
theorem session_cut_in_two :
    (daemon true defaultAger).init.service.sessionTable.get sampleKey = none ∧
    (daemon true defaultAger).init.service.sessionTable.get (reverseKey sampleKey) = none ∧
    (∃ r, ((inFlight 0 (sampleRequest true) sampleKey ⟨some (.RuleId "r1")⟩
      (daemon true defaultAger).init.service).run collectedBetween).program = .returned r) ∧
    (∃ r, ((inFlight 0 (sampleRequest true) sampleKey ⟨some (.RuleId "r1")⟩
      (daemon true defaultAger).init.service).run collectedBetween).flush = .returned r) ∧
    ¬ AllOrNothing sampleKey 1 ((inFlight 0 (sampleRequest true) sampleKey
      ⟨some (.RuleId "r1")⟩ (daemon true defaultAger).init.service).run
        collectedBetween).service := by
  refine ⟨by decide +kernel, by decide +kernel, ⟨_, rfl⟩, ⟨_, rfl⟩, fun h => ?_⟩
  rcases h with ⟨-, -, hn, -⟩ | ⟨-, hR, -⟩
  · revert hn
    decide +kernel
  · revert hR
    decide +kernel

end PrismFirewall.OffloadDaemon
