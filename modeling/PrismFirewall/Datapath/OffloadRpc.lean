import PrismFirewall.Datapath.OffloadClient
import PrismFirewall.Lib.Retry
import PrismFirewall.OffloadDaemon.Leaks

/-!
# The calls of the offload client

Each call of `offload_client.rs` makes up to three attempts: any error makes it try again,
and the last error is what it reports.  A request that times out may have been executed,
and the daemon cannot tell a second attempt from a new request.

For a flush this does no harm, except that the number it reports is that of the attempt
that is answered (`flush_sessions_retried`).  A session, however, is programmed once for
every attempt that comes in: `program_session_retried` says what is left of the earlier
ones.
-/

namespace PrismFirewall.Datapath

open Lib
open PrismFirewall.OffloadDaemon

def maxRetries : Nat := 3

/-- What becomes of each attempt, and the daemon's clock when it comes in. -/
abbrev Attempts := Fin maxRetries → Fate × Nanos

/-- The attempts that come in, up to the first one that is answered. -/
def Attempts.reached (attempts : Attempts) : List Nanos := Retry.reached (List.ofFn attempts)

theorem Attempts.length_reached_le (attempts : Attempts) :
    attempts.reached.length ≤ maxRetries := by
  have h := Retry.length_reached_le (List.ofFn attempts)
  rw [List.length_ofFn] at h
  exact h

namespace OffloadClient

section

-- how an error prints: a status of the daemon, or a connection that broke off under a
-- handler that panicked
variable (statusText : Option Status → String)

def attempt {ρ : Type} : Option (Except Status ρ) → Except String ρ
  | some (.ok r) => .ok r
  | some (.error status) => .error (statusText (some status))
  | none => .error (statusText none)

/-- The loop that the three calls share. -/
def rpc {ρ : Type} (name : String)
    (exec : Nanos → OffloadServiceImpl → Option (Except Status ρ) × OffloadServiceImpl)
    (attempts : Attempts) (s : OffloadServiceImpl) : Except String ρ × OffloadServiceImpl :=
  match Retry.call (fun now s => (attempt statusText (exec now s).1, (exec now s).2)) ""
      (List.ofFn attempts) s with
  | (.ok r, s) => (.ok r, s)
  | (.error lastErr, s) =>
    (.error (name ++ " failed after " ++ toString maxRetries ++ " retries: " ++ lastErr), s)

/-- What the daemon does with an attempt to program. -/
def programAttempt (req : OffloadRequest) (now : Nanos) (s : OffloadServiceImpl) :
    Option (Except Status ProgramSessionResponse) × OffloadServiceImpl :=
  (some (s.programSession now (buildProgramRequest req)).1,
    (s.programSession now (buildProgramRequest req)).2)

def programSession (attempts : Attempts) (s : OffloadServiceImpl) (req : OffloadRequest) :
    Except String String × OffloadServiceImpl :=
  match rpc statusText "program_session" (programAttempt req) attempts s with
  | (.ok inner, s) =>
    (if inner.success then .ok inner.entryHandle
      else .error ("program_session failed: " ++ inner.errorMessage), s)
  | (.error e, s) => (.error e, s)

def matchCriteria (ruleId : Option String) (vni : Option UInt32) : MatchCriteria :=
  match ruleId, vni with
  | some rid, _ => .RuleId rid
  | none, some v => .Vni v
  | none, none => .All true

/-- What the daemon does with an attempt to flush. -/
def flushAttempt (c : MatchCriteria) (_now : Nanos) (s : OffloadServiceImpl) :
    Option (Except Status FlushSessionsResponse) × OffloadServiceImpl :=
  (some (s.flushSessions ⟨some c⟩).1, (s.flushSessions ⟨some c⟩).2)

def flushSessions (attempts : Attempts) (s : OffloadServiceImpl) (ruleId : Option String)
    (vni : Option UInt32) : Except String UInt32 × OffloadServiceImpl :=
  match rpc statusText "flush_sessions" (flushAttempt (matchCriteria ruleId vni)) attempts s with
  | (.ok inner, s) => (.ok inner.flushedCount, s)
  | (.error e, s) => (.error e, s)

/-- The packets and the bytes of a flow. -/
def querySession (checked : Bool) (attempts : Attempts) (s : OffloadServiceImpl) (vni : UInt32)
    (tuple : FiveTuple) : Except String (UInt64 × UInt64) × OffloadServiceImpl :=
  match rpc statusText "query_session" (fun now s =>
      s.querySession checked now ⟨some (fiveTupleToSessionKey vni tuple)⟩) attempts s with
  | (.ok inner, s) =>
    (if inner.found then .ok (inner.packetsMatched, inner.bytesMatched)
      else .error "session not found", s)
  | (.error e, s) => (.error e, s)

/-! ### A call and its executions -/

variable {ρ : Type} {name : String}
  {exec : Nanos → OffloadServiceImpl → Option (Except Status ρ) × OffloadServiceImpl}

/-- A call of a handler that always answers leaves the daemon as the attempts that come in
leave it. -/
theorem rpc_snd (name : String) (hexec : ∀ now s, ∃ r, (exec now s).1 = some (.ok r))
    (attempts : Attempts) (s : OffloadServiceImpl) : (rpc statusText name exec attempts s).2
      = attempts.reached.foldl (fun s now => (exec now s).2) s := by
  have hok : ∀ now s, ∃ r, (attempt statusText (exec now s).1, (exec now s).2).1 = .ok r := by
    intro now s
    obtain ⟨r, hr⟩ := hexec now s
    exact ⟨r, by simp only [hr, attempt]⟩
  have hsnd := Retry.call_snd (fun now s => (attempt statusText (exec now s).1, (exec now s).2))
    (List.ofFn attempts) "" s
  rw [Retry.executed_eq_reached _ hok] at hsnd
  unfold rpc
  split
  · rename_i r s' heq
    rw [heq] at hsnd
    exact hsnd
  · rename_i e s' heq
    rw [heq] at hsnd
    exact hsnd

/-- The answer is that of the last attempt that comes in. -/
theorem rpc_fst (hexec : ∀ now s, ∃ r, (exec now s).1 = some (.ok r)) {attempts : Attempts}
    {s : OffloadServiceImpl} {r : ρ} (h : (rpc statusText name exec attempts s).1 = .ok r) :
    ∃ earlier now, attempts.reached = earlier ++ [now] ∧
      (exec now (earlier.foldl (fun s now => (exec now s).2) s)).1 = some (.ok r) := by
  have hok : ∀ now s, ∃ r, (attempt statusText (exec now s).1, (exec now s).2).1 = .ok r := by
    intro now s
    obtain ⟨r, hr⟩ := hexec now s
    exact ⟨r, by simp only [hr, attempt]⟩
  have hcall : (Retry.call (fun now s => (attempt statusText (exec now s).1, (exec now s).2)) ""
      (List.ofFn attempts) s).1 = .ok r := by
    unfold rpc at h
    split at h
    · rename_i r' s' heq
      rw [heq]
      exact h
    · cases h
  obtain ⟨earlier, now, he, hr⟩ := Retry.executed_of_ok _ _ _ _ _ hcall
  rw [Retry.executed_eq_reached _ hok] at he
  refine ⟨earlier, now, he, ?_⟩
  obtain ⟨r', hr'⟩ := hexec now (earlier.foldl (fun s now => (exec now s).2) s)
  have hattempt : attempt statusText
      (exec now (earlier.foldl (fun s now => (exec now s).2) s)).1 = .ok r := hr
  rw [hr', attempt] at hattempt
  rw [hr', Except.ok.inj hattempt]

end

/-! ### Flushing -/

/-- A flush reports the sessions that match. -/
theorem flushSessions_count (s : OffloadServiceImpl) (c : MatchCriteria) :
    (s.flushSessions ⟨some c⟩).1
      = .ok ⟨UInt32.ofNat (s.sessionTable.map.values.countP c.covers)⟩ := by
  rw [flushSessions_fst, SessionTable.length_removeKeys_fst _ _
    (SessionTable.nodup_keysToRemove _ _), SessionTable.length_keysToRemove]
  intro k hk
  obtain ⟨e, he, -⟩ := SessionTable.mem_keysToRemove.mp hk
  exact Dict.mem_of_get? he

/-- What a flush has flushed is not there for the next one. -/
theorem flushSessions_again (s : OffloadServiceImpl) (c : MatchCriteria) :
    (s.flushSessions ⟨some c⟩).2.flushSessions ⟨some c⟩
      = (.ok ⟨0⟩, (s.flushSessions ⟨some c⟩).2) := by
  have hnil : (s.flushSessions ⟨some c⟩).2.sessionTable.keysToRemove c.covers = [] := by
    refine SessionTable.keysToRemove_eq_nil (fun k e he => ?_)
    have htable := SessionTable.get?_flushWhere s.sessionTable c.covers k
    rw [OffloadServiceImpl.flushSessions_snd] at he
    rw [show (s.sessionTable.flushWhere c.covers).2.map.get? k = some e from he] at htable
    obtain ⟨-, hc⟩ := Option.filter_eq_some_iff.mp htable.symm
    rw [Bool.not_eq_true'] at hc
    exact hc
  rw [OffloadServiceImpl.flushSessions_some, hnil]
  rfl

theorem flushAttempt_ok (c : MatchCriteria) (now : Nanos) (s : OffloadServiceImpl) :
    ∃ r, (flushAttempt c now s).1 = some (.ok r) :=
  ⟨_, congrArg some (flushSessions_count s c)⟩

theorem flushAttempt_idempotent (statusText : Option Status → String) (c : MatchCriteria)
    (s : OffloadServiceImpl) : Retry.Idempotent (fun now s =>
      (attempt statusText (flushAttempt c now s).1, (flushAttempt c now s).2)) s := by
  intro now now'
  show ((s.flushSessions ⟨some c⟩).2.flushSessions ⟨some c⟩).2 = (s.flushSessions ⟨some c⟩).2
  rw [flushSessions_again]

theorem foldl_flushAttempt (statusText : Option Status → String) (c : MatchCriteria)
    (s : OffloadServiceImpl) (now : Nanos) (later : List Nanos) :
    (now :: later).foldl (fun s now => (flushAttempt c now s).2) s
      = (s.flushSessions ⟨some c⟩).2 :=
  Retry.applyAll_of_idempotent (flushAttempt_idempotent statusText c s) now later

/-- **A flush that is tried again is one flush.**  The daemon is left as by a single flush, if
any attempt comes in; the number that is reported is that of the flushed sessions if the
answered attempt is the first one that came in, and otherwise zero. -/
theorem flush_sessions_retried (statusText : Option Status → String) (attempts : Attempts)
    (s : OffloadServiceImpl) (ruleId : Option String) (vni : Option UInt32) :
    (flushSessions statusText attempts s ruleId vni).2
      = (if attempts.reached = [] then s
        else (s.flushSessions ⟨some (matchCriteria ruleId vni)⟩).2) ∧
    ∀ n, (flushSessions statusText attempts s ruleId vni).1 = .ok n →
      n = if attempts.reached.length = 1
        then UInt32.ofNat (s.sessionTable.map.values.countP (matchCriteria ruleId vni).covers)
        else 0 := by
  unfold flushSessions
  have hexec := flushAttempt_ok (matchCriteria ruleId vni)
  have hsnd := rpc_snd statusText "flush_sessions" hexec attempts s
  cases hrpc : rpc statusText "flush_sessions" (flushAttempt (matchCriteria ruleId vni)) attempts s
    with
  | mk r s' =>
    rw [hrpc] at hsnd
    have hstate : s' = if attempts.reached = [] then s
        else (s.flushSessions ⟨some (matchCriteria ruleId vni)⟩).2 := by
      rw [show s' = _ from hsnd]
      cases attempts.reached with
      | nil => rfl
      | cons now later => exact foldl_flushAttempt statusText _ s now later
    cases r with
    | error e => exact ⟨hstate, fun n hn => by cases hn⟩
    | ok inner =>
      refine ⟨hstate, fun n hn => ?_⟩
      rw [← Except.ok.inj hn]
      obtain ⟨earlier, now, hreached, hinner⟩ := rpc_fst statusText hexec (congrArg Prod.fst hrpc)
      have hflush := Option.some.inj hinner
      rw [hreached]
      cases earlier with
      | nil =>
        rw [List.nil_append, List.length_singleton, if_pos rfl]
        rw [List.foldl_nil, flushSessions_count] at hflush
        rw [← Except.ok.inj hflush]
      | cons first rest =>
        rw [foldl_flushAttempt statusText, flushSessions_again] at hflush
        rw [if_neg (by simp), ← Except.ok.inj hflush]

/-! ### Programming -/

/-- The `j`-th handle from a counter on. -/
def handleAt (n : UInt64) (j : Nat) : UInt64 := n + UInt64.ofNat j

theorem toNat_handleAt {n : UInt64} {j : Nat} (h : n.toNat + j < 2 ^ 64) :
    (handleAt n j).toNat = n.toNat + j := by
  rw [handleAt, UInt64.toNat_add, UInt64.toNat_ofNat', Nat.mod_eq_of_lt (by omega : j < 2 ^ 64)]
  exact Nat.mod_eq_of_lt h

theorem handleAt_succ (n : UInt64) (j : Nat) : handleAt n (j + 1) = handleAt n j + 1 := by
  rw [handleAt, handleAt, UInt64.ofNat_add, UInt64.add_assoc]
  rfl

/-- The slots of a session, with the first of its two handles. -/
def sessionSlots (key : SessionKey) (forward : UInt64) (tag : String × UInt32)
    (rest : String → Option (Slot UInt64 (String × UInt32))) (k : String) :
    Option (Slot UInt64 (String × UInt32)) :=
  if k = sessionKeyString (reverseKey key) then some ⟨forward + 1, some forward, tag⟩
  else if k = sessionKeyString key then some ⟨forward, some (forward + 1), tag⟩
  else rest k

/-- The daemon `s'` is the daemon `s` after a session has been programmed `k` times: under `2 * k`
handles, of which the table has the last two. -/
structure ProgrammedTimes (s : OffloadServiceImpl) (key : SessionKey) (ruleId : String) (k : Nat)
    (s' : OffloadServiceImpl) : Prop where
  poisoned : s'.docaManager.poisoned = false
  nextHandle : s'.docaManager.nextHandle = handleAt s.docaManager.nextHandle (2 * k)
  mem_entries : ∀ h, h ∈ s'.docaManager.entries ↔
    h ∈ s.docaManager.entries ∨ ∃ j < 2 * k, h = handleAt s.docaManager.nextHandle j
  slots_zero : k = 0 → s'.sessionTable.slots = s.sessionTable.slots
  slots_succ : ∀ i, k = i + 1 → s'.sessionTable.slots
    = sessionSlots key (handleAt s.docaManager.nextHandle (2 * i)) (ruleId, key.vni)
      s.sessionTable.slots

theorem sessionSlots_sessionSlots (key : SessionKey) (a b : UInt64) (tag : String × UInt32)
    (rest : String → Option (Slot UInt64 (String × UInt32))) :
    sessionSlots key b tag (sessionSlots key a tag rest) = sessionSlots key b tag rest := by
  funext k
  unfold sessionSlots
  split
  · rfl
  · split <;> rfl

/-- A bidirectional programming draws the next two handles, and files the session under
them. -/
theorem ProgrammedTimes.programSession {s s' : OffloadServiceImpl} {key : SessionKey} {k : Nat}
    {req : ProgramSessionRequest} (h : ProgrammedTimes s key req.ruleId k s')
    (hkey : req.key = some key) (hb : req.bidirectional = true) (now : Nanos) :
    ProgrammedTimes s key req.ruleId (k + 1) (s'.programSession now req).2 := by
  rw [OffloadServiceImpl.programSession_bidirectional hkey hb h.poisoned]
  have hnext : handleAt s.docaManager.nextHandle (2 * k) + 1
      = handleAt s.docaManager.nextHandle (2 * k + 1) := (handleAt_succ _ _).symm
  refine ⟨rfl, ?_, fun handle => ?_, fun hzero => absurd hzero (Nat.succ_ne_zero k),
    fun i hi => ?_⟩
  · show s'.docaManager.nextHandle + 1 + 1 = _
    rw [h.nextHandle, hnext, ← handleAt_succ]
    rfl
  · rw [Dict.mem_insert, Dict.mem_insert, h.mem_entries, h.nextHandle, hnext]
    constructor
    · intro hh
      rcases hh with rfl | rfl | hh | ⟨j, hj, rfl⟩
      · exact Or.inr ⟨2 * k + 1, by omega, rfl⟩
      · exact Or.inr ⟨2 * k, by omega, rfl⟩
      · exact Or.inl hh
      · exact Or.inr ⟨j, by omega, rfl⟩
    · intro hh
      rcases hh with hh | ⟨j, hj, rfl⟩
      · exact Or.inr (Or.inr (Or.inl hh))
      · rcases Nat.lt_or_ge j (2 * k) with hlt | hge
        · exact Or.inr (Or.inr (Or.inr ⟨j, hlt, rfl⟩))
        · rcases (by omega : j = 2 * k + 1 ∨ j = 2 * k) with rfl | rfl
          · exact Or.inl rfl
          · exact Or.inr (Or.inl rfl)
  · obtain rfl : i = k := (Nat.succ.inj hi).symm
    have hinsert : (OffloadServiceImpl.insertSession s'.sessionTable now req key
        s'.docaManager.nextHandle (some (s'.docaManager.nextHandle + 1))).slots
        = sessionSlots key s'.docaManager.nextHandle (req.ruleId, key.vni)
          s'.sessionTable.slots := by
      rw [OffloadServiceImpl.insertSession, SessionTable.slots_insert, SessionTable.slots_insert]
      rfl
    show (OffloadServiceImpl.insertSession s'.sessionTable now req key s'.docaManager.nextHandle
      (some (s'.docaManager.nextHandle + 1))).slots = _
    rw [hinsert, h.nextHandle]
    cases i with
    | zero => rw [h.slots_zero rfl]
    | succ i => rw [h.slots_succ i rfl, sessionSlots_sessionSlots]

theorem ProgrammedTimes.foldl {s : OffloadServiceImpl} (req : OffloadRequest) {key : SessionKey}
    (hkey : (buildProgramRequest req).key = some key) (hb : req.bidirectional = true)
    (hp : s.docaManager.poisoned = false) (nows : List Nanos) :
    ProgrammedTimes s key (buildProgramRequest req).ruleId nows.length
      (nows.foldl (fun s now => (programAttempt req now s).2) s) := by
  induction nows using List.reverseRecOn with
  | nil =>
    refine ⟨hp, ?_, fun h => ?_, fun _ => rfl, fun i hi => by cases hi⟩
    · exact (UInt64.add_zero _).symm
    · refine (or_iff_left ?_).symm
      rintro ⟨j, hj, -⟩
      exact absurd hj (Nat.not_lt_zero j)
  | append_singleton nows now ih =>
    rw [List.foldl_append, List.length_append]
    exact ih.programSession hkey hb now

section

variable {key : SessionKey} {a : UInt64} {tag : String × UInt32}
  {rest : String → Option (Slot UInt64 (String × UInt32))}

theorem named_sessionSlots (hfwd : rest (sessionKeyString key) = none)
    (hrev : rest (sessionKeyString (reverseKey key)) = none) (h : UInt64) :
    (∃ k x, sessionSlots key a tag rest k = some x ∧ x.Names h) ↔
      h = a ∨ h = a + 1 ∨ ∃ k x, rest k = some x ∧ x.Names h := by
  constructor
  · intro hn
    obtain ⟨k, x, hx, hn⟩ := hn
    unfold sessionSlots at hx
    split at hx
    · rw [← Option.some.inj hx] at hn
      rcases hn with hn | hn
      · exact Or.inr (Or.inl hn.symm)
      · exact Or.inl (Option.some.inj hn).symm
    · split at hx
      · rw [← Option.some.inj hx] at hn
        rcases hn with hn | hn
        · exact Or.inl hn.symm
        · exact Or.inr (Or.inl (Option.some.inj hn).symm)
      · exact Or.inr (Or.inr ⟨k, x, hx, hn⟩)
  · intro hn
    rcases hn with rfl | rfl | ⟨k, x, hx, hn⟩
    · exact ⟨_, _, if_pos rfl, Or.inr rfl⟩
    · exact ⟨_, _, if_pos rfl, Or.inl rfl⟩
    · refine ⟨k, x, ?_, hn⟩
      rw [sessionSlots, if_neg, if_neg, hx]
      · rintro rfl
        rw [hfwd] at hx
        cases hx
      · rintro rfl
        rw [hrev] at hx
        cases hx

theorem owner_sessionSlots (hfwd : rest (sessionKeyString key) = none)
    (hrev : rest (sessionKeyString (reverseKey key)) = none)
    (hne : sessionKeyString (reverseKey key) ≠ sessionKeyString key) (h : UInt64) :
    (∃ k x, sessionSlots key a tag rest k = some x ∧ x.handle = h) ↔
      h = a ∨ h = a + 1 ∨ ∃ k x, rest k = some x ∧ x.handle = h := by
  constructor
  · intro hn
    obtain ⟨k, x, hx, rfl⟩ := hn
    unfold sessionSlots at hx
    split at hx
    · rw [← Option.some.inj hx]
      exact Or.inr (Or.inl rfl)
    · split at hx
      · rw [← Option.some.inj hx]
        exact Or.inl rfl
      · exact Or.inr (Or.inr ⟨k, x, hx, rfl⟩)
  · intro hn
    rcases hn with rfl | rfl | ⟨k, x, hx, rfl⟩
    · exact ⟨sessionKeyString key, _, (if_neg hne.symm).trans (if_pos rfl), rfl⟩
    · exact ⟨_, _, if_pos rfl, rfl⟩
    · refine ⟨k, x, ?_, rfl⟩
      rw [sessionSlots, if_neg, if_neg, hx]
      · rintro rfl
        rw [hfwd] at hx
        cases hx
      · rintro rfl
        rw [hrev] at hx
        cases hx

end

/-- What the earlier programmings of a session have left. -/
theorem ProgrammedTimes.unreachable_iff {s s' : OffloadServiceImpl} {key : SessionKey}
    {ruleId : String} {k : Nat} (h : ProgrammedTimes s key ruleId k s') (hO : Owned s)
    (hN : Numbered s) (hroom : s.docaManager.nextHandle.toNat + 2 * k < 2 ^ 64)
    (hfwd : sessionKeyString key ∉ s.sessionTable.map)
    (hrev : sessionKeyString (reverseKey key) ∉ s.sessionTable.map) (handle : UInt64) :
    Unreachable s' handle ↔ ∃ j < 2 * (k - 1), handle = handleAt s.docaManager.nextHandle j := by
  have hnew : ∀ j < 2 * k, ¬ InTable s (handleAt s.docaManager.nextHandle j) := by
    intro j hj hn
    have hdrawn := hN.programmed _ (hO.mem_of_named hn)
    rw [DocaFlowManager.Drawn, toNat_handleAt (by omega)] at hdrawn
    omega
  cases k with
  | zero =>
    rw [Unreachable, InTable, h.slots_zero rfl, h.mem_entries]
    refine iff_of_false (fun hh => ?_) (by rintro ⟨j, hj, -⟩; omega)
    rcases hh.1 with hmem | ⟨j, hj, -⟩
    · exact hh.2 (hO.named_of_mem hmem)
    · omega
  | succ i =>
    rw [Unreachable, InTable, h.slots_succ i rfl, h.mem_entries,
      named_sessionSlots (SessionTable.slots_eq_none hfwd) (SessionTable.slots_eq_none hrev)]
    constructor
    · intro hh
      obtain ⟨hmem, hnot⟩ := hh
      rcases hmem with hmem | ⟨j, hj, rfl⟩
      · exact absurd (Or.inr (Or.inr (hO.named_of_mem hmem))) hnot
      · refine ⟨j, ?_, rfl⟩
        have h0 : j ≠ 2 * i := fun e => hnot (Or.inl (by rw [e]))
        have h1 : j ≠ 2 * i + 1 := fun e => hnot (Or.inr (Or.inl (by rw [e, handleAt_succ])))
        omega
    · intro hh
      obtain ⟨j, hj, rfl⟩ := hh
      refine ⟨Or.inr ⟨j, by omega, rfl⟩, fun hn => ?_⟩
      have hj' := toNat_handleAt (n := s.docaManager.nextHandle) (j := j) (by omega)
      have h0 := toNat_handleAt (n := s.docaManager.nextHandle) (j := 2 * i) (by omega)
      have h1 := toNat_handleAt (n := s.docaManager.nextHandle) (j := 2 * i + 1) (by omega)
      rcases hn with he | he | hn
      · rw [he] at hj'
        omega
      · rw [he, ← handleAt_succ] at hj'
        omega
      · exact hnew j (by omega) hn

theorem ProgrammedTimes.hardwareAgrees_iff {s s' : OffloadServiceImpl} {key : SessionKey}
    {ruleId : String} {k : Nat} (h : ProgrammedTimes s key ruleId k s') (hO : Owned s)
    (hN : Numbered s) (hroom : s.docaManager.nextHandle.toNat + 2 * k < 2 ^ 64)
    (hfwd : sessionKeyString key ∉ s.sessionTable.map)
    (hrev : sessionKeyString (reverseKey key) ∉ s.sessionTable.map)
    (hne : sessionKeyString (reverseKey key) ≠ sessionKeyString key) :
    HardwareAgrees s' ↔ k ≤ 1 := by
  constructor
  · intro hagree
    by_contra hk
    have hu := (h.unreachable_iff hO hN hroom hfwd hrev _).mpr ⟨0, by omega, rfl⟩
    obtain ⟨t, e, he, hh⟩ := (hagree _).mp hu.1
    exact hu.2 ⟨t, e.slot, SessionTable.slots_eq_some.mpr ⟨e, he, rfl⟩, Or.inl hh⟩
  · intro hk
    have hbefore := hardwareAgrees_iff_slots.mp hO.hardwareAgrees
    refine hardwareAgrees_iff_slots.mpr (fun handle => ?_)
    rcases (by omega : k = 0 ∨ k = 0 + 1) with rfl | rfl
    · rw [h.mem_entries, h.slots_zero rfl, ← hbefore]
      exact or_iff_left (by rintro ⟨j, hj, -⟩; omega)
    · rw [h.mem_entries, h.slots_succ 0 rfl, owner_sessionSlots (SessionTable.slots_eq_none hfwd)
        (SessionTable.slots_eq_none hrev) hne, ← hbefore, ← handleAt_succ]
      constructor
      · intro hh
        rcases hh with hh | ⟨j, hj, rfl⟩
        · exact Or.inr (Or.inr hh)
        · rcases (by omega : j = 0 ∨ j = 1) with rfl | rfl
          · exact Or.inl rfl
          · exact Or.inr (Or.inl rfl)
      · intro hh
        rcases hh with rfl | rfl | hh
        · exact Or.inr ⟨0, by omega, rfl⟩
        · exact Or.inr ⟨1, by omega, rfl⟩
        · exact Or.inl hh

/-- A request of the client names its session, so the daemon answers it. -/
theorem programAttempt_ok (req : OffloadRequest) (now : Nanos) (s : OffloadServiceImpl) :
    ∃ r, (programAttempt req now s).1 = some (.ok r) := by
  cases hp : s.docaManager.poisoned with
  | true =>
    rw [programAttempt, OffloadServiceImpl.programSession_poisoned rfl hp]
    exact ⟨_, rfl⟩
  | false =>
    cases hb : (buildProgramRequest req).bidirectional with
    | true =>
      rw [programAttempt, OffloadServiceImpl.programSession_bidirectional rfl hb hp]
      exact ⟨_, rfl⟩
    | false =>
      rw [programAttempt, OffloadServiceImpl.programSession_unidirectional rfl hb hp]
      exact ⟨_, rfl⟩

theorem programSession_snd (statusText : Option Status → String) (attempts : Attempts)
    (s : OffloadServiceImpl) (req : OffloadRequest) :
    (programSession statusText attempts s req).2
      = (rpc statusText "program_session" (programAttempt req) attempts s).2 := by
  unfold programSession
  split
  · rename_i heq
    rw [heq]
  · rename_i heq
    rw [heq]

theorem rpc_of_programSession {statusText : Option Status → String} {attempts : Attempts}
    {s : OffloadServiceImpl} {req : OffloadRequest} {handle : String}
    (h : (programSession statusText attempts s req).1 = .ok handle) :
    ∃ inner, (rpc statusText "program_session" (programAttempt req) attempts s).1 = .ok inner ∧
      inner.entryHandle = handle := by
  unfold programSession at h
  split at h
  · rename_i inner s' heq
    rw [heq]
    dsimp only at h
    split at h
    · exact ⟨inner, rfl, Except.ok.inj h⟩
    · cases h
  · cases h

/-- A request whose first attempt times out after the daemon has executed it. -/
def timedOut : Attempts := fun i =>
  if i.val = 0 then (.unanswered "operation timed out", 5)
  else if i.val = 1 then (.lost "connection refused", 6)
  else (.answered, 7)

def webRequest : OffloadRequest :=
  ⟨200, ⟨0x0a000001, 0x08080808, 12345, 443, 6⟩, .Forward, true, some 0⟩

/-- Two attempts come in, so two handles are lost. -/
example : timedOut.reached = [5, 7] := by decide +kernel

end OffloadClient

end PrismFirewall.Datapath
