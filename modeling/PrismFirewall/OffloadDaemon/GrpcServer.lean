import PrismFirewall.OffloadDaemon.DocaFlow
import PrismFirewall.OffloadDaemon.SessionTable

/-!
# The offload service

The three requests of `grpc_server.rs` that touch a session.  Each works on the
session table and on the hardware one after the other; the state passed here is
the pair of the two.
-/

namespace PrismFirewall.OffloadDaemon

open PrismFirewall.Lib (Dict)

structure ProgramSessionRequest where
  key : Option SessionKey
  action : Int32
  bidirectional : Bool
  forwardPort : UInt32
  ruleId : String

structure ProgramSessionResponse where
  success : Bool
  entryHandle : String
  errorMessage : String

inductive MatchCriteria
  | RuleId (ruleId : String)
  | Vni (vni : UInt32)
  | All (all : Bool)

structure FlushSessionsRequest where
  matchCriteria : Option MatchCriteria

structure FlushSessionsResponse where
  flushedCount : UInt32

structure QuerySessionRequest where
  key : Option SessionKey

structure QuerySessionResponse where
  found : Bool
  packetsMatched : UInt64
  bytesMatched : UInt64
  ageSeconds : UInt64
  offloaded : Bool

/-- The only status a handler here answers with. -/
inductive Status
  | invalidArgument (message : String)

structure OffloadServiceImpl where
  sessionTable : SessionTable
  docaManager : DocaFlowManager

/-- The key of the other direction. -/
def reverseKey (key : SessionKey) : SessionKey :=
  ⟨key.vni, key.dstIp, key.srcIp, key.dstPort, key.srcPort, key.protocol⟩

/-- Remove a handle and then its reverse; an error is logged and passed over. -/
def DocaFlowManager.removeBoth (m : DocaFlowManager) (handles : UInt64 × Option UInt64) :
    DocaFlowManager :=
  let m := (m.removeSession handles.1).2
  match handles.2 with
  | some rev => (m.removeSession rev).2
  | none => m

namespace OffloadServiceImpl

def programFailed (errorMessage : String) : ProgramSessionResponse := ⟨false, "", errorMessage⟩

/-- The table insertions at the end of `program_session`. -/
def insertSession (t : SessionTable) (now : Nanos) (req : ProgramSessionRequest) (key : SessionKey)
    (forwardHandle : UInt64) (reverseHandle : Option UInt64) : SessionTable :=
  let entry := SessionEntry.new now forwardHandle key.vni key req.action req.bidirectional
    reverseHandle req.ruleId
  let t := t.insert key entry
  match reverseHandle with
  | some revHandle =>
    let revKey := reverseKey key
    let revEntry := SessionEntry.new now revHandle key.vni revKey req.action true
      (some forwardHandle) req.ruleId
    t.insert revKey revEntry
  | none => t

def programSession (s : OffloadServiceImpl) (now : Nanos) (req : ProgramSessionRequest) :
    Except Status ProgramSessionResponse × OffloadServiceImpl :=
  match req.key with
  | none => (.error (.invalidArgument "session key is required"), s)
  | some key =>
    match s.docaManager.programSession key.vni key.srcIp key.dstIp key.srcPort key.dstPort
        key.protocol req.action req.forwardPort with
    | (.error e, m) => (.ok (programFailed e.toString), { s with docaManager := m })
    | (.ok forwardHandle, m) =>
      if req.bidirectional then
        match m.programSession key.vni key.dstIp key.srcIp key.dstPort key.srcPort
            key.protocol req.action req.forwardPort with
        | (.error e, m) =>
          -- roll back the forward entry
          let m := (m.removeSession forwardHandle).2
          (.ok (programFailed ("reverse entry failed: " ++ e.toString)),
            { s with docaManager := m })
        | (.ok reverseHandle, m) =>
          (.ok ⟨true, toString forwardHandle, ""⟩,
            ⟨insertSession s.sessionTable now req key forwardHandle (some reverseHandle), m⟩)
      else
        (.ok ⟨true, toString forwardHandle, ""⟩,
          ⟨insertSession s.sessionTable now req key forwardHandle none, m⟩)

/-- The table half of a flush; `all = false` asks for nothing. -/
def flushTable (t : SessionTable) :
    MatchCriteria → Option ((UInt32 × List (UInt64 × Option UInt64)) × SessionTable)
  | .RuleId ruleId => some (t.flushByRuleId ruleId)
  | .Vni vni => some (t.flushByVni vni)
  | .All true => some t.flushAll
  | .All false => none

def flushSessions (s : OffloadServiceImpl) (req : FlushSessionsRequest) :
    Except Status FlushSessionsResponse × OffloadServiceImpl :=
  match req.matchCriteria with
  | none => (.error (.invalidArgument "match_criteria is required"), s)
  | some criteria =>
    match flushTable s.sessionTable criteria with
    | none => (.ok ⟨0⟩, s)
    | some ((count, handles), t) =>
      (.ok ⟨count⟩, ⟨t, handles.foldl DocaFlowManager.removeBoth s.docaManager⟩)

/-- A missing result is a panic of the handler's task, which leaves the service
running. -/
def querySession (checked : Bool) (s : OffloadServiceImpl) (now : Nanos)
    (req : QuerySessionRequest) :
    Option (Except Status QuerySessionResponse) × OffloadServiceImpl :=
  match req.key with
  | none => (some (.error (.invalidArgument "session key is required")), s)
  | some key =>
    match s.sessionTable.get key with
    | none => (some (.ok ⟨false, 0, 0, 0, false⟩), s)
    | some entry =>
      match s.docaManager.querySession checked entry.entryHandle with
      | (none, m) => (none, { s with docaManager := m })
      | (some r, m) =>
        let (packets, bytes) := match r with
          | .ok c => c
          | .error _ => (0, 0)
        let t := match s.sessionTable.get key with
          | some entry => s.sessionTable.insert key (entry.updateCounters packets bytes)
          | none => s.sessionTable
        let ageSeconds := UInt64.ofNat ((now - entry.createdAt) / 1000000000)
        (some (.ok ⟨true, packets, bytes, ageSeconds, true⟩), ⟨t, m⟩)

/-! ### What a programming does -/

section Programming

variable {s : OffloadServiceImpl} {req : ProgramSessionRequest} {key : SessionKey}

theorem programSession_none (hkey : req.key = none) (now : Nanos) :
    s.programSession now req = (.error (.invalidArgument "session key is required"), s) := by
  simp only [programSession, hkey]

/-- A poisoned lock fails the request, but a handle has been drawn for it. -/
theorem programSession_poisoned (hkey : req.key = some key) (hp : s.docaManager.poisoned = true)
    (now : Nanos) :
    s.programSession now req
      = (.ok (programFailed (DocaFlowError.ProgramFailed
            ("lock poisoned: " ++ DocaFlowManager.poisonText)).toString),
          ⟨s.sessionTable, { s.docaManager with nextHandle := s.docaManager.nextHandle + 1 }⟩) := by
  simp only [programSession, hkey, DocaFlowManager.programSession_poisoned hp]

/-- What a request for one direction leaves behind. -/
theorem programSession_unidirectional (hkey : req.key = some key)
    (hb : req.bidirectional = false) (hp : s.docaManager.poisoned = false) (now : Nanos) :
    s.programSession now req
      = (.ok ⟨true, toString s.docaManager.nextHandle, ""⟩,
        ⟨insertSession s.sessionTable now req key s.docaManager.nextHandle none,
          ⟨s.docaManager.nextHandle + 1,
            s.docaManager.entries.insert s.docaManager.nextHandle
              ⟨key.vni, key.srcIp, key.dstIp, key.srcPort, key.dstPort, key.protocol, req.action,
                req.forwardPort, 0, 0⟩, false⟩⟩) := by
  simp only [programSession, hkey, DocaFlowManager.programSession_ok hp, hb, Bool.false_eq_true,
    if_false]

/-- What a bidirectional request leaves behind on a daemon that takes it. -/
theorem programSession_bidirectional (hkey : req.key = some key)
    (hb : req.bidirectional = true) (hp : s.docaManager.poisoned = false) (now : Nanos) :
    s.programSession now req
      = (.ok ⟨true, toString s.docaManager.nextHandle, ""⟩,
        ⟨insertSession s.sessionTable now req key s.docaManager.nextHandle
            (some (s.docaManager.nextHandle + 1)),
          ⟨s.docaManager.nextHandle + 1 + 1,
            (s.docaManager.entries.insert s.docaManager.nextHandle
              ⟨key.vni, key.srcIp, key.dstIp, key.srcPort, key.dstPort, key.protocol, req.action,
                req.forwardPort, 0, 0⟩).insert (s.docaManager.nextHandle + 1)
              ⟨key.vni, key.dstIp, key.srcIp, key.dstPort, key.srcPort, key.protocol, req.action,
                req.forwardPort, 0, 0⟩, false⟩⟩) := by
  simp only [programSession, hkey, DocaFlowManager.programSession_ok hp, hb, if_true,
    DocaFlowManager.programSession_ok]

/-- The handles that a request programs. -/
def programmedHandles (s : OffloadServiceImpl) (req : ProgramSessionRequest) : List UInt64 :=
  if s.docaManager.poisoned ∨ req.key = none then []
  else if req.bidirectional then [s.docaManager.nextHandle, s.docaManager.nextHandle + 1]
  else [s.docaManager.nextHandle]

/-- The texts that a request files a session under. -/
def programmedTexts (s : OffloadServiceImpl) (req : ProgramSessionRequest) : List String :=
  if s.docaManager.poisoned then []
  else match req.key with
    | none => []
    | some key =>
      if req.bidirectional then [sessionKeyString key, sessionKeyString (reverseKey key)]
      else [sessionKeyString key]

/-- **What a programming leaves in the table**: entries that are new, and the old ones
everywhere else. -/
theorem get?_programSession (s : OffloadServiceImpl) (now : Nanos) (req : ProgramSessionRequest)
    (k : String) :
    if k ∈ s.programmedTexts req then
      ∃ e, (s.programSession now req).2.sessionTable.map.get? k = some e ∧ e.createdAt = now ∧
        e.entryHandle ∈ s.programmedHandles req
    else (s.programSession now req).2.sessionTable.map.get? k = s.sessionTable.map.get? k := by
  cases hp : s.docaManager.poisoned with
  | true =>
    have hnot : k ∉ s.programmedTexts req := by simp [programmedTexts, hp]
    rw [if_neg hnot]
    cases hkey : req.key with
    | none => rw [programSession_none hkey]
    | some key => rw [programSession_poisoned hkey hp]
  | false =>
    cases hkey : req.key with
    | none =>
      rw [if_neg (by simp [programmedTexts, hp, hkey]), programSession_none hkey]
    | some key =>
      cases hb : req.bidirectional with
      | false =>
        rw [programSession_unidirectional hkey hb hp]
        simp only [programmedTexts, programmedHandles, hp, hkey, hb, insertSession,
          SessionTable.insert, Dict.get?_insert, Bool.false_eq_true, if_false, List.mem_singleton,
          reduceCtorEq, or_self]
        split
        · exact ⟨_, rfl, rfl, rfl⟩
        · rfl
      | true =>
        rw [programSession_bidirectional hkey hb hp]
        simp only [programmedTexts, programmedHandles, hp, hkey, hb, insertSession,
          SessionTable.insert, Dict.get?_insert, Bool.false_eq_true, if_false, if_true,
          List.mem_cons, List.not_mem_nil, or_false, reduceCtorEq, or_self]
        by_cases hrev : k = sessionKeyString (reverseKey key)
        · rw [if_pos (Or.inr hrev), if_pos hrev]
          exact ⟨_, rfl, rfl, Or.inr rfl⟩
        · by_cases hfwd : k = sessionKeyString key
          · rw [if_pos (Or.inl hfwd), if_neg hrev, if_pos hfwd]
            exact ⟨_, rfl, rfl, Or.inl rfl⟩
          · rw [if_neg (by rintro (h | h); exacts [hfwd h, hrev h]), if_neg hrev, if_neg hfwd]

/-- What a programming leaves in hardware: counters at zero for the new handles, and the
old entries everywhere else. -/
theorem get?_entries_programSession (s : OffloadServiceImpl) (now : Nanos)
    (req : ProgramSessionRequest) (h : UInt64) :
    if h ∈ s.programmedHandles req then
      ∃ entry, (s.programSession now req).2.docaManager.entries.get? h = some entry ∧
        entry.packets = 0
    else
      (s.programSession now req).2.docaManager.entries.get? h = s.docaManager.entries.get? h := by
  cases hkey : req.key with
  | none => rw [if_neg (by simp [programmedHandles, hkey]), programSession_none hkey]
  | some key =>
    cases hp : s.docaManager.poisoned with
    | true => rw [if_neg (by simp [programmedHandles, hp]), programSession_poisoned hkey hp]
    | false =>
      cases hb : req.bidirectional with
      | false =>
        rw [programSession_unidirectional hkey hb hp]
        simp only [programmedHandles, hp, hkey, hb, Dict.get?_insert, Bool.false_eq_true, if_false,
          List.mem_singleton, reduceCtorEq, or_self]
        split
        · exact ⟨_, rfl, rfl⟩
        · rfl
      | true =>
        rw [programSession_bidirectional hkey hb hp]
        simp only [programmedHandles, hp, hkey, hb, Dict.get?_insert, Bool.false_eq_true, if_false,
          if_true, List.mem_cons, List.not_mem_nil, or_false, reduceCtorEq, or_self]
        by_cases hrev : h = s.docaManager.nextHandle + 1
        · rw [if_pos (Or.inr hrev), if_pos hrev]
          exact ⟨_, rfl, rfl⟩
        · by_cases hfwd : h = s.docaManager.nextHandle
          · rw [if_pos (Or.inl hfwd), if_neg hrev, if_pos hfwd]
            exact ⟨_, rfl, rfl⟩
          · rw [if_neg (by rintro (h | h); exacts [hfwd h, hrev h]), if_neg hrev, if_neg hfwd]

end Programming

end OffloadServiceImpl

/-! ### Removing handles -/

namespace DocaFlowManager

@[simp] theorem removeBoth_poisoned (m : DocaFlowManager) (x : UInt64 × Option UInt64) :
    (m.removeBoth x).poisoned = m.poisoned := by
  unfold removeBoth
  split <;> simp

@[simp] theorem removeBoth_nextHandle (m : DocaFlowManager) (x : UInt64 × Option UInt64) :
    (m.removeBoth x).nextHandle = m.nextHandle := by
  unfold removeBoth
  split <;> simp

theorem get?_of_removeBoth {m : DocaFlowManager} {x : UInt64 × Option UInt64} {h : UInt64}
    {entry : MockHwEntry} (hh : (m.removeBoth x).entries.get? h = some entry) :
    m.entries.get? h = some entry := by
  unfold removeBoth at hh
  split at hh
  · exact get?_of_removeSession (get?_of_removeSession hh)
  · exact get?_of_removeSession hh

theorem mem_removeBoth {m : DocaFlowManager} (hp : m.poisoned = false)
    (x : UInt64 × Option UInt64) (h : UInt64) :
    h ∈ (m.removeBoth x).entries ↔ h ∈ m.entries ∧ ¬ (x.1 = h ∨ x.2 = some h) := by
  unfold removeBoth
  split
  · rename_i rev hrev
    rw [removeSession_entries (by simpa using hp), removeSession_entries hp, Dict.mem_erase,
      Dict.mem_erase, hrev, Option.some.injEq]
    tauto
  · rename_i hrev
    rw [removeSession_entries hp, Dict.mem_erase, hrev]
    tauto

/-- A loop of removals leaves the lock and the other entries as they are, draws no handle
and programs none. -/
theorem foldl_removeBoth_frame (xs : List (UInt64 × Option UInt64)) : ∀ m : DocaFlowManager,
    (xs.foldl removeBoth m).nextHandle = m.nextHandle ∧
    (xs.foldl removeBoth m).poisoned = m.poisoned ∧
    ∀ h entry, (xs.foldl removeBoth m).entries.get? h = some entry →
      m.entries.get? h = some entry := by
  induction xs with
  | nil => intro m; exact ⟨rfl, rfl, fun h entry hh => hh⟩
  | cons x xs ih =>
    intro m
    obtain ⟨h1, h2, h3⟩ := ih (m.removeBoth x)
    rw [removeBoth_nextHandle] at h1
    rw [removeBoth_poisoned] at h2
    exact ⟨h1, h2, fun h entry hh => get?_of_removeBoth (h3 h entry hh)⟩

theorem mem_of_mem_foldl_removeBoth {xs : List (UInt64 × Option UInt64)} {m : DocaFlowManager}
    {h : UInt64} (hh : h ∈ (xs.foldl removeBoth m).entries) : h ∈ m.entries := by
  obtain ⟨entry, hentry⟩ := Dict.mem_iff_get?.mp hh
  exact Dict.mem_of_get? ((foldl_removeBoth_frame xs m).2.2 h entry hentry)

/-- What a loop of removals leaves programmed. -/
theorem mem_foldl_removeBoth (xs : List (UInt64 × Option UInt64)) : ∀ {m : DocaFlowManager},
    m.poisoned = false → ∀ h, h ∈ (xs.foldl removeBoth m).entries ↔
      h ∈ m.entries ∧ ¬ ∃ x ∈ xs, x.1 = h ∨ x.2 = some h := by
  induction xs with
  | nil => intro m _ h; simp
  | cons x xs ih =>
    intro m hp h
    rw [List.foldl_cons, ih (by simpa using hp), mem_removeBoth hp]
    simp only [List.mem_cons, exists_eq_or_imp]
    exact and_assoc.trans (and_congr_right fun _ => not_or.symm)

/-- Behind a poisoned lock nothing is removed. -/
theorem mem_foldl_removeBoth_of_poisoned (xs : List (UInt64 × Option UInt64)) :
    ∀ {m : DocaFlowManager}, m.poisoned = true → ∀ {h}, h ∈ m.entries →
      h ∈ (xs.foldl removeBoth m).entries := by
  have hone : ∀ (m : DocaFlowManager), m.poisoned = true → ∀ handle,
      (m.removeSession handle).2 = m := by
    intro m hp handle
    rw [removeSession, if_pos hp]
  induction xs with
  | nil => exact fun _ h hh => hh
  | cons x xs ih =>
    intro m hp h hh
    rw [List.foldl_cons]
    refine ih (by simpa using hp) ?_
    unfold removeBoth
    rw [hone m hp]
    split
    · rw [hone m hp]
      exact hh
    · exact hh

end DocaFlowManager

end PrismFirewall.OffloadDaemon
