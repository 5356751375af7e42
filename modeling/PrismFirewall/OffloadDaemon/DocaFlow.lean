import PrismFirewall.Lib.Dict
import PrismFirewall.Lib.Inet

/-!
# The DOCA Flow manager

The hardware side of the offload daemon, in its mock form (`doca_flow.rs`): a
table of programmed entries under 64-bit handles, and a counter the handles are
drawn from.  The counter is an atomic that wraps, and it is advanced before the
lock on the table is taken.

The lock is poisoned once a holder panics.  The only arithmetic done under it is
the sum that `query_session` returns, so only a build with overflow checks can
get there; after that every call that takes the lock fails.
-/

namespace PrismFirewall.OffloadDaemon

open PrismFirewall.Lib (Dict)
open PrismFirewall.Lib.Overflow

inductive DocaFlowError
  | InitFailed
  | ProgramFailed (reason : String)
  | RemoveFailed (handle : UInt64)
  | QueryFailed (handle : UInt64)
  deriving DecidableEq

def DocaFlowError.toString : DocaFlowError → String
  | .InitFailed => "DOCA Flow initialization failed"
  | .ProgramFailed reason => "Failed to program session: " ++ reason
  | .RemoveFailed handle =>
    "Failed to remove session: handle " ++ ToString.toString handle ++ " not found"
  | .QueryFailed handle =>
    "Failed to query session: handle " ++ ToString.toString handle ++ " not found"

structure MockHwEntry where
  vni : UInt32
  srcIp : String
  dstIp : String
  srcPort : UInt32
  dstPort : UInt32
  protocol : Int32
  action : Int32
  forwardPort : UInt32
  packets : UInt64
  bytes : UInt64
  deriving DecidableEq

structure DocaFlowManager where
  nextHandle : UInt64
  entries : Dict UInt64 MockHwEntry
  poisoned : Bool
  deriving DecidableEq

namespace DocaFlowManager

def init : DocaFlowManager := ⟨1, Dict.empty, false⟩

/-- What a poisoned lock prints as. -/
def poisonText : String := "poisoned lock: another task failed inside"

def programSession (m : DocaFlowManager) (vni : UInt32) (srcIp dstIp : String)
    (srcPort dstPort : UInt32) (protocol action : Int32) (forwardPort : UInt32) :
    Except DocaFlowError UInt64 × DocaFlowManager :=
  let handle := m.nextHandle
  let m := { m with nextHandle := m.nextHandle + 1 }
  let entry : MockHwEntry :=
    ⟨vni, srcIp, dstIp, srcPort, dstPort, protocol, action, forwardPort, 0, 0⟩
  if m.poisoned then
    (.error (.ProgramFailed ("lock poisoned: " ++ poisonText)), m)
  else
    (.ok handle, { m with entries := m.entries.insert handle entry })

def removeSession (m : DocaFlowManager) (handle : UInt64) :
    Except DocaFlowError Unit × DocaFlowManager :=
  if m.poisoned then (.error (.RemoveFailed handle), m)
  else
    match m.entries.get? handle with
    | none => (.error (.RemoveFailed handle), m)
    | some _ => (.ok (), { m with entries := m.entries.erase handle })

/-- The result is missing where the sum panics; the counters have been stored by
then. -/
def querySession (checked : Bool) (m : DocaFlowManager) (handle : UInt64) :
    Option (Except DocaFlowError (UInt64 × UInt64)) × DocaFlowManager :=
  if m.poisoned then (some (.error (.QueryFailed handle)), m)
  else
    match m.entries.get? handle with
    | none => (some (.error (.QueryFailed handle)), m)
    | some entry =>
      let entry' := { entry with packets := entry.packets + 10, bytes := entry.bytes + 15000 }
      let m := { m with entries := m.entries.insert handle entry' }
      match addU64 checked entry.packets 10, addU64 checked entry.bytes 15000 with
      | some packets, some bytes => (some (.ok (packets, bytes)), m)
      | _, _ => (none, { m with poisoned := true })

def querySessionCounters (m : DocaFlowManager) (handle : UInt64) :
    Except DocaFlowError (UInt64 × UInt64) :=
  if m.poisoned then .error (.QueryFailed handle)
  else
    match m.entries.get? handle with
    | none => .error (.QueryFailed handle)
    | some entry => .ok (entry.packets, entry.bytes)

/-! ### What the calls do -/

variable {m : DocaFlowManager}

theorem programSession_ok (hp : m.poisoned = false) (vni : UInt32) (srcIp dstIp : String)
    (srcPort dstPort : UInt32) (protocol action : Int32) (forwardPort : UInt32) :
    m.programSession vni srcIp dstIp srcPort dstPort protocol action forwardPort
      = (.ok m.nextHandle, ⟨m.nextHandle + 1, m.entries.insert m.nextHandle
          ⟨vni, srcIp, dstIp, srcPort, dstPort, protocol, action, forwardPort, 0, 0⟩, false⟩) := by
  simp [programSession, hp]

theorem programSession_poisoned (hp : m.poisoned = true) (vni : UInt32) (srcIp dstIp : String)
    (srcPort dstPort : UInt32) (protocol action : Int32) (forwardPort : UInt32) :
    m.programSession vni srcIp dstIp srcPort dstPort protocol action forwardPort
      = (.error (.ProgramFailed ("lock poisoned: " ++ poisonText)),
          { m with nextHandle := m.nextHandle + 1 }) := by
  simp [programSession, hp]

@[simp] theorem removeSession_poisoned (m : DocaFlowManager) (handle : UInt64) :
    (m.removeSession handle).2.poisoned = m.poisoned := by
  unfold removeSession
  split
  · rfl
  · split <;> rfl

@[simp] theorem removeSession_nextHandle (m : DocaFlowManager) (handle : UInt64) :
    (m.removeSession handle).2.nextHandle = m.nextHandle := by
  unfold removeSession
  split
  · rfl
  · split <;> rfl

/-- A removal changes no other entry. -/
theorem get?_of_removeSession {handle h : UInt64} {entry : MockHwEntry}
    (hh : (m.removeSession handle).2.entries.get? h = some entry) :
    m.entries.get? h = some entry := by
  unfold removeSession at hh
  split at hh
  · exact hh
  · split at hh
    · exact hh
    · rw [Dict.get?_erase] at hh
      split at hh
      · cases hh
      · exact hh

/-- A handle that is not programmed is removed without effect. -/
theorem removeSession_entries (hp : m.poisoned = false) (handle : UInt64) :
    (m.removeSession handle).2.entries = m.entries.erase handle := by
  rw [removeSession, if_neg (by simp [hp])]
  split
  · rename_i h
    exact (Dict.erase_of_not_mem (Dict.get?_eq_none_iff.mp h)).symm
  · rfl

theorem mem_removeSession_of_ne {handle h : UInt64} (hne : h ≠ handle) :
    h ∈ (m.removeSession handle).2.entries ↔ h ∈ m.entries := by
  unfold removeSession
  split
  · rfl
  · split
    · rfl
    · exact Dict.mem_erase.trans (and_iff_right hne)

@[simp] theorem querySession_nextHandle (m : DocaFlowManager) (checked : Bool) (handle : UInt64) :
    (m.querySession checked handle).2.nextHandle = m.nextHandle := by
  unfold querySession
  split
  · rfl
  · split
    · rfl
    · split <;> rfl

/-- A query changes counters, not which handles are programmed. -/
theorem mem_querySession {checked : Bool} {handle h : UInt64} :
    h ∈ (m.querySession checked handle).2.entries ↔ h ∈ m.entries := by
  unfold querySession
  split
  · rfl
  · split
    · rfl
    · rename_i entry hentry
      have hmem : handle ∈ m.entries := Dict.mem_of_get? hentry
      have hins : ∀ v, h ∈ m.entries.insert handle v ↔ h ∈ m.entries := fun v => by
        rw [Dict.mem_insert, or_iff_right_of_imp]
        intro h
        subst h
        exact hmem
      split <;> exact hins _

theorem querySessionCounters_of_get? (hp : m.poisoned = false) {handle : UInt64}
    {entry : MockHwEntry} (h : m.entries.get? handle = some entry) :
    m.querySessionCounters handle = .ok (entry.packets, entry.bytes) := by
  simp only [querySessionCounters, hp, h, Bool.false_eq_true, if_false]

theorem get?_of_querySessionCounters {handle : UInt64} {c : UInt64 × UInt64}
    (h : m.querySessionCounters handle = .ok c) :
    m.poisoned = false ∧ ∃ entry, m.entries.get? handle = some entry ∧
      c = (entry.packets, entry.bytes) := by
  unfold querySessionCounters at h
  split at h
  · cases h
  · rename_i hp
    split at h
    · cases h
    · rename_i entry hentry
      cases h
      exact ⟨Bool.eq_false_iff.mpr hp, entry, hentry, rfl⟩

end DocaFlowManager

end PrismFirewall.OffloadDaemon
