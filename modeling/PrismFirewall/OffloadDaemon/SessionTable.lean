import PrismFirewall.Lib.Dict

/-!
# The session table

The daemon's own index of the sessions it has programmed (`session_table.rs`).
A session is filed under a text made from its key; the entry holds the handle of
the hardware entry and, for one direction of a bidirectional session, the handle
of the other direction.

The flushes are three calls of one loop, `flushWhere`.  The map they iterate is
a hash map in the source; no result here depends on the order of its pairs.
-/

namespace PrismFirewall.OffloadDaemon

open PrismFirewall.Lib (Dict)

/-- A moment or a length of time, in nanoseconds. -/
abbrev Nanos := Nat

structure SessionKey where
  vni : UInt32
  srcIp : String
  dstIp : String
  srcPort : UInt32
  dstPort : UInt32
  protocol : Int32
  deriving DecidableEq

structure SessionEntry where
  entryHandle : UInt64
  vni : UInt32
  key : SessionKey
  action : Int32
  packetsMatched : UInt64
  bytesMatched : UInt64
  createdAt : Nanos
  lastQueried : Nanos
  bidirectional : Bool
  reverseHandle : Option UInt64
  ruleId : String
  deriving DecidableEq

namespace SessionEntry

def new (now : Nanos) (entryHandle : UInt64) (vni : UInt32) (key : SessionKey) (action : Int32)
    (bidirectional : Bool) (reverseHandle : Option UInt64) (ruleId : String) : SessionEntry :=
  ⟨entryHandle, vni, key, action, 0, 0, now, now, bidirectional, reverseHandle, ruleId⟩

def updateCounters (e : SessionEntry) (packets bytes : UInt64) : SessionEntry :=
  { e with packetsMatched := packets, bytesMatched := bytes }

end SessionEntry

def sessionKeyString (key : SessionKey) : String :=
  toString key.vni ++ ":" ++ key.srcIp ++ ":" ++ key.dstIp ++ ":" ++ toString key.srcPort ++ ":"
    ++ toString key.dstPort ++ ":" ++ toString key.protocol

structure SessionTable where
  map : Dict String SessionEntry
  deriving DecidableEq

namespace SessionTable

def new : SessionTable := ⟨Dict.empty⟩

def insert (t : SessionTable) (key : SessionKey) (entry : SessionEntry) : SessionTable :=
  ⟨t.map.insert (sessionKeyString key) entry⟩

def get (t : SessionTable) (key : SessionKey) : Option SessionEntry :=
  t.map.get? (sessionKeyString key)

def removeByKeyString (t : SessionTable) (key : String) : Option SessionEntry × SessionTable :=
  (t.map.get? key, ⟨t.map.erase key⟩)

def remove (t : SessionTable) (key : SessionKey) : Option SessionEntry × SessionTable :=
  t.removeByKeyString (sessionKeyString key)

/-- The removal loop of the flushes, with the handles it collects. -/
def removeKeys (t : SessionTable) : List String → List (UInt64 × Option UInt64) × SessionTable
  | [] => ([], t)
  | k :: ks =>
    match t.removeByKeyString k with
    | (some entry, t) =>
      let (handles, t) := removeKeys t ks
      ((entry.entryHandle, entry.reverseHandle) :: handles, t)
    | (none, t) => removeKeys t ks

def keysToRemove (t : SessionTable) (p : SessionEntry → Bool) : List String :=
  (t.map.entries.filter (fun e => p e.2)).map Prod.fst

/-- Collect the keys of the entries that pass a test, then remove them. -/
def flushWhere (t : SessionTable) (p : SessionEntry → Bool) :
    (UInt32 × List (UInt64 × Option UInt64)) × SessionTable :=
  let (handles, t) := t.removeKeys (t.keysToRemove p)
  ((UInt32.ofNat handles.length, handles), t)

def flushByRuleId (t : SessionTable) (ruleId : String) :
    (UInt32 × List (UInt64 × Option UInt64)) × SessionTable :=
  t.flushWhere (fun e => e.ruleId == ruleId)

def flushByVni (t : SessionTable) (vni : UInt32) :
    (UInt32 × List (UInt64 × Option UInt64)) × SessionTable :=
  t.flushWhere (fun e => e.vni == vni)

def flushAll (t : SessionTable) : (UInt32 × List (UInt64 × Option UInt64)) × SessionTable :=
  t.flushWhere (fun _ => true)

/-! ### What a flush removes -/

theorem mem_keysToRemove {t : SessionTable} {p : SessionEntry → Bool} {k : String} :
    k ∈ t.keysToRemove p ↔ ∃ e, t.map.get? k = some e ∧ p e = true := by
  simp only [keysToRemove, List.mem_map, List.mem_filter]
  constructor
  · intro h
    obtain ⟨⟨k', e⟩, ⟨hmem, hp⟩, rfl⟩ := h
    exact ⟨e, Dict.mem_entries_iff.mp hmem, hp⟩
  · intro h
    obtain ⟨e, he, hp⟩ := h
    exact ⟨(k, e), ⟨Dict.mem_entries_iff.mpr he, hp⟩, rfl⟩

theorem keysToRemove_eq_nil {t : SessionTable} {p : SessionEntry → Bool}
    (h : ∀ k e, t.map.get? k = some e → p e = false) : t.keysToRemove p = [] := by
  rw [List.eq_nil_iff_forall_not_mem]
  intro k hk
  obtain ⟨e, he, hp⟩ := mem_keysToRemove.mp hk
  rw [h k e he] at hp
  cases hp

theorem removeKeys_snd (ks : List String) : ∀ t : SessionTable,
    (t.removeKeys ks).2 = ⟨t.map.eraseAll ks⟩ := by
  induction ks with
  | nil => intro t; rfl
  | cons k ks ih =>
    intro t
    rw [removeKeys]
    split
    · rename_i heq
      obtain ⟨-, rfl⟩ := Prod.mk.inj heq
      exact ih ⟨t.map.erase k⟩
    · rename_i heq
      obtain ⟨-, rfl⟩ := Prod.mk.inj heq
      exact ih ⟨t.map.erase k⟩

/-- The handles a removal loop collects are those of the entries it removes. -/
theorem mem_removeKeys_fst (ks : List String) : ∀ (t : SessionTable) (x : UInt64 × Option UInt64),
    x ∈ (t.removeKeys ks).1 ↔
      ∃ k ∈ ks, ∃ e, t.map.get? k = some e ∧ x = (e.entryHandle, e.reverseHandle) := by
  induction ks with
  | nil => intro t x; simp [removeKeys]
  | cons a ks ih =>
    intro t x
    -- a key met again later in the list is already gone
    have hrest : (∃ k ∈ ks, ∃ e, (t.map.erase a).get? k = some e
          ∧ x = (e.entryHandle, e.reverseHandle)) ↔
        ∃ k ∈ ks, k ≠ a ∧ ∃ e, t.map.get? k = some e ∧ x = (e.entryHandle, e.reverseHandle) := by
      refine exists_congr (fun k => and_congr_right (fun _ => ?_))
      rw [Dict.get?_erase]
      by_cases hk : k = a
      · simp [hk]
      · simp [hk]
    rw [removeKeys]
    split
    · rename_i entry t' heq
      obtain ⟨hget, rfl⟩ := Prod.mk.inj heq
      rw [List.mem_cons, ih, hrest]
      constructor
      · intro h
        rcases h with rfl | ⟨k, hk, -, e, he⟩
        · exact ⟨a, List.mem_cons_self, entry, hget, rfl⟩
        · exact ⟨k, List.mem_cons_of_mem a hk, e, he⟩
      · intro h
        obtain ⟨k, hk, e, he, rfl⟩ := h
        by_cases hka : k = a
        · subst hka
          rw [hget] at he
          cases he
          exact Or.inl rfl
        · exact Or.inr ⟨k, (List.mem_cons.mp hk).resolve_left hka, hka, e, he, rfl⟩
    · rename_i t' heq
      obtain ⟨hget, rfl⟩ := Prod.mk.inj heq
      rw [ih, hrest]
      constructor
      · intro h
        obtain ⟨k, hk, -, e, he⟩ := h
        exact ⟨k, List.mem_cons_of_mem a hk, e, he⟩
      · intro h
        obtain ⟨k, hk, e, he, rfl⟩ := h
        have hka : k ≠ a := by
          intro h
          subst h
          rw [hget] at he
          cases he
        exact ⟨k, (List.mem_cons.mp hk).resolve_left hka, hka, e, he, rfl⟩

/-- Keys that are all there, each once, give one pair of handles each. -/
theorem length_removeKeys_fst (ks : List String) : ∀ t : SessionTable, ks.Nodup →
    (∀ k ∈ ks, k ∈ t.map) → (t.removeKeys ks).1.length = ks.length := by
  induction ks with
  | nil => intro t _ _; rfl
  | cons a ks ih =>
    intro t hnodup hmem
    obtain ⟨ha, hnodup⟩ := List.nodup_cons.mp hnodup
    obtain ⟨e, he⟩ := Dict.mem_iff_get?.mp (hmem a List.mem_cons_self)
    have hrest : ∀ k ∈ ks, k ∈ t.map.erase a := by
      intro k hk
      refine Dict.mem_erase.mpr ⟨?_, hmem k (List.mem_cons_of_mem a hk)⟩
      rintro rfl
      exact ha hk
    simp only [removeKeys, removeByKeyString, he, List.length_cons]
    rw [ih ⟨t.map.erase a⟩ hnodup hrest]

theorem nodup_keysToRemove (t : SessionTable) (p : SessionEntry → Bool) :
    (t.keysToRemove p).Nodup :=
  t.map.nodup.sublist (List.filter_sublist.map Prod.fst)

theorem length_keysToRemove (t : SessionTable) (p : SessionEntry → Bool) :
    (t.keysToRemove p).length = t.map.values.countP p := by
  rw [keysToRemove, List.length_map, ← List.countP_eq_length_filter, Dict.values, List.countP_map]
  rfl

/-- **A flush leaves the entries that fail its test**, under the keys they had. -/
theorem get?_flushWhere (t : SessionTable) (p : SessionEntry → Bool) (k : String) :
    (t.flushWhere p).2.map.get? k = (t.map.get? k).filter (fun e => !p e) := by
  simp only [flushWhere, removeKeys_snd]
  exact Dict.get?_eraseAll_of_values t.map p k

end SessionTable

end PrismFirewall.OffloadDaemon
