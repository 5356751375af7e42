import PrismFirewall.Lib.Dict

/-!
# An index beside a store

A store is a map from keys to values; an index beside it finds a key by a
signature that is computed from the value.  `Indexes` says that the index is
right about every key the store holds.  It says nothing about keys the store
does not hold, so an index may keep entries of removed values, as long as their
keys are not used again: that is the side condition of `Indexes.insert`.

`Finds` is the half that needs no such condition: every value can be found by its
signature, even if a key has been used twice.
-/

namespace PrismFirewall.Lib

variable {κ ν γ : Type*} [DecidableEq κ] [DecidableEq γ]

/-- The index has each key of the store under the signature of its value, and
under no other. -/
def Indexes (index : Dict γ κ) (db : Dict κ ν) (sig : ν → γ) : Prop :=
  ∀ k v, db.get? k = some v → ∀ g, index.get? g = some k ↔ sig v = g

namespace Indexes

variable {index index' : Dict γ κ} {db db' : Dict κ ν} {sig : ν → γ}

theorem empty (index : Dict γ κ) (sig : ν → γ) : Indexes index Dict.empty sig := by
  intro k v h
  simp at h

/-- Restricted to the keys of the store, the index is the map from signatures to
keys. -/
theorem live_iff (h : Indexes index db sig) {g : γ} {k : κ} :
    index.get? g = some k ∧ k ∈ db ↔ ∃ v, db.get? k = some v ∧ sig v = g := by
  constructor
  · intro h
    obtain ⟨hg, hk⟩ := h
    obtain ⟨v, hv⟩ := Dict.mem_iff_get?.mp hk
    exact ⟨v, hv, (h k v hv g).mp hg⟩
  · intro h
    obtain ⟨v, hv, rfl⟩ := h
    exact ⟨(h k v hv _).mpr rfl, Dict.mem_of_get? hv⟩

theorem key_eq_of_sig_eq (h : Indexes index db sig) {k k' : κ} {v v' : ν}
    (hv : db.get? k = some v) (hv' : db.get? k' = some v') (he : sig v = sig v') : k = k' := by
  have h1 : index.get? (sig v) = some k := (h k v hv _).mpr rfl
  have h2 : index.get? (sig v) = some k' := (h k' v' hv' _).mpr he.symm
  rw [h1] at h2
  exact Option.some.inj h2

/-- The store may lose entries. -/
theorem of_get?_imp (h : Indexes index db sig)
    (hd : ∀ k v, db'.get? k = some v → db.get? k = some v) : Indexes index db' sig :=
  fun k v hv => h k v (hd k v hv)

/-- The index may change on keys that the store does not hold. -/
theorem of_agree (h : Indexes index db sig)
    (hi : ∀ k ∈ db, ∀ g, index'.get? g = some k ↔ index.get? g = some k) :
    Indexes index' db sig :=
  fun k v hv g => (hi k (Dict.mem_of_get? hv) g).trans (h k v hv g)

/-- A value may be replaced by one with the same signature. -/
theorem replace (h : Indexes index db sig) {k : κ} {v v' : ν} (hv : db.get? k = some v)
    (hs : sig v' = sig v) : Indexes index (db.insert k v') sig := by
  intro k' w hw g
  rw [Dict.get?_insert] at hw
  split at hw
  · rename_i hk
    rw [Option.some.injEq] at hw
    rw [hk, ← hw, hs]
    exact h k v hv g
  · exact h k' w hw g

/-- A new entry is indexed when its key is not in the index yet and its
signature leads to no entry of the store. -/
theorem insert (h : Indexes index db sig) {k : κ} {v : ν} (hk : ∀ g, index.get? g ≠ some k)
    (hg : ∀ k', index.get? (sig v) = some k' → k' ∉ db) :
    Indexes (index.insert (sig v) k) (db.insert k v) sig := by
  intro k' w hw g
  rw [Dict.get?_insert] at hw ⊢
  by_cases hk' : k' = k
  · rw [if_pos hk', Option.some.injEq] at hw
    subst hk' hw
    by_cases hgv : g = sig v
    · simp [hgv]
    · rw [if_neg hgv]
      exact ⟨fun he => absurd he (hk g), fun he => absurd he.symm hgv⟩
  · rw [if_neg hk'] at hw
    by_cases hgv : g = sig v
    · rw [if_pos hgv, hgv]
      constructor
      · intro he
        exact absurd (Option.some.inj he).symm hk'
      · intro he
        exact absurd (Dict.mem_of_get? hw) (hg k' ((h k' w hw _).mpr he))
    · rw [if_neg hgv]
      exact h k' w hw g

end Indexes

/-- The index leads from the signature of every value of the store to its key. -/
def Finds (index : Dict γ κ) (db : Dict κ ν) (sig : ν → γ) : Prop :=
  ∀ k v, db.get? k = some v → index.get? (sig v) = some k

namespace Finds

variable {index index' : Dict γ κ} {db db' : Dict κ ν} {sig : ν → γ}

theorem empty (index : Dict γ κ) (sig : ν → γ) : Finds index Dict.empty sig := by
  intro k v h
  simp at h

/-- The store may lose values, and the index may lose the keys of the lost values. -/
theorem remove (h : Finds index db sig) (hd : ∀ k v, db'.get? k = some v → db.get? k = some v)
    (hi : ∀ k ∈ db', ∀ g, index.get? g = some k → index'.get? g = some k) :
    Finds index' db' sig :=
  fun k v hv => hi k (Dict.mem_of_get? hv) _ (h k v (hd k v hv))

/-- A value may be replaced by one with the same signature. -/
theorem replace (h : Finds index db sig) {k : κ} {v v' : ν} (hv : db.get? k = some v)
    (hs : sig v' = sig v) : Finds index (db.insert k v') sig := by
  intro k' w hw
  rw [Dict.get?_insert] at hw
  split at hw
  · rename_i hk
    rw [Option.some.injEq] at hw
    rw [hk, ← hw, hs]
    exact h k v hv
  · exact h k' w hw

/-- A value is written under any key, when its signature leads to no entry of the
store. -/
theorem insert (h : Finds index db sig) {k : κ} {v : ν}
    (hg : ∀ k', index.get? (sig v) = some k' → k' ∉ db) :
    Finds (index.insert (sig v) k) (db.insert k v) sig := by
  intro k' w hw
  rw [Dict.get?_insert] at hw ⊢
  by_cases hk : k' = k
  · rw [if_pos hk, Option.some.injEq] at hw
    rw [if_pos (by rw [hw]), hk]
  · rw [if_neg hk] at hw
    have hfound := h k' w hw
    have hne : sig w ≠ sig v := by
      intro hs
      rw [hs] at hfound
      exact hg k' hfound (Dict.mem_of_get? hw)
    rw [if_neg hne]
    exact hfound

end Finds

end PrismFirewall.Lib
