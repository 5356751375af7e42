import Mathlib.Data.List.Basic
import Mathlib.Data.List.Nodup
import Mathlib.Data.List.Lookmap
import Mathlib.Data.Option.Basic

/-!
# Insertion-ordered maps

A `Dict` is a list of key-value pairs in which no key occurs twice.  Iteration
goes through the pairs in order; writing to a key that is present keeps its
place, writing to a new key appends it, and removing a key closes the gap.

Everything that is read off a map goes through `get?`, and three equations say
what each operation does to it: `get?_insert`, `get?_erase` and `get?_filter`.
`mem_entries_iff` turns a statement about the pairs into one about `get?`, and
`eraseAll_eq_filter` says that removing keys one after the other is one filter.
-/

namespace PrismFirewall.Lib

/-- A map whose pairs stand in the order in which their keys were first
written. -/
structure Dict (κ ν : Type*) where
  entries : List (κ × ν)
  nodup : (entries.map Prod.fst).Nodup
  deriving DecidableEq

namespace Dict

variable {κ ν : Type*}

def empty : Dict κ ν := ⟨[], List.nodup_nil⟩

def keys (d : Dict κ ν) : List κ := d.entries.map Prod.fst

def values (d : Dict κ ν) : List ν := d.entries.map Prod.snd

def size (d : Dict κ ν) : Nat := d.entries.length

instance : Membership κ (Dict κ ν) := ⟨fun d k => k ∈ d.keys⟩

theorem mem_def {d : Dict κ ν} {k : κ} : k ∈ d ↔ k ∈ d.keys := Iff.rfl

/-- The pairs that pass a test. -/
def filter (d : Dict κ ν) (p : κ × ν → Bool) : Dict κ ν :=
  ⟨d.entries.filter p, d.nodup.sublist ((List.filter_sublist).map Prod.fst)⟩

theorem filter_filter (d : Dict κ ν) (p q : κ × ν → Bool) :
    (d.filter p).filter q = d.filter (fun e => p e && q e) := by
  simp only [filter, List.filter_filter]
  congr 1
  exact List.filter_congr (fun e _ => Bool.and_comm _ _)

theorem filter_congr {d : Dict κ ν} {p q : κ × ν → Bool} (h : ∀ e ∈ d.entries, p e = q e) :
    d.filter p = d.filter q := by
  simp only [filter, mk.injEq]
  exact List.filter_congr h

theorem filter_true (d : Dict κ ν) : d.filter (fun _ => true) = d := by
  simp only [filter, List.filter_true]

variable [DecidableEq κ]

instance (k : κ) (d : Dict κ ν) : Decidable (k ∈ d) := inferInstanceAs (Decidable (k ∈ d.keys))

def get? (d : Dict κ ν) (k : κ) : Option ν :=
  (d.entries.find? (fun e => decide (e.1 = k))).map Prod.snd

def erase (d : Dict κ ν) (k : κ) : Dict κ ν := d.filter (fun e => decide (e.1 ≠ k))

/-- Remove keys one after the other. -/
def eraseAll (d : Dict κ ν) (ks : List κ) : Dict κ ν := ks.foldl erase d

/-- The pair list after writing `v` to `k`. -/
def insertEntries (l : List (κ × ν)) (k : κ) (v : ν) : List (κ × ν) :=
  if k ∈ l.map Prod.fst then l.map (fun e => if e.1 = k then (k, v) else e) else l ++ [(k, v)]

theorem map_fst_replace (l : List (κ × ν)) (k : κ) (v : ν) :
    (l.map (fun e => if e.1 = k then (k, v) else e)).map Prod.fst = l.map Prod.fst := by
  rw [List.map_map]
  refine List.map_congr_left (fun e _ => ?_)
  by_cases h : e.1 = k
  · simp [h]
  · simp [h]

theorem nodup_insertEntries (l : List (κ × ν)) (k : κ) (v : ν) (h : (l.map Prod.fst).Nodup) :
    ((insertEntries l k v).map Prod.fst).Nodup := by
  unfold insertEntries
  split
  · rw [map_fst_replace]; exact h
  · rename_i hk
    rw [List.map_append]
    exact List.nodup_append.mpr ⟨h, List.nodup_singleton k,
      fun a ha b hb => by rintro rfl; exact hk (by rw [List.mem_singleton.mp hb] at ha; exact ha)⟩

def insert (d : Dict κ ν) (k : κ) (v : ν) : Dict κ ν :=
  ⟨insertEntries d.entries k v, nodup_insertEntries d.entries k v d.nodup⟩

/-! ### Looking a key up -/

theorem find?_eq_some_of_mem {l : List (κ × ν)} (h : (l.map Prod.fst).Nodup) {e : κ × ν}
    (he : e ∈ l) : l.find? (fun x => decide (x.1 = e.1)) = some e := by
  induction l with
  | nil => simp at he
  | cons a r ih =>
    rw [List.map_cons, List.nodup_cons] at h
    rcases List.mem_cons.mp he with rfl | hr
    · exact List.find?_cons_of_pos (by simp)
    · have hne : a.1 ≠ e.1 := by
        intro ha
        exact h.1 (ha ▸ List.mem_map_of_mem hr)
      rw [List.find?_cons_of_neg (by simpa using hne)]
      exact ih h.2 hr

/-- **A pair is in the map exactly when its key is looked up to its value.** -/
theorem mem_entries_iff {d : Dict κ ν} {k : κ} {v : ν} :
    (k, v) ∈ d.entries ↔ d.get? k = some v := by
  constructor
  · intro h
    rw [get?, find?_eq_some_of_mem d.nodup h]
    rfl
  · intro h
    obtain ⟨e, he, hv⟩ := Option.map_eq_some_iff.mp h
    have hk : e.1 = k := by simpa using List.find?_some he
    have hm := List.mem_of_find?_eq_some he
    obtain ⟨a, b⟩ := e
    simp only at hk hv
    subst hk hv
    exact hm

theorem mem_iff_get? {d : Dict κ ν} {k : κ} : k ∈ d ↔ ∃ v, d.get? k = some v := by
  rw [mem_def, keys, List.mem_map]
  constructor
  · intro h
    obtain ⟨⟨a, v⟩, h, rfl⟩ := h
    exact ⟨v, mem_entries_iff.mp h⟩
  · intro h
    obtain ⟨v, h⟩ := h
    exact ⟨(k, v), mem_entries_iff.mpr h, rfl⟩

theorem mem_of_get? {d : Dict κ ν} {k : κ} {v : ν} (h : d.get? k = some v) : k ∈ d :=
  mem_iff_get?.mpr ⟨v, h⟩

theorem get?_eq_none_iff {d : Dict κ ν} {k : κ} : d.get? k = none ↔ k ∉ d := by
  rw [mem_iff_get?]
  cases d.get? k <;> simp

@[simp] theorem get?_empty (k : κ) : (empty : Dict κ ν).get? k = none := rfl

/-! ### What the operations do to a lookup -/

theorem get?_filter_eq_some_iff {d : Dict κ ν} {p : κ × ν → Bool} {k : κ} {v : ν} :
    (d.filter p).get? k = some v ↔ d.get? k = some v ∧ p (k, v) = true := by
  rw [← mem_entries_iff, ← mem_entries_iff]
  exact List.mem_filter

theorem get?_filter (d : Dict κ ν) (p : κ × ν → Bool) (k : κ) :
    (d.filter p).get? k = (d.get? k).filter (fun v => p (k, v)) := by
  refine Option.ext (fun v => ?_)
  rw [get?_filter_eq_some_iff, Option.filter_eq_some_iff]

theorem mem_of_mem_filter {d : Dict κ ν} {p : κ × ν → Bool} {k : κ} (h : k ∈ d.filter p) :
    k ∈ d := by
  obtain ⟨v, hv⟩ := mem_iff_get?.mp h
  exact mem_of_get? (get?_filter_eq_some_iff.mp hv).1

theorem get?_erase (d : Dict κ ν) (a k : κ) :
    (d.erase a).get? k = if k = a then none else d.get? k := by
  rw [erase, get?_filter]
  by_cases h : k = a
  · simp [h]
  · simp only [ne_eq, h, not_false_eq_true, decide_true, if_false]
    cases d.get? k <;> rfl

theorem get?_erase_eq_some {d : Dict κ ν} {a k : κ} {v : ν} :
    (d.erase a).get? k = some v ↔ k ≠ a ∧ d.get? k = some v := by
  rw [get?_erase]
  by_cases h : k = a <;> simp [h]

theorem mem_erase {d : Dict κ ν} {a k : κ} : k ∈ d.erase a ↔ k ≠ a ∧ k ∈ d := by
  simp only [mem_iff_get?, get?_erase]
  by_cases h : k = a <;> simp [h]

theorem erase_of_not_mem {d : Dict κ ν} {a : κ} (h : a ∉ d) : d.erase a = d := by
  rw [erase]
  refine Eq.trans (filter_congr (fun e he => ?_)) d.filter_true
  have hne : e.1 ≠ a := fun ha => h (mem_def.mpr (ha ▸ List.mem_map_of_mem he))
  simp [hne]

theorem mem_insertEntries {l : List (κ × ν)} {k : κ} {v : ν} {e : κ × ν} :
    e ∈ insertEntries l k v ↔ e = (k, v) ∨ e.1 ≠ k ∧ e ∈ l := by
  unfold insertEntries
  split
  · rename_i hk
    rw [List.mem_map]
    constructor
    · intro h
      obtain ⟨x, hx, rfl⟩ := h
      by_cases h : x.1 = k
      · simp [h]
      · simp [h, hx]
    · intro h
      rcases h with rfl | ⟨hne, he⟩
      · obtain ⟨x, hx, hxk⟩ := List.mem_map.mp hk
        exact ⟨x, hx, if_pos hxk⟩
      · exact ⟨e, he, if_neg hne⟩
  · rename_i hk
    rw [List.mem_append, List.mem_singleton]
    constructor
    · intro h
      rcases h with he | rfl
      · exact Or.inr ⟨fun h => hk (h ▸ List.mem_map_of_mem he), he⟩
      · exact Or.inl rfl
    · intro h
      rcases h with rfl | ⟨_, he⟩
      · exact Or.inr rfl
      · exact Or.inl he

theorem get?_insert (d : Dict κ ν) (a k : κ) (v : ν) :
    (d.insert a v).get? k = if k = a then some v else d.get? k := by
  refine Option.ext (fun w => ?_)
  rw [← mem_entries_iff, insert, mem_insertEntries]
  by_cases h : k = a
  · subst h
    simp [eq_comm]
  · simp [h, mem_entries_iff]

@[simp] theorem get?_insert_self (d : Dict κ ν) (a : κ) (v : ν) :
    (d.insert a v).get? a = some v := by rw [get?_insert, if_pos rfl]

theorem get?_insert_ne {d : Dict κ ν} {a k : κ} (h : k ≠ a) (v : ν) :
    (d.insert a v).get? k = d.get? k := by rw [get?_insert, if_neg h]

theorem mem_insert {d : Dict κ ν} {a k : κ} {v : ν} : k ∈ d.insert a v ↔ k = a ∨ k ∈ d := by
  simp only [mem_iff_get?, get?_insert]
  by_cases h : k = a <;> simp [h]

/-- A new key goes to the end. -/
theorem entries_insert_of_not_mem {d : Dict κ ν} {a : κ} (h : a ∉ d) (v : ν) :
    (d.insert a v).entries = d.entries ++ [(a, v)] :=
  if_neg h

/-- Writing the value that is there changes nothing. -/
theorem insert_of_get? {d : Dict κ ν} {k : κ} {v : ν} (h : d.get? k = some v) :
    d.insert k v = d := by
  have hk : k ∈ d.entries.map Prod.fst := mem_of_get? h
  simp only [insert, insertEntries, if_pos hk]
  congr 1
  conv_rhs => rw [← List.map_id d.entries]
  refine List.map_congr_left (fun e he => ?_)
  split
  · rename_i hek
    have he' : d.get? e.1 = some e.2 := mem_entries_iff.mp he
    rw [hek, h, Option.some.injEq] at he'
    rw [he', ← hek]
    rfl
  · rfl

/-! ### Removing several keys -/

/-- **Removing keys one after the other is one filter.** -/
theorem eraseAll_eq_filter (ks : List κ) : ∀ d : Dict κ ν,
    d.eraseAll ks = d.filter (fun e => decide (e.1 ∉ ks)) := by
  induction ks with
  | nil =>
    intro d
    rw [← filter_true d]
    simp [eraseAll, filter]
  | cons a r ih =>
    intro d
    rw [show d.eraseAll (a :: r) = (d.erase a).eraseAll r from rfl, ih, erase, filter_filter]
    refine filter_congr (fun e _ => ?_)
    rw [← Bool.decide_and]
    simp only [List.mem_cons, not_or, ne_eq]

theorem get?_eraseAll (d : Dict κ ν) (ks : List κ) (k : κ) :
    (d.eraseAll ks).get? k = if k ∈ ks then none else d.get? k := by
  rw [eraseAll_eq_filter, get?_filter]
  by_cases h : k ∈ ks
  · simp [h]
  · simp only [h, not_false_eq_true, decide_true, if_false]
    cases d.get? k <;> rfl

theorem get?_eraseAll_eq_some {d : Dict κ ν} {ks : List κ} {k : κ} {v : ν} :
    (d.eraseAll ks).get? k = some v ↔ d.get? k = some v ∧ k ∉ ks := by
  rw [get?_eraseAll]
  by_cases h : k ∈ ks <;> simp [h]

theorem mem_eraseAll {d : Dict κ ν} {ks : List κ} {k : κ} :
    k ∈ d.eraseAll ks ↔ k ∈ d ∧ k ∉ ks := by
  simp only [mem_iff_get?, get?_eraseAll]
  by_cases h : k ∈ ks <;> simp [h]

/-- The keys whose value passes a test, removed one after the other, leave the
pairs whose value fails it. -/
theorem get?_eraseAll_of_values (d : Dict κ ν) (p : ν → Bool) (k : κ) :
    (d.eraseAll ((d.entries.filter (fun e => p e.2)).map Prod.fst)).get? k
      = (d.get? k).filter (fun v => !p v) := by
  rw [get?_eraseAll]
  cases hk : d.get? k with
  | none => simp
  | some v =>
    have hmem : k ∈ (d.entries.filter (fun e => p e.2)).map Prod.fst ↔ p v = true := by
      rw [List.mem_map]
      constructor
      · intro h
        obtain ⟨⟨a, w⟩, he, rfl⟩ := h
        obtain ⟨h1, h2⟩ := List.mem_filter.mp he
        rw [mem_entries_iff, hk] at h1
        cases h1
        exact h2
      · intro hp
        exact ⟨(k, v), List.mem_filter.mpr ⟨mem_entries_iff.mpr hk, hp⟩, rfl⟩
    cases hp : p v with
    | true => rw [if_pos (hmem.mpr hp), Option.filter_some, hp]; rfl
    | false => rw [if_neg (by rw [hmem, hp]; simp), Option.filter_some, hp]; rfl

/-! ### Comparing two maps -/

section Comparing

variable {β : Type*} [DecidableEq β] {part : ν → β} {d d' : Dict κ ν} {k : κ}

/-- The keys that do not stand for the same any more: they are missing in the other map, or
have a value there that differs in the part that is compared. -/
def keysLost (part : ν → β) (d d' : Dict κ ν) : List κ :=
  d.keys.filter (fun k => decide ((d'.get? k).map part ≠ (d.get? k).map part))

theorem mem_keysLost :
    k ∈ d.keysLost part d' ↔ k ∈ d ∧ (d'.get? k).map part ≠ (d.get? k).map part := by
  rw [keysLost, List.mem_filter, decide_eq_true_eq]
  exact Iff.rfl

theorem nodup_keysLost : (d.keysLost part d').Nodup := d.nodup.sublist List.filter_sublist

theorem keysLost_eq_nil (h : ∀ k ∈ d, (d'.get? k).map part = (d.get? k).map part) :
    d.keysLost part d' = [] := by
  rw [List.eq_nil_iff_forall_not_mem]
  intro k hk
  obtain ⟨h1, h2⟩ := mem_keysLost.mp hk
  exact h2 (h k h1)

/-- Removing keys loses these keys. -/
theorem perm_keysLost_eraseAll {ks : List κ} (hnd : ks.Nodup) (hin : ∀ k ∈ ks, k ∈ d) :
    (d.keysLost part (d.eraseAll ks)).Perm ks := by
  rw [List.perm_ext_iff_of_nodup nodup_keysLost hnd]
  intro k
  rw [mem_keysLost, get?_eraseAll]
  constructor
  · intro h
    by_contra hk
    exact h.2 (by rw [if_neg hk])
  · intro hk
    obtain ⟨v, hv⟩ := mem_iff_get?.mp (hin k hk)
    refine ⟨hin k hk, ?_⟩
    rw [if_pos hk, hv]
    simp

/-- What is left after a removal was there before. -/
theorem keysLost_eraseAll_left {ks : List κ} : (d.eraseAll ks).keysLost part d = [] := by
  refine keysLost_eq_nil (fun k hk => ?_)
  rw [get?_eraseAll, if_neg (mem_eraseAll.mp hk).2]

/-- An insertion loses what its key stood for, if that was something else. -/
theorem keysLost_insert_of_ne {v v' : ν} (h : d.get? k = some v) (hv : part v' ≠ part v) :
    d.keysLost part (d.insert k v') = [k] := by
  refine List.perm_singleton.mp
    ((List.perm_ext_iff_of_nodup nodup_keysLost (List.nodup_singleton k)).mpr (fun x => ?_))
  rw [mem_keysLost, List.mem_singleton]
  constructor
  · intro hx
    by_contra hne
    exact hx.2 (by rw [get?_insert_ne hne])
  · rintro rfl
    refine ⟨mem_of_get? h, ?_⟩
    rw [get?_insert_self, h]
    exact fun e => hv (Option.some.inj e)

/-- An insertion under a new key loses nothing. -/
theorem keysLost_insert_of_not_mem {v : ν} (h : k ∉ d) : d.keysLost part (d.insert k v) = [] := by
  refine keysLost_eq_nil (fun x hx => ?_)
  have hne : x ≠ k := by
    rintro rfl
    exact h hx
  rw [get?_insert_ne hne]

/-- What an insertion brings can only be under its key. -/
theorem eq_of_mem_keysLost_insert {v : ν} {x : κ} (h : x ∈ (d.insert k v).keysLost part d) :
    x = k := by
  by_contra hne
  exact (mem_keysLost.mp h).2 (by rw [get?_insert_ne hne])

end Comparing

/-! ### The values in their order -/

theorem values_insert_of_not_mem {d : Dict κ ν} {k : κ} (h : k ∉ d) (v : ν) :
    (d.insert k v).values = d.values ++ [v] := by
  rw [values, entries_insert_of_not_mem h, List.map_append]
  rfl

/-- A value is replaced by one that looks the same. -/
theorem filterMap_values_insert {β : Type*} {d : Dict κ ν} {k : κ} {v v' : ν}
    (h : d.get? k = some v) {f : ν → Option β} (hf : f v' = f v) :
    (d.insert k v').values.filterMap f = d.values.filterMap f := by
  have hk : k ∈ d.entries.map Prod.fst := mem_of_get? h
  unfold values
  rw [List.filterMap_map, List.filterMap_map]
  show (insertEntries d.entries k v').filterMap _ = _
  rw [insertEntries, if_pos hk, List.filterMap_map]
  refine List.filterMap_congr (fun e he => ?_)
  have hget : d.get? e.1 = some e.2 := mem_entries_iff.mp he
  show f (if e.1 = k then (k, v') else e).2 = f e.2
  split
  · rename_i hek
    rw [hek, h, Option.some.injEq] at hget
    rw [← hget]
    exact hf
  · rfl

/-- Removing a key removes its value, where a test tells that value from the others. -/
theorem values_erase_eq_filter {d : Dict κ ν} {k : κ} {p : ν → Bool}
    (hp : ∀ e ∈ d.entries, p e.2 = true ↔ e.1 ≠ k) : (d.erase k).values = d.values.filter p := by
  unfold values
  rw [List.filter_map]
  show (d.entries.filter _).map _ = _
  congr 1
  refine List.filter_congr (fun e he => ?_)
  show decide (e.1 ≠ k) = p e.2
  rw [Bool.eq_iff_iff, decide_eq_true_eq, hp e he]

/-! ### Counting values -/

theorem size_insert_of_mem {d : Dict κ ν} {k : κ} (h : k ∈ d) (v : ν) :
    (d.insert k v).size = d.size := by
  have hk : k ∈ d.entries.map Prod.fst := h
  show (insertEntries d.entries k v).length = d.entries.length
  rw [insertEntries, if_pos hk, List.length_map]

/-- Removing a value that fails a test leaves those that pass it. -/
theorem filter_values_erase {d : Dict κ ν} {k : κ} {v : ν} (h : d.get? k = some v) {p : ν → Bool}
    (hp : p v = false) : (d.erase k).values.filter p = d.values.filter p := by
  unfold values
  rw [List.filter_map, List.filter_map]
  show ((d.entries.filter _).filter _).map _ = _
  rw [List.filter_filter]
  congr 1
  refine List.filter_congr (fun e he => ?_)
  have hget : d.get? e.1 = some e.2 := mem_entries_iff.mp he
  by_cases hek : e.1 = k
  · have hev : v = e.2 := Option.some.inj (h.symm.trans (hek ▸ hget))
    simp [← hev, hp]
  · simp [hek]

theorem mem_values_iff {d : Dict κ ν} {v : ν} : v ∈ d.values ↔ ∃ k, d.get? k = some v := by
  rw [values, List.mem_map]
  constructor
  · intro h
    obtain ⟨⟨k, w⟩, h, rfl⟩ := h
    exact ⟨k, mem_entries_iff.mp h⟩
  · intro h
    obtain ⟨k, h⟩ := h
    exact ⟨(k, v), mem_entries_iff.mpr h, rfl⟩

theorem countP_values_eraseAll_le (d : Dict κ ν) (ks : List κ) (p : ν → Bool) :
    (d.eraseAll ks).values.countP p ≤ d.values.countP p := by
  rw [eraseAll_eq_filter]
  exact (List.filter_sublist.map Prod.snd).countP_le

/-- Writing a value adds at most that value to a count. -/
theorem countP_values_insert_le (d : Dict κ ν) (k : κ) (v : ν) (p : ν → Bool) :
    (d.insert k v).values.countP p ≤ d.values.countP p + if p v then 1 else 0 := by
  have hreplace : ∀ l : List (κ × ν), (l.map Prod.fst).Nodup →
      ((l.map (fun e => if e.1 = k then (k, v) else e)).map Prod.snd).countP p
        ≤ (l.map Prod.snd).countP p + if p v then 1 else 0 := by
    intro l
    induction l with
    | nil => intro _; simp
    | cons a r ih =>
      intro hnd
      rw [List.map_cons, List.nodup_cons] at hnd
      simp only [List.map_cons, List.countP_cons]
      by_cases ha : a.1 = k
      · -- the key stands here, so the rest is left alone
        have hrest : r.map (fun e => if e.1 = k then (k, v) else e) = r := by
          conv_rhs => rw [← List.map_id r]
          refine List.map_congr_left (fun e he => if_neg (fun h => hnd.1 ?_))
          rw [ha, ← h]
          exact List.mem_map_of_mem he
        rw [hrest, if_pos ha]
        dsimp only
        omega
      · rw [if_neg ha]
        have := ih hnd.2
        omega
  rw [values, insert]
  dsimp only
  unfold insertEntries
  split
  · exact hreplace d.entries d.nodup
  · rw [List.map_append, List.countP_append, List.map_singleton, List.countP_singleton]
    exact Nat.le_refl _

end Dict

end PrismFirewall.Lib
