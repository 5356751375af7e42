import Mathlib.Order.Lattice

/-!
# Tables with preferences

Of the entries of a table that apply, one with the least preference prevails; among those
with the same preference it may be any.  So nothing depends on the order of a table.

`Matched` says that each entry of one table is represented in the other.  If an entry and
what represents it have the same preference, apply together and have the same effect, then
the two tables have the same effects (`exists_prevails_iff`).
-/

namespace PrismFirewall.Lib

variable {α β γ κ : Type*} [LinearOrder κ]

/-- The entry applies, and none that applies has a smaller preference. -/
structure Prevails (pref : α → κ) (applies : α → Prop) (l : List α) (a : α) : Prop where
  mem : a ∈ l
  holds : applies a
  least : ∀ b ∈ l, applies b → pref a ≤ pref b

/-- Where an entry applies, one prevails. -/
theorem exists_prevails (pref : α → κ) {applies : α → Prop} {l : List α}
    (h : ∃ a ∈ l, applies a) : ∃ a, Prevails pref applies l a := by
  induction l with
  | nil =>
    obtain ⟨a, ha, -⟩ := h
    exact absurd ha List.not_mem_nil
  | cons x l ih =>
    by_cases hl : ∃ a ∈ l, applies a
    · obtain ⟨a, ha⟩ := ih hl
      by_cases hx : applies x ∧ pref x ≤ pref a
      · refine ⟨x, List.mem_cons_self, hx.1, fun b hb hab => ?_⟩
        rcases List.mem_cons.mp hb with rfl | hb
        · exact le_refl _
        · exact le_trans hx.2 (ha.least b hb hab)
      · refine ⟨a, List.mem_cons_of_mem _ ha.mem, ha.holds, fun b hb hab => ?_⟩
        rcases List.mem_cons.mp hb with rfl | hb
        · exact le_of_lt (not_le.mp (fun hle => hx ⟨hab, hle⟩))
        · exact ha.least b hb hab
    · -- the first entry is the only one that applies
      obtain ⟨a, ha, haa⟩ := h
      rcases List.mem_cons.mp ha with rfl | ha
      · refine ⟨a, List.mem_cons_self, haa, fun b hb hab => ?_⟩
        rcases List.mem_cons.mp hb with rfl | hb
        · exact le_refl _
        · exact absurd ⟨b, hb, hab⟩ hl
      · exact absurd ⟨a, ha, haa⟩ hl

/-- Each entry of one table is represented in the other. -/
structure Matched (R : α → β → Prop) (l : List α) (l' : List β) : Prop where
  left : ∀ a ∈ l, ∃ b ∈ l', R a b
  right : ∀ b ∈ l', ∃ a ∈ l, R a b

/-- Two tables that look the same. -/
theorem matched_of_map_eq {f : α → γ} {g : β → γ} {l : List α} {l' : List β}
    (h : l.map f = l'.map g) : Matched (fun a b => f a = g b) l l' := by
  constructor
  · intro a ha
    have hmem : f a ∈ l'.map g := h ▸ List.mem_map_of_mem ha
    obtain ⟨b, hb, hg⟩ := List.mem_map.mp hmem
    exact ⟨b, hb, hg.symm⟩
  · intro b hb
    have hmem : g b ∈ l.map f := h ▸ List.mem_map_of_mem hb
    exact List.mem_map.mp hmem

namespace Matched

variable {R : α → β → Prop} {l m : List α} {l' m' : List β}

theorem mono {S : α → β → Prop} (h : Matched R l l')
    (hRS : ∀ a ∈ l, ∀ b ∈ l', R a b → S a b) : Matched S l l' := by
  constructor
  · intro a ha
    obtain ⟨b, hb, hab⟩ := h.left a ha
    exact ⟨b, hb, hRS a ha b hb hab⟩
  · intro b hb
    obtain ⟨a, ha, hab⟩ := h.right b hb
    exact ⟨a, ha, hRS a ha b hb hab⟩

theorem append (h : Matched R l l') (h' : Matched R m m') : Matched R (l ++ m) (l' ++ m') := by
  constructor
  · intro a ha
    rcases List.mem_append.mp ha with ha | ha
    · obtain ⟨b, hb, hab⟩ := h.left a ha
      exact ⟨b, List.mem_append_left _ hb, hab⟩
    · obtain ⟨b, hb, hab⟩ := h'.left a ha
      exact ⟨b, List.mem_append_right _ hb, hab⟩
  · intro b hb
    rcases List.mem_append.mp hb with hb | hb
    · obtain ⟨a, ha, hab⟩ := h.right b hb
      exact ⟨a, List.mem_append_left _ ha, hab⟩
    · obtain ⟨a, ha, hab⟩ := h'.right b hb
      exact ⟨a, List.mem_append_right _ ha, hab⟩

/-- The order of a table does not count. -/
theorem of_mem_iff (h : Matched R l l') (hm : ∀ a, a ∈ m ↔ a ∈ l) : Matched R m l' := by
  constructor
  · intro a ha
    exact h.left a ((hm a).mp ha)
  · intro b hb
    obtain ⟨a, ha, hab⟩ := h.right b hb
    exact ⟨a, (hm a).mpr ha, hab⟩

theorem symm (h : Matched R l l') : Matched (fun b a => R a b) l' l := ⟨h.right, h.left⟩

end Matched

variable {R : α → β → Prop} {l : List α} {l' : List β} {pref : α → κ} {pref' : β → κ}
  {applies : α → Prop} {applies' : β → Prop}

/-- What represents the entry that prevails prevails. -/
theorem Prevails.transport (h : Matched R l l') (hpref : ∀ a b, R a b → pref a = pref' b)
    (happ : ∀ a b, R a b → (applies a ↔ applies' b)) {a : α} (ha : Prevails pref applies l a) :
    ∃ b, R a b ∧ Prevails pref' applies' l' b := by
  obtain ⟨b, hb, hab⟩ := h.left a ha.mem
  refine ⟨b, hab, hb, (happ a b hab).mp ha.holds, fun c hc hac => ?_⟩
  obtain ⟨d, hd, hdc⟩ := h.right c hc
  rw [← hpref a b hab, ← hpref d c hdc]
  exact ha.least d hd ((happ d c hdc).mpr hac)

/-- **Two tables have the same effects.** -/
theorem exists_prevails_iff (h : Matched R l l') (hpref : ∀ a b, R a b → pref a = pref' b)
    (happ : ∀ a b, R a b → (applies a ↔ applies' b)) {E : α → Prop} {E' : β → Prop}
    (heff : ∀ a b, R a b → (E a ↔ E' b)) :
    (∃ a, Prevails pref applies l a ∧ E a) ↔ ∃ b, Prevails pref' applies' l' b ∧ E' b := by
  constructor
  · rintro ⟨a, ha, hea⟩
    obtain ⟨b, hab, hb⟩ := ha.transport h hpref happ
    exact ⟨b, hb, (heff a b hab).mp hea⟩
  · rintro ⟨b, hb, heb⟩
    obtain ⟨a, hab, ha⟩ := hb.transport h.symm (fun b a hab => (hpref a b hab).symm)
      (fun b a hab => (happ a b hab).symm)
    exact ⟨a, ha, (heff a b hab).mpr heb⟩

end PrismFirewall.Lib
