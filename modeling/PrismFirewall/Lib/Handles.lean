import Mathlib.Logic.Basic
import Mathlib.Data.Option.Basic

/-!
# Handles and the slots that own them

A table maps keys to slots; each slot owns one handle of a resource that is kept
somewhere else, and may name the handle of a partner slot.  Whoever releases a
slot releases its handle and its partner's handle with it.

`Owns T live` says that the live handles are exactly the owned ones, each owned
once, and that partners name each other and carry the same tag.  It survives the
union with a table of unused handles (`Owns.union`; a new slot and a new pair of
partners are `Owns.single` and `Owns.pair`), and the release of a set of slots
that holds both partners or neither (`Owns.release`).

`Groups T drawn` is what is left where slots are overwritten and partners are
released apart: a handle that a slot names was drawn before, and the slot that
owns it carries the same tag.
-/

namespace PrismFirewall.Lib

/-- What a table knows about one handle. -/
structure Slot (η τ : Type*) where
  handle : η
  partner : Option η
  tag : τ

variable {κ η τ : Type*}

structure Owns (T : κ → Option (Slot η τ)) (live : η → Prop) : Prop where
  live_iff : ∀ h, live h ↔ ∃ k s, T k = some s ∧ s.handle = h
  key_eq : ∀ {k k' s s'}, T k = some s → T k' = some s' → s.handle = s'.handle → k = k'
  partner : ∀ {k s h}, T k = some s → s.partner = some h →
    ∃ k' s', T k' = some s' ∧ s'.handle = h ∧ s'.partner = some s.handle ∧ s'.tag = s.tag

/-- A set of keys that holds the owner of every partner handle named in it. -/
def PartnerClosed (T : κ → Option (Slot η τ)) (R : κ → Prop) : Prop :=
  ∀ {k k' s s'}, R k → T k = some s → T k' = some s' → s.partner = some s'.handle → R k'

/-- A slot of the set owns the handle, or names it as its partner's. -/
def Releases (T : κ → Option (Slot η τ)) (R : κ → Prop) (h : η) : Prop :=
  ∃ k s, R k ∧ T k = some s ∧ (s.handle = h ∨ s.partner = some h)

namespace Owns

variable {T T' : κ → Option (Slot η τ)} {live live' : η → Prop}

theorem empty : Owns (fun _ : κ => (none : Option (Slot η τ))) (fun _ => False) where
  live_iff h := by simp
  key_eq h := by simp at h
  partner h := by simp at h

theorem slot_eq (hO : Owns T live) {k k' : κ} {s s' : Slot η τ} (hs : T k = some s)
    (hs' : T k' = some s') (h : s.handle = s'.handle) : k = k' ∧ s = s' := by
  obtain rfl := hO.key_eq hs hs' h
  exact ⟨rfl, Option.some.inj (hs.symm.trans hs')⟩

/-- Partners name each other, so the key sets a release may take are closed both
ways. -/
theorem partner_symm (hO : Owns T live) {k k' : κ} {s s' : Slot η τ} (hs : T k = some s)
    (hs' : T k' = some s') (h : s.partner = some s'.handle) :
    s'.partner = some s.handle ∧ s'.tag = s.tag := by
  obtain ⟨k₁, s₁, h1, h2, h3, h4⟩ := hO.partner hs h
  obtain ⟨-, rfl⟩ := hO.slot_eq h1 hs' h2
  exact ⟨h3, h4⟩

/-- **Releasing both partners or neither keeps the ownership.** -/
theorem release (hO : Owns T live) {R : κ → Prop} (hR : PartnerClosed T R)
    (hT : ∀ k s, T' k = some s ↔ T k = some s ∧ ¬ R k)
    (hl : ∀ h, live' h ↔ live h ∧ ¬ Releases T R h) : Owns T' live' where
  live_iff h := by
    rw [hl]
    constructor
    · intro h
      obtain ⟨hlive, hrel⟩ := h
      obtain ⟨k, s, hs, rfl⟩ := (hO.live_iff h).mp hlive
      refine ⟨k, s, (hT k s).mpr ⟨hs, fun hk => hrel ⟨k, s, hk, hs, Or.inl rfl⟩⟩, rfl⟩
    · intro h
      obtain ⟨k, s, hs, rfl⟩ := h
      obtain ⟨hs, hk⟩ := (hT k s).mp hs
      refine ⟨(hO.live_iff _).mpr ⟨k, s, hs, rfl⟩, ?_⟩
      intro h
      rcases h with ⟨k₁, s₁, hk₁, hs₁, he | he⟩
      · exact hk (hO.key_eq hs₁ hs he ▸ hk₁)
      · exact hk (hR hk₁ hs₁ hs he)
  key_eq h1 h2 he := hO.key_eq ((hT _ _).mp h1).1 ((hT _ _).mp h2).1 he
  partner {k s h} hs hp := by
    obtain ⟨hs, hk⟩ := (hT k s).mp hs
    obtain ⟨k', s', hs', rfl, hback, htag⟩ := hO.partner hs hp
    -- were the partner released, closure would take this slot with it
    refine ⟨k', s', (hT k' s').mpr ⟨hs', fun hk' => hk (hR hk' hs' hs hback)⟩, rfl, hback, htag⟩

/-- **Two tables with no key and no handle in common own together what each
owns.** -/
theorem union (hO : Owns T live) {N : κ → Option (Slot η τ)} {new : η → Prop} (hN : Owns N new)
    (hkey : ∀ k s, N k = some s → T k = none) (hnew : ∀ h, new h → ¬ live h) :
    Owns (fun k => (N k).or (T k)) (fun h => new h ∨ live h) := by
  have hget : ∀ k s, (N k).or (T k) = some s ↔ N k = some s ∨ T k = some s := by
    intro k s
    cases hNk : N k with
    | none => simp
    | some s' => simp [hkey k s' hNk]
  have hdisj : ∀ {k k' s s'}, N k = some s → T k' = some s' → s.handle ≠ s'.handle := by
    intro k k' s s' h1 h2 he
    exact hnew s.handle ((hN.live_iff _).mpr ⟨k, s, h1, rfl⟩)
      ((hO.live_iff _).mpr ⟨k', s', h2, he.symm⟩)
  refine ⟨fun h => ?_, fun {k k' s s'} hs hs' he => ?_, fun {k s h} hs hp => ?_⟩
  · simp only [hget, hN.live_iff, hO.live_iff, or_and_right, exists_or]
  · rcases (hget k s).mp hs with hs | hs
    · rcases (hget k' s').mp hs' with hs' | hs'
      · exact hN.key_eq hs hs' he
      · exact absurd he (hdisj hs hs')
    · rcases (hget k' s').mp hs' with hs' | hs'
      · exact absurd he.symm (hdisj hs' hs)
      · exact hO.key_eq hs hs' he
  · rcases (hget k s).mp hs with hs | hs
    · obtain ⟨k', s', hs', hrest⟩ := hN.partner hs hp
      exact ⟨k', s', (hget k' s').mpr (Or.inl hs'), hrest⟩
    · obtain ⟨k', s', hs', hrest⟩ := hO.partner hs hp
      exact ⟨k', s', (hget k' s').mpr (Or.inr hs'), hrest⟩

variable [DecidableEq κ]

/-- One slot without a partner. -/
theorem single (a : κ) {n : Slot η τ} (hp : n.partner = none) :
    Owns (fun k => if k = a then some n else none) (fun h => h = n.handle) where
  live_iff h := by
    constructor
    · intro hh
      exact ⟨a, n, if_pos rfl, hh.symm⟩
    · intro hh
      obtain ⟨k, s, hs, rfl⟩ := hh
      simp only [Option.ite_none_right_eq_some, Option.some.injEq] at hs
      rw [hs.2]
  key_eq hs hs' _ := by
    simp only [Option.ite_none_right_eq_some] at hs hs'
    rw [hs.1, hs'.1]
  partner hs hpart := by
    simp only [Option.ite_none_right_eq_some, Option.some.injEq] at hs
    rw [← hs.2, hp] at hpart
    cases hpart

/-- Two slots that are each other's partners. -/
theorem pair {a b : κ} (hab : a ≠ b) {n m : Slot η τ} (hnm : n.handle ≠ m.handle)
    (hpn : n.partner = some m.handle) (hpm : m.partner = some n.handle) (htag : n.tag = m.tag) :
    Owns (fun k => if k = a then some n else if k = b then some m else none)
      (fun h => h = n.handle ∨ h = m.handle) := by
  have hget : ∀ {k s}, (if k = a then some n else if k = b then some m else none) = some s →
      (k = a ∧ s = n) ∨ (k = b ∧ s = m) := by
    intro k s hs
    by_cases hka : k = a
    · rw [if_pos hka] at hs
      exact Or.inl ⟨hka, (Option.some.inj hs).symm⟩
    · rw [if_neg hka, Option.ite_none_right_eq_some] at hs
      exact Or.inr ⟨hs.1, (Option.some.inj hs.2).symm⟩
  have hta : (if a = a then some n else if a = b then some m else none) = some n := if_pos rfl
  have htb : (if b = a then some n else if b = b then some m else none) = some m := by
    rw [if_neg hab.symm, if_pos rfl]
  refine ⟨fun h => ⟨fun hh => ?_, fun hh => ?_⟩, ?_, ?_⟩
  · rcases hh with hh | hh
    · exact ⟨a, n, hta, hh.symm⟩
    · exact ⟨b, m, htb, hh.symm⟩
  · obtain ⟨k, s, hs, rfl⟩ := hh
    rcases hget hs with ⟨-, rfl⟩ | ⟨-, rfl⟩
    · exact Or.inl rfl
    · exact Or.inr rfl
  · intro k k' s s' hs hs' he
    rcases hget hs with ⟨rfl, rfl⟩ | ⟨rfl, rfl⟩
    · rcases hget hs' with ⟨rfl, -⟩ | ⟨-, rfl⟩
      · rfl
      · exact absurd he hnm
    · rcases hget hs' with ⟨-, rfl⟩ | ⟨rfl, -⟩
      · exact absurd he.symm hnm
      · rfl
  · intro k s h hs hpart
    rcases hget hs with ⟨-, rfl⟩ | ⟨-, rfl⟩
    · exact ⟨b, m, htb, Option.some.inj (hpn.symm.trans hpart), hpm, htag.symm⟩
    · exact ⟨a, n, hta, Option.some.inj (hpm.symm.trans hpart), hpn, htag⟩

end Owns

/-! ### Overwritten tables -/

/-- The slot owns the handle, or names it as its partner's. -/
def Slot.Names (s : Slot η τ) (h : η) : Prop := s.handle = h ∨ s.partner = some h

structure Groups (T : κ → Option (Slot η τ)) (drawn : η → Prop) : Prop where
  drawn_of_names : ∀ {k s h}, T k = some s → s.Names h → drawn h
  tag_eq : ∀ {k k' s s'}, T k = some s → T k' = some s' → s.Names s'.handle → s.tag = s'.tag

namespace Groups

variable {T T' : κ → Option (Slot η τ)} {drawn drawn' : η → Prop}

theorem mono (hG : Groups T drawn) (hT : ∀ k s, T' k = some s → T k = some s)
    (hd : ∀ h, drawn h → drawn' h) : Groups T' drawn' where
  drawn_of_names hs hn := hd _ (hG.drawn_of_names (hT _ _ hs) hn)
  tag_eq hs hs' hn := hG.tag_eq (hT _ _ hs) (hT _ _ hs') hn

theorem single [DecidableEq κ] (a : κ) {n : Slot η τ} (hn : ∀ h, n.Names h → drawn h) :
    Groups (fun k => if k = a then some n else none) drawn := by
  have hget : ∀ {k s}, (if k = a then some n else none) = some s → s = n := by
    intro k s hs
    rw [Option.ite_none_right_eq_some] at hs
    exact (Option.some.inj hs.2).symm
  refine ⟨fun {k s h} hs hh => ?_, fun hs hs' _ => ?_⟩
  · rw [hget hs] at hh
    exact hn h hh
  · rw [hget hs, hget hs']

/-- Two slots of one tag, the first one over the second where the keys are equal. -/
theorem pair [DecidableEq κ] (a b : κ) {n m : Slot η τ} (htag : m.tag = n.tag)
    (hn : ∀ h, n.Names h → drawn h) (hm : ∀ h, m.Names h → drawn h) :
    Groups (fun k => if k = a then some n else if k = b then some m else none) drawn := by
  have hget : ∀ {k s}, (if k = a then some n else if k = b then some m else none) = some s →
      s = n ∨ s = m := by
    intro k s hs
    split at hs
    · exact Or.inl (Option.some.inj hs).symm
    · rw [Option.ite_none_right_eq_some] at hs
      exact Or.inr (Option.some.inj hs.2).symm
  have htag_eq : ∀ {k s}, (if k = a then some n else if k = b then some m else none) = some s →
      s.tag = n.tag := by
    intro k s hs
    rcases hget hs with rfl | rfl
    · rfl
    · exact htag
  refine ⟨fun {k s h} hs hh => ?_, fun hs hs' _ => (htag_eq hs).trans (htag_eq hs').symm⟩
  rcases hget hs with rfl | rfl
  · exact hn h hh
  · exact hm h hh

/-- **A table of newly drawn handles may be written over another one**, whatever
it overwrites. -/
theorem overlay (hG : Groups T drawn) {N : κ → Option (Slot η τ)} {new : η → Prop}
    (hN : Groups N new) (hnew : ∀ h, new h → ¬ drawn h) :
    Groups (fun k => (N k).or (T k)) (fun h => new h ∨ drawn h) := by
  have hget : ∀ {k s}, (N k).or (T k) = some s → N k = some s ∨ T k = some s := by
    intro k s h
    cases hNk : N k with
    | none => rw [hNk] at h; exact Or.inr h
    | some s' => rw [hNk] at h; exact Or.inl h
  refine ⟨fun hs hn => ?_, fun {k k' s s'} hs hs' hn => ?_⟩
  · rcases hget hs with hs | hs
    · exact Or.inl (hN.drawn_of_names hs hn)
    · exact Or.inr (hG.drawn_of_names hs hn)
  · rcases hget hs with hs | hs
    · rcases hget hs' with hs' | hs'
      · exact hN.tag_eq hs hs' hn
      · exact absurd (hG.drawn_of_names hs' (Or.inl rfl)) (hnew _ (hN.drawn_of_names hs hn))
    · rcases hget hs' with hs' | hs'
      · exact absurd (hG.drawn_of_names hs hn) (hnew _ (hN.drawn_of_names hs' (Or.inl rfl)))
      · exact hG.tag_eq hs hs' hn

/-- A slot outside a set that a tag decides keeps its handle when the set is
released. -/
theorem not_releases (hG : Groups T drawn) {R : κ → Prop}
    (hR : ∀ {k k' s s'}, R k → T k = some s → T k' = some s' → s.tag = s'.tag → R k')
    {k : κ} {s : Slot η τ} (hs : T k = some s) (hk : ¬ R k) : ¬ Releases T R s.handle := by
  intro h
  obtain ⟨k', s', hk', hs', hn⟩ := h
  exact hk (hR hk' hs' hs (hG.tag_eq hs' hs hn))

end Groups

end PrismFirewall.Lib
