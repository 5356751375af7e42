import PrismFirewall.TcFirewall.SnatPool

/-!
# Connections and their ports

Any number of connections share one `SNATState`.  Each calls `allocate_port` once
and, if it was granted a port, `release_port` at most once with that port;
`release_expired` runs in between.  The lock of the class makes every call one
step, so an interleaving is a list of calls.

`release_port` is told a port and not whose port it is.  A connection whose
allocation was reaped and whose port was granted again to another one thus frees
the port of the other when it calls `release_port` at last.  `ReleasesInTime`
excludes this, and `port_held_by_one` says that nothing else can put one port in
two hands.  The invariant is `Owned`: the allocated ports are those whose
allocation is on record for a connection that still holds its port.
-/

namespace PrismFirewall.TcFirewall.SNATState

open Lib

variable {T κ : Type}

/-- Where a connection is in its life.  `reaped` is one whose own allocation was
taken out by `release_expired`. -/
inductive Phase
  | idle
  | refused
  | holding (publicIp : String) (port : Int)
  | reaped (publicIp : String) (port : Int)
  | released
  deriving DecidableEq

/-- The port that a connection may still call `release_port` with. -/
def Phase.toRelease : Phase → Option (String × Int)
  | .holding publicIp port => some (publicIp, port)
  | .reaped publicIp port => some (publicIp, port)
  | _ => none

/-- The pool and its connections.  `owner` tells whose allocation is on record for
a port. -/
structure World (T κ : Type) where
  pool : SNATState T
  owner : String × Int → Option κ
  phase : κ → Phase

inductive Event (T κ : Type)
  | allocate (c : κ) (publicIp srcIp dstIp : String) (dstPort : Int) (protocol : String)
      (timeout now : T)
  | release (c : κ)
  | reap (now : T)

section Steps

variable [DecidableEq κ]

/-- `c` was answered by `allocate_port` on `publicIp`. -/
def World.answered (w : World T κ) (c : κ) (publicIp : String) :
    Except Exc Result × SNATState T → World T κ
  | (.ok (.port (some port)), pool) =>
    { pool := pool
      owner := Function.update w.owner (publicIp, port) (some c)
      phase := Function.update w.phase c (.holding publicIp port) }
  | (_, pool) => { w with pool := pool, phase := Function.update w.phase c .refused }

/-- The connections whose allocation left the pool are reaped. -/
def World.reapedBy (w : World T κ) (pool : SNATState T) : World T κ where
  pool := pool
  owner x := if x.2 ∈ pool.held x.1 then w.owner x else none
  phase c := match w.phase c with
    | .holding publicIp port =>
      if w.owner (publicIp, port) = some c ∧ port ∉ pool.held publicIp then .reaped publicIp port
      else .holding publicIp port
    | phase => phase

variable [Sub T] [LE T] [DecidableLE T]

/-- The connections at a pool.  A call that its connection is not to make (a second
one, or a release without a port) is not made and has no answer. -/
def connections (poolSize : Int) :
    Machine (World T κ) (Event T κ) (Option (Except Exc Result)) where
  init := ⟨.new poolSize, fun _ => none, fun _ => .idle⟩
  step w
    | .allocate c publicIp srcIp dstIp dstPort protocol timeout now =>
      if w.phase c = .idle then
        let r := (machine poolSize).step w.pool
          (.allocatePort publicIp srcIp dstIp dstPort protocol timeout now)
        (some r.1, w.answered c publicIp r)
      else (none, w)
    | .release c =>
      match (w.phase c).toRelease with
      | some (publicIp, port) =>
        let r := (machine poolSize).step w.pool (.releasePort publicIp port)
        (some r.1, ⟨r.2, Function.update w.owner (publicIp, port) none,
          Function.update w.phase c .released⟩)
      | none => (none, w)
    | .reap now =>
      let r := (machine poolSize).step w.pool (.releaseExpired now)
      (some r.1, w.reapedBy r.2)

end Steps

/-- A connection in this phase takes no port from another one by releasing its own:
if its allocation was reaped, the port is not allocated again. -/
def Phase.MayRelease (pool : SNATState T) : Phase → Prop
  | .reaped publicIp port => port ∉ pool.held publicIp
  | _ => True

instance (pool : SNATState T) : (phase : Phase) → Decidable (phase.MayRelease pool)
  | .reaped publicIp port => inferInstanceAs (Decidable (port ∉ pool.held publicIp))
  | .idle | .refused | .holding .. | .released => inferInstanceAs (Decidable True)

/-- A connection whose allocation was reaped releases its port only while that
port is not allocated again. -/
def ReleasesInTime (w : World T κ) : Event T κ → Prop
  | .release c => (w.phase c).MayRelease w.pool
  | _ => True

instance (w : World T κ) : (e : Event T κ) → Decidable (ReleasesInTime w e)
  | .release c => inferInstanceAs (Decidable ((w.phase c).MayRelease w.pool))
  | .allocate .. | .reap _ => inferInstanceAs (Decidable True)

/-! ### The invariant -/

/-- The allocated ports are those on record for some connection, and a port is on
record for the connection that holds it. -/
structure Owned (w : World T κ) : Prop where
  pool : Inv w.pool
  holding_iff : ∀ c ip p, w.phase c = .holding ip p ↔ w.owner (ip, p) = some c
  held_iff : ∀ ip p, p ∈ w.pool.held ip ↔ ∃ c, w.owner (ip, p) = some c

theorem owned_new {poolSize : Int} (h : 1 ≤ poolSize) :
    Owned (⟨.new poolSize, fun _ => none, fun _ => .idle⟩ : World T κ) where
  pool := inv_new h
  holding_iff := by simp
  held_iff := by simp [held, new]

theorem Owned.owner_eq_none {w : World T κ} (h : Owned w) {ip : String} {p : Int}
    (hp : p ∉ w.pool.held ip) : w.owner (ip, p) = none := by
  rw [Option.eq_none_iff_forall_ne_some]
  intro c hc
  exact hp ((h.held_iff ip p).mpr ⟨c, hc⟩)

/-- Two connections that hold the same port are one. -/
theorem Owned.eq_of_holding {w : World T κ} (h : Owned w) {c c' : κ} {ip : String} {p : Int}
    (hc : w.phase c = .holding ip p) (hc' : w.phase c' = .holding ip p) : c = c' := by
  rw [h.holding_iff] at hc hc'
  exact Option.some.inj (hc.symm.trans hc')

/-- A port that is released in time is on record for nobody but its releaser. -/
theorem Owned.eq_of_releases {w : World T κ} (h : Owned w) {c c' : κ} {ip : String} {p : Int}
    (hc : (w.phase c).toRelease = some (ip, p)) (ht : (w.phase c).MayRelease w.pool)
    (hc' : w.owner (ip, p) = some c') : c' = c := by
  cases hph : w.phase c with
  | holding ip' p' =>
    rw [hph] at hc
    cases hc
    exact h.eq_of_holding ((h.holding_iff c' ip p).mpr hc') hph
  | reaped ip' p' =>
    rw [hph] at hc ht
    cases hc
    exact absurd ((h.held_iff ip p).mpr ⟨c', hc'⟩) ht
  | idle => rw [hph] at hc; cases hc
  | refused => rw [hph] at hc; cases hc
  | released => rw [hph] at hc; cases hc

/-! ### One step -/

section Owned

variable [DecidableEq κ]

/-- A free port is granted to a connection that has none. -/
theorem Owned.grant {w : World T κ} (h : Owned w) {c : κ} (hc : w.phase c = .idle)
    {ip : String} {p : Int} {pool : SNATState T} (hpool : Inv pool) (hp : p ∉ w.pool.held ip)
    (hheld : ∀ k, pool.held k = if k = ip then insert p (w.pool.held ip) else w.pool.held k) :
    Owned (w.answered c ip (.ok (.port (some p)), pool)) where
  pool := hpool
  holding_iff c' ip' p' := by
    simp only [World.answered, Function.update_apply]
    by_cases hx : (ip', p') = (ip, p)
    · cases hx
      by_cases hcc : c' = c
      · simp [hcc]
      · have hnone := h.owner_eq_none hp
        simp [hcc, h.holding_iff, hnone, Ne.symm hcc]
    · by_cases hcc : c' = c
      · have hfree := (h.holding_iff c ip' p').not.mp (by simp [hc])
        simp only [Prod.mk.injEq] at hx
        simp only [hcc, if_true, Phase.holding.injEq, Prod.mk.injEq, hx, if_false, hfree, iff_false]
        exact fun he => hx ⟨he.1.symm, he.2.symm⟩
      · rw [if_neg hcc, if_neg hx, h.holding_iff]
  held_iff ip' p' := by
    simp only [World.answered, Function.update_apply, Prod.mk.injEq]
    rw [hheld]
    by_cases hip : ip' = ip
    · by_cases hpp : p' = p
      · simp [hip, hpp]
      · simp [hip, hpp, h.held_iff]
    · simp [hip, h.held_iff]

/-- A connection that was refused leaves the ports as they are. -/
theorem Owned.refuse {w : World T κ} (h : Owned w) {c : κ} (hc : w.phase c = .idle)
    (ip : String) {pool : SNATState T} (hpool : Inv pool)
    (hheld : ∀ k, pool.held k = w.pool.held k) :
    Owned (w.answered c ip (.ok (.port none), pool)) where
  pool := hpool
  holding_iff c' ip' p' := by
    simp only [World.answered, Function.update_apply]
    by_cases hcc : c' = c
    · have hfree := (h.holding_iff c ip' p').not.mp (by simp [hc])
      simp [hcc, hfree]
    · rw [if_neg hcc, h.holding_iff]
  held_iff ip' p' := by
    simp only [World.answered]
    rw [hheld, h.held_iff]

/-- A port is given back by the only connection it is on record for, or while it
is on record for none. -/
theorem Owned.give {w : World T κ} (h : Owned w) {c : κ} {ip : String} {p : Int}
    (hc : (w.phase c).toRelease = some (ip, p)) (ht : (w.phase c).MayRelease w.pool)
    {pool : SNATState T} (hpool : Inv pool)
    (hheld : ∀ k, pool.held k = if k = ip then (w.pool.held ip).erase p else w.pool.held k) :
    Owned (⟨pool, Function.update w.owner (ip, p) none, Function.update w.phase c .released⟩ :
      World T κ) where
  pool := hpool
  holding_iff c' ip' p' := by
    simp only [Function.update_apply]
    by_cases hcc : c' = c
    · -- the releaser held this port or none
      have hown : (ip', p') ≠ (ip, p) → w.owner (ip', p') ≠ some c := by
        intro hx ho
        rw [(h.holding_iff c ip' p').mpr ho] at hc
        exact hx (Option.some.inj hc)
      rw [if_pos hcc, hcc]
      by_cases hx : (ip', p') = (ip, p)
      · simp [hx]
      · simp [hx, hown hx]
    · rw [if_neg hcc, h.holding_iff]
      by_cases hx : (ip', p') = (ip, p)
      · rw [if_pos hx, hx]
        constructor
        · exact fun ho => absurd (h.eq_of_releases hc ht ho) hcc
        · exact fun ho => by cases ho
      · rw [if_neg hx]
  held_iff ip' p' := by
    simp only [Function.update_apply, Prod.mk.injEq]
    rw [hheld]
    by_cases hip : ip' = ip
    · by_cases hpp : p' = p
      · simp [hip, hpp]
      · simp [hip, hpp, h.held_iff]
    · simp [hip, h.held_iff]

/-- A reaped port takes the hold of its connection with it. -/
theorem Owned.reap {w : World T κ} (h : Owned w) {pool : SNATState T} (hpool : Inv pool)
    (hheld : ∀ k, pool.held k ⊆ w.pool.held k) : Owned (w.reapedBy pool) where
  pool := hpool
  holding_iff c ip p := by
    simp only [World.reapedBy]
    constructor
    · intro hc
      cases hph : w.phase c with
      | holding ip' p' =>
        have ho := (h.holding_iff c ip' p').mp hph
        simp only [hph, ho, true_and] at hc
        by_cases hp : p' ∈ pool.held ip'
        · simp only [hp, not_true_eq_false, if_false] at hc
          cases hc
          rw [if_pos hp, ho]
        · simp [hp] at hc
      | idle => simp [hph] at hc
      | refused => simp [hph] at hc
      | reaped => simp [hph] at hc
      | released => simp [hph] at hc
    · intro ho
      by_cases hp : p ∈ pool.held ip
      · rw [if_pos hp] at ho
        simp [(h.holding_iff c ip p).mpr ho, hp]
      · simp [hp] at ho
  held_iff ip p := by
    simp only [World.reapedBy]
    constructor
    · intro hp
      obtain ⟨c, hc⟩ := (h.held_iff ip p).mp (hheld ip hp)
      exact ⟨c, by rw [if_pos hp, hc]⟩
    · intro hc
      obtain ⟨c, hc⟩ := hc
      by_contra hp
      simp [hp] at hc

variable [Sub T] [LE T] [DecidableLE T]

/-- **One step** keeps the invariant, and a port that is granted is held by no
connection. -/
theorem owned_step (poolSize : Int) {w : World T κ} (h : Owned w) (e : Event T κ)
    (ht : ReleasesInTime w e) :
    Owned ((connections poolSize).step w e).2 ∧
      ∀ c ip srcIp dstIp dstPort protocol timeout now p,
        e = .allocate c ip srcIp dstIp dstPort protocol timeout now →
        ((connections poolSize).step w e).1 = some (.ok (.port (some p))) →
          ∀ c', w.phase c' ≠ .holding ip p := by
  cases e with
  | allocate c ip srcIp dstIp dstPort protocol timeout now =>
    simp only [connections]
    by_cases hc : w.phase c = .idle
    · obtain ⟨port, pool, he, hi, -, hnone, hsome⟩ := machine_step_of_wp poolSize
        (.allocatePort ip srcIp dstIp dstPort protocol timeout now) rfl
        (wp_allocatePort h.pool ip srcIp dstIp dstPort protocol timeout now)
      rw [if_pos hc, he]
      cases port with
      | none =>
        refine ⟨h.refuse hc ip hi (hnone rfl), ?_⟩
        rintro _ _ _ _ _ _ _ _ _ ⟨⟩ hr
        simp at hr
      | some p =>
        obtain ⟨hfree, hheld⟩ := hsome p rfl
        refine ⟨h.grant hc hi hfree hheld, ?_⟩
        rintro _ _ _ _ _ _ _ _ p' ⟨⟩ hr c' hc'
        cases hr
        exact hfree ((h.held_iff ip p).mpr ⟨c', (h.holding_iff c' ip p).mp hc'⟩)
    · rw [if_neg hc]
      refine ⟨h, ?_⟩
      rintro _ _ _ _ _ _ _ _ _ ⟨⟩ ⟨⟩
  | release c =>
    refine ⟨?_, by rintro _ _ _ _ _ _ _ _ _ ⟨⟩⟩
    simp only [connections]
    cases hc : (w.phase c).toRelease with
    | none => exact h
    | some x =>
      obtain ⟨ip, p⟩ := x
      obtain ⟨r, pool, he, hi, -, hheld⟩ := machine_step_of_wp poolSize
        (.releasePort ip p) rfl (wp_releasePort h.pool ip p)
      simp only [he]
      exact h.give hc ht hi hheld
  | reap now =>
    refine ⟨?_, by rintro _ _ _ _ _ _ _ _ _ ⟨⟩⟩
    obtain ⟨r, pool, he, hi, -, hheld⟩ := machine_step_of_wp poolSize
      (.releaseExpired now) rfl (wp_releaseExpired h.pool now)
    simp only [connections, he]
    exact h.reap hi hheld

end Owned

/-! ### A pool of no ports -/

theorem wp_discard_poolSize (ip : String) (p : Int) (s : SNATState T) :
    wp (discard ip p) s (fun _ s' => s'.poolSize = s.poolSize)
      (fun _ s' => s'.poolSize = s.poolSize) := by
  unfold discard
  simp only [wp_bind, wp_get, wp_item, wp_set]
  cases s.allocated.get? ip with
  | none => exact trivial
  | some _ => cases s.allocations.get? ip <;> exact trivial

section Runs

variable [DecidableEq κ] [Sub T] [LE T] [DecidableLE T]

theorem wp_releaseExpiredOn_poolSize (now : T) (ips : List String) (s : SNATState T) :
    wp (releaseExpiredOn now ips) s (fun _ s' => s'.poolSize = s.poolSize)
      (fun _ s' => s'.poolSize = s.poolSize) := by
  induction ips generalizing s with
  | nil => rfl
  | cons ip rest ih =>
    simp only [releaseExpiredOn, wp_bind, wp_get, wp_item]
    cases s.allocations.get? ip with
    | none => exact trivial
    | some ports =>
      refine wp_mono (wp_forM (I := fun _ s' => s'.poolSize = s.poolSize) (expiredPorts now ports)
        ?_ s rfl) ?_ (fun _ _ hs' => hs')
      · intro _ p _ s' _ hs'
        exact wp_mono (wp_discard_poolSize ip p s') (fun _ _ h => h.trans hs')
          (fun _ _ h => h.trans hs')
      · intro _ s' hs'
        exact wp_mono (ih s') (fun _ _ h => h.trans hs') (fun _ _ h => h.trans hs')

/-- A pool of no ports has nothing to grant, whatever its maps hold. -/
theorem wp_exec_of_nonpos {s : SNATState T} (h : s.poolSize ≤ 0) (op : Op T) :
    wp op.exec s (fun r s' => s'.poolSize = s.poolSize ∧ ∀ p, r ≠ .port (some p))
      (fun _ s' => s'.poolSize = s.poolSize) := by
  cases op with
  | allocatePort ip srcIp dstIp dstPort protocol timeout now =>
    have hsize : (s.track ip).poolSize = s.poolSize := by unfold track; split <;> rfl
    simp only [Op.exec, allocatePort, wp_bind, wp_modify, wp_get, wp_item]
    cases (s.track ip).allocated.get? ip with
    | none => exact hsize
    | some allocatedSet =>
      have hfull : (allocatedSet.card : Int) ≥ (s.track ip).poolSize := by omega
      simp only [if_pos hfull, wp_pure]
      exact ⟨hsize, by simp⟩
  | releasePort ip p =>
    simp only [Op.exec, releasePort, wp_bind, wp_get]
    split
    · exact ⟨rfl, by simp⟩
    · simp only [wp_bind, wp_item]
      cases s.allocated.get? ip with
      | none => exact trivial
      | some allocatedSet =>
        by_cases hp : p ∈ allocatedSet
        · simp only [hp, not_true_eq_false, if_false, wp_bind, wp_pure]
          exact wp_mono (wp_discard_poolSize ip p s) (fun _ _ hs' => ⟨hs', by simp⟩)
            (fun _ _ hs' => hs')
        · simp [hp]
  | releaseExpired now =>
    simp only [Op.exec, releaseExpired, wp_bind, wp_get]
    exact wp_mono (wp_releaseExpiredOn_poolSize now _ s) (fun _ _ hs' => ⟨hs', by simp⟩)
      (fun _ _ hs' => hs')

theorem machine_step_of_nonpos (poolSize : Int) {s : SNATState T} (h : s.poolSize ≤ 0)
    (op : Op T) :
    ((machine poolSize).step s op).2.poolSize = s.poolSize ∧
      ∀ p, ((machine poolSize).step s op).1 ≠ .ok (.port (some p)) := by
  have hw := wp_exec_of_nonpos h op
  unfold wp at hw
  simp only [machine]
  cases he : op.exec s with
  | ok r s' =>
    rw [he] at hw
    exact ⟨hw.1, fun p hp => hw.2 p (Except.ok.inj hp)⟩
  | error e s' =>
    rw [he] at hw
    exact ⟨hw, by simp⟩

/-- No connection has been granted a port. -/
def Barren (w : World T κ) : Prop :=
  w.pool.poolSize ≤ 0 ∧ ∀ c, w.phase c = .idle ∨ w.phase c = .refused

theorem barren_step (poolSize : Int) {w : World T κ} (h : Barren w) (e : Event T κ) :
    Barren ((connections poolSize).step w e).2 := by
  obtain ⟨hsize, hphase⟩ := h
  cases e with
  | allocate c ip srcIp dstIp dstPort protocol timeout now =>
    obtain ⟨hkept, hnone⟩ := machine_step_of_nonpos poolSize hsize
      (.allocatePort ip srcIp dstIp dstPort protocol timeout now)
    simp only [connections]
    split
    · generalize (machine poolSize).step w.pool _ = r at hkept hnone
      obtain ⟨reply, pool⟩ := r
      have hrefused : w.answered c ip (reply, pool) =
          { w with pool := pool, phase := Function.update w.phase c .refused } := by
        unfold World.answered
        split
        · rename_i heq
          cases heq
          exact absurd rfl (hnone _)
        · rename_i heq
          cases heq
          rfl
      refine ⟨?_, fun c' => ?_⟩
      · rw [hrefused]
        exact hkept.trans_le hsize
      · rw [hrefused]
        simp only [Function.update_apply]
        split
        · exact Or.inr rfl
        · exact hphase c'
    · exact ⟨hsize, hphase⟩
  | release c =>
    have hc : (w.phase c).toRelease = none := by
      rcases hphase c with hc | hc <;> rw [hc] <;> rfl
    simp only [connections, hc]
    exact ⟨hsize, hphase⟩
  | reap now =>
    obtain ⟨hkept, -⟩ := machine_step_of_nonpos poolSize hsize (.releaseExpired now)
    refine ⟨hkept.trans_le hsize, fun c => ?_⟩
    simp only [connections, World.reapedBy]
    rcases hphase c with hc | hc <;> rw [hc]
    · exact Or.inl rfl
    · exact Or.inr rfl

/-! ### Runs -/

theorem owned_run {poolSize : Int} (h : 1 ≤ poolSize) :
    ∀ events : List (Event T κ), (connections poolSize).Meets ReleasesInTime events →
      Owned ((connections poolSize).run events) :=
  (connections poolSize).run_induction_of_meets (P := fun _ w => Owned w) (owned_new h)
    (fun _ e _ hw ht => (owned_step poolSize hw e ht).1)

theorem barren_run {poolSize : Int} (h : poolSize ≤ 0) (events : List (Event T κ)) :
    Barren ((connections poolSize).run events) := by
  refine (connections poolSize).run_induction (P := fun _ w => Barren w) ⟨?_, fun _ => Or.inl rfl⟩
    (fun _ e _ hw => barren_step poolSize hw e) events
  simp only [connections, new]
  omega

/-- **A port is held by one connection.**  In every interleaving in which no
connection releases, after its own allocation was reaped, a port that is allocated
again, no two connections hold one port, and a port that a connection holds is not
granted. -/
theorem port_held_by_one (poolSize : Int) (events : List (Event T κ))
    (h : (connections poolSize).Meets ReleasesInTime events) :
    (∀ l₁ l₂, events = l₁ ++ l₂ → ∀ c c' ip p,
      ((connections poolSize).run l₁).phase c = .holding ip p →
      ((connections poolSize).run l₁).phase c' = .holding ip p → c = c') ∧
    ∀ l₁ c' ip srcIp dstIp dstPort protocol timeout now l₂,
      events = l₁ ++ .allocate c' ip srcIp dstIp dstPort protocol timeout now :: l₂ →
      ∀ c p, ((connections poolSize).run l₁).phase c = .holding ip p →
        ((connections poolSize).step ((connections poolSize).run l₁)
          (.allocate c' ip srcIp dstIp dstPort protocol timeout now)).1 ≠
            some (.ok (.port (some p))) := by
  rcases lt_or_ge 0 poolSize with hpos | hneg
  · constructor
    · intro l₁ l₂ e c c' ip p hc hc'
      subst e
      exact (owned_run hpos l₁ h.of_append).eq_of_holding hc hc'
    · intro l₁ c' ip srcIp dstIp dstPort protocol timeout now l₂ e c p hc hr
      have hin := h _ _ _ e
      subst e
      exact (owned_step poolSize (owned_run hpos l₁ h.of_append) _ hin).2 _ _ _ _ _ _ _ _ p rfl
        hr c hc
  · -- no connection holds a port of an empty pool
    have hnone : ∀ (l₁ : List (Event T κ)) c ip p,
        ((connections poolSize).run l₁).phase c ≠ .holding ip p := by
      intro l₁ c ip p hc
      rcases (barren_run hneg l₁).2 c with h' | h' <;> rw [hc] at h' <;> cases h'
    exact ⟨fun l₁ _ _ c _ ip p hc _ => absurd hc (hnone l₁ c ip p),
      fun l₁ _ _ _ _ _ _ _ _ _ _ c p hc => absurd hc (hnone l₁ c _ p)⟩

end Runs

/-- Connection `c` asks for a port at the time `now`. -/
def sampleAllocate (c : Nat) (now : Int) : Event Int Nat :=
  .allocate c "203.0.113.7" "10.0.0.1" "8.8.8.8" 443 "tcp" 300 now

/-- The first connection releases its reaped port before it is granted again. -/
theorem port_held_by_one_releasedBefore :
    let events := [sampleAllocate 0 0, .reap 300, .release 0, sampleAllocate 1 301,
      sampleAllocate 2 302]
    ((connections 1).run (events.take 2)).phase 0 = .reaped "203.0.113.7" 1024 ∧
    ((connections 1).run (events.take 4)).phase 1 = .holding "203.0.113.7" 1024 ∧
    ((connections 1).step ((connections 1).run (events.take 4)) (sampleAllocate 2 302)).1 ≠
      some (.ok (.port (some 1024))) := by
  intro events
  have hmeets : (connections 1).Meets ReleasesInTime events :=
    Machine.meets_of_meetsFrom _ (by decide)
  have hholds : ((connections 1).run (events.take 4)).phase 1 = .holding "203.0.113.7" 1024 := by
    decide
  exact ⟨by decide, hholds,
    (port_held_by_one 1 events hmeets).2 (events.take 4) 2 _ _ _ _ _ _ _ [] rfl 1 1024 hholds⟩

/-- The first connection releases its reaped port after it was granted again. -/
def releasedLate : List (Event Int Nat) :=
  [sampleAllocate 0 0, .reap 300, sampleAllocate 1 301, .release 0]

/-- **The port of another connection is freed**: the second connection has neither
released its port nor been reaped, and the third is granted the same port. -/
theorem port_granted_twice :
    ((connections 1).run releasedLate).phase 1 = .holding "203.0.113.7" 1024 ∧
    ((connections 1).step ((connections 1).run releasedLate) (sampleAllocate 2 302)).1 =
      some (.ok (.port (some 1024))) ∧
    ((connections 1).run (releasedLate ++ [sampleAllocate 2 302])).phase 2 =
      .holding "203.0.113.7" 1024 := by
  refine ⟨by decide, by decide, by decide⟩

end PrismFirewall.TcFirewall.SNATState
