import PrismFirewall.Lib.Run
import PrismFirewall.TcFirewall.SnatState

/-!
# The SNAT pool invariant

For every tracked public IP the three structures of an `SNATState` agree
(`PoolOk`): the allocated set is the key set of the allocation map, a record
stored under a port names that port, the allocated ports and the cursor lie in
the pool.  `PoolAt` puts this for one public IP, tracked or not, so that an
update at one IP is checked at that IP alone (`Inv.update`).

Every method keeps the invariant and raises nothing (`wp_allocatePort`,
`wp_releasePort`, `wp_releaseExpired`).  The run lemma is `inv_run`.
-/

namespace PrismFirewall.TcFirewall

open Lib

namespace SNATState

variable {T : Type}

/-! ### The invariant -/

/-- The structures of one public IP agree and stay inside a pool of `n` ports. -/
structure PoolOk (n : Int) (allocatedSet : Finset Int) (ports : Dict Int (PortAllocation T))
    (next : Int) : Prop where
  keys : allocatedSet = ports.keys.toFinset
  port_eq : ∀ p a, ports.get? p = some a → a.port = p
  range : ∀ p ∈ allocatedSet, portMin ≤ p ∧ p ≤ portMin + n - 1
  cursor : portMin ≤ next ∧ next ≤ portMin + n - 1

/-- A public IP is in all three maps, with structures that agree, or in none. -/
inductive PoolAt (n : Int) :
    Option (Finset Int) → Option (Dict Int (PortAllocation T)) → Option Int → Prop
  | untracked : PoolAt n none none none
  | tracked {allocatedSet : Finset Int} {ports : Dict Int (PortAllocation T)} {next : Int} :
      PoolOk n allocatedSet ports next → PoolAt n (some allocatedSet) (some ports) (some next)

structure Inv (s : SNATState T) : Prop where
  pos : 1 ≤ s.poolSize
  pool : ∀ ip, PoolAt s.poolSize (s.allocated.get? ip) (s.allocations.get? ip) (s.nextPort.get? ip)

theorem PoolOk.card_le {n : Int} {allocatedSet : Finset Int} {ports : Dict Int (PortAllocation T)}
    {next : Int} (h : PoolOk n allocatedSet ports next) : (allocatedSet.card : Int) ≤ n := by
  have hsub : allocatedSet ⊆ Finset.Icc portMin (portMin + n - 1) :=
    fun p hp => Finset.mem_Icc.mpr (h.range p hp)
  have hcard := Finset.card_le_card hsub
  rw [Int.card_Icc] at hcard
  have hc := h.cursor
  omega

/-- What a tracked public IP has. -/
theorem Inv.of_mem {s : SNATState T} (h : Inv s) {ip : String} (hip : ip ∈ s.allocated) :
    ∃ allocatedSet ports next, s.allocated.get? ip = some allocatedSet ∧
      s.allocations.get? ip = some ports ∧ s.nextPort.get? ip = some next ∧
      PoolOk s.poolSize allocatedSet ports next := by
  obtain ⟨allocatedSet, ha⟩ := Dict.mem_iff_get?.mp hip
  have hp := h.pool ip
  rw [ha] at hp
  generalize hd : s.allocations.get? ip = d at hp
  generalize hn : s.nextPort.get? ip = c at hp
  cases hp with
  | tracked hok => exact ⟨_, _, _, ha, rfl, rfl, hok⟩

/-- **The invariant is checked where the state is written.**  If everything but
one public IP is as before and that one is in order, the invariant is kept. -/
theorem Inv.update {s s' : SNATState T} (h : Inv s) (ip : String)
    {allocatedSet : Finset Int} {ports : Dict Int (PortAllocation T)} {next : Int}
    (hsize : s'.poolSize = s.poolSize)
    (ha : ∀ k, s'.allocated.get? k = if k = ip then some allocatedSet else s.allocated.get? k)
    (hd : ∀ k, s'.allocations.get? k = if k = ip then some ports else s.allocations.get? k)
    (hn : ∀ k, s'.nextPort.get? k = if k = ip then some next else s.nextPort.get? k)
    (hok : PoolOk s.poolSize allocatedSet ports next) : Inv s' := by
  refine ⟨hsize ▸ h.pos, fun k => ?_⟩
  rw [hsize, ha, hd, hn]
  by_cases hk : k = ip
  · simp only [if_pos hk]
    exact .tracked hok
  · simp only [if_neg hk]
    exact h.pool k

/-- Reading a key and reading it after it was written with its own value agree. -/
theorem get?_eq_ite {ν : Type} {d : Dict String ν} {ip : String} {v : ν}
    (h : d.get? ip = some v) (k : String) : d.get? k = if k = ip then some v else d.get? k := by
  by_cases hk : k = ip
  · rw [if_pos hk, hk, h]
  · rw [if_neg hk]

theorem PoolOk.empty {n : Int} (hn : 1 ≤ n) : PoolOk n ∅ (.empty : Dict Int (PortAllocation T))
    portMin where
  keys := rfl
  port_eq := fun p a h => by simp at h
  range := fun p hp => by simp at hp
  cursor := by omega

theorem inv_new {poolSize : Int} (h : 1 ≤ poolSize) : Inv (new poolSize : SNATState T) := by
  refine ⟨?_, fun ip => PoolAt.untracked⟩
  simp only [new, defaultPoolSize, portMax, portMin]
  omega

theorem inv_track {s : SNATState T} (h : Inv s) (ip : String) :
    Inv (s.track ip) ∧ ip ∈ (s.track ip).allocated ∧ (s.track ip).poolSize = s.poolSize ∧
      ∀ k, ((s.track ip).allocated.get? k).getD ∅ = (s.allocated.get? k).getD ∅ := by
  unfold track
  split
  · rename_i hip
    exact ⟨h, hip, rfl, fun _ => rfl⟩
  · rename_i hip
    refine ⟨h.update ip rfl (fun k => Dict.get?_insert _ _ _ _) (fun k => Dict.get?_insert _ _ _ _)
      (fun k => Dict.get?_insert _ _ _ _) (PoolOk.empty h.pos), Dict.mem_insert.mpr (Or.inl rfl),
      rfl, fun k => ?_⟩
    rw [Dict.get?_insert]
    by_cases hk : k = ip
    · rw [if_pos hk, hk, Dict.get?_eq_none_iff.mpr hip]
      rfl
    · rw [if_neg hk]

/-! ### The search -/

theorem scan_eq_some {allocatedSet : Finset Int} :
    ∀ {n : Nat} {start port : Int}, scan allocatedSet n start = some port →
      start ≤ port ∧ port < start + n ∧ port ∉ allocatedSet := by
  intro n
  induction n with
  | zero => intro start port h; simp [scan] at h
  | succ n ih =>
    intro start port h
    rw [scan] at h
    split at h
    · rename_i hfree
      cases h
      exact ⟨le_rfl, by omega, hfree⟩
    · obtain ⟨h1, h2, h3⟩ := ih h
      exact ⟨by omega, by push_cast; omega, h3⟩

/-- The search moves the cursor of one IP inside the pool, and what it finds is
a port of the pool that is not allocated. -/
theorem wp_findAvailablePort {s : SNATState T} {ip : String} {allocatedSet : Finset Int}
    {ports : Dict Int (PortAllocation T)} {next : Int}
    (ha : s.allocated.get? ip = some allocatedSet)
    (hn : s.nextPort.get? ip = some next) (hok : PoolOk s.poolSize allocatedSet ports next) :
    wp (findAvailablePort ip) s (fun r s' => ∃ next', PoolOk s.poolSize allocatedSet ports next' ∧
      s'.poolSize = s.poolSize ∧ s'.allocated = s.allocated ∧ s'.allocations = s.allocations ∧
      (∀ k, s'.nextPort.get? k = if k = ip then some next' else s.nextPort.get? k) ∧
      ∀ port, r = some port → port ∉ allocatedSet ∧ portMin ≤ port ∧
        port ≤ portMin + s.poolSize - 1) (fun _ _ => False) := by
  obtain ⟨hc1, hc2⟩ := hok.cursor
  unfold findAvailablePort
  rw [wp_bind, wp_get, wp_bind, wp_item_of_get? ha, wp_bind, wp_item_of_get? hn]
  -- the tail of the pool first, then its head
  cases h1 : scan allocatedSet (s.effectiveMax + 1 - next).toNat next with
  | some port =>
    obtain ⟨hp1, hp2, hfree⟩ := scan_eq_some h1
    simp only [effectiveMax] at hp2
    have hp3 : port ≤ portMin + s.poolSize - 1 := by omega
    simp only [wp_bind, wp_set, wp_pure]
    refine ⟨_, ⟨hok.keys, hok.port_eq, hok.range, ?_⟩, trivial, trivial, trivial,
      fun k => Dict.get?_insert _ _ _ _, ?_⟩
    · by_cases hwrap : port + 1 > s.effectiveMax
      · rw [if_pos hwrap]; omega
      · rw [if_neg hwrap]; simp only [effectiveMax] at hwrap; omega
    · rintro p ⟨⟩
      exact ⟨hfree, by omega, hp3⟩
  | none =>
    cases h2 : scan allocatedSet (next - portMin).toNat portMin with
    | some port =>
      obtain ⟨hp1, hp2, hfree⟩ := scan_eq_some h2
      simp only [wp_bind, wp_set, wp_pure]
      refine ⟨port + 1, ⟨hok.keys, hok.port_eq, hok.range, by omega⟩, trivial, trivial, trivial,
        fun k => Dict.get?_insert _ _ _ _, ?_⟩
      rintro p ⟨⟩
      exact ⟨hfree, by omega, by omega⟩
    | none =>
      simp only [wp_pure]
      exact ⟨next, hok, trivial, trivial, trivial, get?_eq_ite hn, by simp⟩

/-! ### The methods -/

/-- The ports allocated on a public IP. -/
def held (s : SNATState T) (ip : String) : Finset Int := (s.allocated.get? ip).getD ∅

/-- Where one public IP is written, its ports are those written and every other IP
keeps its own. -/
theorem held_update {s s' : SNATState T} {ip : String} {allocatedSet : Finset Int}
    (h : ∀ k, s'.allocated.get? k = if k = ip then some allocatedSet else s.allocated.get? k)
    (k : String) : s'.held k = if k = ip then allocatedSet else s.held k := by
  rw [held, h]
  by_cases hk : k = ip
  · rw [if_pos hk, if_pos hk]
    rfl
  · rw [if_neg hk, if_neg hk]
    rfl

theorem PoolOk.insert {n : Int} {allocatedSet : Finset Int} {ports : Dict Int (PortAllocation T)}
    {next : Int} (h : PoolOk n allocatedSet ports next) {a : PortAllocation T}
    (ha : portMin ≤ a.port ∧ a.port ≤ portMin + n - 1) :
    PoolOk n (Insert.insert a.port allocatedSet) (ports.insert a.port a) next where
  keys := by
    ext p
    rw [Finset.mem_insert, List.mem_toFinset, ← Dict.mem_def, Dict.mem_insert, h.keys,
      List.mem_toFinset, ← Dict.mem_def]
  port_eq := by
    intro p b hb
    rw [Dict.get?_insert] at hb
    split at hb
    · rename_i hp
      cases hb
      exact hp.symm
    · exact h.port_eq p b hb
  range := by
    intro p hp
    rcases Finset.mem_insert.mp hp with rfl | hp
    · exact ha
    · exact h.range p hp
  cursor := h.cursor

theorem PoolOk.erase {n : Int} {allocatedSet : Finset Int} {ports : Dict Int (PortAllocation T)}
    {next : Int} (h : PoolOk n allocatedSet ports next) (port : Int) :
    PoolOk n (allocatedSet.erase port) (ports.erase port) next where
  keys := by
    ext p
    rw [Finset.mem_erase, List.mem_toFinset, ← Dict.mem_def, Dict.mem_erase, h.keys,
      List.mem_toFinset, ← Dict.mem_def]
  port_eq := by
    intro p b hb
    exact h.port_eq p b (Dict.get?_erase_eq_some.mp hb).2
  range := fun p hp => h.range p (Finset.mem_of_mem_erase hp)
  cursor := h.cursor

/-- Nothing is granted and no port changes hands, or a port that was free is
granted and is the only one to be added. -/
theorem wp_allocatePort {s : SNATState T} (h : Inv s) (ip srcIp dstIp : String) (dstPort : Int)
    (protocol : String) (timeout now : T) :
    wp (allocatePort ip srcIp dstIp dstPort protocol timeout now) s
      (fun r s' => Inv s' ∧ s'.poolSize = s.poolSize ∧
        (r = none → ∀ k, s'.held k = s.held k) ∧
        ∀ port, r = some port → port ∉ s.held ip ∧
          ∀ k, s'.held k = if k = ip then insert port (s.held ip) else s.held k)
      (fun _ _ => False) := by
  obtain ⟨ht, hmem, hsize, hheld⟩ := inv_track h ip
  obtain ⟨allocatedSet, ports, next, ha, hd, hn, hok⟩ := ht.of_mem hmem
  have hA : s.held ip = allocatedSet := by rw [held, ← hheld ip, ha]; rfl
  unfold allocatePort
  rw [wp_bind, wp_modify, wp_bind, wp_get, wp_bind, wp_item_of_get? ha]
  by_cases hfull : (allocatedSet.card : Int) ≥ (s.track ip).poolSize
  · rw [if_pos hfull, wp_pure]
    exact ⟨ht, hsize, fun _ => hheld, by simp⟩
  · rw [if_neg hfull, wp_bind]
    refine wp_mono (wp_findAvailablePort ha hn hok) ?_ (fun _ _ hf => hf)
    intro r s' h
    obtain ⟨next', hok', hs1, hs2, hs3, hs4, hport⟩ := h
    -- the search has moved the cursor; the rest of the pool is as it was
    have hinv : Inv s' := ht.update ip hs1 (fun k => hs2 ▸ get?_eq_ite ha k)
      (fun k => hs3 ▸ get?_eq_ite hd k) hs4 hok'
    cases r with
    | none =>
      refine ⟨hinv, hs1.trans hsize, fun _ k => ?_, by simp⟩
      rw [held, hs2]
      exact hheld k
    | some port =>
      obtain ⟨hfree, hr1, hr2⟩ := hport port rfl
      simp only [wp_bind, wp_get, wp_item_of_get? (hs3 ▸ hd), wp_set, wp_pure]
      refine ⟨ht.update ip hs1 (fun k => ?_) (fun k => ?_) hs4
        (hok'.insert (a := ⟨port, srcIp, dstIp, dstPort, protocol, now, timeout⟩) ⟨hr1, hr2⟩),
        hs1.trans hsize, by simp, ?_⟩
      · rw [hs2]; exact Dict.get?_insert _ _ _ _
      · rw [hs3]; exact Dict.get?_insert _ _ _ _
      · rintro p ⟨⟩
        rw [hA]
        refine ⟨hfree, fun k => ?_⟩
        have hset : ∀ k, ((s'.allocated.insert ip (insert port allocatedSet)).get? k) =
            if k = ip then some (insert port allocatedSet) else (s.track ip).allocated.get? k := by
          intro k
          rw [hs2]
          exact Dict.get?_insert _ _ _ _
        rw [held_update hset k]
        simp only [held, hheld]

/-- Taking a port out of a tracked IP keeps the invariant and every other map
entry. -/
theorem wp_discard {s : SNATState T} (h : Inv s) {ip : String} (hip : ip ∈ s.allocated)
    (port : Int) :
    wp (discard ip port) s (fun _ s' => Inv s' ∧ s'.poolSize = s.poolSize ∧
      (∀ k, k ∈ s'.allocated ↔ k ∈ s.allocated) ∧
      ∀ k, s'.held k = if k = ip then (s.held ip).erase port else s.held k)
      (fun _ _ => False) := by
  obtain ⟨allocatedSet, ports, next, ha, hd, hn, hok⟩ := h.of_mem hip
  have hA : s.held ip = allocatedSet := by rw [held, ha]; rfl
  unfold discard
  simp only [wp_bind, wp_get, wp_item_of_get? ha, wp_item_of_get? hd, wp_set]
  refine ⟨h.update ip rfl (fun k => Dict.get?_insert _ _ _ _) (fun k => Dict.get?_insert _ _ _ _)
    (get?_eq_ite hn) (hok.erase port), trivial, fun k => ?_, fun k => ?_⟩
  · rw [Dict.mem_insert]
    constructor
    · intro h
      rcases h with rfl | hk
      · exact hip
      · exact hk
    · exact Or.inr
  · rw [hA]
    exact held_update (fun k => Dict.get?_insert _ _ _ _) k

/-- The port is not allocated afterwards, whether it was before or not. -/
theorem wp_releasePort {s : SNATState T} (h : Inv s) (ip : String) (port : Int) :
    wp (releasePort ip port) s (fun _ s' => Inv s' ∧ s'.poolSize = s.poolSize ∧
      ∀ k, s'.held k = if k = ip then (s.held ip).erase port else s.held k)
      (fun _ _ => False) := by
  -- where the port is not allocated, taking it out changes nothing
  have hsame : port ∉ s.held ip →
      ∀ k, s.held k = if k = ip then (s.held ip).erase port else s.held k := by
    intro hp k
    rw [Finset.erase_eq_of_notMem hp]
    by_cases hk : k = ip
    · rw [if_pos hk, hk]
    · rw [if_neg hk]
  unfold releasePort
  rw [wp_bind, wp_get]
  by_cases hip : ip ∈ s.allocated
  · obtain ⟨allocatedSet, ports, next, ha, -⟩ := h.of_mem hip
    have hA : s.held ip = allocatedSet := by rw [held, ha]; rfl
    rw [if_neg (not_not.mpr hip), wp_bind, wp_item_of_get? ha]
    by_cases hp : port ∈ allocatedSet
    · rw [if_neg (not_not.mpr hp), wp_bind]
      exact wp_mono (wp_discard h hip port) (fun _ s' hs' => ⟨hs'.1, hs'.2.1, hs'.2.2.2⟩)
        (fun _ _ hf => hf)
    · rw [if_pos hp]
      exact ⟨h, rfl, hsame (hA ▸ hp)⟩
  · rw [if_pos hip]
    refine ⟨h, rfl, hsame ?_⟩
    rw [held, Dict.get?_eq_none_iff.mpr hip]
    exact Finset.notMem_empty port

section Expiry

variable [Sub T] [LE T] [DecidableLE T]

theorem wp_releaseExpiredOn (now : T) : ∀ (ips : List String) {s : SNATState T}, Inv s →
    (∀ ip ∈ ips, ip ∈ s.allocated) →
    wp (releaseExpiredOn now ips) s (fun _ s' => Inv s' ∧ s'.poolSize = s.poolSize ∧
      ∀ k, s'.held k ⊆ s.held k) (fun _ _ => False) := by
  intro ips
  induction ips with
  | nil => intro s h _; exact ⟨h, rfl, fun _ => subset_rfl⟩
  | cons ip rest ih =>
    intro s h hips
    have hip := hips ip List.mem_cons_self
    obtain ⟨allocatedSet, ports, next, ha, hd, -⟩ := h.of_mem hip
    rw [releaseExpiredOn]
    simp only [wp_bind, wp_get, wp_item_of_get? hd]
    -- the inner loop keeps the invariant and the tracked IPs, and only takes ports out
    refine wp_mono (wp_forM (I := fun _ s' => Inv s' ∧ s'.poolSize = s.poolSize ∧
      (∀ k, k ∈ s'.allocated ↔ k ∈ s.allocated) ∧ ∀ k, s'.held k ⊆ s.held k)
      (expiredPorts now ports) ?_ s ⟨h, rfl, fun _ => Iff.rfl, fun _ => subset_rfl⟩) ?_
      (fun _ _ hf => hf)
    · intro done port left s' _ h
      obtain ⟨hi, hsz, hk, hsub⟩ := h
      refine wp_mono (wp_discard hi ((hk ip).mpr hip) port) ?_ (fun _ _ hf => hf)
      intro _ s'' h
      obtain ⟨hi', hsz', hk', hheld⟩ := h
      refine ⟨hi', hsz'.trans hsz, fun k => (hk' k).trans (hk k), fun k => ?_⟩
      rw [hheld k]
      by_cases hki : k = ip
      · rw [if_pos hki, hki]
        exact (Finset.erase_subset _ _).trans (hsub ip)
      · rw [if_neg hki]
        exact hsub k
    · intro _ s' h
      obtain ⟨hi, hsz, hk, hsub⟩ := h
      refine wp_mono (ih hi (fun k hk' => (hk k).mpr (hips k (List.mem_cons_of_mem _ hk'))))
        (fun _ s'' hs'' => ⟨hs''.1, hs''.2.1.trans hsz, fun k => (hs''.2.2 k).trans (hsub k)⟩)
        (fun _ _ hf => hf)

theorem wp_releaseExpired {s : SNATState T} (h : Inv s) (now : T) :
    wp (releaseExpired now) s (fun _ s' => Inv s' ∧ s'.poolSize = s.poolSize ∧
      ∀ k, s'.held k ⊆ s.held k) (fun _ _ => False) := by
  unfold releaseExpired
  rw [wp_bind, wp_get]
  refine wp_releaseExpiredOn now _ h (fun ip hip => ?_)
  obtain ⟨ports, hd⟩ := Dict.mem_iff_get?.mp (Dict.mem_def.mpr hip)
  have hp := h.pool ip
  rw [hd] at hp
  generalize ha : s.allocated.get? ip = a at hp
  generalize s.nextPort.get? ip = c at hp
  cases hp with
  | tracked _ => exact Dict.mem_of_get? ha

/-! ### Runs -/

/-- A call of one of the three methods that change the state. -/
inductive Op (T : Type)
  | allocatePort (publicIp srcIp dstIp : String) (dstPort : Int) (protocol : String)
      (timeout now : T)
  | releasePort (publicIp : String) (port : Int)
  | releaseExpired (now : T)

/-- What such a call returns. -/
inductive Result
  | port (p : Option Int)
  | released (b : Bool)
  | reaped (n : Nat)
  deriving DecidableEq

def Op.exec : Op T → EStateM Exc (SNATState T) Result
  | .allocatePort publicIp srcIp dstIp dstPort protocol timeout now => do
    return .port (← SNATState.allocatePort publicIp srcIp dstIp dstPort protocol timeout now)
  | .releasePort publicIp p => do return .released (← SNATState.releasePort publicIp p)
  | .releaseExpired now => do return .reaped (← SNATState.releaseExpired now)

/-- An `SNATState` answering calls one after the other. -/
def machine (poolSize : Int) : Machine (SNATState T) (Op T) (Except Exc Result) where
  init := .new poolSize
  step s op := match op.exec s with
    | .ok r s' => (.ok r, s')
    | .error e s' => (.error e, s')

/-- **One call** keeps the invariant, returns, and grants only a free port. -/
theorem wp_exec {s : SNATState T} (h : Inv s) (op : Op T) :
    wp op.exec s (fun r s' => Inv s' ∧ s'.poolSize = s.poolSize ∧
      ∀ ip srcIp dstIp dstPort protocol timeout now port,
        op = .allocatePort ip srcIp dstIp dstPort protocol timeout now → r = .port (some port) →
          port ∉ s.held ip) (fun _ _ => False) := by
  cases op with
  | allocatePort ip srcIp dstIp dstPort protocol timeout now =>
    rw [Op.exec, wp_bind]
    refine wp_mono (wp_allocatePort h ip srcIp dstIp dstPort protocol timeout now) ?_
      (fun _ _ hf => hf)
    intro r s' h
    obtain ⟨h1, h2, -, h3⟩ := h
    refine ⟨h1, h2, ?_⟩
    rintro _ _ _ _ _ _ _ port ⟨⟩ hr
    exact (h3 port (by simpa using hr)).1
  | releasePort ip p =>
    rw [Op.exec, wp_bind]
    exact wp_mono (wp_releasePort h ip p)
      (fun _ s' hs' => ⟨hs'.1, hs'.2.1, by rintro _ _ _ _ _ _ _ _ ⟨⟩⟩)
      (fun _ _ hf => hf)
  | releaseExpired now =>
    rw [Op.exec, wp_bind]
    exact wp_mono (wp_releaseExpired h now)
      (fun _ s' hs' => ⟨hs'.1, hs'.2.1, by rintro _ _ _ _ _ _ _ _ ⟨⟩⟩) (fun _ _ hf => hf)

/-- What a method does is what the machine does with its call. -/
theorem machine_step_of_wp (poolSize : Int) (op : Op T) {α : Type}
    {m : EStateM Exc (SNATState T) α} {f : α → Result}
    (hop : op.exec = m >>= fun a => pure (f a)) {s : SNATState T}
    {Q : α → SNATState T → Prop} (h : wp m s Q (fun _ _ => False)) :
    ∃ a s', (machine poolSize).step s op = (.ok (f a), s') ∧ Q a s' := by
  have hw : wp op.exec s (fun r s' => ∃ a, r = f a ∧ Q a s') (fun _ _ => False) := by
    rw [hop, wp_bind]
    exact wp_mono h (fun a _ ha => ⟨a, rfl, ha⟩) (fun _ _ hf => hf)
  unfold wp at hw
  simp only [machine]
  cases he : op.exec s with
  | ok r s' =>
    rw [he] at hw
    obtain ⟨a, rfl, ha⟩ := hw
    exact ⟨a, s', rfl, ha⟩
  | error e s' => rw [he] at hw; exact hw.elim

theorem inv_run {poolSize : Int} (h : 1 ≤ poolSize) (ops : List (Op T)) :
    Inv ((machine poolSize).run ops) ∧
      ((machine poolSize).run ops).poolSize = min poolSize defaultPoolSize := by
  refine (machine (T := T) poolSize).run_induction
    (P := fun _ s => Inv s ∧ s.poolSize = min poolSize defaultPoolSize) ⟨inv_new h, rfl⟩ ?_ ops
  intro _ op s h
  obtain ⟨hi, hsz⟩ := h
  obtain ⟨r, s', he, hi', hsz', -⟩ := machine_step_of_wp poolSize op (f := id)
    (bind_pure _).symm (wp_exec hi op)
  rw [he]
  exact ⟨hi', hsz'.trans hsz⟩

/-- **The pool invariant.**  After any calls on a pool of at least one port, the
structures of every tracked public IP agree and stay inside the pool, every
further call returns, and a port that is granted was not allocated before. -/
theorem pool_invariant (poolSize : Int) (h : 1 ≤ poolSize) (ops : List (Op T)) :
    let s := (machine poolSize).run ops
    (∀ ip ∈ s.allocated, ∃ allocatedSet ports next,
      s.allocated.get? ip = some allocatedSet ∧ s.allocations.get? ip = some ports ∧
      s.nextPort.get? ip = some next ∧
      allocatedSet = ports.keys.toFinset ∧
      (∀ p a, ports.get? p = some a → a.port = p) ∧
      (∀ p ∈ allocatedSet, 1024 ≤ p ∧ p ≤ 1024 + min poolSize 64512 - 1) ∧
      (allocatedSet.card : Int) ≤ min poolSize 64512 ∧
      1024 ≤ next ∧ next ≤ 1024 + min poolSize 64512 - 1) ∧
    ∀ op, ∃ r, ((machine poolSize).step s op).1 = .ok r ∧
      ∀ ip srcIp dstIp dstPort protocol timeout now port,
        op = .allocatePort ip srcIp dstIp dstPort protocol timeout now → r = .port (some port) →
          ∀ allocatedSet, s.allocated.get? ip = some allocatedSet → port ∉ allocatedSet := by
  intro s
  obtain ⟨hi, hsz⟩ := inv_run h ops
  refine ⟨fun ip hip => ?_, fun op => ?_⟩
  · obtain ⟨allocatedSet, ports, next, ha, hd, hn, hok⟩ := hi.of_mem hip
    have hcard := hok.card_le
    rw [hsz] at hok hcard
    exact ⟨allocatedSet, ports, next, ha, hd, hn, hok.keys, hok.port_eq, hok.range, hcard,
      hok.cursor⟩
  · obtain ⟨r, s', he, -, -, hfree⟩ := machine_step_of_wp poolSize op (f := id)
      (bind_pure _).symm (wp_exec hi op)
    refine ⟨r, by rw [he, id_eq], ?_⟩
    intro ip srcIp dstIp dstPort protocol timeout now port hop hr allocatedSet ha
    have := hfree ip srcIp dstIp dstPort protocol timeout now port hop hr
    rw [held, ha] at this
    exact this

/-- Two allocations from a pool of two ports, a release, and a further call. -/
theorem pool_invariant_two :
    let ops : List (Op Int) :=
      [.allocatePort "1.2.3.4" "10.0.0.1" "8.8.8.8" 443 "tcp" 300 0,
        .allocatePort "1.2.3.4" "10.0.0.2" "8.8.8.8" 443 "tcp" 300 1, .releasePort "1.2.3.4" 1024]
    (1 : Int) ≤ 2 ∧ "1.2.3.4" ∈ ((machine 2).run ops).allocated ∧
      (∃ allocatedSet ports, ((machine 2).run ops).allocated.get? "1.2.3.4" = some allocatedSet ∧
        ((machine 2).run ops).allocations.get? "1.2.3.4" = some ports ∧
        allocatedSet = ports.keys.toFinset) ∧
      ∃ r, ((machine 2).step ((machine 2).run ops)
        (.allocatePort "1.2.3.4" "10.0.0.3" "8.8.8.8" 443 "tcp" 300 2)).1 = .ok r := by
  intro ops
  have hmem : "1.2.3.4" ∈ ((machine 2).run ops).allocated := by decide
  obtain ⟨hip, hop⟩ := pool_invariant (T := Int) 2 (by decide) ops
  obtain ⟨allocatedSet, ports, -, ha, hd, -, hkeys, -⟩ := hip "1.2.3.4" hmem
  obtain ⟨r, hr, -⟩ := hop (.allocatePort "1.2.3.4" "10.0.0.3" "8.8.8.8" 443 "tcp" 300 2)
  exact ⟨by decide, hmem, ⟨allocatedSet, ports, ha, hd, hkeys⟩, r, hr⟩

end Expiry

end SNATState

end PrismFirewall.TcFirewall
