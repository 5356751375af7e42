import PrismFirewall.TcFirewall.SnatPool

/-!
# One pool for each public IP

An `SNATState` keeps three maps from public IPs, and `release_expired` goes over all of
them in one sweep.  What the class is meant to be is simpler: a pool of ports for each
public IP, and the pools have nothing to do with each other.  `Pools` is that model, and
`Represents` ties the maps to it.  `represents_step` is the refinement: every call does to
the maps what `Pools.step` does to the pools, and answers the same.

The model needs no assumption on the size of the pool.  `ips_do_not_interfere` reads off
that the answers about one public IP do not depend on the calls about another.
-/

namespace PrismFirewall.TcFirewall.SNATState

open Lib

variable {T : Type}

/-! ### The pool of one public IP -/

structure PortPool (T : Type) where
  allocated : Finset Int
  allocations : Dict Int (PortAllocation T)
  next : Int

namespace PortPool

def new : PortPool T := ⟨∅, .empty, portMin⟩

/-- The free port a search finds, and where the next search starts. -/
def find (size : Int) (pool : PortPool T) : Option (Int × Int) :=
  match scan pool.allocated (portMin + size - 1 + 1 - pool.next).toNat pool.next with
  | some port => some (port, if port + 1 > portMin + size - 1 then portMin else port + 1)
  | none => (scan pool.allocated (pool.next - portMin).toNat portMin).map (fun p => (p, p + 1))

def allocate (size : Int) (record : Int → PortAllocation T) (pool : PortPool T) :
    Option Int × PortPool T :=
  if (pool.allocated.card : Int) ≥ size then (none, pool)
  else match pool.find size with
    | none => (none, pool)
    | some (port, next) =>
      (some port, ⟨insert port pool.allocated, pool.allocations.insert port (record port), next⟩)

def discard (pool : PortPool T) (port : Int) : PortPool T :=
  { pool with allocated := pool.allocated.erase port, allocations := pool.allocations.erase port }

def release (port : Int) (pool : PortPool T) : Bool × PortPool T :=
  if port ∈ pool.allocated then (true, pool.discard port) else (false, pool)

def isExhausted (size : Int) (pool : PortPool T) : Bool :=
  decide ((pool.allocated.card : Int) ≥ size)

variable [Sub T] [LE T] [DecidableLE T]

def expire (now : T) (pool : PortPool T) : PortPool T :=
  (expiredPorts now pool.allocations).foldl discard pool

end PortPool

/-! ### The pools -/

/-- The pools of the public IPs that were ever asked for a port. -/
def Pools (T : Type) : Type := String → Option (PortPool T)

/-- The pool of one public IP is written. -/
def Pools.put (pools : Pools T) (ip : String) (pool : PortPool T) : Pools T :=
  fun k => if k = ip then some pool else pools k

/-- Of two writes the second counts. -/
theorem Pools.put_put (pools : Pools T) (ip : String) (pool pool' : PortPool T) :
    (pools.put ip pool).put ip pool' = pools.put ip pool' := by
  funext k
  simp only [Pools.put]
  by_cases hk : k = ip
  · rw [if_pos hk, if_pos hk]
  · rw [if_neg hk, if_neg hk, if_neg hk]

theorem Pools.put_of_eq {pools : Pools T} {ip : String} {pool : PortPool T}
    (hp : pools ip = some pool) : pools.put ip pool = pools := by
  funext k
  rw [Pools.put]
  by_cases hk : k = ip
  · rw [if_pos hk, hk, hp]
  · rw [if_neg hk]

/-- What one call does to the pools.  The number of ports that were reaped is not a
matter of one pool and is left open. -/
def Pools.step [Sub T] [LE T] [DecidableLE T] (size : Int) (pools : Pools T) :
    Op T → Option Result × Pools T
  | .allocatePort ip srcIp dstIp dstPort protocol timeout now =>
    let r := ((pools ip).getD .new).allocate size
      (fun port => ⟨port, srcIp, dstIp, dstPort, protocol, now, timeout⟩)
    (some (.port r.1), pools.put ip r.2)
  | .releasePort ip port =>
    match pools ip with
    | none => (some (.released false), pools)
    | some pool => (some (.released (pool.release port).1), pools.put ip (pool.release port).2)
  | .releaseExpired now => (none, fun ip => (pools ip).map (PortPool.expire now))

/-- The three maps are those of the pools. -/
structure Represents (size : Int) (s : SNATState T) (pools : Pools T) : Prop where
  size : s.poolSize = size
  allocated : ∀ ip, s.allocated.get? ip = (pools ip).map PortPool.allocated
  allocations : ∀ ip, s.allocations.get? ip = (pools ip).map PortPool.allocations
  next : ∀ ip, s.nextPort.get? ip = (pools ip).map PortPool.next

theorem represents_new (poolSize : Int) :
    Represents (min poolSize defaultPoolSize) (new poolSize : SNATState T) (fun _ => none) :=
  ⟨rfl, fun _ => rfl, fun _ => rfl, fun _ => rfl⟩

namespace Represents

variable {size : Int} {s s' : SNATState T} {pools : Pools T} {ip : String} {pool : PortPool T}

theorem get? (h : Represents size s pools) (hp : pools ip = some pool) :
    s.allocated.get? ip = some pool.allocated ∧ s.allocations.get? ip = some pool.allocations ∧
      s.nextPort.get? ip = some pool.next := by
  rw [h.allocated, h.allocations, h.next, hp]
  exact ⟨rfl, rfl, rfl⟩

/-- A map that is written at one public IP is that of pools written there. -/
theorem map_put {ν : Type} {d d' : Dict String ν} {f : PortPool T → ν}
    (h : ∀ k, d.get? k = (pools k).map f)
    (hd : ∀ k, d'.get? k = if k = ip then some (f pool) else d.get? k) (k : String) :
    d'.get? k = (pools.put ip pool k).map f := by
  rw [hd, Pools.put]
  by_cases hk : k = ip
  · rw [if_pos hk, if_pos hk]
    rfl
  · rw [if_neg hk, if_neg hk, h]

/-- All three maps are written at one public IP. -/
theorem put (h : Represents size s pools) (hsize : s'.poolSize = s.poolSize)
    (ha : ∀ k, s'.allocated.get? k = if k = ip then some pool.allocated else s.allocated.get? k)
    (hd : ∀ k, s'.allocations.get? k =
      if k = ip then some pool.allocations else s.allocations.get? k)
    (hn : ∀ k, s'.nextPort.get? k = if k = ip then some pool.next else s.nextPort.get? k) :
    Represents size s' (pools.put ip pool) :=
  ⟨hsize.trans h.size, map_put h.allocated ha, map_put h.allocations hd, map_put h.next hn⟩

/-- The first lines of `allocate_port`. -/
theorem track (h : Represents size s pools) (ip : String) :
    Represents size (s.track ip) (pools.put ip ((pools ip).getD .new)) := by
  unfold SNATState.track
  cases hp : pools ip with
  | some pool =>
    have hmem : ip ∈ s.allocated := Dict.mem_of_get? (h.get? hp).1
    rw [if_pos hmem, Option.getD_some, Pools.put_of_eq hp]
    exact h
  | none =>
    have hmem : ip ∉ s.allocated := by
      rw [← Dict.get?_eq_none_iff, h.allocated, hp]
      rfl
    rw [if_neg hmem]
    exact h.put rfl (fun k => Dict.get?_insert _ _ _ _) (fun k => Dict.get?_insert _ _ _ _)
      (fun k => Dict.get?_insert _ _ _ _)

end Represents

/-! ### The methods -/

section Methods

variable {size : Int} {s : SNATState T} {pools : Pools T} {ip : String} {pool : PortPool T}

/-- The search writes the cursor and nothing else. -/
theorem wp_findAvailablePort_eq (ha : s.allocated.get? ip = some pool.allocated)
    (hn : s.nextPort.get? ip = some pool.next) :
    wp (findAvailablePort ip) s (fun r s' => r = (pool.find s.poolSize).map Prod.fst ∧
      s' = match pool.find s.poolSize with
        | some (_, next) => { s with nextPort := s.nextPort.insert ip next }
        | none => s) (fun _ _ => False) := by
  unfold findAvailablePort PortPool.find effectiveMax
  rw [wp_bind, wp_get, wp_bind, wp_item_of_get? ha, wp_bind, wp_item_of_get? hn]
  cases scan pool.allocated (portMin + s.poolSize - 1 + 1 - pool.next).toNat pool.next with
  | some port => exact ⟨rfl, rfl⟩
  | none =>
    dsimp only
    cases scan pool.allocated (pool.next - portMin).toNat portMin with
    | some port => exact ⟨rfl, rfl⟩
    | none => exact ⟨rfl, rfl⟩

theorem wp_allocatePort_eq (h : Represents size s pools) (ip srcIp dstIp : String)
    (dstPort : Int) (protocol : String) (timeout now : T) :
    wp (allocatePort ip srcIp dstIp dstPort protocol timeout now) s
      (fun r s' =>
        let a := ((pools ip).getD .new).allocate size
          (fun port => ⟨port, srcIp, dstIp, dstPort, protocol, now, timeout⟩)
        r = a.1 ∧ Represents size s' (pools.put ip a.2)) (fun _ _ => False) := by
  have ht := h.track ip
  generalize hpool : (pools ip).getD .new = pool at ht ⊢
  have hput : (pools.put ip pool) ip = some pool := if_pos rfl
  obtain ⟨ha, hd, hn⟩ := ht.get? hput
  unfold allocatePort PortPool.allocate
  rw [wp_bind, wp_modify, wp_bind, wp_get, wp_bind, wp_item_of_get? ha, ht.size]
  by_cases hfull : (pool.allocated.card : Int) ≥ size
  · rw [if_pos hfull, if_pos hfull, wp_pure]
    exact ⟨rfl, ht⟩
  · rw [if_neg hfull, if_neg hfull, wp_bind]
    refine wp_mono (wp_findAvailablePort_eq ha hn) ?_ (fun _ _ hf => hf)
    intro r s' h'
    obtain ⟨rfl, rfl⟩ := h'
    rw [ht.size]
    cases pool.find size with
    | none => exact ⟨rfl, ht⟩
    | some x =>
      obtain ⟨port, next⟩ := x
      simp only [Option.map_some, wp_bind, wp_get, wp_item_of_get? hd, wp_set, wp_pure]
      refine ⟨trivial, ?_⟩
      rw [← Pools.put_put pools ip pool]
      exact ht.put ht.size.symm (fun k => Dict.get?_insert _ _ _ _)
        (fun k => Dict.get?_insert _ _ _ _) (fun k => Dict.get?_insert _ _ _ _)

theorem wp_discard_eq (h : Represents size s pools) (hp : pools ip = some pool) (port : Int) :
    wp (discard ip port) s (fun _ s' => Represents size s' (pools.put ip (pool.discard port)))
      (fun _ _ => False) := by
  obtain ⟨ha, hd, hn⟩ := h.get? hp
  unfold discard
  simp only [wp_bind, wp_get, wp_item_of_get? ha, wp_item_of_get? hd, wp_set]
  exact h.put rfl (fun k => Dict.get?_insert _ _ _ _) (fun k => Dict.get?_insert _ _ _ _)
    (get?_eq_ite hn)

theorem wp_releasePort_eq (h : Represents size s pools) (ip : String) (port : Int) :
    wp (releasePort ip port) s (fun r s' => match pools ip with
      | none => r = false ∧ s' = s
      | some pool => r = (pool.release port).1 ∧
          Represents size s' (pools.put ip (pool.release port).2)) (fun _ _ => False) := by
  unfold releasePort PortPool.release
  rw [wp_bind, wp_get]
  cases hp : pools ip with
  | none =>
    have hmem : ip ∉ s.allocated := by
      rw [← Dict.get?_eq_none_iff, h.allocated, hp]
      rfl
    rw [if_pos hmem]
    exact ⟨rfl, rfl⟩
  | some pool =>
    obtain ⟨ha, -, -⟩ := h.get? hp
    rw [if_neg (not_not.mpr (Dict.mem_of_get? ha)), wp_bind, wp_item_of_get? ha]
    by_cases hport : port ∈ pool.allocated
    · rw [if_neg (not_not.mpr hport), wp_bind]
      refine wp_mono (wp_discard_eq h hp port) ?_ (fun _ _ hf => hf)
      intro _ s' h'
      rw [wp_pure]
      simp only [if_pos hport]
      exact ⟨trivial, h'⟩
    · rw [if_pos hport, wp_pure]
      simp only [if_neg hport]
      rw [Pools.put_of_eq hp]
      exact ⟨trivial, h⟩

theorem isExhausted_eq (h : Represents size s pools) (ip : String) :
    s.isExhausted ip = (pools ip).any (PortPool.isExhausted size) := by
  unfold SNATState.isExhausted PortPool.isExhausted
  rw [h.allocated, h.size]
  cases pools ip <;> rfl

variable [Sub T] [LE T] [DecidableLE T]

/-- The sweep over some of the public IPs: their pools expire, the others stay. -/
theorem wp_releaseExpiredOn_eq (now : T) (ips : List String) (hnd : ips.Nodup)
    (h : Represents size s pools) (hips : ∀ ip ∈ ips, ∃ pool, pools ip = some pool) :
    wp (releaseExpiredOn now ips) s (fun _ s' => Represents size s'
      (fun ip => if ip ∈ ips then (pools ip).map (PortPool.expire now) else pools ip))
      (fun _ _ => False) := by
  induction ips generalizing s pools with
  | nil =>
    rw [releaseExpiredOn, wp_pure]
    simpa using h
  | cons ip rest ih =>
    obtain ⟨hnot, hnd⟩ := List.nodup_cons.mp hnd
    obtain ⟨pool, hp⟩ := hips ip List.mem_cons_self
    obtain ⟨-, hd, -⟩ := h.get? hp
    rw [releaseExpiredOn]
    simp only [wp_bind, wp_get, wp_item_of_get? hd]
    -- the inner loop discards the expired ports of this pool one after the other
    refine wp_mono (wp_forM (I := fun done s' =>
      Represents size s' (pools.put ip (done.foldl PortPool.discard pool)))
      (expiredPorts now pool.allocations) ?_ s ?_) ?_ (fun _ _ hf => hf)
    · intro done port left s' _ h'
      refine wp_mono (wp_discard_eq h' (if_pos rfl) port) ?_ (fun _ _ hf => hf)
      intro _ s'' h''
      rw [Pools.put_put] at h''
      simpa only [List.foldl_append, List.foldl_cons, List.foldl_nil] using h''
    · rw [List.foldl_nil, Pools.put_of_eq hp]
      exact h
    · intro _ s' h'
      refine wp_mono (ih hnd h' (fun k hk => ?_)) ?_ (fun _ _ hf => hf)
      · have hne : k ≠ ip := fun he => hnot (he ▸ hk)
        rw [Pools.put, if_neg hne]
        exact hips k (List.mem_cons_of_mem _ hk)
      · intro _ s'' h''
        have hpools : (fun k => if k ∈ rest then
            (pools.put ip ((expiredPorts now pool.allocations).foldl PortPool.discard pool) k).map
              (PortPool.expire now)
            else pools.put ip ((expiredPorts now pool.allocations).foldl PortPool.discard pool) k)
            = fun k => if k ∈ ip :: rest then (pools k).map (PortPool.expire now) else pools k := by
          funext k
          by_cases hk : k = ip
          · subst hk
            rw [if_neg hnot, if_pos List.mem_cons_self, hp]
            exact if_pos rfl
          · simp only [Pools.put, List.mem_cons, hk, false_or, if_false]
        rw [← hpools]
        exact h''

theorem wp_releaseExpired_eq (h : Represents size s pools) (now : T) :
    wp (releaseExpired now) s (fun _ s' => Represents size s'
      (fun ip => (pools ip).map (PortPool.expire now))) (fun _ _ => False) := by
  have hmem : ∀ ip, ip ∈ s.allocations.keys ↔ ∃ pool, pools ip = some pool := by
    intro ip
    rw [← Dict.mem_def, Dict.mem_iff_get?, h.allocations]
    cases pools ip <;> simp
  unfold releaseExpired
  rw [wp_bind, wp_get]
  refine wp_mono (wp_releaseExpiredOn_eq now _ s.allocations.nodup h
    (fun ip hip => (hmem ip).mp hip)) ?_ (fun _ _ hf => hf)
  intro _ s' h'
  have hpools : (fun ip => if ip ∈ s.allocations.keys then (pools ip).map (PortPool.expire now)
      else pools ip) = fun ip => (pools ip).map (PortPool.expire now) := by
    funext ip
    by_cases hip : ip ∈ s.allocations.keys
    · rw [if_pos hip]
    · rw [if_neg hip]
      cases hp : pools ip with
      | none => rfl
      | some pool => exact absurd ((hmem ip).mpr ⟨pool, hp⟩) hip
  rw [← hpools]
  exact h'

/-- **One call and the pools**: every call returns, does to the maps what it does to the
pools, and has the same answer. -/
theorem represents_step (poolSize : Int) (h : Represents size s pools) (op : Op T) :
    ∃ r s', (machine poolSize).step s op = (.ok r, s') ∧
      Represents size s' (pools.step size op).2 ∧
      ∀ a, (pools.step size op).1 = some a → r = a := by
  cases op with
  | allocatePort ip srcIp dstIp dstPort protocol timeout now =>
    obtain ⟨r, s', he, hr, h'⟩ := machine_step_of_wp poolSize
      (.allocatePort ip srcIp dstIp dstPort protocol timeout now) rfl
      (wp_allocatePort_eq h ip srcIp dstIp dstPort protocol timeout now)
    refine ⟨_, s', he, h', ?_⟩
    rintro a ⟨⟩
    rw [hr]
  | releasePort ip port =>
    obtain ⟨r, s', he, h'⟩ := machine_step_of_wp poolSize (.releasePort ip port) rfl
      (wp_releasePort_eq h ip port)
    refine ⟨_, s', he, ?_⟩
    simp only [Pools.step]
    cases hp : pools ip with
    | none =>
      simp only [hp] at h'
      obtain ⟨rfl, rfl⟩ := h'
      refine ⟨h, ?_⟩
      rintro a ⟨⟩
      rfl
    | some pool =>
      simp only [hp] at h'
      refine ⟨h'.2, ?_⟩
      rintro a ⟨⟩
      rw [h'.1]
  | releaseExpired now =>
    obtain ⟨r, s', he, h'⟩ := machine_step_of_wp poolSize (.releaseExpired now) rfl
      (wp_releaseExpired_eq h now)
    exact ⟨_, s', he, h', fun a ha => by cases ha⟩

/-- After any calls the maps are those of some pools. -/
theorem represents_run (poolSize : Int) (ops : List (Op T)) :
    ∃ pools, Represents (min poolSize defaultPoolSize) ((machine poolSize).run ops) pools := by
  refine (machine poolSize).run_induction
    (P := fun _ s => ∃ pools, Represents (min poolSize defaultPoolSize) s pools)
    ⟨_, represents_new poolSize⟩ ?_ ops
  intro _ op s h
  obtain ⟨pools, h⟩ := h
  obtain ⟨r, s', he, h', -⟩ := represents_step poolSize h op
  rw [he]
  exact ⟨_, h'⟩

end Methods

/-! ### Calls about one public IP -/

/-- A call of one of the methods, the question `is_exhausted` included. -/
inductive PoolCall (T : Type)
  | op (op : Op T)
  | isExhausted (publicIp : String)

inductive PoolAnswer
  | result (r : Result)
  | exhausted (b : Bool)
  deriving DecidableEq

/-- The call is about the public IP. -/
def PoolCall.isOn (x : String) : PoolCall T → Bool
  | .op (.allocatePort ip ..) => decide (ip = x)
  | .op (.releasePort ip _) => decide (ip = x)
  | .op (.releaseExpired _) => false
  | .isExhausted ip => decide (ip = x)

/-- The call allocates or releases a port of another public IP. -/
def PoolCall.isElsewhere (x : String) : PoolCall T → Bool
  | .op (.allocatePort ip ..) => decide (ip ≠ x)
  | .op (.releasePort ip _) => decide (ip ≠ x)
  | .op (.releaseExpired _) => false
  | .isExhausted _ => false

section Interference

variable [Sub T] [LE T] [DecidableLE T]

/-- An `SNATState` that is also asked whether a pool is exhausted. -/
def service (poolSize : Int) : Machine (SNATState T) (PoolCall T) (Except Exc PoolAnswer) where
  init := .new poolSize
  step s
    | .op op => (((machine poolSize).step s op).1.map .result, ((machine poolSize).step s op).2)
    | .isExhausted ip => (.ok (.exhausted (s.isExhausted ip)), s)

/-- The answers to the calls about one public IP, in order. -/
def answersOn (poolSize : Int) (x : String) (calls : List (PoolCall T)) :
    List (Except Exc PoolAnswer) :=
  (service poolSize).events (fun _ call answer => if call.isOn x then some answer else none) calls

/-- What a call does to the pools, and what it answers as far as that is a matter of one
pool. -/
def Pools.serve (size : Int) (pools : Pools T) : PoolCall T → Option PoolAnswer × Pools T
  | .op op => ((pools.step size op).1.map .result, (pools.step size op).2)
  | .isExhausted ip =>
    (some (.exhausted ((pools ip).any (PortPool.isExhausted size))), pools)

variable {size : Int} {s : SNATState T} {pools pools' : Pools T} {x : String}

theorem represents_serve (poolSize : Int) (h : Represents size s pools) (call : PoolCall T) :
    ∃ r s', (service poolSize).step s call = (.ok r, s') ∧
      Represents size s' (pools.serve size call).2 ∧
      ∀ a, (pools.serve size call).1 = some a → r = a := by
  cases call with
  | op op =>
    obtain ⟨r, s', he, h', ha⟩ := represents_step poolSize h op
    refine ⟨.result r, s', ?_, h', ?_⟩
    · simp only [service, he]
      rfl
    · intro a hs
      obtain ⟨a', ha', rfl⟩ := Option.map_eq_some_iff.mp hs
      rw [ha a' ha']
  | isExhausted ip =>
    refine ⟨_, s, rfl, h, ?_⟩
    rintro a ⟨⟩
    rw [isExhausted_eq h]

/-- A call about another public IP leaves the pool alone. -/
theorem Pools.serve_elsewhere (size : Int) (pools : Pools T) {call : PoolCall T}
    (hc : call.isElsewhere x = true) :
    (pools.serve size call).2 x = pools x ∧ call.isOn x = false := by
  cases call with
  | op op =>
    cases op with
    | allocatePort ip srcIp dstIp dstPort protocol timeout now =>
      have hne : ip ≠ x := of_decide_eq_true hc
      exact ⟨if_neg hne.symm, decide_eq_false hne⟩
    | releasePort ip port =>
      have hne : ip ≠ x := of_decide_eq_true hc
      refine ⟨?_, decide_eq_false hne⟩
      simp only [serve, step]
      cases pools ip with
      | none => rfl
      | some pool => exact if_neg hne.symm
    | releaseExpired now => cases hc
  | isExhausted ip => cases hc

/-- **Every other call sees nothing but the pool of its public IP**: from pools that agree
at `x` it leads to pools that agree at `x`, and if it is about `x` it has one answer. -/
theorem Pools.serve_congr (size : Int) (h : pools x = pools' x) {call : PoolCall T}
    (hc : call.isElsewhere x = false) :
    (pools.serve size call).2 x = (pools'.serve size call).2 x ∧
      (call.isOn x = true →
        ∃ a, (pools.serve size call).1 = some a ∧ (pools'.serve size call).1 = some a) := by
  cases call with
  | op op =>
    cases op with
    | allocatePort ip srcIp dstIp dstPort protocol timeout now =>
      obtain rfl : ip = x := not_not.mp (of_decide_eq_false hc)
      simp only [serve, step, put, h]
      exact ⟨trivial, fun _ => ⟨_, rfl, rfl⟩⟩
    | releasePort ip port =>
      obtain rfl : ip = x := not_not.mp (of_decide_eq_false hc)
      simp only [serve, step, h]
      cases hp : pools' ip with
      | none => exact ⟨h, fun _ => ⟨_, rfl, rfl⟩⟩
      | some pool =>
        refine ⟨?_, fun _ => ⟨_, rfl, rfl⟩⟩
        simp only [put, if_true]
    | releaseExpired now =>
      simp only [serve, step, h]
      exact ⟨trivial, fun hon => by cases hon⟩
  | isExhausted ip =>
    refine ⟨h, fun hon => ?_⟩
    obtain rfl : ip = x := of_decide_eq_true hon
    simp only [serve, h]
    exact ⟨_, rfl, rfl⟩

/-- **Public IPs do not influence each other.**  The answers to the calls about `x` are
those of the run without the calls that allocate or release a port of another public
IP. -/
theorem ips_do_not_interfere (poolSize : Int) (x : String) (calls : List (PoolCall T)) :
    answersOn poolSize x calls
      = answersOn poolSize x (calls.filter (fun call => !call.isElsewhere x)) := by
  -- the two runs stand for pools that agree at `x`
  suffices h : ∃ pools pools' : Pools T,
      Represents (min poolSize defaultPoolSize) ((service poolSize).run calls) pools ∧
      Represents (min poolSize defaultPoolSize)
        ((service poolSize).run (calls.filter (fun call => !call.isElsewhere x))) pools' ∧
      pools x = pools' x ∧ answersOn poolSize x calls
        = answersOn poolSize x (calls.filter (fun call => !call.isElsewhere x)) by
    obtain ⟨-, -, -, -, -, h⟩ := h
    exact h
  unfold answersOn
  induction calls using List.reverseRecOn with
  | nil => exact ⟨_, _, represents_new poolSize, represents_new poolSize, rfl, rfl⟩
  | append_singleton calls call ih =>
    obtain ⟨pools, pools', h, h', hx, hans⟩ := ih
    obtain ⟨r, s, he, hs, ha⟩ := represents_serve poolSize h call
    rw [List.filter_append, Machine.run_append_singleton, Machine.events_append_singleton, he]
    cases hc : call.isElsewhere x with
    | true =>
      obtain ⟨hkept, hon⟩ := pools.serve_elsewhere (min poolSize defaultPoolSize) hc
      simp only [List.filter_cons, hc, hon]
      refine ⟨_, pools', hs, by simpa using h', hkept.trans hx, ?_⟩
      simpa using hans
    | false =>
      obtain ⟨hagree, honce⟩ := Pools.serve_congr (min poolSize defaultPoolSize) hx hc
      obtain ⟨r', s', he', hs', ha'⟩ := represents_serve poolSize h' call
      have hf : [call].filter (fun call => !call.isElsewhere x) = [call] := by simp [hc]
      rw [hf, Machine.run_append_singleton, Machine.events_append_singleton, he']
      refine ⟨_, _, hs, hs', hagree, ?_⟩
      rw [hans]
      cases hon : call.isOn x with
      | false => rfl
      | true =>
        obtain ⟨a, h1, h2⟩ := honce hon
        rw [ha a h1, ha' a h2]

end Interference

end PrismFirewall.TcFirewall.SNATState
