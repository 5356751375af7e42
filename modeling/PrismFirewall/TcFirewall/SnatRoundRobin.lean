import PrismFirewall.Lib.Ring
import PrismFirewall.TcFirewall.SnatPerIp

/-!
# Which port is granted

The two loops of `_find_available_port` search the pool from the cursor to its end and
then from its start to the cursor.  Together they go once round the pool, so they find the
first free port in the order of the ring, or there is none (`PortPool.find_spec`).  There
is none only when all ports are allocated, and that is checked before: the search never
comes back empty (`allocation_complete`).

The cursor moves behind the port that was granted and nothing else moves it
(`cursor_of_not_grants`).  So on its way from a port round to the same port it passes
every other one, and what it passes is allocated at that moment or is granted
(`ports_reused_late`).
-/

namespace PrismFirewall.TcFirewall.SNATState

open Lib Lib.Ring

variable {T : Type}

/-- Where the search on a public IP starts. -/
def cursor (s : SNATState T) (ip : String) : Int := (s.nextPort.get? ip).getD portMin

/-! ### The search -/

theorem scan_passed {allocatedSet : Finset Int} {n : Nat} {start port : Int}
    (h : scan allocatedSet n start = some port) :
    ∀ q, start ≤ q → q < port → q ∈ allocatedSet := by
  induction n generalizing start with
  | zero => simp [scan] at h
  | succ n ih =>
    intro q hq hlt
    rw [scan] at h
    split at h
    · cases h
      omega
    · rename_i hin
      by_cases he : q = start
      · exact he ▸ not_not.mp hin
      · exact ih h q (by omega) hlt

theorem scan_eq_none {allocatedSet : Finset Int} {n : Nat} {start : Int}
    (h : scan allocatedSet n start = none) :
    ∀ q, start ≤ q → q < start + n → q ∈ allocatedSet := by
  induction n generalizing start with
  | zero =>
    intro q h1 h2
    omega
  | succ n ih =>
    intro q hq hlt
    rw [scan] at h
    split at h
    · cases h
    · rename_i hin
      by_cases he : q = start
      · exact he ▸ not_not.mp hin
      · exact ih h q (by omega) (by omega)

/-- **The two loops are one round**: what they find is the first free port from the cursor
on, and the cursor moves behind it; if they find nothing, the whole pool is allocated. -/
theorem PortPool.find_spec {size : Int} {pool : PortPool T}
    (hok : PoolOk size pool.allocated pool.allocations pool.next) :
    match pool.find size with
    | some (port, next) => FirstFree portMin size pool.allocated pool.next port ∧
        next = place portMin size port 1
    | none => ∀ q, portMin ≤ q → q < portMin + size → q ∈ pool.allocated := by
  obtain ⟨hc1, hc2⟩ := hok.cursor
  unfold find
  cases htail : scan pool.allocated (portMin + size - 1 + 1 - pool.next).toNat pool.next with
  | some port =>
    obtain ⟨hp1, hp2, hfree⟩ := scan_eq_some htail
    have hp3 : port < portMin + size := by omega
    refine ⟨firstFree_of_ahead hc1 hp1 hp3 hfree (scan_passed htail), ?_⟩
    by_cases hwrap : port + 1 > portMin + size - 1
    · rw [if_pos hwrap]
      by_cases hone : (1 : Int) < size
      · rw [place_of_ge (by omega) (by push_cast; omega) (by push_cast; omega)]
        omega
      · -- a ring of one port
        have hs : size = 1 := by omega
        simp only [hs, place, Int.emod_one]
        omega
    · rw [if_neg hwrap, place_of_lt (by omega) (by push_cast; omega)]
      rfl
  | none =>
    have htail' : ∀ q, pool.next ≤ q → q < portMin + size → q ∈ pool.allocated :=
      fun q h1 h2 => scan_eq_none htail q h1 (by omega)
    cases hhead : scan pool.allocated (pool.next - portMin).toNat portMin with
    | some port =>
      obtain ⟨hp1, hp2, hfree⟩ := scan_eq_some hhead
      refine ⟨firstFree_of_wrapped hp1 (by omega) (by omega) hfree htail' (scan_passed hhead), ?_⟩
      rw [place_of_lt (by omega) (by push_cast; omega)]
      rfl
    | none =>
      intro q h1 h2
      by_cases hq : pool.next ≤ q
      · exact htail' q hq h2
      · exact scan_eq_none hhead q h1 (by omega)

/-- A pool that is not full has a free port. -/
theorem exists_free {size : Int} {allocatedSet : Finset Int}
    (h : (allocatedSet.card : Int) < size) :
    ∃ q, (portMin ≤ q ∧ q < portMin + size) ∧ q ∉ allocatedSet := by
  have hcard : allocatedSet.card < (Finset.Ico portMin (portMin + size)).card := by
    rw [Int.card_Ico]
    omega
  obtain ⟨q, hq, hfree⟩ := Finset.exists_mem_notMem_of_card_lt_card hcard
  exact ⟨q, Finset.mem_Ico.mp hq, hfree⟩

/-- **An allocation** is refused when the pool is full, and otherwise grants the first free
port from the cursor on. -/
theorem PortPool.allocate_spec {size : Int} {pool : PortPool T}
    (hok : PoolOk size pool.allocated pool.allocations pool.next)
    (record : Int → PortAllocation T) :
    (size ≤ pool.allocated.card ∧ pool.allocate size record = (none, pool)) ∨
    ∃ port, (pool.allocated.card : Int) < size ∧ (pool.allocate size record).1 = some port ∧
      FirstFree portMin size pool.allocated pool.next port ∧
      (pool.allocate size record).2.next = place portMin size port 1 := by
  unfold allocate
  by_cases hfull : (pool.allocated.card : Int) ≥ size
  · rw [if_pos hfull]
    exact Or.inl ⟨hfull, rfl⟩
  · rw [if_neg hfull]
    have hspec := find_spec hok
    cases hf : pool.find size with
    | some x =>
      obtain ⟨port, next⟩ := x
      rw [hf] at hspec
      exact Or.inr ⟨port, by omega, rfl, hspec.1, hspec.2⟩
    | none =>
      rw [hf] at hspec
      obtain ⟨q, hq, hfree⟩ := exists_free (not_le.mp hfull)
      exact absurd (hspec q hq.1 hq.2) hfree

/-! ### The state and the pools -/

section Represents

variable {size : Int} {s : SNATState T} {pools : Pools T}

theorem Represents.held_eq (h : Represents size s pools) (ip : String) :
    s.held ip = ((pools ip).getD .new).allocated := by
  rw [held, h.allocated]
  cases pools ip <;> rfl

theorem Represents.cursor_eq (h : Represents size s pools) (ip : String) :
    s.cursor ip = ((pools ip).getD .new).next := by
  rw [cursor, h.next]
  cases pools ip <;> rfl

theorem Represents.poolOk (h : Represents size s pools) (hi : Inv s) (ip : String) :
    PoolOk size ((pools ip).getD .new).allocated ((pools ip).getD .new).allocations
      ((pools ip).getD .new).next := by
  cases hp : pools ip with
  | none => exact PoolOk.empty (h.size ▸ hi.pos)
  | some pool =>
    obtain ⟨ha, hd, hn⟩ := h.get? hp
    have hat := hi.pool ip
    rw [ha, hd, hn, h.size] at hat
    cases hat with
    | tracked hok => exact hok

end Represents

variable [Sub T] [LE T] [DecidableLE T]

theorem PortPool.next_expire (now : T) (pool : PortPool T) : (pool.expire now).next = pool.next := by
  unfold expire
  induction expiredPorts now pool.allocations generalizing pool with
  | nil => rfl
  | cons port rest ih => exact ih (pool.discard port)

/-! ### Completeness -/

/-- **Allocation is complete and takes the next port.**  After any calls on a pool of any
size, `allocate_port` returns nothing exactly if as many ports are allocated on the public
IP as the pool has, and otherwise it returns the first port in the order of the ring, from
the cursor on, that is not allocated. -/
theorem allocation_complete (poolSize : Int) (ops : List (Op T)) (ip srcIp dstIp : String)
    (dstPort : Int) (protocol : String) (timeout now : T) :
    let s := (machine poolSize).run ops
    let answer := ((machine poolSize).step s
      (.allocatePort ip srcIp dstIp dstPort protocol timeout now)).1
    (answer = .ok (.port none) ↔ min poolSize 64512 ≤ (s.held ip).card) ∧
    ((s.held ip).card < min poolSize 64512 → ∃ port, answer = .ok (.port (some port)) ∧
      FirstFree 1024 (min poolSize 64512) (s.held ip) (s.cursor ip) port) := by
  intro s answer
  obtain ⟨pools, h⟩ := represents_run poolSize ops
  obtain ⟨r, s', he, -, hr⟩ := represents_step poolSize h
    (.allocatePort ip srcIp dstIp dstPort protocol timeout now)
  have hanswer : answer = .ok r := by
    show ((machine poolSize).step _ _).1 = _
    rw [he]
  rw [hanswer, hr _ rfl, h.held_eq ip, h.cursor_eq ip]
  by_cases hpos : 1 ≤ poolSize
  · have hok := h.poolOk (inv_run hpos ops).1 ip
    rcases PortPool.allocate_spec hok (fun port => ⟨port, srcIp, dstIp, dstPort, protocol, now,
      timeout⟩) with ⟨hfull, ha⟩ | ⟨port, hlt, ha, hfirst, -⟩
    · rw [ha]
      exact ⟨iff_of_true rfl hfull, fun hlt => absurd hlt (not_lt.mpr hfull)⟩
    · rw [ha]
      exact ⟨iff_of_false (by simp) (not_le.mpr hlt), fun _ => ⟨port, rfl, hfirst⟩⟩
  · -- a pool of no ports is full from the start
    have hfull : min poolSize defaultPoolSize
        ≤ (((pools ip).getD .new).allocated.card : Int) := by omega
    rw [PortPool.allocate, if_pos hfull]
    exact ⟨iff_of_true rfl hfull, fun hlt => absurd hlt (not_lt.mpr hfull)⟩

/-! ### Late reuse -/

/-- The call is an allocation on the public IP and is granted the port. -/
def Grants (poolSize : Int) (s : SNATState T) (op : Op T) (ip : String) (port : Int) : Prop :=
  (∃ srcIp dstIp dstPort protocol timeout now,
    op = .allocatePort ip srcIp dstIp dstPort protocol timeout now) ∧
  ((machine poolSize).step s op).1 = .ok (.port (some port))

/-- A grant: the port is the first free one, and the cursor moves behind it. -/
theorem firstFree_of_grants {poolSize : Int} {ops : List (Op T)} (h1 : 1 ≤ poolSize) {op : Op T}
    {ip : String} {port : Int} (hg : Grants poolSize ((machine poolSize).run ops) op ip port) :
    FirstFree portMin (min poolSize defaultPoolSize) (((machine poolSize).run ops).held ip)
      (((machine poolSize).run ops).cursor ip) port ∧
    ((machine poolSize).run (ops ++ [op])).cursor ip
      = place portMin (min poolSize defaultPoolSize) port 1 := by
  obtain ⟨⟨srcIp, dstIp, dstPort, protocol, timeout, now, rfl⟩, hanswer⟩ := hg
  obtain ⟨pools, h⟩ := represents_run poolSize ops
  obtain ⟨r, s', he, h', hr⟩ := represents_step poolSize h
    (.allocatePort ip srcIp dstIp dstPort protocol timeout now)
  rw [he, hr _ rfl] at hanswer
  rw [Machine.run_append_singleton, he, h.held_eq ip, h.cursor_eq ip, h'.cursor_eq ip]
  simp only [Pools.step, Pools.put, if_true, Option.getD_some]
  rcases PortPool.allocate_spec (h.poolOk (inv_run h1 ops).1 ip) (fun port => ⟨port, srcIp, dstIp,
    dstPort, protocol, now, timeout⟩) with ⟨-, ha⟩ | ⟨port', -, ha, hfirst, hnext⟩
  · rw [ha] at hanswer
    simp at hanswer
  · rw [ha] at hanswer
    simp only [Except.ok.injEq, Result.port.injEq, Option.some.injEq] at hanswer
    subst hanswer
    exact ⟨hfirst, hnext⟩

/-- Every other call leaves the cursor where it is. -/
theorem cursor_of_not_grants {poolSize : Int} {ops : List (Op T)} (h1 : 1 ≤ poolSize) {op : Op T}
    {ip : String} (hg : ∀ port, ¬ Grants poolSize ((machine poolSize).run ops) op ip port) :
    ((machine poolSize).run (ops ++ [op])).cursor ip = ((machine poolSize).run ops).cursor ip := by
  obtain ⟨pools, h⟩ := represents_run poolSize ops
  obtain ⟨r, s', he, h', hr⟩ := represents_step poolSize h op
  rw [Machine.run_append_singleton, he, h.cursor_eq ip, h'.cursor_eq ip]
  cases op with
  | allocatePort ip' srcIp dstIp dstPort protocol timeout now =>
    by_cases hip : ip = ip'
    · subst hip
      simp only [Pools.step, Pools.put, if_true, Option.getD_some]
      rcases PortPool.allocate_spec (h.poolOk (inv_run h1 ops).1 ip) (fun port => ⟨port, srcIp,
        dstIp, dstPort, protocol, now, timeout⟩) with ⟨-, ha⟩ | ⟨port, -, ha, -, -⟩
      · rw [ha]
      · refine absurd ⟨⟨srcIp, dstIp, dstPort, protocol, timeout, now, rfl⟩, ?_⟩ (hg port)
        rw [he, hr _ rfl, ha]
    · simp only [Pools.step, Pools.put, if_neg hip]
  | releasePort ip' port =>
    simp only [Pools.step]
    cases hp : pools ip' with
    | none => rfl
    | some pool =>
      by_cases hip : ip = ip'
      · subst hip
        simp only [Pools.put, if_true, Option.getD_some, hp, PortPool.release]
        split <;> rfl
      · simp only [Pools.put, if_neg hip]
  | releaseExpired now =>
    simp only [Pools.step]
    cases pools ip with
    | none => rfl
    | some pool => exact PortPool.next_expire now pool

/-- In the course of the calls the port was held on the public IP, or was granted. -/
def UsedWithin (poolSize : Int) (ip : String) (before calls : List (Op T)) (q : Int) : Prop :=
  ∃ l l', calls = l ++ l' ∧ (q ∈ ((machine poolSize).run (before ++ l)).held ip ∨
    ∃ op rest, l' = op :: rest ∧ Grants poolSize ((machine poolSize).run (before ++ l)) op ip q)

theorem UsedWithin.cons {poolSize : Int} {ip : String} {before calls : List (Op T)} {op : Op T}
    {q : Int} (h : UsedWithin poolSize ip (before ++ [op]) calls q) :
    UsedWithin poolSize ip before (op :: calls) q := by
  obtain ⟨l, l', rfl, h⟩ := h
  refine ⟨op :: l, l', rfl, ?_⟩
  rw [List.append_assoc, List.singleton_append] at h
  exact h

/-- **The cursor passes over what is used.**  Until `p` is granted, every place ahead of
the cursor and before `p` is held at some moment or granted. -/
theorem usedWithin_of_ahead {poolSize : Int} (h1 : 1 ≤ poolSize) {ip : String} {p : Int}
    {op : Op T} {before calls : List (Op T)}
    (hg : Grants poolSize ((machine poolSize).run (before ++ calls)) op ip p) (i : Nat)
    (hp : ∀ j ≤ i, place portMin (min poolSize defaultPoolSize)
      (((machine poolSize).run before).cursor ip) j ≠ p) :
    UsedWithin poolSize ip before calls (place portMin (min poolSize defaultPoolSize)
      (((machine poolSize).run before).cursor ip) i) := by
  induction calls generalizing before i with
  | nil =>
    rw [List.append_nil] at hg
    obtain ⟨-, k, hk, hused⟩ := (firstFree_of_grants h1 hg).1
    have hik : i < k := by
      by_contra hle
      exact hp k (not_lt.mp hle) hk
    exact ⟨[], [], rfl, Or.inl (by rw [List.append_nil]; exact hused i hik)⟩
  | cons call calls ih =>
    rw [← List.singleton_append, ← List.append_assoc] at hg
    by_cases hgr : ∃ g, Grants poolSize ((machine poolSize).run before) call ip g
    · obtain ⟨g, hgr⟩ := hgr
      obtain ⟨hfirst, hcursor⟩ := firstFree_of_grants h1 hgr
      rcases hfirst.place_cases i with hin | he | ⟨i', hi', hnear⟩
      · exact ⟨[], _, rfl, Or.inl (by rw [List.append_nil]; exact hin)⟩
      · refine ⟨[], _, rfl, Or.inr ⟨call, calls, rfl, ?_⟩⟩
        rw [he, List.append_nil]
        exact hgr
      · -- the place is nearer now, so the rest of the calls covers it
        rw [← hi', ← hcursor]
        refine UsedWithin.cons (ih hg i' (fun j' hj' => ?_))
        obtain ⟨j, hj, he⟩ := hnear j' hj'
        rw [hcursor, he]
        exact hp j hj
    · have hcursor := cursor_of_not_grants h1 (fun g hgr' => hgr ⟨g, hgr'⟩)
      rw [← hcursor] at hp ⊢
      exact UsedWithin.cons (ih hg i hp)

/-- **Ports are reused as late as possible.**  Between two grants of one port on a public
IP, every other port of the pool was held on that public IP at some moment or was
granted. -/
theorem ports_reused_late (poolSize : Int) (ip : String) (p : Int) (before between : List (Op T))
    (first second : Op T) (hfirst : Grants poolSize ((machine poolSize).run before) first ip p)
    (hsecond : Grants poolSize ((machine poolSize).run (before ++ first :: between)) second ip p) :
    ∀ q, 1024 ≤ q → q ≤ 1024 + min poolSize 64512 - 1 → q ≠ p →
      UsedWithin poolSize ip (before ++ [first]) between q := by
  intro q hq1 hq2 hne
  have h1 : 1 ≤ poolSize := by omega
  have hn : 0 < min poolSize defaultPoolSize := by
    simp only [defaultPoolSize, portMax, portMin]
    omega
  obtain ⟨hfree, hcursor⟩ := firstFree_of_grants h1 hfirst
  have hpmem := hfree.mem hn
  have hq : portMin ≤ q ∧ q < portMin + min poolSize defaultPoolSize := by
    simp only [defaultPoolSize, portMax, portMin]
    omega
  obtain ⟨i, hi, hplace⟩ := exists_place hn p hq
  have hi0 : i ≠ 0 := by
    rintro rfl
    rw [place_zero hpmem] at hplace
    exact hne hplace.symm
  rw [← List.singleton_append, ← List.append_assoc] at hsecond
  have hahead := usedWithin_of_ahead h1 hsecond (i - 1)
  rw [hcursor, place_place, Nat.add_sub_cancel' (Nat.one_le_iff_ne_zero.mpr hi0), hplace] at hahead
  refine hahead (fun j hj => ?_)
  rw [place_place]
  exact place_ne_self hpmem (by omega) (by push_cast; omega)

/-- Two allocations, a release of the first port, and the allocation that comes round to it
again in a pool of two ports. -/
theorem ports_reused_late_two :
    let allocate (now : Int) : Op Int :=
      .allocatePort "203.0.113.7" "10.0.0.5" "8.8.8.8" 443 "tcp" 300 now
    Grants 2 ((machine 2).run []) (allocate 0) "203.0.113.7" 1024 ∧
    UsedWithin 2 "203.0.113.7" ([] ++ [allocate 0])
      [allocate 1, .releasePort "203.0.113.7" 1024] 1025 := by
  intro allocate
  have hfirst : Grants 2 ((machine 2).run []) (allocate 0) "203.0.113.7" 1024 :=
    ⟨⟨_, _, _, _, _, _, rfl⟩, by decide⟩
  refine ⟨hfirst, ports_reused_late 2 "203.0.113.7" 1024 [] _ (allocate 0) (allocate 2) hfirst
    ⟨⟨_, _, _, _, _, _, rfl⟩, by decide⟩ 1025 (by decide) (by decide) (by decide)⟩

end PrismFirewall.TcFirewall.SNATState
