import Mathlib.Tactic.Ring
import PrismFirewall.TcFirewall.Ha

/-!
# The fencing token

A promotion adds one to the generation of the node, whatever the peer has
announced.  So the generation of a node is where it started plus the number of
its promotions (`generation_run`), and a heartbeat carries that number as it was
when it was sent (`mem_received_iff`).  Whether a promotion yields a winning
token is decided by these counts alone: `fencing_token_iff`.
-/

namespace PrismFirewall.TcFirewall.Ha

open Lib

/-! ### One method -/

def Reply.isPromotion : Reply → Bool
  | .promoted _ _ => true
  | _ => false

/-- What every method does to the generation: a promotion adds one, and it is
the only way to become active. -/
structure Counts (m : HAManager) (r : Reply × HAManager) : Prop where
  generation : r.2.generation = m.generation + if r.1.isPromotion then 1 else 0
  peerUrl : r.2.peerUrl = m.peerUrl
  promoted : r.1.isPromotion ↔ m.role ≠ .ACTIVE ∧ r.2.role = .ACTIVE

theorem counts_promote (m : HAManager) : Counts m m.promote := by
  unfold HAManager.promote
  split
  · rename_i h
    exact ⟨by simp [Reply.isPromotion], rfl, by simp [Reply.isPromotion, h]⟩
  · rename_i h
    exact ⟨by simp [Reply.isPromotion], rfl, by simp [Reply.isPromotion, h]⟩

theorem counts_demote (m : HAManager) : Counts m m.demote := by
  unfold HAManager.demote
  split
  · rename_i h
    exact ⟨by simp [Reply.isPromotion], rfl, by simp [Reply.isPromotion, h]⟩
  · exact ⟨by simp [Reply.isPromotion], rfl, by simp [Reply.isPromotion]⟩

theorem counts_receiveHeartbeat (m : HAManager) (now : Rat) (peerGeneration : Int)
    (peerRole : HAState) : Counts m (m.receiveHeartbeat now peerGeneration peerRole) := by
  unfold HAManager.receiveHeartbeat HAManager.resolveSplitBrain
  dsimp only
  split
  · rename_i h
    split
    · exact ⟨by simp [Reply.isPromotion], rfl, by simp [Reply.isPromotion, h.1]⟩
    · split
      · exact ⟨by simp [Reply.isPromotion], rfl, by simp [Reply.isPromotion]⟩
      · exact ⟨by simp [Reply.isPromotion], rfl, by simp [Reply.isPromotion]⟩
  · exact ⟨by simp [Reply.isPromotion], rfl, by simp [Reply.isPromotion]⟩

theorem counts_none (m : HAManager) : Counts m (.none, m) :=
  ⟨by simp [Reply.isPromotion], rfl, by simp [Reply.isPromotion]⟩

theorem counts_monitor (m : HAManager) (now : Rat) : Counts m (m.monitor now) := by
  unfold HAManager.monitor
  split
  · split
    · exact counts_promote m
    · exact counts_none m
  · exact counts_none m

/-! ### One event -/

/-- An event changes one node, by a method, and leaves the other alone. -/
theorem counts_step (s : System) (e : Event) :
    Counts (s.nodes e.node) ((step s e).1, (step s e).2.nodes e.node) ∧
      ∀ n, n ≠ e.node → (step s e).2.nodes n = s.nodes n := by
  have hat : ∀ (s : System) (n : Node) (f : HAManager → Reply × HAManager),
      Counts (s.nodes n) (f (s.nodes n)) →
      Counts (s.nodes n) ((s.atNode n f).1, (s.atNode n f).2.nodes n) ∧
        ∀ n', n' ≠ n → (s.atNode n f).2.nodes n' = s.nodes n' := by
    intro s n f hf
    refine ⟨?_, fun n' hn' => Function.update_of_ne hn' _ _⟩
    simp only [System.atNode, Function.update_self]
    exact hf
  have hsame : ∀ n, Counts (s.nodes n) (.none, s.nodes n) := fun n => counts_none (s.nodes n)
  cases e with
  | send n =>
    rw [step]
    split
    · exact ⟨hsame n, fun _ _ => rfl⟩
    · exact ⟨hsame n, fun _ _ => rfl⟩
  | deliver n i now =>
    rw [step]
    split
    · rename_i h _
      exact hat { s with received := Function.update s.received n (s.received n ++ [h]) } n
        (fun m => m.receiveHeartbeat now h.generation h.role)
        (counts_receiveHeartbeat (s.nodes n) now h.generation h.role)
    · exact ⟨hsame n, fun _ _ => rfl⟩
  | monitor n now =>
    rw [step]
    split
    · exact hat s n (fun m => m.monitor now) (counts_monitor (s.nodes n) now)
    · exact ⟨hsame n, fun _ _ => rfl⟩
  | promote n => exact hat s n _ (counts_promote (s.nodes n))
  | demote n => exact hat s n _ (counts_demote (s.nodes n))

/-- The heartbeats sent by a node grow when it sends one. -/
theorem sent_step (s : System) (e : Event) (n : Node) :
    (step s e).2.sent n = if e = .send n ∧ (s.nodes n).peerUrl.getD "" ≠ ""
      then s.sent n ++ [(s.nodes n).heartbeat] else s.sent n := by
  cases e with
  | send n' =>
    by_cases hn : n' = n
    · subst hn
      by_cases hp : (s.nodes n').peerUrl.getD "" ≠ "" <;> simp [step, hp]
    · rw [if_neg (by simp [hn]), step]
      split
      · exact Function.update_of_ne (fun h => hn h.symm) _ _
      · rfl
  | deliver n' i now =>
    rw [if_neg (by simp), step]
    split <;> rfl
  | monitor n' now =>
    rw [if_neg (by simp), step]
    split <;> rfl
  | promote n' => rw [if_neg (by simp)]; rfl
  | demote n' => rw [if_neg (by simp)]; rfl

/-- The heartbeats received by a node grow when one that was sent is
delivered. -/
theorem mem_received_step {s : System} {e : Event} {n : Node} {h : Heartbeat} :
    h ∈ (step s e).2.received n ↔ h ∈ s.received n ∨
      ∃ i now, e = .deliver n i now ∧ (s.sent n.peer)[i]? = some h := by
  cases e with
  | deliver n' i now =>
    rw [step]
    cases hi : (s.sent n'.peer)[i]? with
    | none =>
      refine ⟨Or.inl, ?_⟩
      intro h
      rcases h with h' | ⟨i', now', he, hs⟩
      · exact h'
      · cases he
        rw [hi] at hs
        exact absurd hs (by simp)
    | some h' =>
      simp only [System.atNode]
      by_cases hn : n' = n
      · subst hn
        simp only [Function.update_self, List.mem_append, List.mem_singleton]
        constructor
        · intro h
          rcases h with hr | rfl
          · exact Or.inl hr
          · exact Or.inr ⟨i, now, rfl, hi⟩
        · intro h
          rcases h with hr | ⟨i', now', he, hs⟩
          · exact Or.inl hr
          · cases he
            rw [hi, Option.some.injEq] at hs
            exact Or.inr hs.symm
      · rw [Function.update_of_ne (fun h => hn h.symm)]
        refine ⟨Or.inl, ?_⟩
        intro h
        rcases h with hr | ⟨i', now', he, -⟩
        · exact hr
        · cases he
          exact absurd rfl hn
  | send n' =>
    have : (step s (.send n')).2.received = s.received := by rw [step]; split <;> rfl
    simp [this]
  | monitor n' now =>
    have : (step s (.monitor n' now)).2.received = s.received := by rw [step]; split <;> rfl
    simp [this]
  | promote n' => simp [step, System.atNode]
  | demote n' => simp [step, System.atNode]

/-! ### Runs from any state -/

/-- How many heartbeats a node with a peer has sent along a run. -/
def sends (n : Node) (l : List Event) : Nat := l.count (.send n)

section RunsFrom

variable (nodes : Node → HAManager)

theorem peerUrl_run (n : Node) (l : List Event) :
    (((systemFrom nodes).run l).nodes n).peerUrl = (nodes n).peerUrl := by
  refine (systemFrom nodes).run_induction (P := fun _ s => (s.nodes n).peerUrl = (nodes n).peerUrl)
    rfl ?_ l
  intro _ e s ih
  obtain ⟨hc, hother⟩ := counts_step s e
  show ((step s e).2.nodes n).peerUrl = _
  by_cases hn : n = e.node
  · subst hn
    exact hc.peerUrl.trans ih
  · rw [hother n hn]
    exact ih

/-- The `i`-th heartbeat of a node is the one it sent at its `i`-th sending. -/
theorem sent_run_iff (n : Node) (l : List Event) :
    (((nodes n).peerUrl.getD "" ≠ "" → (((systemFrom nodes).run l).sent n).length = sends n l)) ∧
    ∀ i h, (((systemFrom nodes).run l).sent n)[i]? = some h ↔
      ∃ l₁ l₂, l = l₁ ++ .send n :: l₂ ∧ (nodes n).peerUrl.getD "" ≠ "" ∧ i = sends n l₁ ∧
        h = (((systemFrom nodes).run l₁).nodes n).heartbeat := by
  induction l using List.reverseRecOn with
  | nil => simp [systemFrom, sends]
  | append_singleton l e ih =>
    obtain ⟨hlen, ih⟩ := ih
    have hsent : ((systemFrom nodes).run (l ++ [e])).sent n
        = if e = .send n ∧ (nodes n).peerUrl.getD "" ≠ ""
          then ((systemFrom nodes).run l).sent n ++ [(((systemFrom nodes).run l).nodes n).heartbeat]
          else ((systemFrom nodes).run l).sent n := by
      rw [Machine.run_append_singleton]
      show (step ((systemFrom nodes).run l) e).2.sent n = _
      rw [sent_step, peerUrl_run]
    have hsnoc : ∀ i h, (∃ l₁ l₂, l ++ [e] = l₁ ++ .send n :: l₂ ∧ (nodes n).peerUrl.getD "" ≠ "" ∧
        i = sends n l₁ ∧ h = (((systemFrom nodes).run l₁).nodes n).heartbeat) ↔
        (((systemFrom nodes).run l).sent n)[i]? = some h ∨
          (e = .send n ∧ (nodes n).peerUrl.getD "" ≠ "" ∧ i = sends n l ∧
            h = (((systemFrom nodes).run l).nodes n).heartbeat) := by
      intro i h
      rw [ih]
      constructor
      · intro h
        obtain ⟨l₁, l₂, hl, hrest⟩ := h
        rcases append_singleton_eq_append_cons_iff.mp hl with ⟨rfl, he, -⟩ | ⟨l₃, -, hl⟩
        · exact Or.inr ⟨he.symm, hrest⟩
        · exact Or.inl ⟨l₁, l₃, hl, hrest⟩
      · intro h
        rcases h with ⟨l₁, l₂, rfl, hrest⟩ | ⟨rfl, hrest⟩
        · exact ⟨l₁, l₂ ++ [e], by simp, hrest⟩
        · exact ⟨l, [], rfl, hrest⟩
    refine ⟨fun hp => ?_, fun i h => ?_⟩
    · rw [hsent, sends, List.count_append, ← sends, ← hlen hp]
      by_cases he : e = .send n
      · simp [he, hp]
      · rw [if_neg (fun h => he h.1)]
        simp [he]
    · rw [hsnoc, hsent]
      by_cases he : e = .send n ∧ (nodes n).peerUrl.getD "" ≠ ""
      · rw [if_pos he, List.getElem?_append]
        have hl := hlen he.2
        constructor
        · intro hi
          split at hi
          · exact Or.inl hi
          · rename_i hge
            rw [List.getElem?_singleton] at hi
            split at hi
            · exact Or.inr ⟨he.1, he.2, by omega, (Option.some.inj hi).symm⟩
            · exact absurd hi (by simp)
        · intro h
          rcases h with hi | ⟨-, -, rfl, rfl⟩
          · rw [if_pos (List.getElem?_eq_some_iff.mp hi).1]
            exact hi
          · rw [if_neg (by omega), ← hl]
            simp
      · rw [if_neg he]
        refine ⟨Or.inl, ?_⟩
        intro h
        rcases h with hi | ⟨he1, he2, -⟩
        · exact hi
        · exact absurd ⟨he1, he2⟩ he

/-- **What a node has received**: the heartbeats its peer sent and that were
delivered afterwards. -/
theorem mem_received_iff (n : Node) (l : List Event) (h : Heartbeat) :
    h ∈ ((systemFrom nodes).run l).received n ↔
      ∃ l₁ l₂ now, l = l₁ ++ .send n.peer :: l₂ ∧ (nodes n.peer).peerUrl.getD "" ≠ "" ∧
        .deliver n (sends n.peer l₁) now ∈ l₂ ∧
        h = (((systemFrom nodes).run l₁).nodes n.peer).heartbeat := by
  induction l using List.reverseRecOn with
  | nil => simp [systemFrom]
  | append_singleton l e ih =>
    rw [Machine.run_append_singleton]
    show h ∈ (step ((systemFrom nodes).run l) e).2.received n ↔ _
    rw [mem_received_step, ih]
    constructor
    · intro h
      rcases h with ⟨l₁, l₂, now, rfl, hp, hd, hh⟩ | ⟨i, now, rfl, hi⟩
      · exact ⟨l₁, l₂ ++ [e], now, by simp, hp, List.mem_append_left _ hd, hh⟩
      · obtain ⟨l₁, l₂, rfl, hp, rfl, hh⟩ := ((sent_run_iff nodes n.peer l).2 i h).mp hi
        exact ⟨l₁, l₂ ++ [.deliver n (sends n.peer l₁) now], now, by simp, hp, by simp, hh⟩
    · intro h
      obtain ⟨l₁, l₂, now, hl, hp, hd, hh⟩ := h
      rcases append_singleton_eq_append_cons_iff.mp hl with ⟨-, -, rfl⟩ | ⟨l₃, rfl, hl'⟩
      · exact absurd hd (by simp)
      · rcases List.mem_append.mp hd with hd | hd
        · exact Or.inl ⟨l₁, l₃, now, hl', hp, hd, hh⟩
        · refine Or.inr ⟨sends n.peer l₁, now, (List.mem_singleton.mp hd).symm, ?_⟩
          exact ((sent_run_iff nodes n.peer l).2 _ h).mpr ⟨l₁, l₃, hl', hp, rfl, hh⟩

end RunsFrom

/-! ### Runs of two fresh nodes -/

section Runs

variable (config : Node → Config)

/-- How often a node has been promoted along a run. -/
def promotions (n : Node) (l : List Event) : Nat :=
  ((system config).trace l).countP (fun o => decide (o.1 = n) && o.2.isPromotion)

theorem promotions_snoc (n : Node) (l : List Event) (e : Event) :
    promotions config n (l ++ [e]) = promotions config n l +
      if e.node = n ∧ (step ((system config).run l) e).1.isPromotion then 1 else 0 := by
  rw [promotions, Machine.trace_append_singleton, List.countP_append, List.countP_singleton]
  show _ + (if (decide (e.node = n) && (step ((system config).run l) e).1.isPromotion) = true
    then 1 else 0) = _
  simp only [Bool.and_eq_true, decide_eq_true_eq]
  rfl

/-- **The generation counts promotions.** -/
theorem generation_run (n : Node) (l : List Event) :
    (((system config).run l).nodes n).generation
      = (config n).generation + promotions config n l := by
  induction l using List.reverseRecOn with
  | nil => simp [promotions, system, HAManager.new]
  | append_singleton l e ih =>
    obtain ⟨hc, hother⟩ := counts_step ((system config).run l) e
    rw [Machine.run_append_singleton, promotions_snoc]
    show ((step ((system config).run l) e).2.nodes n).generation = _
    by_cases hn : n = e.node
    · subst hn
      rw [hc.generation, ih]
      simp only [true_and]
      split <;> push_cast <;> ring
    · rw [hother n hn, ih, if_neg (fun h => hn h.1.symm)]
      simp

theorem generation_heartbeat (n : Node) (l : List Event) :
    ((((system config).run l).nodes n).heartbeat).generation
      = (config n).generation + promotions config n l := generation_run config n l

theorem mem_received_system_iff (n : Node) (l : List Event) (h : Heartbeat) :
    h ∈ ((system config).run l).received n ↔
      ∃ l₁ l₂ now, l = l₁ ++ .send n.peer :: l₂ ∧ (config n.peer).hasPeer = true ∧
        .deliver n (sends n.peer l₁) now ∈ l₂ ∧
        h = (((system config).run l₁).nodes n.peer).heartbeat := by
  simp only [Config.hasPeer, bne_iff_ne]
  exact mem_received_iff (fun n => .new (config n)) n l h

/-- **When a promotion yields a winning token.**  A promotion makes the
generation of the node larger than every generation it has received if and only
if, for every heartbeat that has reached the node, the peer's starting
generation and its promotions up to the sending come to no more than the node's
own starting generation and promotions. -/
theorem fencing_token_iff (l : List Event) (e : Event) (n : Node)
    (hbefore : (((system config).run l).nodes n).role ≠ .ACTIVE)
    (hafter : (((system config).run (l ++ [e])).nodes n).role = .ACTIVE) :
    (∀ h ∈ ((system config).run l).received n,
      h.generation < (((system config).run (l ++ [e])).nodes n).generation) ↔
    ∀ l₁ l₂ now, l = l₁ ++ .send n.peer :: l₂ → (config n.peer).hasPeer = true →
      .deliver n (sends n.peer l₁) now ∈ l₂ →
      (config n.peer).generation + promotions config n.peer l₁
        ≤ (config n).generation + promotions config n l := by
  obtain ⟨hc, hother⟩ := counts_step ((system config).run l) e
  have hstep : ((system config).run (l ++ [e])).nodes n
      = (step ((system config).run l) e).2.nodes n := by
    rw [Machine.run_append_singleton]
    rfl
  rw [hstep] at hafter ⊢
  -- the node that became active is the node of the event, and it was promoted
  have hn : n = e.node := by
    by_contra hne
    rw [hother n hne] at hafter
    exact hbefore hafter
  subst hn
  have hprom := hc.promoted.mpr ⟨hbefore, hafter⟩
  have hgen : ((step ((system config).run l) e).2.nodes e.node).generation
      = (config e.node).generation + promotions config e.node l + 1 := by
    have h := hc.generation
    simp only [hprom, if_true] at h
    rw [h, generation_run]
  rw [hgen]
  constructor
  · intro h l₁ l₂ now hl hp hd
    have hlt := h _ ((mem_received_system_iff config e.node l _).mpr ⟨l₁, l₂, now, hl, hp, hd, rfl⟩)
    rw [generation_heartbeat] at hlt
    omega
  · intro h hb hmem
    obtain ⟨l₁, l₂, now, hl, hp, hd, rfl⟩ := (mem_received_system_iff config e.node l hb).mp hmem
    have hle := h l₁ l₂ now hl hp hd
    rw [generation_heartbeat]
    omega

end Runs

/-- Two fresh nodes, each with the other as its peer. -/
def freshPair : Node → Config := fun _ => ⟨some "http://peer:8443", 100, 300, 1⟩

/-- Node `a` is promoted and heard of; then it falls silent and `b` takes over. -/
def failover : List Event := [.promote .a, .send .a, .deliver .b 0 1]

/-- The token of that takeover ties with the one it replaces. -/
theorem fencing_token_iff_failover :
    (((system freshPair).run failover).nodes .b).role ≠ .ACTIVE ∧
    (((system freshPair).run (failover ++ [.monitor .b 2])).nodes .b).role = .ACTIVE ∧
    ((∀ h ∈ ((system freshPair).run failover).received .b, h.generation
        < (((system freshPair).run (failover ++ [.monitor .b 2])).nodes .b).generation) ↔
      ∀ l₁ l₂ now, failover = l₁ ++ .send .a :: l₂ → (freshPair .a).hasPeer = true →
        .deliver .b (sends .a l₁) now ∈ l₂ →
        (freshPair .a).generation + promotions freshPair .a l₁
          ≤ (freshPair .b).generation + promotions freshPair .b failover) := by
  have hbefore : (((system freshPair).run failover).nodes .b).role ≠ .ACTIVE := by
    decide +kernel
  have hafter : (((system freshPair).run (failover ++ [.monitor .b 2])).nodes .b).role
      = .ACTIVE := by decide +kernel
  exact ⟨hbefore, hafter, fencing_token_iff freshPair failover (.monitor .b 2) .b hbefore hafter⟩

/-- **A stale token**: `b` takes over from `a` with the generation that `a` has
announced. -/
theorem stale_token :
    (((system freshPair).run failover).nodes .b).role = .STANDBY ∧
    (((system freshPair).run (failover ++ [.monitor .b 2])).nodes .b).role = .ACTIVE ∧
    (((system freshPair).run (failover ++ [.monitor .b 2])).nodes .b).generation = 2 ∧
    ((system freshPair).run failover).received .b = [⟨2, .ACTIVE⟩] ∧
    ¬ ∀ h ∈ ((system freshPair).run failover).received .b, h.generation
      < (((system freshPair).run (failover ++ [.monitor .b 2])).nodes .b).generation := by
  decide +kernel

end PrismFirewall.TcFirewall.Ha
