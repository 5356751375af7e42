import PrismFirewall.TcFirewall.HaFencing

/-!
# Split brain

Two nodes are both active and exchange heartbeats; nothing else happens.  A
heartbeat carries the role its sender had when it was sent, and it may arrive
late, twice or never.

With different generations the order does not matter: the node with the higher
one stays, and the other steps down at the first heartbeat it hears
(`higher_generation_wins`).  With equal generations it does.  A node that is
fenced announces that it is fenced, and this does not fence its peer; so a node
ends fenced exactly when it has heard a heartbeat of the time before its peer had
heard anything (`fencing_iff`).
-/

namespace PrismFirewall.TcFirewall.Ha

open Lib

/-- Sending and delivering heartbeats, as against promotions, demotions and
timeouts. -/
def Event.isExchange : Event → Bool
  | .send _ | .deliver _ _ _ => true
  | _ => false

/-! ### One exchange -/

theorem generation_receiveHeartbeat (m : HAManager) (now : Rat) (g : Int) (r : HAState) :
    (m.receiveHeartbeat now g r).2.generation = m.generation := by
  unfold HAManager.receiveHeartbeat HAManager.resolveSplitBrain
  dsimp only
  split
  · split
    · rfl
    · split <;> rfl
  · rfl

theorem role_receiveHeartbeat (m : HAManager) (now : Rat) (g : Int) (r : HAState) :
    (m.receiveHeartbeat now g r).2.role =
      if m.role = .ACTIVE ∧ r = .ACTIVE then
        if g < m.generation then .ACTIVE else if m.generation < g then .STANDBY else .FENCING
      else m.role := by
  unfold HAManager.receiveHeartbeat HAManager.resolveSplitBrain
  dsimp only
  split
  · rename_i h
    split
    · exact h.1
    · split <;> rfl
  · rfl

/-- What an exchange does: a heartbeat is added to those sent, or one of those
sent is processed, or nothing changes. -/
theorem step_exchange {s : System} {e : Event} (he : e.isExchange = true) :
    (∃ n, (step s e).2 =
      { s with sent := Function.update s.sent n (s.sent n ++ [(s.nodes n).heartbeat]) }) ∨
    (∃ n i now h, e = .deliver n i now ∧ (s.sent n.peer)[i]? = some h ∧ (step s e).2 =
      { s with
        nodes := Function.update s.nodes n
          ((s.nodes n).receiveHeartbeat now h.generation h.role).2
        received := Function.update s.received n (s.received n ++ [h]) }) ∨
    (step s e).2 = s := by
  cases e with
  | send n =>
    rw [step]
    split
    · exact Or.inl ⟨n, rfl⟩
    · exact Or.inr (Or.inr rfl)
  | deliver n i now =>
    rw [step]
    cases hi : (s.sent n.peer)[i]? with
    | some h => exact Or.inr (Or.inl ⟨n, i, now, h, rfl, hi, rfl⟩)
    | none => exact Or.inr (Or.inr rfl)
  | monitor n now => exact absurd he (by simp [Event.isExchange])
  | promote n => exact absurd he (by simp [Event.isExchange])
  | demote n => exact absurd he (by simp [Event.isExchange])

theorem mem_sent_update {sent : Node → List Heartbeat} {n m : Node} {h h' : Heartbeat}
    (hh : h ∈ Function.update sent n (sent n ++ [h']) m) : h ∈ sent m ∨ (m = n ∧ h = h') := by
  by_cases hm : m = n
  · subst hm
    rw [Function.update_self, List.mem_append, List.mem_singleton] at hh
    rcases hh with hh | hh
    · exact Or.inl hh
    · exact Or.inr ⟨rfl, hh⟩
  · rw [Function.update_of_ne hm] at hh
    exact Or.inl hh

/-- A node that is not active keeps its role. -/
theorem role_step_of_not_active {s : System} {e : Event} (he : e.isExchange = true) {n : Node}
    (hn : (s.nodes n).role ≠ .ACTIVE) : ((step s e).2.nodes n).role = (s.nodes n).role := by
  rcases step_exchange (s := s) he with ⟨m, hs⟩ | ⟨m, i, now, h, -, -, hs⟩ | hs
  · rw [hs]
  · rw [hs]
    by_cases hm : n = m
    · subst hm
      simp only [Function.update_self]
      rw [role_receiveHeartbeat, if_neg (fun h => hn h.1)]
    · simp only [Function.update_of_ne hm]
  · rw [hs]

section Exchange

variable (nodes : Node → HAManager)

theorem role_run_of_not_active {l₁ l₂ : List Event} (hl : ∀ e ∈ l₂, e.isExchange = true)
    {n : Node} (hn : (((systemFrom nodes).run l₁).nodes n).role ≠ .ACTIVE) :
    (((systemFrom nodes).run (l₁ ++ l₂)).nodes n).role
      = (((systemFrom nodes).run l₁).nodes n).role := by
  induction l₂ using List.reverseRecOn with
  | nil => rw [List.append_nil]
  | append_singleton l e ih =>
    have ih := ih (fun e' he' => hl e' (List.mem_append_left _ he'))
    have he := hl e (by simp)
    rw [← List.append_assoc, Machine.run_append_singleton, ← ih]
    rw [← ih] at hn
    exact role_step_of_not_active he hn

/-- The induction every invariant of an exchange goes through. -/
theorem exchange_induction {P : System → Prop} (h0 : P ⟨nodes, fun _ => [], fun _ => []⟩)
    (hs : ∀ s e, e.isExchange = true → P s → P (step s e).2) :
    ∀ l : List Event, (∀ e ∈ l, e.isExchange = true) → P ((systemFrom nodes).run l) := by
  intro l
  induction l using List.reverseRecOn with
  | nil => intro _; exact h0
  | append_singleton l e ih =>
    intro hl
    rw [Machine.run_append_singleton]
    exact hs _ e (hl e (by simp)) (ih (fun e' he' => hl e' (List.mem_append_left _ he')))

/-- No exchange changes a generation, so every heartbeat carries the generation
its sender began with. -/
structure KeepsGenerations (s : System) : Prop where
  current : ∀ n, (s.nodes n).generation = (nodes n).generation
  sent : ∀ n, ∀ h ∈ s.sent n, h.generation = (nodes n).generation

variable {nodes}

theorem keepsGenerations_step {s : System} {e : Event} (he : e.isExchange = true)
    (hk : KeepsGenerations nodes s) : KeepsGenerations nodes (step s e).2 := by
  rcases step_exchange (s := s) he with ⟨m, hs⟩ | ⟨m, i, now, h, -, -, hs⟩ | hs
  · rw [hs]
    refine ⟨hk.current, fun n h hh => ?_⟩
    rcases mem_sent_update hh with hh | ⟨rfl, rfl⟩
    · exact hk.sent n h hh
    · exact hk.current n
  · rw [hs]
    refine ⟨fun n => ?_, hk.sent⟩
    by_cases hn : n = m
    · subst hn
      simp only [Function.update_self]
      rw [generation_receiveHeartbeat, hk.current]
    · simp only [Function.update_of_ne hn]
      exact hk.current n
  · rw [hs]
    exact hk

/-! ### Different generations -/

/-- The node `n` has the higher generation: it stays, and its peer has stepped
down as soon as it has heard from it. -/
structure Outranks (nodes : Node → HAManager) (n : Node) (s : System) : Prop
    extends KeepsGenerations nodes s where
  winner : (s.nodes n).role = .ACTIVE
  announced : ∀ h ∈ s.sent n, h.role = .ACTIVE
  loser : (s.nodes n.peer).role = .ACTIVE ∨ (s.nodes n.peer).role = .STANDBY
  heard : s.received n.peer ≠ [] → (s.nodes n.peer).role = .STANDBY

theorem peer_ne (n : Node) : n.peer ≠ n := by
  cases n <;> simp [Node.peer]

theorem peer_peer (n : Node) : n.peer.peer = n := by
  cases n <;> rfl

theorem eq_or_eq_peer (n m : Node) : m = n ∨ m = n.peer := by
  cases n <;> cases m <;> simp [Node.peer]

theorem outranks_step {n : Node} (hg : (nodes n.peer).generation < (nodes n).generation)
    {s : System} {e : Event} (he : e.isExchange = true) (ho : Outranks nodes n s) :
    Outranks nodes n (step s e).2 := by
  have hk := keepsGenerations_step he ho.toKeepsGenerations
  rcases step_exchange (s := s) he with ⟨m, hs⟩ | ⟨m, i, now, h, -, hi, hs⟩ | hs
  · rw [hs] at hk ⊢
    refine ⟨hk, ho.winner, fun h hh => ?_, ho.loser, ho.heard⟩
    rcases mem_sent_update hh with hh | ⟨rfl, rfl⟩
    · exact ho.announced h hh
    · exact ho.winner
  · rw [hs] at hk ⊢
    have hmem := List.mem_of_getElem? hi
    rcases eq_or_eq_peer n m with rfl | rfl
    · -- the winner hears a generation below its own
      have hlt : h.generation < (s.nodes m).generation := by
        rw [ho.sent m.peer h hmem, ho.current]
        exact hg
      refine ⟨hk, ?_, ho.announced, ?_, ?_⟩
      · simp only [Function.update_self]
        rw [role_receiveHeartbeat, ho.winner, if_pos hlt]
        split <;> rfl
      · simp only [Function.update_of_ne (peer_ne m)]
        exact ho.loser
      · simp only [Function.update_of_ne (peer_ne m)]
        exact ho.heard
    · -- the loser hears that the winner is active, with a generation above its own
      rw [peer_peer] at hmem
      have hlt : (s.nodes n.peer).generation < h.generation := by
        rw [ho.sent n h hmem, ho.current]
        exact hg
      have hrole : ((s.nodes n.peer).receiveHeartbeat now h.generation h.role).2.role
          = .STANDBY := by
        rw [role_receiveHeartbeat, ho.announced h hmem]
        rcases ho.loser with hl | hl
        · rw [hl, if_pos ⟨rfl, rfl⟩, if_neg (by omega), if_pos hlt]
        · rw [hl, if_neg (by simp)]
      refine ⟨hk, ?_, ho.announced, ?_, ?_⟩
      · simp only [Function.update_of_ne (peer_ne n).symm]
        exact ho.winner
      · simp only [Function.update_self]
        exact Or.inr hrole
      · intro _
        simp only [Function.update_self]
        exact hrole
  · rw [hs] at hk ⊢
    exact ⟨hk, ho.winner, ho.announced, ho.loser, ho.heard⟩

theorem outranks_run {n : Node} (hactive : ∀ m, (nodes m).role = .ACTIVE)
    (hg : (nodes n.peer).generation < (nodes n).generation) (l : List Event)
    (hl : ∀ e ∈ l, e.isExchange = true) : Outranks nodes n ((systemFrom nodes).run l) := by
  refine exchange_induction nodes ?_ (fun s e he ho => outranks_step hg he ho) l hl
  exact ⟨⟨fun _ => rfl, by simp⟩, hactive n, by simp, Or.inl (hactive n.peer), by simp⟩

/-- **The higher generation wins, whatever the order of the heartbeats.**  From
two active nodes, `n` with the higher generation, and no heartbeat on its way:
however heartbeats are sent and delivered, `n` stays active, its peer is active or
on standby, both keep their generation, and from the first heartbeat of `n` it has
processed on the peer is on standby. -/
theorem higher_generation_wins (n : Node) (hactive : ∀ m, (nodes m).role = .ACTIVE)
    (hg : (nodes n.peer).generation < (nodes n).generation) (l : List Event)
    (hl : ∀ e ∈ l, e.isExchange = true) :
    (((systemFrom nodes).run l).nodes n).role = .ACTIVE ∧
    (((systemFrom nodes).run l).nodes n).generation = (nodes n).generation ∧
    ((((systemFrom nodes).run l).nodes n.peer).role = .ACTIVE ∨
      (((systemFrom nodes).run l).nodes n.peer).role = .STANDBY) ∧
    (((systemFrom nodes).run l).nodes n.peer).generation = (nodes n.peer).generation ∧
    ∀ l₁ l₂, l = l₁ ++ l₂ → ((systemFrom nodes).run l₁).received n.peer ≠ [] →
      (((systemFrom nodes).run l).nodes n.peer).role = .STANDBY := by
  have ho := outranks_run hactive hg l hl
  refine ⟨ho.winner, ho.current n, ho.loser, ho.current n.peer, ?_⟩
  intro l₁ l₂ hsplit hheard
  subst hsplit
  have hl₁ := outranks_run hactive hg l₁ (fun e he => hl e (List.mem_append_left _ he))
  have hstandby := hl₁.heard hheard
  rw [role_run_of_not_active nodes (fun e he => hl e (List.mem_append_right _ he))
    (by rw [hstandby]; simp)]
  exact hstandby

end Exchange

/-- Two active nodes, each with the other as its peer. -/
def activePair (ga gb : Int) : Node → HAManager
  | .a => { HAManager.new ⟨some "http://peer:8443", 100, 300, ga⟩ with role := .ACTIVE }
  | .b => { HAManager.new ⟨some "http://peer:8443", 100, 300, gb⟩ with role := .ACTIVE }

/-- Each node sends, and each heartbeat arrives; that of `a` arrives twice. -/
def crossing : List Event :=
  [.send .a, .send .b, .deliver .b 0 1, .deliver .a 0 2, .send .b, .deliver .b 0 3]

theorem higher_generation_wins_crossing :
    (((systemFrom (activePair 3 2)).run crossing).nodes .a).role = .ACTIVE ∧
    ∀ l₁ l₂, crossing = l₁ ++ l₂ → ((systemFrom (activePair 3 2)).run l₁).received .b ≠ [] →
      (((systemFrom (activePair 3 2)).run crossing).nodes .b).role = .STANDBY := by
  have hactive : ∀ m, (activePair 3 2 m).role = .ACTIVE := by
    intro m
    cases m <;> rfl
  have h := higher_generation_wins .a hactive (by decide) crossing (by decide)
  exact ⟨h.1, h.2.2.2.2⟩

section Exchange

variable {nodes : Node → HAManager}

/-! ### Equal generations -/

/-- Both nodes began with one generation: each is active or fenced, and fenced
once it has heard that its peer is active.  As long as both are active nothing
has been heard. -/
structure Ties (nodes : Node → HAManager) (s : System) : Prop
    extends KeepsGenerations nodes s where
  role : ∀ n, (s.nodes n).role = .ACTIVE ∨ (s.nodes n).role = .FENCING
  unheard : ∀ n, s.received n = [] → (s.nodes n).role = .ACTIVE
  heard : ∀ n, ∀ h ∈ s.received n, h.role = .ACTIVE → (s.nodes n).role = .FENCING
  quiet : (∀ n, (s.nodes n).role = .ACTIVE) →
    (∀ n, s.received n = []) ∧ ∀ n, ∀ h ∈ s.sent n, h.role = .ACTIVE

theorem role_receiveHeartbeat_of_tie {m : HAManager} {now : Rat} {g : Int} {r : HAState}
    (hg : g = m.generation) : (m.receiveHeartbeat now g r).2.role
      = if m.role = .ACTIVE ∧ r = .ACTIVE then .FENCING else m.role := by
  rw [role_receiveHeartbeat, if_neg (by omega : ¬ g < m.generation),
    if_neg (by omega : ¬ m.generation < g)]

theorem ties_step (hg : ∀ n, (nodes n.peer).generation = (nodes n).generation) {s : System}
    {e : Event} (he : e.isExchange = true) (ht : Ties nodes s) : Ties nodes (step s e).2 := by
  have hk := keepsGenerations_step he ht.toKeepsGenerations
  rcases step_exchange (s := s) he with ⟨m, hs⟩ | ⟨m, i, now, h, -, hi, hs⟩ | hs
  · rw [hs] at hk ⊢
    refine ⟨hk, ht.role, ht.unheard, ht.heard, fun ha => ⟨(ht.quiet ha).1, fun n h hh => ?_⟩⟩
    rcases mem_sent_update hh with hh | ⟨rfl, rfl⟩
    · exact (ht.quiet ha).2 n h hh
    · exact ha n
  · rw [hs] at hk ⊢
    have hmem := List.mem_of_getElem? hi
    have hrole : ((s.nodes m).receiveHeartbeat now h.generation h.role).2.role
        = if (s.nodes m).role = .ACTIVE ∧ h.role = .ACTIVE then .FENCING
          else (s.nodes m).role := by
      refine role_receiveHeartbeat_of_tie ?_
      rw [ht.sent m.peer h hmem, ht.current, hg]
    refine ⟨hk, fun n => ?_, fun n hn => ?_, fun n h' hh' ha' => ?_, fun ha => ?_⟩
    · by_cases hm : n = m
      · subst hm
        simp only [Function.update_self, hrole]
        split
        · exact Or.inr rfl
        · exact ht.role n
      · simp only [Function.update_of_ne hm]
        exact ht.role n
    · by_cases hm : n = m
      · subst hm
        simp at hn
      · simp only [Function.update_of_ne hm] at hn ⊢
        exact ht.unheard n hn
    · by_cases hm : n = m
      · subst hm
        simp only [Function.update_self, List.mem_append, List.mem_singleton] at hh' ⊢
        rw [hrole]
        split
        · rfl
        · rename_i hnot
          rcases hh' with hh' | rfl
          · exact ht.heard n h' hh' ha'
          · exact (ht.role n).resolve_left (fun hr => hnot ⟨hr, ha'⟩)
      · simp only [Function.update_of_ne hm] at hh' ⊢
        exact ht.heard n h' hh' ha'
    · -- both still active: then both were, and what was heard would have fenced one
      have hbefore : ∀ n, (s.nodes n).role = .ACTIVE := by
        intro n
        by_contra hne
        have hkeep := role_step_of_not_active he hne
        rw [hs] at hkeep
        exact hne (hkeep ▸ ha n)
      have hafter := ha m
      simp only [Function.update_self, hrole] at hafter
      rw [if_pos ⟨hbefore m, (ht.quiet hbefore).2 m.peer h hmem⟩] at hafter
      exact absurd hafter (by simp)
  · rw [hs]
    exact ht

theorem ties_run (hactive : ∀ n, (nodes n).role = .ACTIVE)
    (hg : ∀ n, (nodes n.peer).generation = (nodes n).generation) (l : List Event)
    (hl : ∀ e ∈ l, e.isExchange = true) : Ties nodes ((systemFrom nodes).run l) := by
  refine exchange_induction nodes ?_ (fun s e he ht => ties_step hg he ht) l hl
  exact ⟨⟨fun _ => rfl, by simp⟩, fun n => Or.inl (hactive n), fun n _ => hactive n, by simp,
    fun _ => ⟨fun _ => rfl, by simp⟩⟩

/-- The node `n` has processed a heartbeat that its peer sent before it had
processed any itself. -/
def HeardEarly (nodes : Node → HAManager) (n : Node) (l : List Event) : Prop :=
  ∃ l₁ l₂ now, l = l₁ ++ .send n.peer :: l₂ ∧ (nodes n.peer).peerUrl.getD "" ≠ "" ∧
    .deliver n (sends n.peer l₁) now ∈ l₂ ∧ ((systemFrom nodes).run l₁).received n.peer = []

theorem HeardEarly.snoc {n : Node} {l : List Event} (h : HeardEarly nodes n l) (e : Event) :
    HeardEarly nodes n (l ++ [e]) := by
  obtain ⟨l₁, l₂, now, rfl, hp, hd, hr⟩ := h
  exact ⟨l₁, l₂ ++ [e], now, by simp, hp, List.mem_append_left _ hd, hr⟩

/-- A node is fenced by a heartbeat that says its peer is active.  When that was
sent both were active, so the peer had heard nothing. -/
theorem heardEarly_of_fencing (hactive : ∀ n, (nodes n).role = .ACTIVE)
    (hg : ∀ n, (nodes n.peer).generation = (nodes n).generation) {n : Node} :
    ∀ l : List Event, (∀ e ∈ l, e.isExchange = true) →
      (((systemFrom nodes).run l).nodes n).role = .FENCING → HeardEarly nodes n l := by
  intro l
  induction l using List.reverseRecOn with
  | nil =>
    intro _ hf
    have hinit : (nodes n).role = .FENCING := hf
    rw [hactive n] at hinit
    exact absurd hinit (by simp)
  | append_singleton l e ih =>
    intro hl hf
    have hl' : ∀ e ∈ l, e.isExchange = true := fun e' he' => hl e' (List.mem_append_left _ he')
    have ht := ties_run hactive hg l hl'
    rcases ht.role n with hn | hn
    swap
    · exact (ih hl' hn).snoc e
    rw [Machine.run_append_singleton] at hf
    change ((step ((systemFrom nodes).run l) e).2.nodes n).role = .FENCING at hf
    rcases step_exchange (s := (systemFrom nodes).run l) (hl e (by simp)) with
      ⟨m, hs⟩ | ⟨m, i, now, h, rfl, hi, hs⟩ | hs
    · rw [hs, hn] at hf
      exact absurd hf (by simp)
    · rw [hs] at hf
      by_cases hm : n = m
      · subst hm
        obtain ⟨l₁, l₂, rfl, hp, rfl, rfl⟩ := ((sent_run_iff nodes n.peer l).2 i h).mp hi
        simp only [Function.update_self] at hf
        have hmem := List.mem_of_getElem? hi
        rw [role_receiveHeartbeat_of_tie (by rw [ht.sent n.peer _ hmem, ht.current, hg]), hn] at hf
        have hpeer : (((systemFrom nodes).run l₁).nodes n.peer).role = .ACTIVE := by
          by_contra hne
          rw [if_neg (fun h => hne h.2)] at hf
          exact absurd hf (by simp)
        have hself : (((systemFrom nodes).run l₁).nodes n).role = .ACTIVE := by
          by_contra hne
          have hlast : ∀ e ∈ Event.send n.peer :: l₂, e.isExchange = true :=
            fun e he => hl' e (List.mem_append_right _ he)
          have hkeep := role_run_of_not_active nodes hlast hne
          exact hne (hkeep ▸ hn)
        have hquiet := (ties_run hactive hg l₁
          (fun e he => hl' e (List.mem_append_left _ he))).quiet ?_
        · exact ⟨l₁, l₂ ++ [.deliver n (sends n.peer l₁) now], now, by simp, hp, by simp,
            hquiet.1 n.peer⟩
        · intro k
          rcases eq_or_eq_peer n k with rfl | rfl
          · exact hself
          · exact hpeer
      · simp only [Function.update_of_ne hm] at hf
        rw [hn] at hf
        exact absurd hf (by simp)
    · rw [hs, hn] at hf
      exact absurd hf (by simp)

/-- **When a node ends fenced.** -/
theorem fencing_iff (hactive : ∀ n, (nodes n).role = .ACTIVE)
    (hg : ∀ n, (nodes n.peer).generation = (nodes n).generation) (l : List Event)
    (hl : ∀ e ∈ l, e.isExchange = true) (n : Node) :
    (((systemFrom nodes).run l).nodes n).role = .FENCING ↔ HeardEarly nodes n l := by
  refine ⟨heardEarly_of_fencing hactive hg l hl, fun h => ?_⟩
  obtain ⟨l₁, l₂, now, rfl, hp, hd, hr⟩ := h
  have ht₁ := ties_run hactive hg l₁ (fun e he => hl e (List.mem_append_left _ he))
  have ht := ties_run hactive hg _ hl
  exact ht.heard n _ ((mem_received_iff nodes n _ _).mpr ⟨l₁, l₂, now, rfl, hp, hd, rfl⟩)
    (ht₁.unheard n.peer hr)

/-- **When equal generations fence both nodes.**  From two active nodes of one
generation and no heartbeat on its way, after any exchange in which each has
processed a heartbeat of the other: both are fenced if and only if each has
processed one that its peer sent before it had itself processed any. -/
theorem equal_generations_fence_iff (hactive : ∀ n, (nodes n).role = .ACTIVE)
    (hg : (nodes .a).generation = (nodes .b).generation) (l : List Event)
    (hl : ∀ e ∈ l, e.isExchange = true) :
    ((∀ n, ((systemFrom nodes).run l).received n ≠ []) →
      ∀ n, (((systemFrom nodes).run l).nodes n).role = .FENCING) ↔
    ((∀ n, ((systemFrom nodes).run l).received n ≠ []) → ∀ n, HeardEarly nodes n l) := by
  have hgen : ∀ n : Node, (nodes n.peer).generation = (nodes n).generation := by
    intro n
    cases n with
    | a => exact hg.symm
    | b => exact hg
  have hiff := fencing_iff hactive hgen l hl
  exact ⟨fun h hr n => (hiff n).mp (h hr n), fun h hr n => (hiff n).mpr (h hr n)⟩

end Exchange

theorem equal_generations_fence_iff_crossing :
    (∀ n, ((systemFrom (activePair 2 2)).run crossing).received n ≠ []) ∧
    (((∀ n, ((systemFrom (activePair 2 2)).run crossing).received n ≠ []) →
      ∀ n, (((systemFrom (activePair 2 2)).run crossing).nodes n).role = .FENCING) ↔
    ((∀ n, ((systemFrom (activePair 2 2)).run crossing).received n ≠ []) →
      ∀ n, HeardEarly (activePair 2 2) n crossing)) := by
  have hactive : ∀ m, (activePair 2 2 m).role = .ACTIVE := by
    intro m
    cases m <;> rfl
  refine ⟨fun n => ?_, equal_generations_fence_iff hactive rfl crossing (by decide)⟩
  cases n <;> decide +kernel

/-- Node `a` hears of `b` first; what it sends afterwards says that it is fenced. -/
def fencedFirst : List Event := [.send .b, .deliver .a 0 1, .send .a, .deliver .b 0 2]

/-- **A split brain that is not fenced**: each node has heard the other, `a` is
fenced, and `b` stays active. -/
theorem one_node_stays_active :
    (∀ n, (activePair 2 2 n).role = .ACTIVE) ∧
    (activePair 2 2 .a).generation = (activePair 2 2 .b).generation ∧
    (∀ e ∈ fencedFirst, e.isExchange = true) ∧
    (∀ n, ((systemFrom (activePair 2 2)).run fencedFirst).received n ≠ []) ∧
    (((systemFrom (activePair 2 2)).run fencedFirst).nodes .a).role = .FENCING ∧
    (((systemFrom (activePair 2 2)).run fencedFirst).nodes .b).role = .ACTIVE ∧
    ¬ ∀ n, (((systemFrom (activePair 2 2)).run fencedFirst).nodes n).role = .FENCING := by
  have hb : (((systemFrom (activePair 2 2)).run fencedFirst).nodes .b).role = .ACTIVE := by
    decide +kernel
  refine ⟨fun n => ?_, rfl, by decide, fun n => ?_, by decide +kernel, hb, fun h => ?_⟩
  · cases n <;> rfl
  · cases n <;> decide +kernel
  · rw [h .b] at hb
    exact absurd hb (by decide)

end PrismFirewall.TcFirewall.Ha
