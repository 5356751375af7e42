import PrismFirewall.TcFirewall.HaGeneration
import PrismFirewall.TcFirewall.HaSplitBrain

/-!
# The roles of one node

One `HAManager` as it is constructed, and any sequence of heartbeats, promotions,
demotions and rounds of the monitor, at any clock readings.  `role_and_generation_law`
says what its role and its generation can do:

* the generation counts the changes from another role to `ACTIVE`
  (`generation_foldl`);
* the monitor makes such a change only from `STANDBY`, when the last heartbeat is older
  than the time-out (`monitor_activates`, and `Heard` for the heartbeat the manager
  remembers);
* `FENCING` has one entrance, an active peer of equal generation, and the exits are
  `promote` and `demote` (`fencing_entered`, `fencing_kept`).
-/

namespace PrismFirewall.TcFirewall.Ha

open Lib

/-- One node after it has been constructed. -/
def manager (c : Config) : Machine HAManager Method Reply := ⟨.new c, fun m f => f.run m⟩

/-- The method makes a node active that was not. -/
def Activates (m : HAManager) (f : Method) : Prop :=
  m.role ≠ .ACTIVE ∧ (f.run m).2.role = .ACTIVE

instance (m : HAManager) (f : Method) : Decidable (Activates m f) :=
  inferInstanceAs (Decidable (_ ∧ _))

/-- The number of changes from another role to `ACTIVE`. -/
def activations (m : HAManager) : List Method → Nat
  | [] => 0
  | f :: l => (if Activates m f then 1 else 0) + activations (f.run m).2 l

def Method.isHeartbeat : Method → Bool
  | .receiveHeartbeat _ _ _ => true
  | _ => false

/-- The last heartbeat of the sequence came at the given time. -/
def LastHeartbeat (l : List Method) (t : Rat) : Prop :=
  ∃ l₁ g r l₂, l = l₁ ++ .receiveHeartbeat t g r :: l₂ ∧ ∀ f ∈ l₂, f.isHeartbeat = false

/-! ### The generation -/

/-- **The generation counts the activations.** -/
theorem generation_foldl (l : List Method) : ∀ m : HAManager,
    (l.foldl (fun m f => (f.run m).2) m).generation = m.generation + activations m l := by
  induction l with
  | nil =>
    intro m
    simp [activations]
  | cons f l ih =>
    intro m
    obtain ⟨hgen, -, hpro⟩ := counts_method f m
    have hact : (f.run m).1.isPromotion = true ↔ Activates m f := hpro
    rw [List.foldl_cons, ih, hgen, activations]
    by_cases h : Activates m f
    · rw [if_pos h, if_pos (hact.mpr h)]
      push_cast
      omega
    · rw [if_neg h, if_neg (fun hp => h (hact.mp hp))]
      push_cast
      omega

/-! ### The monitor -/

/-- The time of the last heartbeat after a method. -/
def Method.heardAt (f : Method) (last : Rat) : Rat :=
  match f with
  | .receiveHeartbeat now _ _ => now
  | _ => last

theorem Method.heardAt_of_not_isHeartbeat {f : Method} (hf : f.isHeartbeat = false) (last : Rat) :
    f.heardAt last = last := by
  cases f with
  | receiveHeartbeat now g r => exact absurd hf (by simp [Method.isHeartbeat])
  | promote => rfl
  | demote => rfl
  | monitor now => rfl

/-- The time-out never changes, and a heartbeat is all that is heard. -/
theorem remembers_run (f : Method) (m : HAManager) :
    (f.run m).2.heartbeatTimeoutMs = m.heartbeatTimeoutMs ∧
      (f.run m).2.lastHeartbeatReceived = f.heardAt m.lastHeartbeatReceived := by
  have hpromote : m.promote.2.heartbeatTimeoutMs = m.heartbeatTimeoutMs ∧
      m.promote.2.lastHeartbeatReceived = m.lastHeartbeatReceived := by
    unfold HAManager.promote
    split
    · exact ⟨rfl, rfl⟩
    · exact ⟨rfl, rfl⟩
  cases f with
  | promote => exact hpromote
  | demote =>
    show m.demote.2.heartbeatTimeoutMs = _ ∧ m.demote.2.lastHeartbeatReceived = _
    unfold HAManager.demote
    split
    · exact ⟨rfl, rfl⟩
    · exact ⟨rfl, rfl⟩
  | receiveHeartbeat now g r =>
    show (m.receiveHeartbeat now g r).2.heartbeatTimeoutMs = _ ∧
      (m.receiveHeartbeat now g r).2.lastHeartbeatReceived = now
    unfold HAManager.receiveHeartbeat HAManager.resolveSplitBrain
    dsimp only
    split
    · split
      · exact ⟨rfl, rfl⟩
      · split
        · exact ⟨rfl, rfl⟩
        · exact ⟨rfl, rfl⟩
    · exact ⟨rfl, rfl⟩
  | monitor now =>
    show (m.monitor now).2.heartbeatTimeoutMs = _ ∧ (m.monitor now).2.lastHeartbeatReceived = _
    unfold HAManager.monitor
    split
    · split
      · exact hpromote
      · exact ⟨rfl, rfl⟩
    · exact ⟨rfl, rfl⟩

/-- What the manager remembers of the calls: its time-out, and when it heard last, or
that it has heard nothing. -/
structure Heard (c : Config) (l : List Method) (m : HAManager) : Prop where
  timeout : m.heartbeatTimeoutMs = c.heartbeatTimeoutMs
  last : LastHeartbeat l m.lastHeartbeatReceived ∨ m.lastHeartbeatReceived = 0

theorem heard_run (c : Config) (l : List Method) : Heard c l ((manager c).run l) := by
  refine (manager c).run_induction (P := Heard c) ⟨rfl, Or.inr rfl⟩ ?_ l
  intro l f m h
  obtain ⟨htimeout, hlast⟩ := remembers_run f m
  refine ⟨htimeout.trans h.timeout, ?_⟩
  show LastHeartbeat _ (f.run m).2.lastHeartbeatReceived ∨ (f.run m).2.lastHeartbeatReceived = 0
  rw [hlast]
  cases hf : f.isHeartbeat with
  | true =>
    cases f with
    | receiveHeartbeat now g r =>
      exact Or.inl ⟨l, g, r, [], rfl, fun f hf => absurd hf List.not_mem_nil⟩
    | promote => exact absurd hf (by simp [Method.isHeartbeat])
    | demote => exact absurd hf (by simp [Method.isHeartbeat])
    | monitor now => exact absurd hf (by simp [Method.isHeartbeat])
  | false =>
    rw [Method.heardAt_of_not_isHeartbeat hf]
    rcases h.last with ⟨l₁, g, r, l₂, e, hl₂⟩ | h0
    · refine Or.inl ⟨l₁, g, r, l₂ ++ [f], by rw [e]; simp, fun f' hf' => ?_⟩
      rcases List.mem_append.mp hf' with hf' | hf'
      · exact hl₂ f' hf'
      · rw [List.mem_singleton.mp hf']
        exact hf
    · exact Or.inr h0

/-- **What the monitor needs to promote.** -/
theorem monitor_activates {m : HAManager} {now : Rat} (h : Activates m (.monitor now)) :
    m.role = .STANDBY ∧ 0 < m.lastHeartbeatReceived ∧
      (m.heartbeatTimeoutMs : Rat) ≤ (now - m.lastHeartbeatReceived) * 1000 := by
  obtain ⟨hrole, hactive⟩ := h
  have hact : (m.monitor now).2.role = .ACTIVE := hactive
  unfold HAManager.monitor at hact
  split at hact
  · rename_i hdown
    split at hact
    · rename_i hheard
      obtain ⟨hstandby, hdead⟩ := hdown
      refine ⟨hstandby, hheard, ?_⟩
      unfold HAManager.peerAlive at hdead
      rw [if_neg hheard.ne'] at hdead
      simpa using hdead
    · exact absurd hact hrole
  · exact absurd hact hrole

/-! ### Fencing -/

/-- **The entrance to `FENCING`.** -/
theorem fencing_entered {m : HAManager} {f : Method} (hm : m.role ≠ .FENCING)
    (hf : (f.run m).2.role = .FENCING) :
    m.role = .ACTIVE ∧ ∃ now, f = .receiveHeartbeat now m.generation .ACTIVE := by
  have hpromote : m.promote.2.role ≠ .FENCING := by
    unfold HAManager.promote
    split
    · exact hm
    · simp
  cases f with
  | promote => exact absurd hf hpromote
  | demote =>
    refine absurd hf ?_
    show m.demote.2.role ≠ .FENCING
    unfold HAManager.demote
    split
    · exact hm
    · simp
  | receiveHeartbeat now g r =>
    have hrole : (m.receiveHeartbeat now g r).2.role = .FENCING := hf
    rw [role_receiveHeartbeat] at hrole
    split at hrole
    · rename_i hboth
      obtain ⟨hactive, rfl⟩ := hboth
      refine ⟨hactive, now, ?_⟩
      split at hrole
      · simp at hrole
      · split at hrole
        · simp at hrole
        · rw [show g = m.generation by omega]
    · exact absurd hrole hm
  | monitor now =>
    refine absurd hf ?_
    show (m.monitor now).2.role ≠ .FENCING
    unfold HAManager.monitor
    split
    · split
      · exact hpromote
      · exact hm
    · exact hm

/-- **`FENCING` is not left by itself.** -/
theorem fencing_kept {m : HAManager} {f : Method} (hm : m.role = .FENCING) (hp : f ≠ .promote)
    (hd : f ≠ .demote) : (f.run m).2.role = .FENCING := by
  cases f with
  | promote => exact absurd rfl hp
  | demote => exact absurd rfl hd
  | receiveHeartbeat now g r =>
    show (m.receiveHeartbeat now g r).2.role = .FENCING
    rw [role_receiveHeartbeat, if_neg (by simp [hm])]
    exact hm
  | monitor now =>
    show (m.monitor now).2.role = .FENCING
    rw [HAManager.monitor, if_neg (by simp [hm])]
    exact hm

theorem fencing_kept_run {c : Config} {l l' : List Method}
    (hl : ((manager c).run l).role = .FENCING)
    (hl' : ∀ f ∈ l', f ≠ .promote ∧ f ≠ .demote) : ((manager c).run (l ++ l')).role = .FENCING := by
  induction l' using List.reverseRecOn with
  | nil =>
    rw [List.append_nil]
    exact hl
  | append_singleton l' f ih =>
    have hf := hl' f (by simp)
    rw [← List.append_assoc, Machine.run_append_singleton]
    exact fencing_kept (ih (fun f' hf' => hl' f' (List.mem_append_left _ hf'))) hf.1 hf.2

/-! ### The law -/

/-- **The role and the generation of one node.**  After any sequence of calls, the
generation is the first one plus the number of changes from another role to `ACTIVE`.
A round of the monitor makes such a change only from `STANDBY`, when a heartbeat has
been received and the time-out has passed since the last one.  `FENCING` is entered
only from `ACTIVE`, by the heartbeat of an active peer with the same generation, and
no sequence of heartbeats and rounds of the monitor leaves it. -/
theorem role_and_generation_law (c : Config) (l : List Method) :
    ((manager c).run l).generation = c.generation + activations (.new c) l ∧
    (∀ l₁ now l₂, l = l₁ ++ .monitor now :: l₂ →
      Activates ((manager c).run l₁) (.monitor now) →
      ((manager c).run l₁).role = .STANDBY ∧
        ∃ t, LastHeartbeat l₁ t ∧ (c.heartbeatTimeoutMs : Rat) ≤ (now - t) * 1000) ∧
    (∀ l₁ f l₂, l = l₁ ++ f :: l₂ → ((manager c).run l₁).role ≠ .FENCING →
      ((manager c).run (l₁ ++ [f])).role = .FENCING →
      ((manager c).run l₁).role = .ACTIVE ∧
        ∃ now, f = .receiveHeartbeat now ((manager c).run l₁).generation .ACTIVE) ∧
    (∀ l₁ l₂ l₃, l = l₁ ++ l₂ ++ l₃ → ((manager c).run l₁).role = .FENCING →
      (∀ f ∈ l₂, f ≠ .promote ∧ f ≠ .demote) →
      ((manager c).run (l₁ ++ l₂)).role = .FENCING) := by
  refine ⟨generation_foldl l (.new c), ?_, ?_, ?_⟩
  · intro l₁ now l₂ _ hact
    obtain ⟨hstandby, hpos, hlate⟩ := monitor_activates hact
    obtain ⟨htimeout, hlast⟩ := heard_run c l₁
    rw [htimeout] at hlate
    rcases hlast with hlast | h0
    · exact ⟨hstandby, _, hlast, hlate⟩
    · exact absurd h0 hpos.ne'
  · intro l₁ f l₂ _ hnot hin
    rw [Machine.run_append_singleton] at hin
    exact fencing_entered hnot hin
  · intro l₁ l₂ l₃ _ hin hl₂
    exact fencing_kept_run hin hl₂

/-- A promoted node that hears an active peer of its own generation stays fenced while
its peer falls silent. -/
example : ((manager standbyConfig).run [.promote, .receiveHeartbeat 1 2 .ACTIVE, .monitor 100,
    .receiveHeartbeat 101 7 .ACTIVE]).role = .FENCING := by decide +kernel

end PrismFirewall.TcFirewall.Ha
