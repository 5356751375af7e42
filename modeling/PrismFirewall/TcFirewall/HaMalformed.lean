import Mathlib.Tactic.Linarith
import PrismFirewall.TcFirewall.HaWiring

/-!
# Heartbeats that are refused

`receive_heartbeat` is given the role of the peer as a text, and `HAState(peer_role)`
raises if it is none of the three.  By then the time of the heartbeat and the generation
have been stored.

`postedManager` is one `HAManager` with the heartbeats as they are posted.  The stored time
is what `peer_alive` looks at, and it can be told from `peer_alive` (`peerAlive_inj`):
so a refused heartbeat goes unnoticed if it stores what is stored already, and only then
(`malformed_unnoticed_iff`).
-/

namespace PrismFirewall.TcFirewall.Ha

open Lib

/-! ### One manager -/

inductive ManagerCall
  | receiveHeartbeat (now : Rat) (peerGeneration : Int) (peerRole : String)
  | promote
  | demote
  | monitor (now : Rat)
  deriving DecidableEq

namespace HAManager

/-- `receive_heartbeat`, with the role as it is posted; `none` is the `ValueError` of
`HAState(peer_role)`. -/
def receiveText (m : HAManager) (now : Rat) (peerGeneration : Int) (peerRole : String) :
    Option Reply × HAManager :=
  match HAState.ofText peerRole with
  | some role =>
    (some (m.receiveHeartbeat now peerGeneration role).1,
      (m.receiveHeartbeat now peerGeneration role).2)
  | none => (none, { m with lastHeartbeatReceived := now, peerGeneration := peerGeneration })

def call (m : HAManager) : ManagerCall → Option Reply × HAManager
  | .receiveHeartbeat now peerGeneration peerRole => m.receiveText now peerGeneration peerRole
  | .promote => (some m.promote.1, m.promote.2)
  | .demote => (some m.demote.1, m.demote.2)
  | .monitor now => (some (m.monitor now).1, (m.monitor now).2)

end HAManager

/-- A manager from its start, with the heartbeats as they are posted. -/
def postedManager (c : Config) : Machine HAManager ManagerCall (Option Reply) :=
  ⟨.new c, HAManager.call⟩

/-- A heartbeat whose role is not one of the three. -/
def ManagerCall.malformed : ManagerCall → Bool
  | .receiveHeartbeat _ _ peerRole => (HAState.ofText peerRole).isNone
  | _ => false

def withoutMalformed (l : List ManagerCall) : List ManagerCall :=
  l.filter (fun e => !e.malformed)

/-! ### What can be seen of a manager -/

/-- The two managers have the same role and generations, and at every time they see the peer
alive or not alike and decide on a failover alike. -/
structure SameView (m m' : HAManager) : Prop where
  role : m.role = m'.role
  generation : m.generation = m'.generation
  peerGeneration : m.peerGeneration = m'.peerGeneration
  peerRole : m.peerRole = m'.peerRole
  peerAlive : ∀ now, m.peerAlive now = m'.peerAlive now
  failover : ∀ now, (m.monitor now).1 = (m'.monitor now).1

/-- A later heartbeat keeps the peer alive for longer. -/
theorem exists_peerAlive_ne {m m' : HAManager} (ht : m.heartbeatTimeoutMs = m'.heartbeatTimeoutMs)
    (hne : m.lastHeartbeatReceived ≠ 0)
    (h : m'.lastHeartbeatReceived = 0 ∨ m'.lastHeartbeatReceived < m.lastHeartbeatReceived) :
    ∃ now, m.peerAlive now ≠ m'.peerAlive now := by
  rcases h with h | h
  · -- the other one has no heartbeat
    refine ⟨m.lastHeartbeatReceived + (m.heartbeatTimeoutMs - 1) / 1000, ?_⟩
    rw [HAManager.peerAlive, HAManager.peerAlive, if_neg hne, if_pos h, ne_eq,
      decide_eq_false_iff_not, not_not]
    linarith
  · refine ⟨m'.lastHeartbeatReceived + m.heartbeatTimeoutMs / 1000, ?_⟩
    have halive : m.peerAlive (m'.lastHeartbeatReceived + m.heartbeatTimeoutMs / 1000) = true := by
      rw [HAManager.peerAlive, if_neg hne, decide_eq_true_eq]
      linarith
    have hdead : m'.peerAlive (m'.lastHeartbeatReceived + m.heartbeatTimeoutMs / 1000) = false := by
      rw [HAManager.peerAlive]
      split
      · rfl
      · rw [decide_eq_false_iff_not, ← ht]
        linarith
    rw [halive, hdead]
    decide

/-- **The time of the last heartbeat shows in `peer_alive`.** -/
theorem peerAlive_inj {m m' : HAManager} (ht : m.heartbeatTimeoutMs = m'.heartbeatTimeoutMs)
    (h : ∀ now, m.peerAlive now = m'.peerAlive now) :
    m.lastHeartbeatReceived = m'.lastHeartbeatReceived := by
  by_contra hne
  by_cases hm : m.lastHeartbeatReceived = 0
  · obtain ⟨now, hnow⟩ := exists_peerAlive_ne ht.symm (fun h0 => hne (hm.trans h0.symm)) (Or.inl hm)
    exact hnow (h now).symm
  · by_cases hm' : m'.lastHeartbeatReceived = 0
    · obtain ⟨now, hnow⟩ := exists_peerAlive_ne ht hm (Or.inl hm')
      exact hnow (h now)
    · rcases lt_or_gt_of_ne hne with hlt | hlt
      · obtain ⟨now, hnow⟩ := exists_peerAlive_ne ht.symm hm' (Or.inr hlt)
        exact hnow (h now).symm
      · obtain ⟨now, hnow⟩ := exists_peerAlive_ne ht hm (Or.inr hlt)
        exact hnow (h now)

/-- What a manager was configured with. -/
def HAManager.Configured (m : HAManager) (c : Config) : Prop :=
  m.peerUrl = c.peerUrl ∧ m.heartbeatIntervalMs = c.heartbeatIntervalMs ∧
    m.heartbeatTimeoutMs = c.heartbeatTimeoutMs

theorem configured_run (c : Config) (l : List ManagerCall) :
    ((postedManager c).run l).Configured c := by
  refine (postedManager c).run_induction (P := fun _ m => m.Configured c) ⟨rfl, rfl, rfl⟩ ?_ l
  intro l e m h
  have hpromote : m.promote.2.Configured c := by
    unfold HAManager.promote
    split <;> exact h
  cases e with
  | receiveHeartbeat now peerGeneration peerRole =>
    show (m.receiveText now peerGeneration peerRole).2.Configured c
    unfold HAManager.receiveText
    split
    · unfold HAManager.receiveHeartbeat HAManager.resolveSplitBrain
      dsimp only
      split_ifs <;> exact h
    · exact h
  | promote => exact hpromote
  | demote =>
    show m.demote.2.Configured c
    unfold HAManager.demote
    split <;> exact h
  | monitor now =>
    show (m.monitor now).2.Configured c
    unfold HAManager.monitor
    split_ifs
    · exact hpromote
    · exact h
    · exact h

/-- Everything that is not configuration can be seen. -/
theorem sameView_iff {c : Config} {m m' : HAManager} (hm : m.Configured c)
    (hm' : m'.Configured c) : SameView m m' ↔ m = m' := by
  constructor
  · intro h
    have hlast := peerAlive_inj (hm.2.2.trans hm'.2.2.symm) h.peerAlive
    cases m
    cases m'
    simp only [HAManager.Configured] at hm hm'
    simp only [HAManager.mk.injEq]
    exact ⟨h.role, hm.1.trans hm'.1.symm, h.generation, hm.2.1.trans hm'.2.1.symm,
      hm.2.2.trans hm'.2.2.symm, hlast, h.peerGeneration, h.peerRole⟩
  · rintro rfl
    exact ⟨rfl, rfl, rfl, rfl, fun _ => rfl, fun _ => rfl⟩

/-! ### The result -/

/-- A malformed heartbeat finds its time and its generation stored already. -/
def Unnoticed (m : HAManager) : ManagerCall → Prop
  | .receiveHeartbeat now peerGeneration peerRole => HAState.ofText peerRole = none →
      now = m.lastHeartbeatReceived ∧ peerGeneration = m.peerGeneration
  | _ => True

theorem unnoticed_iff {m : HAManager} {e : ManagerCall} :
    Unnoticed m e ↔ (e.malformed = true → (m.call e).2 = m) := by
  cases e with
  | receiveHeartbeat now peerGeneration peerRole =>
    rw [Unnoticed, ManagerCall.malformed, HAManager.call, HAManager.receiveText]
    cases HAState.ofText peerRole with
    | some role => simp
    | none =>
      cases m
      simp
  | promote => simp [Unnoticed, ManagerCall.malformed]
  | demote => simp [Unnoticed, ManagerCall.malformed]
  | monitor now => simp [Unnoticed, ManagerCall.malformed]

/-- **When malformed heartbeats have no effect.**  Along a run of a manager the role, the
generations, `peer_alive` and the failover decisions are all the time what they are without
the malformed heartbeats, if and only if each of these stores what is stored already. -/
theorem malformed_unnoticed_iff (c : Config) (l : List ManagerCall) :
    (∀ l₁ l₂, l = l₁ ++ l₂ →
      SameView ((postedManager c).run l₁) ((postedManager c).run (withoutMalformed l₁))) ↔
    (postedManager c).Meets Unnoticed l := by
  refine ((postedManager c).forall_purged_iff_meets
    (fun l l' => sameView_iff (configured_run c l) (configured_run c l')) l).trans ?_
  constructor
  · intro h l₁ e l₂ el
    exact unnoticed_iff.mpr (h l₁ e l₂ el)
  · intro h l₁ e l₂ el
    exact unnoticed_iff.mp (h l₁ e l₂ el)

/-- The peer is heard once; a second later a heartbeat with an unknown role comes in, and then
the monitor looks. -/
def malformedRun : List ManagerCall :=
  [.receiveHeartbeat 1 5 "ACTIVE", .receiveHeartbeat 2 6 "MASTER", .monitor (21 / 10)]

/-- **A malformed heartbeat keeps a standby from taking over**, and its generation stays. -/
theorem malformed_prevents_failover :
    ((postedManager standbyConfig).run malformedRun).role = .STANDBY ∧
    ((postedManager standbyConfig).run malformedRun).peerGeneration = 6 ∧
    ((postedManager standbyConfig).run (withoutMalformed malformedRun)).role = .ACTIVE ∧
    ((postedManager standbyConfig).run (withoutMalformed malformedRun)).peerGeneration
      = 5 ∧
    ¬ ∀ l₁ l₂, malformedRun = l₁ ++ l₂ → SameView ((postedManager standbyConfig).run l₁)
      ((postedManager standbyConfig).run (withoutMalformed l₁)) := by
  have hrole : ((postedManager standbyConfig).run malformedRun).role = .STANDBY := by decide +kernel
  have hrole' : ((postedManager standbyConfig).run
      (withoutMalformed malformedRun)).role = .ACTIVE := by decide +kernel
  refine ⟨hrole, by decide +kernel, hrole', by decide +kernel, fun h => ?_⟩
  have hsame := (h malformedRun [] (List.append_nil _).symm).role
  rw [hrole, hrole'] at hsame
  exact absurd hsame (by decide)

end PrismFirewall.TcFirewall.Ha
