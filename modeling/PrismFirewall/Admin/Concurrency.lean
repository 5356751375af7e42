import Mathlib.Algebra.Group.Nat.Defs
import Mathlib.Data.Fintype.Basic
import PrismFirewall.Lib.Optimistic
import PrismFirewall.Admin.Calls

/-!
# Optimistic concurrency of the admin store

`apply_desired_state` checks the generation under one lock and writes the new one
under another, with other sections in between.  Two pushes that both pass the
check before either writes both return `Ok`, and the later write may even lower
the stored generation.

`Exclusive` asks of a turn that it passes no check while another call stands
between its check and its write on the same firewall, that it does not wrap the
counter, and that it gives a new firewall an identifier not in use.  The turns of
such runs are steps of `Lib.Optimistic` (`step_view`), from which
`one_ok_per_generation` is read off.
-/

namespace PrismFirewall.Admin

open PrismFirewall.Lib (Dict Machine)
open PrismFirewall.Lib.Optimistic (Shared Phase Step Ordered)

variable {ι : Type*} [DecidableEq ι]

/-- The firewall of a call that has passed its check and has not written yet. -/
def Call.inFlight : Call → Option String
  | .createFirewall _ _ => none
  | .updateFirewall id _ pc =>
    match pc with
    | .draw _ | .write _ _ => some id
    | .start | .returned _ => none
  | .applyDesiredState firewallId _ pc =>
    match pc with
    | .start | .returned _ => none
    | _ => some firewallId

/-- The firewall and the expected generation of a call that has returned `Ok`. -/
def Call.returnedOk : Call → Option (String × UInt64)
  | .updateFirewall id req (.returned (.ok _)) => some (id, req.generation)
  | .applyDesiredState firewallId req (.returned (.ok _)) =>
    some (firewallId, req.expectedGeneration)
  | _ => none

def Pool.storedGeneration (p : Pool ι) (firewallId : String) : Option UInt64 :=
  (p.store.firewalls.get? firewallId).map Firewall.generation

/-- A check for this generation fails, or nobody is past theirs. -/
def Pool.CheckAlone (p : Pool ι) (firewallId : String) (expected : UInt64) : Prop :=
  p.writer = none → p.storedGeneration firewallId = some expected →
    ∀ j, (p.calls j).inFlight ≠ some firewallId

def Pool.NoWrap (p : Pool ι) : Prop := p.store.generation.toNat + 1 < 2 ^ 64

/-- What the next turn of a call relies on. -/
inductive Need
  | nothing
  | counter
  | identifier
  | check (firewallId : String) (expected : UInt64)

def Call.need : Call → Need
  | .createFirewall _ pc =>
    match pc with
    | .start => .counter
    | .insert _ => .identifier
    | .returned _ => .nothing
  | .updateFirewall id req pc =>
    match pc with
    | .start => .check id req.generation
    | .draw _ => .counter
    | _ => .nothing
  | .applyDesiredState firewallId req pc =>
    match pc with
    | .start => .check firewallId req.expectedGeneration
    | .create _ => .counter
    | _ => .nothing

def Need.Met (p : Pool ι) (uuid : String) : Need → Prop
  | .nothing => True
  | .counter => p.NoWrap
  | .identifier => p.writer = none → uuid ∉ p.store.firewalls
  | .check firewallId expected => p.CheckAlone firewallId expected

def Exclusive (p : Pool ι) (turn : Turn ι) : Prop := (p.calls turn.call).need.Met p turn.uuid

instance [Fintype ι] (p : Pool ι) (uuid : String) : (n : Need) → Decidable (n.Met p uuid)
  | .nothing => inferInstanceAs (Decidable True)
  | .counter => inferInstanceAs (Decidable (_ < _))
  | .identifier => inferInstanceAs (Decidable (_ → _ ∉ _))
  | .check _ _ => inferInstanceAs (Decidable (_ → _ → ∀ _, _))

instance [Fintype ι] (p : Pool ι) (turn : Turn ι) : Decidable (Exclusive p turn) :=
  inferInstanceAs (Decidable (Need.Met p turn.uuid (p.calls turn.call).need))

/-! ### The pool as optimistic writers -/

def Call.phase : Call → Phase String
  | .createFirewall _ pc =>
    match pc with
    | .insert gen => .reserved gen.toNat
    | _ => .idle
  | .updateFirewall id req pc =>
    match pc with
    | .start => .idle
    | .draw _ => .looked id req.generation.toNat
    | .write _ gen => .drew id req.generation.toNat gen.toNat
    | .returned (.ok _) => .wrote id req.generation.toNat
    | .returned (.error _) => .idle
  | .applyDesiredState firewallId req pc =>
    match pc with
    | .start => .idle
    | .write gen => .drew firewallId req.expectedGeneration.toNat gen.toNat
    | .returned (.ok _) => .wrote firewallId req.expectedGeneration.toNat
    | .returned (.error _) => .idle
    | _ => .looked firewallId req.expectedGeneration.toNat

def AppStore.versions (s : AppStore) (firewallId : String) : Option Nat :=
  (s.firewalls.get? firewallId).map (fun fw => fw.generation.toNat)

def Pool.view (p : Pool ι) : Shared ι String :=
  ⟨p.store.versions, p.store.generation.toNat, fun i => (p.calls i).phase⟩

theorem Call.inFlight_of_on {c : Call} {k : String} (h : c.phase.On k) : c.inFlight = some k := by
  cases c with
  | createFirewall req pc =>
    cases pc <;> exact h.elim
  | updateFirewall id req pc =>
    cases pc with
    | returned r => cases r <;> exact h.elim
    | start => exact h.elim
    | draw fw => exact congrArg some h
    | write fw gen => exact congrArg some h
  | applyDesiredState firewallId req pc =>
    cases pc with
    | returned r => cases r <;> exact h.elim
    | start => exact h.elim
    | _ => exact congrArg some h

theorem Call.returnedOk_iff {c : Call} {k : String} {e : UInt64} :
    c.returnedOk = some (k, e) ↔ c.phase = .wrote k e.toNat := by
  cases c with
  | createFirewall req pc => cases pc <;> simp [returnedOk, phase]
  | updateFirewall id req pc =>
    cases pc with
    | returned r => cases r <;> simp [returnedOk, phase, UInt64.toNat_inj]
    | _ => simp [returnedOk, phase]
  | applyDesiredState firewallId req pc =>
    cases pc with
    | returned r => cases r <;> simp [returnedOk, phase, UInt64.toNat_inj]
    | _ => simp [returnedOk, phase]

theorem AppStore.versions_putFirewall (s : AppStore) (id : String) (fw : Firewall) :
    (s.putFirewall id fw).versions = Function.update s.versions id (some fw.generation.toNat) := by
  funext k
  by_cases hk : k = id
  · subst hk
    simp [AppStore.versions, AppStore.putFirewall]
  · simp [AppStore.versions, AppStore.putFirewall, Function.update_of_ne hk,
      Dict.get?_insert_ne hk]

theorem Pool.view_advance (p : Pool ι) (i : ι) (s : AppStore) (c : Call) :
    (p.advance i s c).view
      = ⟨s.versions, s.generation.toNat, Function.update p.view.phase i c.phase⟩ := by
  have hphase : (fun j => (Function.update p.calls i c j).phase)
      = Function.update p.view.phase i c.phase := Function.comp_update Call.phase p.calls i c
  simp only [Pool.view, Pool.advance] at hphase ⊢
  rw [hphase]

/-- A turn that leaves the call in the phase it was in. -/
theorem Pool.view_advance_of_phase_eq (p : Pool ι) {i : ι} {s : AppStore} {c : Call}
    (h : c.phase = (p.calls i).phase) :
    (p.advance i s c).view = ⟨s.versions, s.generation.toNat, p.view.phase⟩ := by
  rw [view_advance, h, show (p.calls i).phase = p.view.phase i from rfl,
    Function.update_eq_self]

omit [DecidableEq ι] in
theorem Pool.NoWrap.toNat_succ {p : Pool ι} (h : p.NoWrap) :
    (p.store.generation + 1).toNat = p.store.generation.toNat + 1 := by
  rw [UInt64.toNat_add]
  exact Nat.mod_eq_of_lt h

/-! ### Each turn is a step -/

variable {p : Pool ι} {turn : Turn ι}

theorem step_view_create {req : CreateFirewallRequest} {pc : CreatePc}
    (hcall : p.calls turn.call = .createFirewall req pc) (hx : Exclusive p turn) :
    Step p.view (p.stepCreate turn req pc).view := by
  have hphase : p.view.phase turn.call = (Call.createFirewall req pc).phase := by
    rw [← hcall]
    rfl
  rw [Exclusive, hcall] at hx
  cases pc with
  | start =>
    have hstep := Step.reserve p.view turn.call hphase
    simp only [Pool.stepCreate, AppStore.nextGeneration, Pool.view_advance,
      Pool.NoWrap.toNat_succ hx]
    exact hstep
  | insert gen =>
    simp only [Pool.stepCreate]
    split
    · exact Step.skip _
    · rename_i hw
      have hfree : turn.uuid ∉ p.store.firewalls := hx (by simpa using hw)
      have hnone : p.view.versions turn.uuid = none := by
        simp [Pool.view, AppStore.versions, Dict.get?_eq_none_iff.mpr hfree]
      have hstep := Step.add p.view turn.call turn.uuid gen.toNat hphase hnone
      rw [Pool.view_advance, AppStore.insertFirewall, AppStore.versions_putFirewall]
      exact hstep
  | returned fw => exact Step.skip _

/-- The check, in the form both calls make it. -/
theorem step_look {c : Call} {s : AppStore} {id : String} {expected : UInt64} {fw : Firewall}
    (hidle : (p.calls turn.call).phase = .idle) (hw : p.writer = none)
    (hx : p.CheckAlone id expected) (hok : p.store.checkGeneration id expected = .ok fw)
    (hc : c.phase = .looked id expected.toNat) (hs : s.versions = p.store.versions)
    (hg : s.generation = p.store.generation) :
    Step p.view (p.advance turn.call s c).view := by
  obtain ⟨hget, hgen⟩ := AppStore.checkGeneration_eq_ok_iff.mp hok
  have hversion : p.view.versions id = some expected.toNat := by
    simp [Pool.view, AppStore.versions, hget, hgen]
  have hstored : p.storedGeneration id = some expected := by
    simp [Pool.storedGeneration, hget, hgen]
  have hstep := Step.look p.view turn.call id expected.toNat hidle hversion
    (fun j hon => hx hw hstored j (Call.inFlight_of_on hon))
  rw [Pool.view_advance, hc, hs, hg]
  exact hstep

theorem step_view_update {id : String} {req : UpdateFirewallRequest} {pc : UpdatePc}
    (hcall : p.calls turn.call = .updateFirewall id req pc) (hx : Exclusive p turn) :
    Step p.view (p.stepUpdate turn id req pc).view := by
  have hphase : p.view.phase turn.call = (Call.updateFirewall id req pc).phase := by
    rw [← hcall]
    rfl
  rw [Exclusive, hcall] at hx
  cases pc with
  | start =>
    simp only [Pool.stepUpdate]
    split
    · exact Step.skip _
    · rename_i hw
      split
      · rename_i e hok
        rw [Pool.view_advance_of_phase_eq p
          (c := .updateFirewall id req (.returned (.error e))) hphase.symm]
        exact Step.skip _
      · rename_i fw hok
        -- the new fields leave the generation as it was
        have hs : (p.store.putFirewall id (req.setFields fw)).versions = p.store.versions := by
          rw [AppStore.versions_putFirewall, Function.update_eq_self_iff]
          simp [AppStore.versions, (AppStore.checkGeneration_eq_ok_iff.mp hok).1,
            UpdateFirewallRequest.setFields]
        exact step_look hphase (by simpa using hw) hx hok rfl hs rfl
  | draw fw =>
    have hstep := Step.draw p.view turn.call id req.generation.toNat hphase
    simp only [Pool.stepUpdate, AppStore.nextGeneration, Pool.view_advance,
      Pool.NoWrap.toNat_succ hx]
    exact hstep
  | write fw gen =>
    have hstep := Step.write p.view turn.call id req.generation.toNat gen.toNat hphase
    have hview : ∀ q : Pool ι, ({ q with writer := none } : Pool ι).view = q.view := fun _ => rfl
    simp only [Pool.stepUpdate, hview, Pool.view_advance, AppStore.versions_putFirewall]
    exact hstep
  | returned r => exact Step.skip _

theorem step_view_apply {firewallId : String} {req : DesiredStateRequest} {pc : ApplyPc}
    (hO : Ordered p.view) (hcall : p.calls turn.call = .applyDesiredState firewallId req pc)
    (hx : Exclusive p turn) : Step p.view (p.stepApply turn firewallId req pc).view := by
  have hphase : p.view.phase turn.call = (Call.applyDesiredState firewallId req pc).phase := by
    rw [← hcall]
    rfl
  rw [Exclusive, hcall] at hx
  -- the sections between the check and the draw touch policies and rules only
  have hskip : ∀ {s : AppStore} {pc' : ApplyPc}, s.firewalls = p.store.firewalls →
      s.generation = p.store.generation →
      (Call.applyDesiredState firewallId req pc').phase
        = (Call.applyDesiredState firewallId req pc).phase →
      Step p.view
        (p.advance turn.call s (.applyDesiredState firewallId req pc')).view := by
    intro s pc' hf hg hpc
    have hv : s.versions = p.store.versions := by
      funext k
      rw [AppStore.versions, hf, AppStore.versions]
    rw [Pool.view_advance_of_phase_eq _ (hpc.trans hphase.symm), hv, hg]
    exact Step.skip _
  cases pc with
  | start =>
    simp only [Pool.stepApply]
    split
    · exact Step.skip _
    · rename_i hw
      split
      · exact hskip rfl rfl rfl
      · rename_i fw hok
        exact step_look hphase (by simpa using hw) hx hok rfl rfl rfl
  | collect => exact hskip rfl rfl rfl
  | retainRules policyIds => exact hskip rfl rfl rfl
  | retainPolicies => exact hskip rfl rfl rfl
  | create todo =>
    cases todo with
    | nil =>
      have hstep := Step.draw p.view turn.call firewallId req.expectedGeneration.toNat hphase
      simp only [Pool.stepApply, AppStore.nextGeneration, Pool.view_advance,
        Pool.NoWrap.toNat_succ hx]
      exact hstep
    | cons desired todo =>
      have hstep := Step.count p.view
      rw [Pool.stepApply, AppStore.nextGeneration, Pool.view_advance_of_phase_eq p
        (c := .applyDesiredState firewallId req (.insertPolicy _ desired todo)) hphase.symm]
      simp only [Pool.NoWrap.toNat_succ hx]
      exact hstep
  | insertPolicy gen desired todo => exact hskip rfl rfl rfl
  | insertRules policyId rules todo => cases rules <;> exact hskip rfl rfl rfl
  | write newGen =>
    simp only [Pool.stepApply]
    split
    · exact Step.skip _
    · have hstep := Step.write p.view turn.call firewallId req.expectedGeneration.toNat
        newGen.toNat hphase
      -- the firewall the check found is still there
      have hfit := hO.fits turn.call
      rw [hphase] at hfit
      obtain ⟨fw, hget, -⟩ := Option.map_eq_some_iff.mp hfit.1
      rw [Pool.view_advance, AppStore.writeGeneration, hget]
      simp only [AppStore.versions_putFirewall]
      exact hstep
  | returned r => exact Step.skip _

/-- A turn of an exclusive run is a step of optimistic writers. -/
theorem step_view (hO : Ordered p.view) (hx : Exclusive p turn) :
    Step p.view (p.step turn).view := by
  rw [Pool.step]
  split
  · rename_i req pc hcall
    exact step_view_create hcall hx
  · rename_i id req pc hcall
    exact step_view_update hcall hx
  · rename_i firewallId req pc hcall
    exact step_view_apply hO hcall hx

/-! ### Runs -/

theorem ordered_init (requests : ι → Request) : Ordered (pool requests).init.view := by
  have hidle : ∀ i, (pool requests).init.view.phase i = .idle := by
    intro i
    change ((requests i).start).phase = .idle
    cases requests i <;> rfl
  refine ⟨fun k g hg => ?_, fun i => ?_, fun k i j hi => ?_, fun k e i j hi => ?_⟩
  · cases hg
  · rw [hidle]
    trivial
  · rw [hidle] at hi
    exact hi.elim
  · rw [hidle] at hi
    cases hi

theorem ordered_run (requests : ι → Request) : ∀ turns : List (Turn ι),
    (pool requests).Meets Exclusive turns → Ordered ((pool requests).run turns).view :=
  Machine.run_induction_of_meets (P := fun _ (p : Pool ι) => Ordered p.view) _
    (ordered_init requests) (fun _ _ _ hO hx => (step_view hO hx).ordered hO)

/-- **In an exclusive run, at most one call returns `Ok` for each expected generation
of a firewall, and every turn with which a call returns `Ok` raises the stored
generation.** -/
theorem one_ok_per_generation (requests : ι → Request) (turns : List (Turn ι))
    (h : (pool requests).Meets Exclusive turns) :
    (∀ i j x, (((pool requests).run turns).calls i).returnedOk = some x →
      (((pool requests).run turns).calls j).returnedOk = some x → i = j) ∧
    ∀ before turn after i firewallId expected, turns = before ++ turn :: after →
      (((pool requests).run before).calls i).returnedOk ≠ some (firewallId, expected) →
      (((pool requests).run (before ++ [turn])).calls i).returnedOk
        = some (firewallId, expected) →
      ∃ g g', ((pool requests).run before).storedGeneration firewallId = some g ∧
        ((pool requests).run (before ++ [turn])).storedGeneration firewallId = some g' ∧
        g < g' := by
  constructor
  · intro i j h hi hj
    obtain ⟨k, e⟩ := h
    exact (ordered_run requests turns h).once k e.toNat i j (Call.returnedOk_iff.mp hi)
      (Call.returnedOk_iff.mp hj)
  · intro before turn after i k e hturns hi hi'
    have hO := ordered_run requests before (Machine.Meets.of_append _ (hturns ▸ h))
    have hstep := step_view hO (h before turn after hturns)
    rw [Machine.run_append_singleton] at hi' ⊢
    obtain ⟨g, g', hg, hg', hlt⟩ := hstep.version_lt_of_wrote hO
      (fun he => hi (Call.returnedOk_iff.mpr he)) (Call.returnedOk_iff.mp hi')
    obtain ⟨fw, hfw, rfl⟩ := Option.map_eq_some_iff.mp hg
    obtain ⟨fw', hfw', rfl⟩ := Option.map_eq_some_iff.mp hg'
    exact ⟨fw.generation, fw'.generation, Option.map_eq_some_iff.mpr ⟨fw, hfw, rfl⟩,
      Option.map_eq_some_iff.mpr ⟨fw', hfw', rfl⟩, hlt⟩

def sampleFirewall : CreateFirewallRequest := ⟨"fw", "t1", "v1", 100, .Inline, .Enabled⟩

/-- A firewall is created, and two pushes expect its first generation. -/
def twoPushes : Fin 3 → Request
  | 0 => .createFirewall sampleFirewall
  | _ => .applyDesiredState "fw" ⟨1, []⟩

def turnsOf (calls : List (Fin 3)) : List (Turn (Fin 3)) := calls.map (fun i => ⟨i, "fw", "0"⟩)

/-- One push after the other. -/
def inSequence : List (Turn (Fin 3)) := turnsOf [0, 0, 1, 1, 1, 1, 1, 1, 2]

theorem one_ok_per_generation_inSequence :
    (pool twoPushes).Meets Exclusive inSequence ∧
    (∀ i j x, (((pool twoPushes).run inSequence).calls i).returnedOk = some x →
      (((pool twoPushes).run inSequence).calls j).returnedOk = some x → i = j) ∧
    ∃ g g',
      ((pool twoPushes).run (turnsOf [0, 0, 1, 1, 1, 1, 1])).storedGeneration "fw" = some g ∧
      ((pool twoPushes).run (turnsOf [0, 0, 1, 1, 1, 1, 1, 1])).storedGeneration "fw" = some g' ∧
      g < g' := by
  have h : (pool twoPushes).Meets Exclusive inSequence :=
    Machine.meets_of_meetsFrom _ (by decide +kernel)
  obtain ⟨hone, hraise⟩ := one_ok_per_generation twoPushes inSequence h
  exact ⟨h, hone, hraise (turnsOf [0, 0, 1, 1, 1, 1, 1]) ⟨1, "fw", "0"⟩ (turnsOf [2]) 1 "fw" 1 rfl
    (by decide +kernel) (by decide +kernel)⟩

/-- Both pushes pass their check; the first to draw is the last to write. -/
def interleaved : List (Turn (Fin 3)) := turnsOf [0, 0, 1, 2, 1, 1, 1, 1, 2, 2, 2, 2, 2]

/-- Both pushes return `Ok` for generation 1, and the second of them takes the stored
generation from 3 back to 2. -/
theorem both_pushes_ok_and_generation_lowered :
    (((pool twoPushes).run (interleaved ++ turnsOf [1])).calls 1).returnedOk = some ("fw", 1) ∧
    (((pool twoPushes).run (interleaved ++ turnsOf [1])).calls 2).returnedOk = some ("fw", 1) ∧
    (((pool twoPushes).run interleaved).calls 1).returnedOk = none ∧
    ((pool twoPushes).run interleaved).storedGeneration "fw" = some 3 ∧
    ((pool twoPushes).run (interleaved ++ turnsOf [1])).storedGeneration "fw" = some 2 := by
  decide +kernel

end PrismFirewall.Admin
