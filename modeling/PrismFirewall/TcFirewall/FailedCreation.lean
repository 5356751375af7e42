import PrismFirewall.TcFirewall.NatStore

/-!
# What a failed creation leaves behind

A creation runs several commands and stores its record after the last one, so a
request that fails never touches the stores.  The kernel is another matter:
nothing takes back a filter that went in before a later command raised.

`failed_creation_leaves_nothing_iff` says for every state and every pattern of
answers when a failed creation leaves nothing behind.
-/

namespace PrismFirewall.TcFirewall

open Lib

/-- The requests that create something. -/
def Request.isCreation : Request → Bool
  | .addRule _ | .addSnatRule _ | .addDnatRule _ | .addPortForwardRule _ => true
  | _ => false

/-- The filter tables of both ports, the stores and the indexes are the same. -/
def Untouched (d d' : Daemon) : Prop :=
  d'.kernel = d.kernel ∧ d'.stores.ruleStore = d.stores.ruleStore ∧
    d'.stores.natStore = d.stores.natStore

/-- The request passes every check before its first command. -/
def ReachesTc (s : Stores) (c : Call) : Prop :=
  match c.request with
  | .addRule request => RuleReaches s c.tenantHeader request
  | request => ∃ template, request.natTemplate c.newId = some template ∧
      (∃ t, Admitted s c.tenantHeader request.ValidMode t) ∧
      findExistingNat s template.signature = none ∧ request.PoolFree s

/-- None of the answers makes the installation of the request raise. -/
def Installs (c : Call) (s : TcState) : Prop :=
  match c.request with
  | .addRule _ => s.RuleInstalls
  | _ => s.NatInstalls

/-- The request did not return `200` or `201`. -/
def Response.failed (r : Response) : Prop := r.status ≠ 200 ∧ r.status ≠ 201

/-- The two outcomes of a creation: it is answered with `200` or `201` and, if it
reached tc, all its commands got through; or it failed in one of the three
ways. -/
theorem wp_creation {c : Call} (hc : c.request.isCreation) {s : Session} :
    wp (handler c) s
      (fun r _ => ¬ r.failed ∧ (ReachesTc s.stores c → Installs c s.tc))
      (fun e s' => (errorResponse e).failed ∧ s'.stores = s.stores ∧
        CreationFailed (ReachesTc s.stores c) (Installs c s.tc) s s') := by
  have hfailed : ∀ e, 400 ≤ (errorResponse e).status → (errorResponse e).failed := by
    intro e he
    exact ⟨by omega, by omega⟩
  have hnat : ∀ {template}, c.request.natTemplate c.newId = some template →
      wp (handler c) s
        (fun r _ => ¬ r.failed ∧ (ReachesTc s.stores c → Installs c s.tc))
        (fun e s' => (errorResponse e).failed ∧ s'.stores = s.stores ∧
          CreationFailed (ReachesTc s.stores c) (Installs c s.tc) s s') := by
    intro template ht
    have hreach : ReachesTc s.stores c ↔
        (∃ t, Admitted s.stores c.tenantHeader c.request.ValidMode t) ∧
        findExistingNat s.stores template.signature = none ∧ c.request.PoolFree s.stores := by
      unfold ReachesTc
      split
      · rename_i hr
        rw [hr] at ht
        exact absurd ht (by simp [Request.natTemplate])
      · rw [ht]
        simp
    have hinst : Installs c s.tc ↔ s.tc.NatInstalls := by
      unfold Installs
      split
      · rename_i hr
        rw [hr] at ht
        exact absurd ht (by simp [Request.natTemplate])
      · exact Iff.rfl
    rw [propext hreach, propext hinst]
    refine wp_mono (wp_natCreation ht) ?_ (fun e s' h => ⟨hfailed e h.1, h.2.1, h.2.2.2⟩)
    intro r s' h
    rcases h with ⟨hr, t, e, log, hadm, ⟨hf, -⟩ | ⟨hf, -, hi, -⟩⟩
    · refine ⟨fun h => h.2 hr, fun h => ?_⟩
      rw [hf] at h
      exact absurd h.2.1 (by simp)
    · exact ⟨fun h => h.2 hr, fun _ => hi⟩
  cases hr : c.request with
  | addRule request =>
    have hreach : ReachesTc s.stores c ↔ RuleReaches s.stores c.tenantHeader request := by
      rw [ReachesTc, hr]
    have hinst : Installs c s.tc ↔ s.tc.RuleInstalls := by
      rw [Installs, hr]
    rw [propext hreach, propext hinst, handler, hr]
    refine wp_mono wp_addRule ?_ (fun e s' h => ⟨hfailed e h.1, h.2.1, h.2.2.2⟩)
    intro r s' h
    rcases h with ⟨t, ht, ⟨existing, hf, rfl, -⟩ | ⟨-, -, hi, installed, rfl, -⟩⟩
    · refine ⟨fun h => h.1 rfl, ?_⟩
      intro h
      obtain ⟨t', ht', hf', -⟩ := h
      rw [ht.eq ht', hf] at hf'
      exact absurd hf' (by simp)
    · exact ⟨fun h => h.2 rfl, fun _ => hi⟩
  | addSnatRule r => exact hnat (by rw [hr]; rfl)
  | addDnatRule r => exact hnat (by rw [hr]; rfl)
  | addPortForwardRule r => exact hnat (by rw [hr]; rfl)
  | _ => rw [hr] at hc; exact absurd hc (by simp [Request.isCreation])

/-- **What a failed creation leaves behind.**  In every state, a creation that
is not answered with `200` or `201` leaves nothing behind if and only if, when
the request reaches tc and its first filter goes in, none of the later commands
raises. -/
theorem failed_creation_leaves_nothing_iff (d : Daemon) (c : Call) (hc : c.request.isCreation) :
    ((serve d c).1.failed → Untouched d (serve d c).2) ↔
      (ReachesTc d.stores c → (c.replies 0).succeeds → Installs c (c.session d).tc) := by
  refine serve_of_wp (P := fun r d' => (r.failed → Untouched d d') ↔ _) ?_
  refine wp_mono (wp_creation hc) ?_ ?_
  · intro r s h
    obtain ⟨hok, hi⟩ := h
    exact iff_of_true (fun h => absurd h hok) (fun hreach _ => hi hreach)
  · intro e s h
    obtain ⟨hfailed, hs, h⟩ := h
    have hs' : s.stores = d.stores := hs
    have hsame : s.tc.kernel = d.kernel → Untouched d ⟨s.stores, s.tc.kernel⟩ := by
      intro hk
      exact ⟨hk, by rw [hs'], by rw [hs']⟩
    cases h with
    | refused h hk =>
      exact iff_of_true (fun _ => hsame hk) (fun hreach _ => absurd hreach h)
    | notAdded h h0 hi hk => exact iff_of_true (fun _ => hsame hk) (fun _ h0' => absurd h0' h0)
    | left h h0 hi hk =>
      refine iff_of_false (fun hu => ?_) (fun hno => hi (hno h h0))
      have hkernel : s.tc.kernel = (c.session d).tc.kernel := (hu hfailed).1
      rw [hkernel] at hk
      exact absurd hk (lt_irrefl _)

/-- A rule of tenant `a` whose `n`-th command is refused by the kernel. -/
def ruleRefusedAt (n : Nat) : Call :=
  { sampleCall (.addRule (sampleRule port80 none)) "a" firstId with
    replies := fun i => if i = n then .exit 2 "" "RTNETLINK answers: Invalid argument" 0
      else .exit 0 "" "" 1 }

/-- When already the first filter is refused, nothing is left. -/
theorem failed_creation_leaves_nothing_iff_at_zero :
    (serve (daemon.run [sampleTenant "a"]) (ruleRefusedAt 0)).1.status = 500 ∧
    (((serve (daemon.run [sampleTenant "a"]) (ruleRefusedAt 0)).1.failed →
        Untouched (daemon.run [sampleTenant "a"])
          (serve (daemon.run [sampleTenant "a"]) (ruleRefusedAt 0)).2) ↔
      (ReachesTc (daemon.run [sampleTenant "a"]).stores (ruleRefusedAt 0) →
        ((ruleRefusedAt 0).replies 0).succeeds →
        Installs (ruleRefusedAt 0)
          ((ruleRefusedAt 0).session (daemon.run [sampleTenant "a"])).tc)) :=
  ⟨by decide +kernel, failed_creation_leaves_nothing_iff _ (ruleRefusedAt 0) (by decide)⟩

/-- **A filter is left behind**: the reverse filter is refused, the request is
answered with `500`, and the forward filter stays on the internet port. -/
theorem forward_filter_left_behind :
    (serve (daemon.run [sampleTenant "a"]) (ruleRefusedAt 2)).1.failed ∧
    (daemon.run [sampleTenant "a"]).kernel.internet = [] ∧
    (serve (daemon.run [sampleTenant "a"]) (ruleRefusedAt 2)).2.kernel.internet.length = 1 ∧
    ¬ Untouched (daemon.run [sampleTenant "a"])
      (serve (daemon.run [sampleTenant "a"]) (ruleRefusedAt 2)).2 := by
  have hlength : (serve (daemon.run [sampleTenant "a"]) (ruleRefusedAt 2)).2.kernel.internet.length
      = 1 := by decide +kernel
  refine ⟨⟨by decide +kernel, by decide +kernel⟩, by decide +kernel, hlength, fun h => ?_⟩
  rw [h.1] at hlength
  exact absurd hlength (by decide +kernel)

end PrismFirewall.TcFirewall
