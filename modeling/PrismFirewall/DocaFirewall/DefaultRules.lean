import PrismFirewall.DocaFirewall.HitCounts
import PrismFirewall.DocaFirewall.RestServer

/-!
# The rules the DOCA firewall starts with

`setup_default_rules` of `main.c` adds four rules to the empty table: HTTP, HTTPS, ICMP and
DNS.  `permits_defaultPolicy` is what they say of a packet, and `default_offloads` what comes
of them: as long as no rule is added or removed, the connection table holds an entry for each
packet they let through for which the hardware had one, in the order of the packets, and no
other.

Evaluations count hits and change nothing else, so what a table permits is settled by its
rules without their hits (`permits_congr`).
-/

namespace PrismFirewall.DocaFirewall

open Lib Lib.Load

/-! ### What a table permits -/

theorem cell_unhit_eq {t t' : PolicyTable}
    (h : t'.live.map PolicyRule.unhit = t.live.map PolicyRule.unhit) {i : Nat}
    (hi : i < t.nrRules) :
    (cell t'.rules i).unhit = (cell t.rules i).unhit := by
  have hlen : t'.nrRules = t.nrRules := by
    simpa [PolicyTable.live] using congrArg List.length h
  have hget := congrArg (fun l => l[i]?) h
  simpa [PolicyTable.live, getElem?_used hi, getElem?_used (hlen ▸ hi : i < t'.nrRules)] using hget

/-- The least match of a table does not look at the hits. -/
theorem isLeastMatch_congr {t t' : PolicyTable}
    (h : t'.live.map PolicyRule.unhit = t.live.map PolicyRule.unhit) {p : FiveTuple} {i : Nat}
    (hi : IsLeastMatch t p i) : IsLeastMatch t' p i := by
  have hlen : t'.nrRules = t.nrRules := by
    simpa [PolicyTable.live] using congrArg List.length h
  have hsame : ∀ j < t.nrRules, (cell t'.rules j).enabled = (cell t.rules j).enabled ∧
      (cell t'.rules j).priority = (cell t.rules j).priority ∧
      ((cell t'.rules j).Matches p ↔ (cell t.rules j).Matches p) := by
    intro j hj
    have hj' := cell_unhit_eq h hj
    have henabled := congrArg PolicyRule.enabled hj'
    have hpriority := congrArg PolicyRule.priority hj'
    refine ⟨henabled, hpriority, ?_⟩
    have hmatches : ∀ r : PolicyRule, r.Matches p ↔ r.unhit.Matches p := fun r =>
      ⟨fun h => ⟨h.1, h.2, h.3, h.4, h.5⟩, fun h => ⟨h.1, h.2, h.3, h.4, h.5⟩⟩
    rw [hmatches, hmatches (cell t.rules j), hj']
  obtain ⟨henabled, -, hmatch⟩ := hsame i hi.index
  refine ⟨hlen ▸ hi.index, henabled.trans hi.enabled, hmatch.mpr hi.isMatch, ?_⟩
  intro j hj hen hm
  rw [hlen] at hj
  obtain ⟨henabled', hpriority', hmatch'⟩ := hsame j hj
  rw [hpriority', (hsame i hi.index).2.1]
  exact hi.least j hj (henabled' ▸ hen) (hmatch'.mp hm)

/-- **What a table permits is settled by its rules without their hits.** -/
theorem permits_congr {s s' : Policy} (hs : Sound s.table) (hs' : Sound s'.table)
    (h : s'.table.live.map PolicyRule.unhit = s.table.live.map PolicyRule.unhit) (p : FiveTuple) :
    s'.permits p = s.permits p := by
  obtain ⟨i, hi, haction⟩ := policyEvaluate_spec hs p
  obtain ⟨j, hj, haction'⟩ := policyEvaluate_spec hs' p
  obtain rfl := isLeastMatch_unique (isLeastMatch_congr h hi) hj
  have hunhit := congrArg PolicyRule.action (cell_unhit_eq h hi.index)
  have hsame : (cell s'.table.rules i).action = (cell s.table.rules i).action := hunhit
  rw [Policy.permits, Policy.permits, haction, haction', hsame]

/-- A table whose other rules all allow, before the default rule, permits what one of them lets
through. -/
theorem permits_iff_exists_passes {s : Policy} (h : Sound s.table) {rules : List PolicyRule}
    (hlive : s.table.live = defaultDeny :: rules)
    (hallow : ∀ r ∈ rules, r.action = .ALLOW ∧ r.priority < uint32Max) (p : FiveTuple) :
    s.permits p = true ↔ ∃ r ∈ rules, r.passes p = true := by
  obtain ⟨i, hi, haction⟩ := policyEvaluate_spec h p
  have hcell : ∀ j < s.table.nrRules,
      (defaultDeny :: rules)[j]? = some (cell s.table.rules j) := by
    intro j hj
    rw [← hlive, PolicyTable.live, getElem?_used hj]
  have hlen : s.table.nrRules = rules.length + 1 := by
    simpa [PolicyTable.live] using congrArg List.length hlive
  rw [Policy.permits, decide_eq_true_iff, haction]
  cases i with
  | zero =>
    rw [h.first]
    refine iff_of_false (by decide) ?_
    rintro ⟨r, hr, hpasses⟩
    obtain ⟨hen, hm⟩ := passes_iff.mp hpasses
    obtain ⟨j, hj, rfl⟩ := List.mem_iff_getElem.mp hr
    -- the default rule is behind every other
    have hrule := hcell (j + 1) (by omega)
    rw [List.getElem?_cons_succ, List.getElem?_eq_getElem hj, Option.some.injEq] at hrule
    have hleast := hi.least (j + 1) (by omega) (hrule ▸ hen) (hrule ▸ hm)
    have hbefore := (hallow _ hr).2
    rw [← hrule, h.first, show defaultDeny.priority = uint32Max from rfl] at hleast
    simp only [UInt32.lt_iff_toNat_lt, ← UInt32.toNat_inj] at hleast hbefore
    omega
  | succ i =>
    have hrule := hcell (i + 1) hi.index
    rw [List.getElem?_cons_succ] at hrule
    have hmem := List.mem_of_getElem? hrule
    exact iff_of_true (hallow _ hmem).1 ⟨_, hmem, passes_iff.mpr ⟨hi.enabled, hi.isMatch⟩⟩

/-! ### The default rules -/

def ipprotoIcmp : UInt8 := 1

/-- The shape of the default rules: any address, any source port. -/
def allowRule (protocol : UInt8) (dstPortMin dstPortMax : UInt16) (priority : UInt32) :
    PolicyRule :=
  { PolicyRule.zero with
    protocol := protocol
    dstPortMin := dstPortMin
    dstPortMax := dstPortMax
    srcPortMax := 65535
    action := .ALLOW
    priority := priority
    enabled := true }

def allowHttp : PolicyRule := allowRule ipprotoTcp 80 80 10

def allowHttps : PolicyRule := allowRule ipprotoTcp 443 443 10

def allowIcmp : PolicyRule := allowRule ipprotoIcmp 0 65535 20

def allowDns : PolicyRule := allowRule ipprotoUdp 53 53 10

/-- The calls of `setup_default_rules`. -/
def setupDefaultRules : List PolicyCall :=
  [.addRule allowHttp, .addRule allowHttps, .addRule allowIcmp, .addRule allowDns]

/-- What the default rules are meant to let through. -/
def Permitted (p : FiveTuple) : Prop :=
  p.protocol = ipprotoTcp ∧ (p.dstPort = 80 ∨ p.dstPort = 443) ∨ p.protocol = ipprotoIcmp ∨
    p.protocol = ipprotoUdp ∧ p.dstPort = 53

instance (p : FiveTuple) : Decidable (Permitted p) := inferInstanceAs (Decidable (_ ∨ _ ∨ _))

/-- The rule under the number it gets. -/
def PolicyRule.withId (r : PolicyRule) (id : UInt32) : PolicyRule := { r with id := id }

/-- A default rule under any number. -/
theorem passes_allowRule {protocol : UInt8} (h0 : protocol ≠ 0) (lo hi : UInt16)
    (priority id : UInt32) (p : FiveTuple) :
    ((allowRule protocol lo hi priority).withId id).passes p = true ↔
      p.protocol = protocol ∧ lo ≤ p.dstPort ∧ p.dstPort ≤ hi := by
  have hsrc : p.srcPort ≤ 65535 := by
    have h := p.srcPort.toNat_lt
    rw [UInt16.le_iff_toNat_le]
    simp
    omega
  rw [passes_iff]
  constructor
  · rintro ⟨-, h⟩
    exact ⟨(h.protocol.resolve_left h0).symm, h.dstPort⟩
  · rintro ⟨h, hdst⟩
    exact ⟨rfl, Or.inr h.symm, fun hz => absurd rfl hz, fun hz => absurd rfl hz,
      ⟨UInt16.zero_le, hsrc⟩, hdst⟩

theorem eq_of_le_of_le {a b : UInt16} : a ≤ b ∧ b ≤ a ↔ b = a := by
  simp only [UInt16.le_iff_toNat_le, ← UInt16.toNat_inj]
  omega

/-- The table after `policy_init` and `setup_default_rules`. -/
def defaultPolicy (nextRuleId : UInt32) : Policy := (policyEngine nextRuleId).run setupDefaultRules

theorem sound_defaultPolicy (nextRuleId : UInt32) : Sound (defaultPolicy nextRuleId).table :=
  sound_run nextRuleId setupDefaultRules

theorem live_policyAddRule_of_length {s : Policy} {l : List PolicyRule} (h : s.table.live = l)
    (hlen : l.length < maxPolicyRules) (rule : PolicyRule) : (policyAddRule s rule).2.table.live
      = l ++ [{ rule with id := s.nextRuleId, hitCount := 0 }] := by
  rw [live_policyAddRule, h]
  have hnr : s.table.nrRules = l.length := by
    simpa [PolicyTable.live] using congrArg List.length h
  rw [PolicyTable.Full]
  omega

/-- The table holds the default rules behind the default-deny rule. -/
theorem exists_live_defaultPolicy (nextRuleId : UInt32) : ∃ id₁ id₂ id₃ id₄,
    (defaultPolicy nextRuleId).table.live = [defaultDeny, allowHttp.withId id₁,
      allowHttps.withId id₂, allowIcmp.withId id₃, allowDns.withId id₄] := by
  have h₁ := live_policyAddRule_of_length (s := ⟨policyInit, nextRuleId⟩) live_policyInit
    (by simp [maxPolicyRules]) allowHttp
  have h₂ := live_policyAddRule_of_length h₁ (by simp [maxPolicyRules]) allowHttps
  have h₃ := live_policyAddRule_of_length h₂ (by simp [maxPolicyRules]) allowIcmp
  exact ⟨_, _, _, _, live_policyAddRule_of_length h₃ (by simp [maxPolicyRules]) allowDns⟩

/-- **What the default rules permit.** -/
theorem permits_defaultPolicy (nextRuleId : UInt32) (p : FiveTuple) :
    (defaultPolicy nextRuleId).permits p = true ↔ Permitted p := by
  obtain ⟨id₁, id₂, id₃, id₄, hlive⟩ := exists_live_defaultPolicy nextRuleId
  have hany : p.dstPort ≤ 65535 := by
    have h := p.dstPort.toNat_lt
    rw [UInt16.le_iff_toNat_le]
    simp
    omega
  have hhttp := passes_allowRule (show ipprotoTcp ≠ 0 by decide) 80 80 10 id₁ p
  have hhttps := passes_allowRule (show ipprotoTcp ≠ 0 by decide) 443 443 10 id₂ p
  have hicmp := passes_allowRule (show ipprotoIcmp ≠ 0 by decide) 0 65535 20 id₃ p
  have hdns := passes_allowRule (show ipprotoUdp ≠ 0 by decide) 53 53 10 id₄ p
  rw [permits_iff_exists_passes (sound_defaultPolicy nextRuleId) hlive]
  · constructor
    · rintro ⟨r, hr, hpasses⟩
      simp only [List.mem_cons, List.not_mem_nil, or_false] at hr
      rcases hr with rfl | rfl | rfl | rfl
      · obtain ⟨hproto, hport⟩ := hhttp.mp hpasses
        exact Or.inl ⟨hproto, Or.inl (eq_of_le_of_le.mp hport)⟩
      · obtain ⟨hproto, hport⟩ := hhttps.mp hpasses
        exact Or.inl ⟨hproto, Or.inr (eq_of_le_of_le.mp hport)⟩
      · exact Or.inr (Or.inl (hicmp.mp hpasses).1)
      · obtain ⟨hproto, hport⟩ := hdns.mp hpasses
        exact Or.inr (Or.inr ⟨hproto, eq_of_le_of_le.mp hport⟩)
    · rintro (⟨hproto, hport | hport⟩ | hproto | ⟨hproto, hport⟩)
      · exact ⟨allowHttp.withId id₁, by simp, hhttp.mpr ⟨hproto, eq_of_le_of_le.mpr hport⟩⟩
      · exact ⟨allowHttps.withId id₂, by simp, hhttps.mpr ⟨hproto, eq_of_le_of_le.mpr hport⟩⟩
      · exact ⟨allowIcmp.withId id₃, by simp, hicmp.mpr ⟨hproto, UInt16.zero_le, hany⟩⟩
      · exact ⟨allowDns.withId id₄, by simp, hdns.mpr ⟨hproto, eq_of_le_of_le.mpr hport⟩⟩
  · intro r hr
    simp only [List.mem_cons, List.not_mem_nil, or_false] at hr
    rcases hr with rfl | rfl | rfl | rfl
    · exact ⟨rfl, show (10 : UInt32) < uint32Max by decide⟩
    · exact ⟨rfl, show (10 : UInt32) < uint32Max by decide⟩
    · exact ⟨rfl, show (20 : UInt32) < uint32Max by decide⟩
    · exact ⟨rfl, show (10 : UInt32) < uint32Max by decide⟩

/-! ### The connection table under rules that stay -/

/-- An evaluation, and no change of the rules. -/
def PolicyCall.isEvaluate : PolicyCall → Bool
  | .evaluate _ => true
  | _ => false

/-- The rules of a table are those of another, up to the hits. -/
structure SameRules (s₀ s : Policy) : Prop where
  sound : Sound s.table
  live : s.table.live.map PolicyRule.unhit = s₀.table.live.map PolicyRule.unhit

theorem SameRules.evaluate {s₀ s : Policy} (h : SameRules s₀ s) (p : FiveTuple) :
    SameRules s₀ (policyEvaluate s p).2 :=
  ⟨sound_policyEvaluate h.sound p, (unhit_policyEvaluate h.sound p).trans h.live⟩

theorem SameRules.calls {s₀ s : Policy} (h : SameRules s₀ s) (calls : List PolicyCall)
    (hcalls : ∀ c ∈ calls, c.isEvaluate = true) :
    SameRules s₀ (calls.foldl (fun s c => (policyStep s c).2) s) := by
  induction calls generalizing s with
  | nil => exact h
  | cons c calls ih =>
    rw [List.foldl_cons]
    apply ih _ (fun c' hc' => hcalls c' (List.mem_cons_of_mem c hc'))
    have hc := hcalls c List.mem_cons_self
    cases c with
    | addRule rule => cases hc
    | removeRule ruleId => cases hc
    | evaluate p => exact h.evaluate p

/-! ### The firewall as it is started -/

/-- `setup_default_rules`, as inputs of the loop. -/
def started (l : List LoopInput) : List LoopInput :=
  setupDefaultRules.map LoopInput.policyCall ++ l

/-- Packets are looked at after the calls that were made before them. -/
theorem mem_handlingsFrom {calls : List PolicyCall} {as : List Arrival} {x : Handling}
    (hx : x ∈ handlingsFrom calls as) :
    ∃ more, x.before = calls ++ more ∧ ∀ c ∈ more, c ∈ as.flatMap Arrival.policyCalls := by
  induction as generalizing calls with
  | nil => cases hx
  | cons a as ih =>
    rw [handlingsFrom, List.mem_cons] at hx
    rcases hx with rfl | hx
    · refine ⟨a.calls, rfl, fun c hc => ?_⟩
      rw [List.flatMap_cons, Arrival.policyCalls, List.append_assoc]
      exact List.mem_append_left _ hc
    · obtain ⟨more, hbefore, hmore⟩ := ih hx
      refine ⟨a.policyCalls ++ more, by rw [hbefore, List.append_assoc], fun c hc => ?_⟩
      rw [List.flatMap_cons]
      exact List.mem_append.mpr ((List.mem_append.mp hc).imp_right (hmore c))

theorem mem_handlings {calls : List PolicyCall} {h : List LoopInput} {x : Handling}
    (hx : x ∈ handlings calls h) :
    ∃ more, x.before = calls ++ more ∧ ∀ c ∈ more, ∃ i ∈ h, c ∈ i.policyCalls := by
  induction h generalizing calls with
  | nil => cases hx
  | cons i h ih =>
    rw [handlings, List.mem_append] at hx
    rcases hx with hx | hx
    · obtain ⟨more, hbefore, hmore⟩ := mem_handlingsFrom hx
      refine ⟨more, hbefore, fun c hc => ⟨i, List.mem_cons_self, ?_⟩⟩
      cases i with
      | round r => exact hmore c hc
      | policyCall c' => cases hmore c hc
      | stop => cases hmore c hc
    · obtain ⟨more, hbefore, hmore⟩ := ih hx
      refine ⟨i.policyCalls ++ more, by rw [hbefore, List.append_assoc], fun c hc => ?_⟩
      rcases List.mem_append.mp hc with hc | hc
      · exact ⟨i, List.mem_cons_self, hc⟩
      · obtain ⟨j, hj, hcj⟩ := hmore c hc
        exact ⟨j, List.mem_cons_of_mem i hj, hcj⟩

/-- Calls on the table bring no packets. -/
theorem handlings_policyCalls_append (made calls : List PolicyCall) (h : List LoopInput) :
    handlings made (calls.map LoopInput.policyCall ++ h) = handlings (made ++ calls) h := by
  induction calls generalizing made with
  | nil => rw [List.map_nil, List.nil_append, List.append_nil]
  | cons c calls ih =>
    rw [List.map_cons, List.cons_append, handlings, ih, List.append_assoc]
    rfl

/-- The run starts with the default rules, and goes on with inputs that came in. -/
theorem history_started (nbPorts : Nat) (nextRuleId : UInt32) (l : List LoopInput) :
    ∃ h, history nbPorts nextRuleId (started l) = started h ∧ ∀ i ∈ h, i ∈ l := by
  induction l using List.reverseRecOn with
  | nil => exact ⟨[], rfl, fun i hi => hi⟩
  | append_singleton l i ih =>
    obtain ⟨h, hh, hmem⟩ := ih
    have hstarted : started (l ++ [i]) = started l ++ [i] := (List.append_assoc _ _ _).symm
    rw [hstarted, history, Machine.events_append_singleton, ← history, hh]
    have hmore : ∃ h', started h ++ [i] = started h' ∧ ∀ j ∈ h', j ∈ l ++ [i] := by
      refine ⟨h ++ [i], List.append_assoc _ _ _, fun j hj => ?_⟩
      exact List.mem_append.mpr ((List.mem_append.mp hj).imp_left (hmem j))
    cases i with
    | round r =>
      dsimp only
      by_cases hrun : ((mainLoop nbPorts nextRuleId).run (started l)).running = true
      · rw [if_pos hrun]
        exact hmore
      · rw [if_neg hrun, Option.toList_none, List.append_nil]
        exact ⟨h, rfl, fun j hj => List.mem_append_left _ (hmem j hj)⟩
    | policyCall c => exact hmore
    | stop => exact hmore

/-- **What is offloaded under the default rules**: as long as no rule is added or removed, the
connection table holds an entry for every packet that the default rules permit and the
hardware had an entry for, in the order of the packets, and nothing else. -/
theorem default_offloads (nbPorts : Nat) (nextRuleId : UInt32) (l : List LoopInput)
    (hl : ∀ i ∈ l, ∀ c ∈ i.policyCalls, c.isEvaluate = true) :
    ((mainLoop nbPorts nextRuleId).run (started l)).entries
      = ((history nbPorts nextRuleId (started l)).flatMap LoopInput.arrivals).filterMap
          (Arrival.entry (fun p => decide (Permitted p))) := by
  obtain ⟨h, hhistory, hmem⟩ := history_started nbPorts nextRuleId l
  have hrules : ∀ x ∈ handlings setupDefaultRules h,
      SameRules (defaultPolicy nextRuleId) (x.policy nextRuleId) := by
    intro x hx
    obtain ⟨more, hbefore, hmore⟩ := mem_handlings hx
    rw [Handling.policy, hbefore, run_policyEngine_append]
    have hstart : SameRules (defaultPolicy nextRuleId) (defaultPolicy nextRuleId) :=
      ⟨sound_defaultPolicy nextRuleId, rfl⟩
    refine hstart.calls more (fun c hc => ?_)
    obtain ⟨i, hi, hci⟩ := hmore c hc
    exact hl i (hmem i hi) c hci
  have hpackets : handlings [] (started h) = handlings setupDefaultRules h :=
    handlings_policyCalls_append [] setupDefaultRules h
  rw [(traced_run nbPorts nextRuleId (started l)).entries, ← map_arrival_handlings [], hhistory,
    hpackets, List.filterMap_map]
  refine List.filterMap_congr (fun x hx => ?_)
  have hpermits : (x.policy nextRuleId).permits = fun p => decide (Permitted p) := by
    funext p
    rw [permits_congr (sound_defaultPolicy nextRuleId) (hrules x hx).sound (hrules x hx).live,
      Bool.eq_iff_iff, permits_defaultPolicy, decide_eq_true_iff]
  rw [Handling.entry, hpermits]
  rfl

/-- A TCP segment to port 80, and one to port 22. -/
def webAndShell : List LoopInput :=
  let segment : UInt8 → List UInt8 := fun port =>
    List.replicate 12 0 ++ [0x08, 0x00, 0x45] ++ List.replicate 8 0 ++ [6] ++ List.replicate 13 0
      ++ [port] ++ List.replicate 22 0
  let arrival : UInt8 → Arrival := fun port =>
    ⟨[], ⟨0, memory (segment port) (fun _ => 0)⟩, ⟨.allocated, true, true⟩⟩
  [.round ⟨[arrival 80, arrival 22], fun _ => ⟨[], 0⟩⟩]

theorem default_offloads_webAndShell :
    (∀ i ∈ webAndShell, ∀ c ∈ i.policyCalls, c.isEvaluate = true) ∧
    ((mainLoop 5 1).run (started webAndShell)).entries
      = ((history 5 1 (started webAndShell)).flatMap LoopInput.arrivals).filterMap
          (Arrival.entry (fun p => decide (Permitted p))) ∧
    ((webAndShell.flatMap LoopInput.arrivals).filterMap
      (Arrival.entry (fun p => decide (Permitted p)))).length = 1 := by
  have hl : ∀ i ∈ webAndShell, ∀ c ∈ i.policyCalls, c.isEvaluate = true := by decide +kernel
  exact ⟨hl, default_offloads 5 1 webAndShell hl, by decide +kernel⟩

end PrismFirewall.DocaFirewall
