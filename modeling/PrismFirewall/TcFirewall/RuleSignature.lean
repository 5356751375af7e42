import PrismFirewall.Lib.Decimal
import PrismFirewall.TcFirewall.Main

/-!
# What the text of a rule signature tells

`_compute_rule_signature` joins eight fields with vertical bars and does not escape them.
Five of them are numbers and names from fixed lists and hold no bar, so they can be read
off from the end of the text (`ruleText_eq_iff`).  The tenant and the two addresses come
before them and are free texts: they can be told from the text exactly if none of them
holds a bar.
-/

namespace PrismFirewall.TcFirewall

open Lib Lib.Text

/-- The text that is hashed for a request of a tenant. -/
def ruleText (tenantId : String) (request : FirewallRuleRequest) : String :=
  ruleSigStr tenantId request.srcIp request.dstIp (request.srcPort.map Field16.val)
    (request.dstPort.map Field16.val) request.protocol request.action request.priority.val

theorem computeRuleSignature_eq (tenantId : String) (request : FirewallRuleRequest) :
    computeRuleSignature tenantId request = shortHash (ruleText tenantId request) := rfl

/-! ### Fields without bars -/

theorem bar_not_mem_digits (n : Nat) : '|' ∉ (toString n).toList := by
  intro h
  have hd := isDigit_toDigits '|' (by simpa using h : '|' ∈ Nat.toDigits 10 n)
  exact absurd hd (by decide)

theorem bar_not_mem_protocol (p : Protocol) : '|' ∉ p.value.toList := by
  cases p <;> decide

theorem bar_not_mem_action (a : RuleAction) : '|' ∉ a.value.toList := by
  cases a <;> decide

theorem bar_not_mem_sigPort (x : Option Nat) : '|' ∉ (sigPort x).toList := by
  cases x with
  | none => decide
  | some n =>
    by_cases hn : n = 0
    · rw [hn]
      decide
    · rw [sigPort, if_neg hn]
      exact bar_not_mem_digits n

theorem Protocol.value_inj {p q : Protocol} : p.value = q.value ↔ p = q := by
  cases p <;> cases q <;> decide

theorem RuleAction.value_inj {a b : RuleAction} : a.value = b.value ↔ a = b := by
  cases a <;> cases b <;> decide

theorem Field16.val_inj {m n : Field16} : m.val = n.val ↔ m = n := by
  constructor
  · intro h
    obtain ⟨m, _, _⟩ := m
    obtain ⟨n, _, _⟩ := n
    subst h
    rfl
  · intro h
    rw [h]

/-- No accepted port is `0`, so the text tells a port from none. -/
theorem sigPort_inj {x y : Option Field16} :
    sigPort (x.map Field16.val) = sigPort (y.map Field16.val) ↔ x = y := by
  have hpos : ∀ n : Field16, n.val ≠ 0 := fun n => Nat.one_le_iff_ne_zero.mp n.ge
  cases x with
  | none =>
    cases y with
    | none => simp
    | some n => simp [sigPort, hpos n]
  | some m =>
    cases y with
    | none => simp [sigPort, hpos m]
    | some n =>
      rw [Option.map_some, Option.map_some, sigPort, sigPort, if_neg (hpos m), if_neg (hpos n),
        toString_inj, Field16.val_inj, Option.some.injEq]

/-! ### The whole text -/

theorem toList_ruleText (tenantId : String) (r : FirewallRuleRequest) :
    (ruleText tenantId r).toList =
      (((((tenantId.toList ++ '|' :: ((r.srcIp.getD "").toList ++ '|' :: (r.dstIp.getD "").toList))
        ++ '|' :: (sigPort (r.srcPort.map Field16.val)).toList)
        ++ '|' :: (sigPort (r.dstPort.map Field16.val)).toList)
        ++ '|' :: r.protocol.value.toList) ++ '|' :: r.action.value.toList)
        ++ '|' :: (toString r.priority.val).toList := by
  have hbar : ("|" : String).toList = ['|'] := rfl
  simp only [ruleText, ruleSigStr, String.toList_append, hbar, List.append_assoc,
    List.cons_append, List.nil_append]

/-- The fields behind the addresses agree. -/
structure SameTail (r r' : FirewallRuleRequest) : Prop where
  srcPort : r.srcPort = r'.srcPort
  dstPort : r.dstPort = r'.dstPort
  protocol : r.protocol = r'.protocol
  action : r.action = r'.action
  priority : r.priority.val = r'.priority.val

/-- **The text of a signature** tells the last five fields, and the first three with bars
between them. -/
theorem ruleText_eq_iff {t t' : String} {r r' : FirewallRuleRequest} :
    ruleText t r = ruleText t' r' ↔ SameTail r r' ∧
      t.toList ++ '|' :: ((r.srcIp.getD "").toList ++ '|' :: (r.dstIp.getD "").toList)
        = t'.toList ++ '|' :: ((r'.srcIp.getD "").toList ++ '|' :: (r'.dstIp.getD "").toList) := by
  rw [← String.toList_inj, toList_ruleText, toList_ruleText,
    append_sep_inj' (bar_not_mem_digits _) (bar_not_mem_digits _),
    append_sep_inj' (bar_not_mem_action _) (bar_not_mem_action _),
    append_sep_inj' (bar_not_mem_protocol _) (bar_not_mem_protocol _),
    append_sep_inj' (bar_not_mem_sigPort _) (bar_not_mem_sigPort _),
    append_sep_inj' (bar_not_mem_sigPort _) (bar_not_mem_sigPort _)]
  simp only [String.toList_inj, toString_inj, RuleAction.value_inj, Protocol.value_inj, sigPort_inj]
  constructor
  · rintro ⟨⟨⟨⟨⟨hhead, hsp⟩, hdp⟩, hp⟩, ha⟩, hprio⟩
    exact ⟨⟨hsp, hdp, hp, ha, hprio⟩, hhead⟩
  · rintro ⟨⟨hsp, hdp, hp, ha, hprio⟩, hhead⟩
    exact ⟨⟨⟨⟨⟨hhead, hsp⟩, hdp⟩, hp⟩, ha⟩, hprio⟩

/-- Everything that the signature of a rule is about; no address and an empty one are the
same. -/
structure SameRule (t : String) (r : FirewallRuleRequest) (t' : String)
    (r' : FirewallRuleRequest) : Prop where
  tenant : t = t'
  srcIp : r.srcIp.getD "" = r'.srcIp.getD ""
  dstIp : r.dstIp.getD "" = r'.dstIp.getD ""
  srcPort : r.srcPort = r'.srcPort
  dstPort : r.dstPort = r'.dstPort
  protocol : r.protocol = r'.protocol
  action : r.action = r'.action
  priority : r.priority.val = r'.priority.val

/-- **When the text of a signature belongs to one rule only**: exactly if neither the tenant
nor an address holds a bar. -/
theorem signature_text_injective_iff (t : String) (r : FirewallRuleRequest) :
    (∀ (t' : String) (r' : FirewallRuleRequest), ruleText t r = ruleText t' r' →
      SameRule t r t' r') ↔
    '|' ∉ t.toList ∧ '|' ∉ (r.srcIp.getD "").toList ∧ '|' ∉ (r.dstIp.getD "").toList := by
  rw [← three_fields_unique_iff]
  constructor
  · intro h a b c he
    -- the same request with the three texts cut apart elsewhere
    let r' := { r with srcIp := some (String.ofList b), dstIp := some (String.ofList c) }
    have htext : ruleText t r = ruleText (String.ofList a) r' := by
      refine ruleText_eq_iff.mpr ⟨⟨rfl, rfl, rfl, rfl, rfl⟩, ?_⟩
      simp only [r', Option.getD_some, String.toList_ofList]
      exact he
    have hsame := h _ r' htext
    refine ⟨?_, ?_, ?_⟩
    · rw [hsame.tenant, String.toList_ofList]
    · rw [hsame.srcIp]
      simp only [r', Option.getD_some, String.toList_ofList]
    · rw [hsame.dstIp]
      simp only [r', Option.getD_some, String.toList_ofList]
  · intro h t' r' he
    obtain ⟨htail, hhead⟩ := ruleText_eq_iff.mp he
    obtain ⟨h1, h2, h3⟩ := h _ _ _ hhead
    exact ⟨String.toList_inj.mp h1, String.toList_inj.mp h2, String.toList_inj.mp h3,
      htail.srcPort, htail.dstPort, htail.protocol, htail.action, htail.priority⟩

/-- The tenants `a|b` and `a`, whose requests name the source `c` and the source `b|c`. -/
theorem two_tenants_one_text :
    let r : FirewallRuleRequest := { sampleRule port80 none with srcIp := some "c" }
    let r' : FirewallRuleRequest := { sampleRule port80 none with srcIp := some "b|c" }
    ruleText "a|b" r = ruleText "a" r' ∧
      computeRuleSignature "a|b" r = computeRuleSignature "a" r' ∧ ¬ SameRule "a|b" r "a" r' := by
  intro r r'
  have htext : ruleText "a|b" r = ruleText "a" r' := by decide +kernel
  refine ⟨htext, ?_, fun h => absurd h.tenant (by decide)⟩
  rw [computeRuleSignature_eq, computeRuleSignature_eq, htext]

end PrismFirewall.TcFirewall
