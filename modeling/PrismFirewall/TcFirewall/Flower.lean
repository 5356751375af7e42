import PrismFirewall.TcFirewall.Requests

/-!
# What the filter of a rule matches

A flower filter matches a packet that meets all its keys (`flowerMatches`).
Which addresses an address text names is decided by tc, so it is a parameter,
`inNet`.

The filter of a rule matches more than the request says when a field of the
request gives no key.  `_build_flower_cmd` writes ports only next to
`ip_proto tcp` or `ip_proto udp`, so a port in a request for any protocol is
dropped; and an empty address text is dropped as if it were absent.
`no_over_match_iff` says that nothing else goes wrong.
-/

namespace PrismFirewall.TcFirewall

open Lib

/-! ### Packets and filters -/

inductive Transport
  | tcp
  | udp
  deriving DecidableEq

/-- The name tc has for the protocol. -/
def Transport.text : Transport → String
  | .tcp => "tcp"
  | .udp => "udp"

/-- A TCP or UDP packet over IPv4. -/
structure Packet where
  proto : Transport
  srcIp : BitVec 32
  dstIp : BitVec 32
  srcPort : Fin 65536
  dstPort : Fin 65536

variable (inNet : String → BitVec 32 → Bool)

/-- One key of a flower filter. -/
def matchKey (p : Packet) : String → String → Bool
  | "ip_proto", v => v == p.proto.text
  | "src_ip", v => inNet v p.srcIp
  | "dst_ip", v => inNet v p.dstIp
  | "src_port", v => v == toString p.srcPort.val
  | "dst_port", v => v == toString p.dstPort.val
  | _, _ => false

/-- The keys come in pairs before the first action, and all must match. -/
def flowerMatches (p : Packet) : List String → Bool
  | "action" :: _ => true
  | key :: value :: rest => matchKey inNet p key value && flowerMatches p rest
  | _ => true

/-- The packet meets every field that is present in the request. -/
structure Satisfies (p : Packet) (request : FirewallRuleRequest) : Prop where
  srcIp : ∀ v, request.srcIp = some v → inNet v p.srcIp
  dstIp : ∀ v, request.dstIp = some v → inNet v p.dstIp
  srcPort : ∀ n, request.srcPort = some n → p.srcPort.val = n.val
  dstPort : ∀ n, request.dstPort = some n → p.dstPort.val = n.val
  protocol : request.protocol ≠ .ANY → p.proto.text = request.protocol.value

/-! ### Reading the keys of a request -/

theorem flowerMatches_textKey {p : Packet} {key : String} (hkey : key ≠ "action")
    (x : Option String) (rest : List String) :
    flowerMatches inNet p (textKey key x ++ rest) ↔
      (∀ v, x = some v → v ≠ "" → matchKey inNet p key v) ∧ flowerMatches inNet p rest := by
  cases x with
  | none => simp [textKey]
  | some v =>
    by_cases hv : v = ""
    · simp [textKey, hv]
    · simp [textKey, hv, flowerMatches]

theorem flowerMatches_portKey {p : Packet} {key : String} (hkey : key ≠ "action")
    (protocol : String) (x : Option Field16) (rest : List String) :
    flowerMatches inNet p (portKey key protocol (x.map Field16.val) ++ rest) ↔
      (∀ n, x = some n → protocol = "tcp" ∨ protocol = "udp" →
        matchKey inNet p key (toString n.val)) ∧ flowerMatches inNet p rest := by
  cases x with
  | none => simp [portKey]
  | some n =>
    have hn : n.val ≠ 0 := Nat.one_le_iff_ne_zero.mp n.ge
    by_cases hp : protocol = "tcp" ∨ protocol = "udp"
    · simp [portKey, hn, hp, flowerMatches]
    · simp [portKey, hn, hp]

theorem flowerMatches_forwardAction {p : Packet} (action : RuleAction) :
    flowerMatches inNet p (forwardAction action) = true := by
  cases action <;> rfl

/-- **The meaning of the filter**, field by field. -/
theorem flowerMatches_forwardFilter_iff {p : Packet} {request : FirewallRuleRequest}
    {handle : Nat} :
    flowerMatches inNet p (forwardFilter request handle).spec ↔
      (request.protocol ≠ .ANY → p.proto.text = request.protocol.value) ∧
      (∀ v, request.srcIp = some v → v ≠ "" → inNet v p.srcIp) ∧
      (∀ v, request.dstIp = some v → v ≠ "" → inNet v p.dstIp) ∧
      (request.protocol = .TCP ∨ request.protocol = .UDP →
        (∀ n, request.srcPort = some n → p.srcPort.val = n.val) ∧
        (∀ n, request.dstPort = some n → p.dstPort.val = n.val)) := by
  have hproto : ∀ rest, flowerMatches inNet p
      ((if protoStr request.protocol ≠ "" ∧ protoStr request.protocol ≠ "any" ∧
          protoStr request.protocol ≠ "ip"
        then ["ip_proto", protoStr request.protocol] else []) ++ rest) ↔
      (request.protocol ≠ .ANY → p.proto.text = request.protocol.value) ∧
        flowerMatches inNet p rest := by
    intro rest
    cases request.protocol <;>
      simp [protoStr, Protocol.value, flowerMatches, matchKey, @eq_comm _ p.proto.text]
  have hport : protoStr request.protocol = "tcp" ∨ protoStr request.protocol = "udp" ↔
      request.protocol = .TCP ∨ request.protocol = .UDP := by
    cases request.protocol <;> simp [protoStr, Protocol.value]
  simp only [forwardFilter, flowerKeys, List.append_assoc]
  rw [hproto, flowerMatches_textKey inNet (by decide), flowerMatches_textKey inNet (by decide),
    flowerMatches_portKey inNet (by decide), flowerMatches_portKey inNet (by decide),
    flowerMatches_forwardAction, hport]
  simp only [matchKey, beq_iff_eq, Text.toString_inj, and_true]
  constructor
  · intro h
    obtain ⟨h1, h2, h3, h4, h5⟩ := h
    exact ⟨h1, h2, h3, fun h => ⟨fun n hn => (h4 n hn h).symm, fun n hn => (h5 n hn h).symm⟩⟩
  · intro h
    obtain ⟨h1, h2, h3, h4⟩ := h
    exact ⟨h1, h2, h3, fun n hn h => ((h4 h).1 n hn).symm, fun n hn h => ((h4 h).2 n hn).symm⟩

/-! ### Matching too much -/

/-- The filter matches only packets that meet the whole request. -/
def NoOverMatch (request : FirewallRuleRequest) (f : Filter) : Prop :=
  ∀ p : Packet, flowerMatches inNet p f.spec → Satisfies inNet p request

/-- An address text that gives a key and names no address at all. -/
def NamesNothing (x : Option String) : Prop :=
  ∃ v, x = some v ∧ v ≠ "" ∧ ∀ a, inNet v a = false

/-- An address text that is dropped, although it does not name every address. -/
def DropsAddress (x : Option String) : Prop := x = some "" ∧ ∃ a, inNet "" a = false

/-- A text that names something, or gives no key, is met by some address. -/
theorem exists_address {x : Option String} (h : ¬ NamesNothing inNet x) :
    ∃ a, ∀ v, x = some v → v ≠ "" → inNet v a := by
  cases x with
  | none => exact ⟨0, fun v hv => by simp at hv⟩
  | some v =>
    by_cases hv : v = ""
    · exact ⟨0, fun w hw hne => by simp_all⟩
    · by_contra hno
      refine h ⟨v, rfl, hv, fun a => ?_⟩
      by_contra ha
      refine hno ⟨a, fun w hw _ => ?_⟩
      rw [← Option.some.inj hw]
      exact Bool.eq_true_of_not_eq_false ha

/-- The port number a packet may have instead. -/
theorem exists_other_port (n : Field16) : ∃ q : Fin 65536, q.val ≠ n.val :=
  ⟨0, fun h => by have := n.ge; simp at h; omega⟩

/-- The ports a request asks for. -/
theorem exists_ports (request : FirewallRuleRequest) : ∃ sp dp : Fin 65536,
    (∀ n, request.srcPort = some n → sp.val = n.val) ∧
    (∀ n, request.dstPort = some n → dp.val = n.val) := by
  have hport : ∀ x : Option Field16, ∃ q : Fin 65536, ∀ n, x = some n → q.val = n.val := by
    intro x
    cases x with
    | none => exact ⟨0, fun n hn => by simp at hn⟩
    | some m =>
      refine ⟨⟨m.val, Nat.lt_succ_of_le m.le⟩, fun n hn => ?_⟩
      rw [Option.some.inj hn]
  obtain ⟨sp, hsp⟩ := hport request.srcPort
  obtain ⟨dp, hdp⟩ := hport request.dstPort
  exact ⟨sp, dp, hsp, hdp⟩

/-- When the filter is not for ICMP and its texts name something, there is a
packet it matches, with any ports that the request leaves open and any address
where the text was dropped. -/
theorem exists_match {request : FirewallRuleRequest} (handle : Nat)
    (hicmp : request.protocol ≠ .ICMP) {src dst : BitVec 32} {srcPort dstPort : Fin 65536}
    (hsrc : ∀ v, request.srcIp = some v → v ≠ "" → inNet v src)
    (hdst : ∀ v, request.dstIp = some v → v ≠ "" → inNet v dst)
    (hports : request.protocol = .TCP ∨ request.protocol = .UDP →
      (∀ n, request.srcPort = some n → srcPort.val = n.val) ∧
      (∀ n, request.dstPort = some n → dstPort.val = n.val)) :
    ∃ proto, flowerMatches inNet ⟨proto, src, dst, srcPort, dstPort⟩
      (forwardFilter request handle).spec := by
  refine ⟨if request.protocol = .UDP then .udp else .tcp, ?_⟩
  rw [flowerMatches_forwardFilter_iff]
  refine ⟨fun hany => ?_, hsrc, hdst, hports⟩
  cases hp : request.protocol with
  | TCP => rfl
  | UDP => rfl
  | ICMP => exact absurd hp hicmp
  | ANY => exact absurd hp hany

/-- Every field of the request gives its key: no address text that matters is
dropped, and no port is given for any protocol. -/
structure FieldsKept (request : FirewallRuleRequest) : Prop where
  srcIp : ¬ DropsAddress inNet request.srcIp
  dstIp : ¬ DropsAddress inNet request.dstIp
  ports : request.protocol = .ANY → request.srcPort = none ∧ request.dstPort = none

/-- A dropped text asks for nothing. -/
theorem met_of_dropped {x : Option String} (hx : x = some "") (a : BitVec 32) :
    ∀ v, x = some v → v ≠ "" → inNet v a := by
  intro v hv hne
  rw [hx, Option.some.injEq] at hv
  exact absurd hv.symm hne

/-- If a dropped field mattered, some packet would show it. -/
theorem fieldsKept_of_noOverMatch {request : FirewallRuleRequest} {handle : Nat}
    (h : NoOverMatch inNet request (forwardFilter request handle))
    (hicmp : request.protocol ≠ .ICMP) (hns : ¬ NamesNothing inNet request.srcIp)
    (hnd : ¬ NamesNothing inNet request.dstIp) : FieldsKept inNet request := by
  obtain ⟨src, hsrc⟩ := exists_address inNet hns
  obtain ⟨dst, hdst⟩ := exists_address inNet hnd
  obtain ⟨sp, dp, hports⟩ := exists_ports request
  refine ⟨?_, ?_, fun hany => ?_⟩
  · intro h
    obtain ⟨he, a, ha⟩ := h
    obtain ⟨proto, hm⟩ := exists_match inNet handle hicmp (met_of_dropped inNet he a) hdst
      (fun _ => hports)
    have hin : inNet "" a = true := (h _ hm).srcIp "" he
    rw [ha] at hin
    exact absurd hin (by decide)
  · intro h
    obtain ⟨he, a, ha⟩ := h
    obtain ⟨proto, hm⟩ := exists_match inNet handle hicmp hsrc (met_of_dropped inNet he a)
      (fun _ => hports)
    have hin : inNet "" a = true := (h _ hm).dstIp "" he
    rw [ha] at hin
    exact absurd hin (by decide)
  · -- for any protocol the filter leaves both ports open
    have hopen : ∀ sp dp : Fin 65536, request.protocol = .TCP ∨ request.protocol = .UDP →
        (∀ n, request.srcPort = some n → sp.val = n.val) ∧
        (∀ n, request.dstPort = some n → dp.val = n.val) := by
      intro _ _ hp
      rw [hany] at hp
      exact absurd hp (by decide)
    constructor
    · by_contra hne
      obtain ⟨n, hn⟩ := Option.ne_none_iff_exists'.mp hne
      obtain ⟨q, hq⟩ := exists_other_port n
      obtain ⟨proto, hm⟩ := exists_match inNet handle hicmp hsrc hdst (hopen q dp)
      exact hq ((h _ hm).srcPort n hn)
    · by_contra hne
      obtain ⟨n, hn⟩ := Option.ne_none_iff_exists'.mp hne
      obtain ⟨q, hq⟩ := exists_other_port n
      obtain ⟨proto, hm⟩ := exists_match inNet handle hicmp hsrc hdst (hopen sp q)
      exact hq ((h _ hm).dstPort n hn)

/-- TCP and UDP packets are not ICMP packets. -/
theorem text_ne_icmp (proto : Transport) : proto.text ≠ Protocol.ICMP.value := by
  cases proto <;> decide

/-- A filter with all the keys matches nothing else. -/
theorem noOverMatch_of_fieldsKept {request : FirewallRuleRequest} {handle : Nat}
    (h : FieldsKept inNet request) :
    NoOverMatch inNet request (forwardFilter request handle) := by
  intro p hm
  rw [flowerMatches_forwardFilter_iff] at hm
  obtain ⟨hproto, hsrc, hdst, hports⟩ := hm
  have haddr : ∀ {x : Option String} {a : BitVec 32}, ¬ DropsAddress inNet x →
      (∀ v, x = some v → v ≠ "" → inNet v a) → ∀ v, x = some v → inNet v a := by
    intro x a hx hkey v hv
    by_cases hne : v = ""
    · by_contra hin
      exact hx ⟨hne ▸ hv, a, by rw [← hne]; exact Bool.eq_false_of_not_eq_true hin⟩
    · exact hkey v hv hne
  have hp : (∀ n, request.srcPort = some n → p.srcPort.val = n.val) ∧
      (∀ n, request.dstPort = some n → p.dstPort.val = n.val) := by
    cases hq : request.protocol with
    | TCP => exact hports (Or.inl hq)
    | UDP => exact hports (Or.inr hq)
    | ICMP =>
      have ht := hproto (by rw [hq]; decide)
      rw [hq] at ht
      exact absurd ht (text_ne_icmp p.proto)
    | ANY => simp [h.ports hq]
  exact ⟨haddr h.srcIp hsrc, haddr h.dstIp hdst, hp.1, hp.2, hproto⟩

/-- A created rule has a filter on each port. -/
theorem filtersAdded_serve {d : Daemon} {c : Call} {request : FirewallRuleRequest}
    (hr : c.request = .addRule request) (hs : (serve d c).1.status = 201) :
    FiltersAdded request d.kernel (serve d c).2.kernel := by
  revert hs
  refine serve_of_wp (P := fun r d' => r.status = 201 →
    FiltersAdded request d.kernel d'.kernel) ?_
  rw [handler, hr]
  refine wp_mono wp_addRule ?_ ?_
  · intro r s h hs
    rcases h with ⟨t, -, ⟨existing, -, rfl, -⟩ | ⟨-, -, -, installed, -, hk, -⟩⟩
    · exact absurd hs (by simp)
    · exact hk
  · intro e s h hs
    obtain ⟨he, -⟩ := h
    rw [hs] at he
    exact absurd he (by decide)

/-- The filter of a created rule is on the internet port. -/
theorem forwardFilter_installed {d : Daemon} {c : Call} {request : FirewallRuleRequest}
    (hr : c.request = .addRule request) (hs : (serve d c).1.status = 201) :
    ∃ handle, (serve d c).2.kernel.internet
      = d.kernel.internet ++ [forwardFilter request handle] := by
  obtain ⟨handle, -, hk, -⟩ := filtersAdded_serve hr hs
  exact ⟨handle, hk⟩

/-- **When a rule does not match too much.**  A created rule puts its filter on
the internet port, and every TCP or UDP packet the filter matches meets the
request if and only if the request is for ICMP, or an address text names
nothing, or every field of the request gives its key. -/
theorem no_over_match_iff (request : FirewallRuleRequest) :
    (∀ (d : Daemon) (c : Call), c.request = .addRule request → (serve d c).1.status = 201 →
      ∃ handle, (serve d c).2.kernel.internet
        = d.kernel.internet ++ [forwardFilter request handle]) ∧
    ∀ handle, NoOverMatch inNet request (forwardFilter request handle) ↔
      request.protocol = .ICMP ∨ NamesNothing inNet request.srcIp ∨
        NamesNothing inNet request.dstIp ∨ FieldsKept inNet request := by
  refine ⟨fun d c hr hs => forwardFilter_installed hr hs, fun handle => ?_⟩
  constructor
  · intro h
    by_cases hicmp : request.protocol = .ICMP
    · exact Or.inl hicmp
    by_cases hns : NamesNothing inNet request.srcIp
    · exact Or.inr (Or.inl hns)
    by_cases hnd : NamesNothing inNet request.dstIp
    · exact Or.inr (Or.inr (Or.inl hnd))
    exact Or.inr (Or.inr (Or.inr (fieldsKept_of_noOverMatch inNet h hicmp hns hnd)))
  · intro h
    rcases h with hicmp | ⟨v, hv, hne, hno⟩ | ⟨v, hv, hne, hno⟩ | h
    · intro p hm
      have ht := ((flowerMatches_forwardFilter_iff inNet).mp hm).1 (by rw [hicmp]; decide)
      rw [hicmp] at ht
      exact absurd ht (text_ne_icmp p.proto)
    · intro p hm
      exact absurd (((flowerMatches_forwardFilter_iff inNet).mp hm).2.1 v hv hne)
        (by rw [hno]; decide)
    · intro p hm
      exact absurd (((flowerMatches_forwardFilter_iff inNet).mp hm).2.2.1 v hv hne)
        (by rw [hno]; decide)
    · exact noOverMatch_of_fieldsKept inNet h

/-- A TCP rule for a port is exact. -/
theorem no_over_match_iff_port_80 :
    (serve (daemon.run [sampleTenant "a"])
      (sampleCall (.addRule (sampleRule port80 none)) "a"
        firstId)).1.status = 201 ∧
    (∃ handle, (serve (daemon.run [sampleTenant "a"])
      (sampleCall (.addRule (sampleRule port80 none)) "a"
        firstId)).2.kernel.internet
      = [] ++ [forwardFilter (sampleRule port80 none) handle]) ∧
    ∀ handle, NoOverMatch (fun _ _ => false) (sampleRule port80 none)
      (forwardFilter (sampleRule port80 none) handle) := by
  have hstatus : (serve (daemon.run [sampleTenant "a"])
      (sampleCall (.addRule (sampleRule port80 none)) "a"
        firstId)).1.status = 201 := by decide +kernel
  have h := no_over_match_iff (fun _ _ => false) (sampleRule port80 none)
  refine ⟨hstatus, h.1 _ _ rfl hstatus, fun handle => (h.2 handle).mpr ?_⟩
  exact Or.inr (Or.inr (Or.inr ⟨fun hd => by simp [DropsAddress, sampleRule] at hd,
    fun hd => by simp [DropsAddress, sampleRule] at hd, fun hany => by simp [sampleRule] at hany⟩))

/-- Allow any protocol to a port. -/
def anyToPort80 : FirewallRuleRequest :=
  { sampleRule port80 none with protocol := .ANY }

/-- **The port is dropped**: the rule for port `80` puts a filter without any
key on the internet port, and it matches a packet to port `81`. -/
theorem port_dropped :
    (serve (daemon.run [sampleTenant "a"])
      (sampleCall (.addRule anyToPort80) "a" firstId)).2.kernel.internet
      = [forwardFilter anyToPort80 1] ∧
    (forwardFilter anyToPort80 1).spec
      = ["action", "mirred", "egress", "redirect", "dev", "pf0vf3"] ∧
    flowerMatches (fun _ _ => false) ⟨.tcp, 0, 0, 1024, 81⟩ (forwardFilter anyToPort80 1).spec ∧
    ¬ Satisfies (fun _ _ => false) ⟨.tcp, 0, 0, 1024, 81⟩ anyToPort80 := by
  refine ⟨by decide +kernel, by decide, by decide, fun h => ?_⟩
  exact absurd (h.dstPort _ rfl) (by decide)

end PrismFirewall.TcFirewall
