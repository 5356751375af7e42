import PrismFirewall.TcFirewall.Flower

/-!
# The two filters of a rule are mirror images

`Flower` asks which TCP and UDP packets the filter of a rule matches.  Here the two filters
of a rule are compared with each other, and for that every frame counts: of any type and
any protocol, with ports or without (`Frame`).  A filter is still the conjunction of its
keys, and all filters of the daemon are for IPv4.

`meetsAll_flowerKeys` reads the keys of `_build_flower_cmd` as four conditions, each on one
field of the frame.  Both sides of the mirror are then the same four conditions in another
order (`meetsAll_flowerKeys_swap`).
-/

namespace PrismFirewall.TcFirewall

open Lib

/-! ### Frames -/

/-- A frame as flower sees it.  Not every packet has ports. -/
structure Frame (A : Type) where
  etherType : Fin 65536
  ipProto : Fin 256
  srcIp : A
  dstIp : A
  ports : Option (Fin 65536 × Fin 65536)

variable {A : Type}

/-- The frame with sources and destinations in each other's place. -/
def Frame.swap (p : Frame A) : Frame A :=
  { p with srcIp := p.dstIp, dstIp := p.srcIp, ports := p.ports.map Prod.swap }

/-- The numbers of the protocols that the daemon names to tc. -/
def ipProtoNumber : String → Option Nat
  | "icmp" => some 1
  | "tcp" => some 6
  | "udp" => some 17
  | _ => none

variable (inNet : String → A → Bool)

/-- One key of a filter. -/
def Frame.meets (p : Frame A) : String → String → Bool
  | "ip_proto", v => ipProtoNumber v == some p.ipProto.val
  | "src_ip", v => inNet v p.srcIp
  | "dst_ip", v => inNet v p.dstIp
  | "src_port", v => p.ports.any (fun q => v == toString q.1.val)
  | "dst_port", v => p.ports.any (fun q => v == toString q.2.val)
  | _, _ => false

/-- All keys up to the first action. -/
def Frame.meetsAll (p : Frame A) : List String → Bool
  | "action" :: _ => true
  | key :: value :: rest => p.meets inNet key value && p.meetsAll rest
  | _ => true

/-- A filter is added with `protocol ip`, so it is asked about IPv4 only. -/
def Filter.matchesFrame (f : Filter) (p : Frame A) : Bool :=
  p.etherType == 0x0800 && p.meetsAll inNet f.spec

/-- The device a filter sends its packets to, if that is the first thing it does. -/
def redirectTarget : List String → Option String
  | "action" :: "mirred" :: "egress" :: "redirect" :: "dev" :: dev :: _ => some dev
  | "action" :: _ => none
  | _ :: _ :: rest => redirectTarget rest
  | _ => none

/-- The number of the protocol of a TCP or UDP packet. -/
def Transport.number : Transport → Fin 256
  | .tcp => 6
  | .udp => 17

/-- A TCP or UDP packet is a frame. -/
def Packet.frame (p : Packet) : Frame (BitVec 32) :=
  ⟨0x0800, p.proto.number, p.srcIp, p.dstIp, some (p.srcPort, p.dstPort)⟩

theorem meets_frame (inNet : String → BitVec 32 → Bool) (p : Packet) (key value : String) :
    p.frame.meets inNet key value = matchKey inNet p key value := by
  have hproto : (ipProtoNumber value == some p.frame.ipProto.val) = (value == p.proto.text) := by
    have htcp : ipProtoNumber value = some 6 ↔ value = "tcp" := by
      unfold ipProtoNumber
      split <;> simp_all
    have hudp : ipProtoNumber value = some 17 ↔ value = "udp" := by
      unfold ipProtoNumber
      split <;> simp_all
    rw [Bool.eq_iff_iff, beq_iff_eq, beq_iff_eq]
    cases hp : p.proto with
    | tcp => simpa [Packet.frame, hp, Transport.number, Transport.text] using htcp
    | udp => simpa [Packet.frame, hp, Transport.number, Transport.text] using hudp
  unfold Frame.meets matchKey
  split
  · exact hproto
  all_goals simp_all [Packet.frame]

/-- **On TCP and UDP packets** the two readings of a filter agree. -/
theorem matchesFrame_frame (inNet : String → BitVec 32 → Bool) (p : Packet) (f : Filter) :
    f.matchesFrame inNet p.frame = flowerMatches inNet p f.spec := by
  have hspec : ∀ spec, p.frame.meetsAll inNet spec = flowerMatches inNet p spec := by
    intro spec
    fun_induction flowerMatches inNet p spec with
    | case1 => rfl
    | case2 key value rest hkey ih =>
      rw [Frame.meetsAll, meets_frame, ih]
      exact hkey
    | case3 spec h1 h2 =>
      unfold Frame.meetsAll
      split <;> simp_all
  rw [Filter.matchesFrame, hspec]
  rfl

/-! ### The keys of a rule -/

/-- A text that gives no key is met by every frame. -/
def Frame.meetsText (p : Frame A) (key : String) (x : Option String) : Bool :=
  x.all (fun v => if v = "" then true else p.meets inNet key v)

/-- Ports are matched on for TCP and UDP only. -/
def Frame.meetsPort (p : Frame A) (key protocol : String) (x : Option Nat) : Bool :=
  x.all (fun n => if n ≠ 0 ∧ (protocol = "tcp" ∨ protocol = "udp")
    then p.meets inNet key (toString n) else true)

theorem meetsAll_textKey (p : Frame A) {key : String} (hkey : key ≠ "action")
    (x : Option String) (rest : List String) :
    p.meetsAll inNet (textKey key x ++ rest)
      = (p.meetsText inNet key x && p.meetsAll inNet rest) := by
  cases x with
  | none => rfl
  | some v =>
    by_cases hv : v = ""
    · simp only [textKey, Frame.meetsText, Option.all_some, if_pos hv, List.nil_append,
        Bool.true_and]
    · simp only [textKey, Frame.meetsText, Option.all_some, if_neg hv, List.cons_append,
        List.nil_append, Frame.meetsAll]

theorem meetsAll_portKey (p : Frame A) {key : String} (hkey : key ≠ "action") (protocol : String)
    (x : Option Nat) (rest : List String) :
    p.meetsAll inNet (portKey key protocol x ++ rest)
      = (p.meetsPort inNet key protocol x && p.meetsAll inNet rest) := by
  cases x with
  | none => rfl
  | some n =>
    by_cases hn : n ≠ 0 ∧ (protocol = "tcp" ∨ protocol = "udp")
    · simp only [portKey, Frame.meetsPort, Option.all_some, if_pos hn, List.cons_append,
        List.nil_append, Frame.meetsAll]
    · simp only [portKey, Frame.meetsPort, Option.all_some, if_neg hn, List.nil_append,
        Bool.true_and]

/-- The protocol, where it is a key. -/
def namedProtocol (protocol : String) : Option String :=
  if protocol ≠ "" ∧ protocol ≠ "any" ∧ protocol ≠ "ip" then some protocol else none

theorem flowerKeys_eq (srcIp dstIp : Option String) (srcPort dstPort : Option Nat)
    (protocol : String) : flowerKeys srcIp dstIp srcPort dstPort protocol =
      textKey "ip_proto" (namedProtocol protocol) ++ (textKey "src_ip" srcIp ++
        (textKey "dst_ip" dstIp ++ (portKey "src_port" protocol srcPort ++
          portKey "dst_port" protocol dstPort))) := by
  have hproto : (if protocol ≠ "" ∧ protocol ≠ "any" ∧ protocol ≠ "ip"
      then ["ip_proto", protocol] else []) = textKey "ip_proto" (namedProtocol protocol) := by
    unfold namedProtocol
    by_cases h : protocol ≠ "" ∧ protocol ≠ "any" ∧ protocol ≠ "ip"
    · rw [if_pos h, if_pos h, textKey, if_neg h.1]
    · rw [if_neg h, if_neg h]
      rfl
  rw [flowerKeys, hproto]
  simp only [List.append_assoc]

/-- **The keys of a rule**: the protocol, two addresses and two ports. -/
theorem meetsAll_flowerKeys (p : Frame A) (srcIp dstIp : Option String)
    (srcPort dstPort : Option Nat) (protocol : String) (rest : List String) :
    p.meetsAll inNet (flowerKeys srcIp dstIp srcPort dstPort protocol ++ rest) =
      (p.meetsText inNet "ip_proto" (namedProtocol protocol) &&
        (p.meetsText inNet "src_ip" srcIp && p.meetsText inNet "dst_ip" dstIp) &&
        (p.meetsPort inNet "src_port" protocol srcPort &&
          p.meetsPort inNet "dst_port" protocol dstPort) && p.meetsAll inNet rest) := by
  rw [flowerKeys_eq]
  simp only [List.append_assoc]
  rw [meetsAll_textKey inNet p (by decide), meetsAll_textKey inNet p (by decide),
    meetsAll_textKey inNet p (by decide), meetsAll_portKey inNet p (by decide),
    meetsAll_portKey inNet p (by decide)]
  simp only [Bool.and_assoc]

/-! ### The mirror -/

/-- The key that says about the other end what this one says. -/
def mirrorKey : String → String
  | "src_ip" => "dst_ip"
  | "dst_ip" => "src_ip"
  | "src_port" => "dst_port"
  | "dst_port" => "src_port"
  | key => key

theorem meets_swap (p : Frame A) (key value : String) :
    p.swap.meets inNet key value = p.meets inNet (mirrorKey key) value := by
  have hports : ∀ f : Fin 65536 × Fin 65536 → Bool,
      p.swap.ports.any f = p.ports.any (fun q => f q.swap) := by
    intro f
    show (p.ports.map Prod.swap).any f = _
    cases p.ports <;> rfl
  unfold Frame.meets
  split
  · rfl
  · rfl
  · rfl
  · exact hports _
  · exact hports _
  · rename_i h1 h2 h3 h4 h5
    unfold mirrorKey
    split <;> simp_all

/-- **The keys with sources and destinations exchanged** are met by the mirror image of a
frame exactly if the frame meets the keys. -/
theorem meetsAll_flowerKeys_swap (p : Frame A) (srcIp dstIp : Option String)
    (srcPort dstPort : Option Nat) (protocol : String) {rest rest' : List String}
    (h : p.swap.meetsAll inNet rest = p.meetsAll inNet rest') :
    p.swap.meetsAll inNet (flowerKeys dstIp srcIp dstPort srcPort protocol ++ rest)
      = p.meetsAll inNet (flowerKeys srcIp dstIp srcPort dstPort protocol ++ rest') := by
  have htext : ∀ key x, p.swap.meetsText inNet key x = p.meetsText inNet (mirrorKey key) x :=
    fun key x => by simp only [Frame.meetsText, meets_swap]
  have hport : ∀ key x, p.swap.meetsPort inNet key protocol x
      = p.meetsPort inNet (mirrorKey key) protocol x :=
    fun key x => by simp only [Frame.meetsPort, meets_swap]
  rw [meetsAll_flowerKeys, meetsAll_flowerKeys, h]
  simp only [htext, hport]
  show (_ && (p.meetsText inNet "dst_ip" dstIp && p.meetsText inNet "src_ip" srcIp) &&
    (p.meetsPort inNet "dst_port" protocol dstPort && p.meetsPort inNet "src_port" protocol srcPort)
      && _) = _
  rw [Bool.and_comm (p.meetsText inNet "dst_ip" dstIp),
    Bool.and_comm (p.meetsPort inNet "dst_port" protocol dstPort)]
  rfl

theorem matchesFrame_reverseFilter_swap (p : Frame A) (request : FirewallRuleRequest)
    (handle handle' : Nat) : (reverseFilter request handle').matchesFrame inNet p.swap
      = (forwardFilter request handle).matchesFrame inNet p := by
  have haction : p.swap.meetsAll inNet (reverseAction request.action)
      = p.meetsAll inNet (forwardAction request.action) := by
    cases request.action <;> rfl
  unfold Filter.matchesFrame reverseFilter forwardFilter
  rw [meetsAll_flowerKeys_swap inNet p _ _ _ _ _ haction]
  rfl

/-! ### The target -/

/-- The keys of a rule come in pairs, so the action is found behind them. -/
theorem redirectTarget_flowerKeys (srcIp dstIp : Option String) (srcPort dstPort : Option Nat)
    (protocol : String) (action : List String) :
    redirectTarget (flowerKeys srcIp dstIp srcPort dstPort protocol ++ action)
      = redirectTarget action := by
  refine walk_flowerKeys (fun key value rest hkey => ?_) srcIp dstIp srcPort dstPort protocol action
  simp [redirectTarget, hkey]

/-- **Forward and reverse filter are mirror images.**  A request that creates a rule adds one
filter on each port.  The one on the client port matches a frame with sources and
destinations exchanged exactly if the one on the internet port matches the frame, and for
`ALLOW` each sends what it matches to the port of the other. -/
theorem filters_mirror (d : Daemon) (c : Call) (request : FirewallRuleRequest)
    (hreq : c.request = .addRule request) (hstatus : (serve d c).1.status = 201) :
    ∃ forward reverse : Filter,
      (serve d c).2.kernel.filters internetPort = d.kernel.filters internetPort ++ [forward] ∧
      (serve d c).2.kernel.filters clientPort = d.kernel.filters clientPort ++ [reverse] ∧
      (∀ p : Frame A, reverse.matchesFrame inNet p.swap ↔ forward.matchesFrame inNet p) ∧
      (request.action = .ALLOW → redirectTarget forward.spec = some clientPort ∧
        redirectTarget reverse.spec = some internetPort) := by
  obtain ⟨handle, handle', hi, hc⟩ := filtersAdded_serve hreq hstatus
  refine ⟨forwardFilter request handle, reverseFilter request handle', hi, hc, fun p => ?_,
    fun hallow => ?_⟩
  · rw [matchesFrame_reverseFilter_swap inNet p request handle handle']
  · unfold forwardFilter reverseFilter
    rw [redirectTarget_flowerKeys, redirectTarget_flowerKeys, hallow]
    exact ⟨rfl, rfl⟩

/-- A rule that allows one port, and all frames with IPv4 addresses. -/
theorem filters_mirror_port_80 :
    (serve (daemon.run [sampleTenant "a"])
      (sampleCall (.addRule (sampleRule port80 none)) "a" firstId)).1.status = 201 ∧
    ∃ forward reverse : Filter,
      (∀ p : Frame (BitVec 32), reverse.matchesFrame (fun _ _ => false) p.swap ↔
        forward.matchesFrame (fun _ _ => false) p) ∧
      redirectTarget forward.spec = some "pf0vf3" ∧ redirectTarget reverse.spec = some "pf0vf0" := by
  have hstatus : (serve (daemon.run [sampleTenant "a"])
      (sampleCall (.addRule (sampleRule port80 none)) "a" firstId)).1.status = 201 := by
    decide +kernel
  obtain ⟨forward, reverse, -, -, hmatch, htarget⟩ := filters_mirror (fun _ _ => false)
    (daemon.run [sampleTenant "a"]) _ (sampleRule port80 none) rfl hstatus
  exact ⟨hstatus, forward, reverse, hmatch, htarget rfl⟩

end PrismFirewall.TcFirewall
