import PrismFirewall.Lib.Decimal
import PrismFirewall.Lib.Precedence
import PrismFirewall.TcFirewall.KernelMirror
import PrismFirewall.TcFirewall.MirrorFilters

/-!
# What happens to a frame

The stored rules and NAT entries are a policy: a rule covers the frames that meet its
fields, on the client port with sources and destinations exchanged, a NAT entry those that
go to its public address or come from its private one, and of what covers a frame one with
the least preference says what becomes of it (`policyOn`, `Outcome`).

The kernel knows nothing of this.  It has lists of keys and actions, asks the filters of a
port by preference, and carries out the actions of the first that matches (`runActions`).
`kernel_enforces_policy` says that the two agree on every frame.
-/

namespace PrismFirewall.TcFirewall

open Lib

variable {A : Type}

/-- Ports and frame types have sixteen bits. -/
local instance neZero_sixteenBits : NeZero (65536 : Nat) := ⟨by decide⟩

/-! ### The kernel -/

/-- A frame is dropped, or leaves through a port as it then is. -/
inductive Outcome (A : Type)
  | dropped
  | sent (dev : String) (frame : Frame A)

/-- A number among the words of a command. -/
def numberOf (text : String) : Nat := (Text.readNat text.toList).getD 0

/-- The preference of a filter. -/
def Filter.preference (f : Filter) : Nat := numberOf f.prio

/-- The actions of a filter, behind its keys. -/
def actionsOf : List String → List String
  | "action" :: rest => "action" :: rest
  | _ :: _ :: rest => actionsOf rest
  | _ => []

/-- Write to the destination port, where there is one. -/
def Frame.setDstPort (p : Frame A) (n : Nat) : Frame A :=
  { p with ports := p.ports.map (fun q => (q.1, Fin.ofNat 65536 n)) }

variable (inNet : String → A → Bool) (addr : String → A)

/-- Carry out the actions of a filter: `pedit` rewrites the frame, `mirred` and `drop` are
the last. -/
def runActions (p : Frame A) : List String → Option (Outcome A)
  | ["action", "drop"] => some .dropped
  | ["action", "mirred", "egress", "redirect", "dev", dev] => some (.sent dev p)
  | "action" :: "pedit" :: "ex" :: "munge" :: "ip" :: "src" :: "set" :: v :: rest =>
      runActions { p with srcIp := addr v } rest
  | "action" :: "pedit" :: "ex" :: "munge" :: "ip" :: "dst" :: "set" :: v :: rest =>
      runActions { p with dstIp := addr v } rest
  | "action" :: "pedit" :: "ex" :: "munge" :: _ :: "dport" :: "set" :: v :: rest =>
      runActions (p.setDstPort (numberOf v)) rest
  | _ => none

/-- The frame arrives at the port, and this may become of it. -/
def KernelDoes (k : Kernel) (dev : String) (p : Frame A) (o : Outcome A) : Prop :=
  ∃ f, Prevails Filter.preference (fun f => f.matchesFrame inNet p) (k.filters dev) f ∧
    runActions addr p (actionsOf f.spec) = some o

/-! ### The policy -/

/-- The frame meets the fields of the rule, as far as they say something. -/
structure FirewallRule.Covers (rule : FirewallRule) (p : Frame A) : Prop where
  ip : p.etherType = 0x0800
  protocol : rule.protocol ≠ .ANY → ipProtoNumber rule.protocol.value = some p.ipProto.val
  srcIp : ∀ v, rule.srcIp = some v → v ≠ "" → inNet v p.srcIp
  dstIp : ∀ v, rule.dstIp = some v → v ≠ "" → inNet v p.dstIp
  srcPort : rule.protocol = .TCP ∨ rule.protocol = .UDP → ∀ n, rule.srcPort = some n → n ≠ 0 →
    ∃ q, p.ports = some q ∧ q.1.val = n
  dstPort : rule.protocol = .TCP ∨ rule.protocol = .UDP → ∀ n, rule.dstPort = some n → n ≠ 0 →
    ∃ q, p.ports = some q ∧ q.2.val = n

/-- The frame comes from the private address, or goes to the public one. -/
def NATEntry.Covers (e : NATEntry) (p : Frame A) : Prop :=
  p.etherType = 0x0800 ∧
    if e.type = .snat then inNet e.privateIp p.srcIp = true
    else inNet e.publicIp p.dstIp ∧ ipProtoNumber (e.protocol.getD "") = some p.ipProto.val ∧
      ∃ q, p.ports = some q ∧ e.publicPort = some q.2.val

/-- The frame with the addresses of the entry. -/
def NATEntry.rewrite (e : NATEntry) (p : Frame A) : Frame A :=
  match e.type with
  | .snat => { p with srcIp := addr e.publicIp }
  | .dnat => { p with dstIp := addr e.privateIp }
  | .forward => Frame.setDstPort { p with dstIp := addr e.privateIp } (e.privatePort.getD 0)

/-- The port on the other side. -/
def otherPort (dev : String) : String := if dev = clientPort then internetPort else clientPort

/-- What a rule with the action does to a frame that it covers. -/
def RuleAction.outcome (dev : String) (p : Frame A) : RuleAction → Outcome A
  | .ALLOW => .sent (otherPort dev) p
  | .DENY => .dropped

/-- A rule or a NAT entry. -/
abbrev PolicyEntry := FirewallRule ⊕ NATEntry

/-- What is stored for a port. -/
def policyOn (s : Stores) (dev : String) : List PolicyEntry :=
  s.rulesDb.values.map Sum.inl ++ (entriesOn dev s.natDb.values).map Sum.inr

namespace PolicyEntry

def preference : PolicyEntry → Nat
  | .inl rule => rule.priority
  | .inr _ => natPriority

/-- The entry speaks of the frame that arrives at the port. -/
def Covers (dev : String) (p : Frame A) : PolicyEntry → Prop
  | .inl rule => rule.Covers inNet (if dev = clientPort then p.swap else p)
  | .inr e => e.Covers inNet p

/-- What the entry says becomes of the frame. -/
def outcome (dev : String) (p : Frame A) : PolicyEntry → Outcome A
  | .inl rule => rule.action.outcome dev p
  | .inr e => .sent (otherPort dev) (e.rewrite addr p)

end PolicyEntry

/-! ### The filters of a rule -/

theorem numberOf_toString (n : Nat) : numberOf (toString n) = n := by
  have hdigits : (toString n).toList = Nat.toDigits 10 n := Nat.toList_repr
  rw [numberOf, hdigits, Text.readNat_toDigits, Option.getD_some]

theorem meetsText_iff {p : Frame A} {key : String} {x : Option String} :
    p.meetsText inNet key x = true ↔ ∀ v, x = some v → v ≠ "" → p.meets inNet key v = true := by
  cases x with
  | none => simp [Frame.meetsText]
  | some v =>
    by_cases hv : v = ""
    · simp [Frame.meetsText, hv]
    · simp [Frame.meetsText, hv]

theorem meetsPort_iff {p : Frame A} {key protocol : String} {x : Option Nat} :
    p.meetsPort inNet key protocol x = true ↔ (protocol = "tcp" ∨ protocol = "udp") →
      ∀ n, x = some n → n ≠ 0 → p.meets inNet key (toString n) = true := by
  cases x with
  | none => simp [Frame.meetsPort]
  | some n =>
    by_cases hn : n ≠ 0 ∧ (protocol = "tcp" ∨ protocol = "udp")
    · simp only [Frame.meetsPort, Option.all_some, if_pos hn]
      exact ⟨fun h _ m hm _ => Option.some.inj hm ▸ h, fun h => h hn.2 n rfl hn.1⟩
    · simp only [Frame.meetsPort, Option.all_some, if_neg hn]
      refine ⟨fun _ hproto m hm hm0 => absurd ⟨?_, hproto⟩ hn, fun _ => trivial⟩
      exact Option.some.inj hm ▸ hm0

theorem meets_srcPort_iff {p : Frame A} {n : Nat} :
    p.meets inNet "src_port" (toString n) = true ↔ ∃ q, p.ports = some q ∧ q.1.val = n := by
  simp only [Frame.meets, Option.any_eq_true, beq_iff_eq, Text.toString_inj]
  exact exists_congr (fun q => and_congr_right (fun _ => eq_comm))

theorem meets_dstPort_iff {p : Frame A} {n : Nat} :
    p.meets inNet "dst_port" (toString n) = true ↔ ∃ q, p.ports = some q ∧ q.2.val = n := by
  simp only [Frame.meets, Option.any_eq_true, beq_iff_eq, Text.toString_inj]
  exact exists_congr (fun q => and_congr_right (fun _ => eq_comm))

/-- The protocol key of a rule. -/
theorem meets_namedProtocol_iff {p : Frame A} {protocol : Protocol} :
    p.meetsText inNet "ip_proto" (namedProtocol (protoStr protocol)) = true ↔
      (protocol ≠ .ANY → ipProtoNumber protocol.value = some p.ipProto.val) := by
  cases protocol <;>
    simp [namedProtocol, protoStr, Protocol.value, Frame.meetsText, Frame.meets]

/-- **The filter on the internet port** matches what the rule covers. -/
theorem FirewallRule.covers_iff {rule : FirewallRule} {p : Frame A} :
    (p.etherType == 0x0800 && p.meetsAll inNet rule.forward.spec) = true ↔
      rule.Covers inNet p := by
  have haction : p.meetsAll inNet (forwardAction rule.action) = true := by
    cases rule.action <;> rfl
  have htransport : protoStr rule.protocol = "tcp" ∨ protoStr rule.protocol = "udp" ↔
      rule.protocol = .TCP ∨ rule.protocol = .UDP := by
    cases rule.protocol <;> simp [protoStr, Protocol.value]
  unfold FirewallRule.forward
  dsimp only
  rw [meetsAll_flowerKeys, haction]
  simp only [Bool.and_eq_true, Bool.and_true, beq_iff_eq]
  rw [meets_namedProtocol_iff, meetsText_iff, meetsText_iff, meetsPort_iff, meetsPort_iff]
  simp only [meets_srcPort_iff, meets_dstPort_iff, htransport]
  constructor
  · rintro ⟨hip, ⟨hproto, hsrc, hdst⟩, hsp, hdp⟩
    exact ⟨hip, hproto, hsrc, hdst, hsp, hdp⟩
  · rintro ⟨hip, hproto, hsrc, hdst, hsp, hdp⟩
    exact ⟨hip, ⟨hproto, hsrc, hdst⟩, hsp, hdp⟩

theorem Frame.swap_swap (p : Frame A) : p.swap.swap = p := by
  obtain ⟨etherType, ipProto, srcIp, dstIp, ports⟩ := p
  cases ports <;> rfl

/-- **The filter on the client port** matches what the rule covers the other way round. -/
theorem FirewallRule.covers_swap_iff {rule : FirewallRule} {p : Frame A} :
    (p.etherType == 0x0800 && p.meetsAll inNet rule.reverse.spec) = true ↔
      rule.Covers inNet p.swap := by
  have haction : p.swap.swap.meetsAll inNet (reverseAction rule.action)
      = p.swap.meetsAll inNet (forwardAction rule.action) := by
    cases rule.action <;> rfl
  have hmirror := meetsAll_flowerKeys_swap inNet p.swap rule.srcIp rule.dstIp rule.srcPort
    rule.dstPort (protoStr rule.protocol) haction
  rw [Frame.swap_swap] at hmirror
  rw [← FirewallRule.covers_iff]
  unfold FirewallRule.reverse FirewallRule.forward
  dsimp only
  rw [hmirror]
  rfl

theorem actionsOf_flowerKeys (srcIp dstIp : Option String) (srcPort dstPort : Option Nat)
    (protocol : String) (action : List String) :
    actionsOf (flowerKeys srcIp dstIp srcPort dstPort protocol ++ action) = actionsOf action := by
  refine walk_flowerKeys (fun key value rest hkey => ?_) srcIp dstIp srcPort dstPort protocol action
  simp [actionsOf]

/-! ### The filter of a NAT entry -/

/-- **The filter of an entry** matches what the entry covers. -/
theorem NATEntry.covers_iff {e : NATEntry} (he : e.Reappliable) {p : Frame A} :
    (p.etherType == 0x0800 && p.meetsAll inNet e.spec) = true ↔ e.Covers inNet p := by
  unfold NATEntry.Covers
  rw [Bool.and_eq_true, beq_iff_eq]
  refine and_congr_right (fun _ => ?_)
  by_cases ht : e.type = .snat
  · rw [if_pos ht]
    unfold NATEntry.spec NATEntry.addCommand
    rw [ht]
    simp [snatCmd, Frame.meetsAll, Frame.meets]
  · obtain ⟨⟨m, -, hpub⟩, -, -⟩ := he ht
    have hspec : p.meetsAll inNet e.spec = (p.meets inNet "dst_ip" e.publicIp &&
        (p.meets inNet "ip_proto" (e.protocol.getD "") &&
          (p.meets inNet "dst_port" (pyStr e.publicPort) && true))) := by
      unfold NATEntry.spec NATEntry.addCommand
      cases hty : e.type with
      | snat => exact absurd hty ht
      | dnat => rfl
      | forward => rfl
    have hport : p.meets inNet "dst_port" (pyStr e.publicPort) = true ↔
        ∃ q, p.ports = some q ∧ e.publicPort = some q.2.val := by
      rw [hpub]
      simp only [Option.some.injEq]
      refine (meets_dstPort_iff inNet).trans ?_
      exact exists_congr (fun q => and_congr_right (fun _ => eq_comm))
    rw [if_neg ht, hspec, Bool.and_true, Bool.and_eq_true, Bool.and_eq_true, hport]
    simp only [Frame.meets, beq_iff_eq]

theorem runActions_dport (p : Frame A) (protocol v : String) (rest : List String) :
    runActions addr p ("action" :: "pedit" :: "ex" :: "munge" :: protocol :: "dport" :: "set" ::
      v :: rest) = runActions addr (p.setDstPort (numberOf v)) rest := by
  rw [runActions]

/-- **The actions of an entry** carry out its rewriting. -/
theorem NATEntry.runActions_spec {e : NATEntry} (he : e.Reappliable) (p : Frame A) :
    runActions addr p (actionsOf e.spec)
      = some (.sent (otherPort e.port) (e.rewrite addr p)) := by
  unfold NATEntry.spec NATEntry.addCommand NATEntry.rewrite NATEntry.port otherPort
  cases hty : e.type with
  | snat => rfl
  | dnat => rfl
  | forward =>
    obtain ⟨-, ⟨n, -, hpriv⟩, -⟩ := he (by rw [hty]; decide)
    have hnumber : numberOf (pyStr e.privatePort) = e.privatePort.getD 0 := by
      rw [hpriv]
      exact numberOf_toString n
    rw [← hnumber]
    exact runActions_dport addr { p with dstIp := addr e.privateIp } _ _ _

/-! ### The two tables of a port -/

/-- The preference and the keys and actions that an entry has in the kernel. -/
def PolicyEntry.filterOn (dev : String) : PolicyEntry → String × List String
  | .inl rule => if dev = clientPort then (rule.reverse.prio, rule.reverse.spec)
      else (rule.forward.prio, rule.forward.spec)
  | .inr e => (toString natPriority, e.spec)

/-- The filter is that of an entry of the policy. -/
structure Represents (s : Stores) (dev : String) (f : Filter) (x : PolicyEntry) : Prop where
  mem : x ∈ policyOn s dev
  same : (f.prio, f.spec) = x.filterOn dev

/-- **The kernel has the filters of the policy.** -/
theorem matched_policyOn {s : Stores} {k : Kernel} (h : Mirrors s k) {dev : String}
    (hdev : IsPort dev) : Matched (Represents s dev) (k.filters dev) (policyOn s dev) := by
  have hrules : Matched (fun f (x : PolicyEntry) => (f.prio, f.spec) = x.filterOn dev)
      (ruleFilters k dev) (s.rulesDb.values.map Sum.inl) := by
    refine matched_of_map_eq ?_
    rw [List.map_map]
    rcases hdev with rfl | rfl
    · have hl := congrArg (List.map (fun x : Listed => (x.prio, x.spec))) h.internet.listed
      rw [List.map_map, List.map_map] at hl
      exact hl
    · have hl := congrArg (List.map (fun x : Listed => (x.prio, x.spec))) h.client.listed
      rw [List.map_map, List.map_map] at hl
      exact hl
  have hnat : Matched (fun f (x : PolicyEntry) => (f.prio, f.spec) = x.filterOn dev)
      ((k.filters dev).filter (fun f => f.prio == toString natPriority))
      ((entriesOn dev s.natDb.values).map Sum.inr) := by
    refine matched_of_map_eq ?_
    rw [List.map_map]
    have hl := congrArg (List.map (fun spec => (toString natPriority, spec))) (h.nat dev)
    rw [natBand, List.map_map, List.map_map] at hl
    refine Eq.trans (List.map_congr_left (fun f hf => ?_)) hl
    rw [beq_iff_eq.mp (List.mem_filter.mp hf).2]
    rfl
  have hmem : ∀ f, f ∈ k.filters dev ↔ f ∈ ruleFilters k dev ++
      (k.filters dev).filter (fun f => f.prio == toString natPriority) := by
    intro f
    rw [List.mem_append, ruleFilters, List.mem_filter, List.mem_filter, bne_iff_ne, beq_iff_eq]
    tauto
  exact ((hrules.append hnat).of_mem_iff hmem).mono (fun f _ x hx hf => ⟨hx, hf⟩)

section Represents

variable {s : Stores} {k : Kernel} {dev : String} {f : Filter} {x : PolicyEntry}

theorem Represents.preference_eq (h : Represents s dev f x) : f.preference = x.preference := by
  have hprio : f.prio = (x.filterOn dev).1 := congrArg Prod.fst h.same
  have hfst : (x.filterOn dev).1 = toString x.preference := by
    cases x with
    | inl rule =>
      show (if dev = clientPort then (rule.reverse.prio, rule.reverse.spec)
        else (rule.forward.prio, rule.forward.spec)).1 = toString rule.priority
      split <;> rfl
    | inr e => rfl
  rw [Filter.preference, hprio, hfst, numberOf_toString]

theorem Represents.spec_eq (h : Represents s dev f x) : f.spec = (x.filterOn dev).2 :=
  congrArg Prod.snd h.same

theorem reappliable_of_mem_policyOn (hm : Mirrors s k) {e : NATEntry}
    (he : Sum.inr e ∈ policyOn s dev) : e.Reappliable ∧ e.port = dev := by
  rcases List.mem_append.mp he with he | he
  · obtain ⟨rule, -, hrule⟩ := List.mem_map.mp he
    cases hrule
  · obtain ⟨e', he', heq⟩ := List.mem_map.mp he
    obtain rfl := Sum.inr.inj heq
    obtain ⟨hvalue, hport⟩ := List.mem_filter.mp he'
    exact ⟨hm.reappliable e' hvalue, of_decide_eq_true hport⟩

theorem Represents.matchesFrame_iff (hm : Mirrors s k) (hdev : IsPort dev)
    (h : Represents s dev f x) (p : Frame A) :
    f.matchesFrame inNet p = true ↔ x.Covers inNet dev p := by
  unfold Filter.matchesFrame
  rw [h.spec_eq]
  cases x with
  | inl rule =>
    rcases hdev with rfl | rfl
    · exact rule.covers_iff inNet
    · exact rule.covers_swap_iff inNet
  | inr e => exact e.covers_iff inNet (reappliable_of_mem_policyOn hm h.mem).1

theorem Represents.runActions_eq (hm : Mirrors s k) (hdev : IsPort dev)
    (h : Represents s dev f x) (p : Frame A) :
    runActions addr p (actionsOf f.spec) = some (x.outcome addr dev p) := by
  rw [h.spec_eq]
  cases x with
  | inl rule =>
    have hfwd : actionsOf rule.forward.spec = actionsOf (forwardAction rule.action) :=
      actionsOf_flowerKeys _ _ _ _ _ _
    have hrev : actionsOf rule.reverse.spec = actionsOf (reverseAction rule.action) :=
      actionsOf_flowerKeys _ _ _ _ _ _
    rcases hdev with rfl | rfl
    · show runActions addr p (actionsOf rule.forward.spec)
        = some (rule.action.outcome internetPort p)
      rw [hfwd]
      cases rule.action <;> rfl
    · show runActions addr p (actionsOf rule.reverse.spec)
        = some (rule.action.outcome clientPort p)
      rw [hrev]
      cases rule.action <;> rfl
  | inr e =>
    obtain ⟨hre, hport⟩ := reappliable_of_mem_policyOn hm h.mem
    rw [← hport]
    exact e.runActions_spec addr hre p

end Represents

/-- **The kernel does what the policy says.**  In a run whose commands all succeed and whose
requests are orderly, what may become of a frame at a port is what some stored rule or NAT
entry says that covers the frame there, where none with a smaller preference does; and
something becomes of it exactly if one of them covers it. -/
theorem kernel_enforces_policy (calls : List Call)
    (hs : ∀ c ∈ calls, ∀ i, (c.replies i).succeeds = true) (h : daemon.Meets Orderly calls)
    {dev : String} (hdev : IsPort dev) (p : Frame A) :
    (∀ o, KernelDoes inNet addr (daemon.run calls).kernel dev p o ↔
      ∃ x, Prevails PolicyEntry.preference (PolicyEntry.Covers inNet dev p)
          (policyOn (daemon.run calls).stores dev) x ∧ x.outcome addr dev p = o) ∧
    ((∃ o, KernelDoes inNet addr (daemon.run calls).kernel dev p o) ↔
      ∃ x ∈ policyOn (daemon.run calls).stores dev, PolicyEntry.Covers inNet dev p x) := by
  have hm := mirrors_run calls hs h
  have hiff : ∀ o, KernelDoes inNet addr (daemon.run calls).kernel dev p o ↔
      ∃ x, Prevails PolicyEntry.preference (PolicyEntry.Covers inNet dev p)
          (policyOn (daemon.run calls).stores dev) x ∧ x.outcome addr dev p = o := by
    intro o
    refine exists_prevails_iff (matched_policyOn hm hdev) (fun f x hr => hr.preference_eq)
      (fun f x hr => hr.matchesFrame_iff inNet hm hdev p) (fun f x hr => ?_)
    rw [hr.runActions_eq addr hm hdev p, Option.some.injEq]
  refine ⟨hiff, ?_⟩
  constructor
  · rintro ⟨o, ho⟩
    obtain ⟨x, hx, -⟩ := (hiff o).mp ho
    exact ⟨x, hx.mem, hx.holds⟩
  · intro hcovered
    obtain ⟨x, hx⟩ := exists_prevails PolicyEntry.preference hcovered
    exact ⟨x.outcome addr dev p, (hiff _).mpr ⟨x, hx, rfl⟩⟩

/-- A TCP frame to port 443. -/
def httpsFrame : Frame (BitVec 32) := Packet.frame ⟨.tcp, 0, 0, 50000, 443⟩

/-- The rule that is left allows the frame. -/
theorem kernel_enforces_policy_ruleReplaced :
    (∀ c ∈ ruleReplaced, ∀ i, (c.replies i).succeeds = true) ∧
    daemon.Meets Orderly ruleReplaced ∧ IsPort internetPort ∧
    KernelDoes (fun _ _ => false) (fun _ => 0) (daemon.run ruleReplaced).kernel internetPort
      httpsFrame (.sent clientPort httpsFrame) := by
  have hport : IsPort internetPort := Or.inl rfl
  refine ⟨ruleReplaced_succeeds, ruleReplaced_orderly, hport, ?_⟩
  obtain ⟨hiff, -⟩ := kernel_enforces_policy (fun _ _ => false) (fun _ => 0) ruleReplaced
    ruleReplaced_succeeds ruleReplaced_orderly hport httpsFrame
  obtain ⟨rule, hvalues, haction, hproto, hsrc, hdst, hsp, hdp⟩ := ruleReplaced_values
  have hentries : (entriesOn internetPort (daemon.run ruleReplaced).stores.natDb.values).length
      = 0 := by decide +kernel
  have hpolicy : policyOn (daemon.run ruleReplaced).stores internetPort = [.inl rule] := by
    rw [policyOn, hvalues, List.length_eq_zero_iff.mp hentries]
    rfl
  refine (hiff _).mpr ⟨.inl rule, ⟨?_, ?_, ?_⟩, ?_⟩
  · rw [hpolicy]
    exact List.mem_singleton.mpr rfl
  · refine ⟨rfl, fun _ => by rw [hproto]; rfl, by simp [hsrc], by simp [hdst], by simp [hsp], ?_⟩
    intro _ n hn _
    rw [hdp, Option.some.injEq] at hn
    exact ⟨_, rfl, hn⟩
  · intro y hy _
    rw [hpolicy] at hy
    rw [List.mem_singleton.mp hy]
  · show rule.action.outcome internetPort httpsFrame = _
    rw [haction]
    rfl

end PrismFirewall.TcFirewall
