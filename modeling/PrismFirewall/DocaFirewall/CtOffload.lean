import PrismFirewall.DocaFirewall.Policy
import PrismFirewall.Lib.Loads

/-!
# Packets of the DOCA firewall

`ct_offload.c`: `parse_ipv4_packet` reads the headers of a frame at fixed offsets and the
ports where the length field of the IPv4 header says they are.  The function is a load
from the memory the frame lies in; the frame ends after `data_len` bytes, and the parser
never looks at `data_len`.

`parse_within_iff` says for which frames it stays inside all the same.  For those the
result does not depend on what lies behind the frame (`parse_eq_of_fits`).
-/

namespace PrismFirewall.DocaFirewall

open Lib Lib.Load

/-- `struct doca_flow_ct_match`, the IPv4 part. -/
structure CtMatch where
  srcIp : UInt32
  dstIp : UInt32
  nextProto : UInt8
  srcPort : UInt16
  dstPort : UInt16
  deriving DecidableEq

/-- What `parse_ipv4_packet` fills in. -/
structure ParsedPacket where
  matchO : CtMatch
  matchR : CtMatch
  tuple : FiveTuple
  deriving DecidableEq

def rteEtherTypeIpv4 : UInt16 := 0x0800

def ipprotoTcp : UInt8 := 6

def ipprotoUdp : UInt8 := 17

/-- `rte_be_to_cpu_16`, on a little-endian machine. -/
def rteBeToCpu16 (x : UInt16) : UInt16 := x <<< 8 ||| x >>> 8

/-- The two port words at the start of a TCP or UDP header. -/
def l4Ports (l4Hdr : Nat) : Load (UInt16 × UInt16) := do
  let srcPort ← le16 l4Hdr
  let dstPort ← le16 (l4Hdr + 2)
  return (srcPort, dstPort)

/-- The ports behind the IPv4 header, zero for any other protocol. -/
def extractL4Ports (nextProtoId : UInt8) (l4Hdr : Nat) : Load (UInt16 × UInt16) :=
  if nextProtoId = ipprotoTcp then l4Ports l4Hdr
  else if nextProtoId = ipprotoUdp then l4Ports l4Hdr
  else pure (0, 0)

/-- `parse_ipv4_packet`; a field that the source reads several times is read once. -/
def parseIpv4Packet : Load (Option ParsedPacket) := do
  let etherType ← le16 12
  if rteBeToCpu16 etherType ≠ rteEtherTypeIpv4 then return none
  else do
    let srcAddr ← le32 26
    let dstAddr ← le32 30
    let nextProtoId ← byte 23
    let versionIhl ← byte 14
    let l4Hdr := 14 + (versionIhl &&& 0x0f).toNat * 4
    -- the matches were zeroed, so their ports are zero where the packet has none
    let ports ← extractL4Ports nextProtoId l4Hdr
    return some
      { matchO := ⟨srcAddr, dstAddr, nextProtoId, ports.1, ports.2⟩
        matchR := ⟨dstAddr, srcAddr, nextProtoId, ports.2, ports.1⟩
        tuple := ⟨srcAddr, dstAddr, rteBeToCpu16 ports.1, rteBeToCpu16 ports.2, nextProtoId⟩ }

/-- The memory a frame lies in. -/
def memory (frame : List UInt8) (behind : Nat → UInt8) : Nat → UInt8 :=
  fun i => frame[i]?.getD (behind i)

/-- The headers end inside the frame: the Ethernet header, the fixed part of an IPv4
header, and the ports of a TCP or UDP header behind it. -/
def HeadersFit (frame : List UInt8) : Prop :=
  14 ≤ frame.length ∧
  (frame[12]? = some 0x08 ∧ frame[13]? = some 0x00 → 34 ≤ frame.length ∧
    (frame[23]? = some ipprotoTcp ∨ frame[23]? = some ipprotoUdp →
      14 + 4 * ((frame[14]?.getD 0) &&& 0x0f).toNat + 4 ≤ frame.length))

instance (frame : List UInt8) : Decidable (HeadersFit frame) :=
  inferInstanceAs (Decidable (_ ∧ (_ ∧ _ → _ ∧ (_ ∨ _ → _))))

/-! ### Where the parser reads -/

theorem within_l4Ports {l4Hdr : Nat} {mem : Nat → UInt8} {len : Nat} :
    Within (l4Ports l4Hdr) mem len ↔ l4Hdr + 3 < len := by
  simp only [l4Ports, within_bind, within_le16, within_pure, and_true]
  omega

theorem within_extractL4Ports {nextProtoId : UInt8} {l4Hdr : Nat} {mem : Nat → UInt8} {len : Nat} :
    Within (extractL4Ports nextProtoId l4Hdr) mem len ↔
      (nextProtoId = ipprotoTcp ∨ nextProtoId = ipprotoUdp → l4Hdr + 3 < len) := by
  unfold extractL4Ports
  by_cases htcp : nextProtoId = ipprotoTcp
  · rw [if_pos htcp, within_l4Ports, imp_iff_right (Or.inl htcp)]
  · rw [if_neg htcp]
    by_cases hudp : nextProtoId = ipprotoUdp
    · rw [if_pos hudp, within_l4Ports, imp_iff_right (Or.inr hudp)]
    · rw [if_neg hudp, within_pure]
      exact iff_of_true trivial (fun h => absurd h (not_or.mpr ⟨htcp, hudp⟩))

/-- The word of two bytes. -/
theorem toNat_word (b0 b1 : UInt8) :
    (b0.toUInt16 ||| b1.toUInt16 <<< 8).toNat = b1.toNat * 256 + b0.toNat := by
  have h0 := b0.toNat_lt
  have h1 := b1.toNat_lt
  have hshift : (b1.toUInt16 <<< 8).toNat = b1.toNat <<< 8 := by
    rw [UInt16.toNat_shiftLeft, UInt8.toNat_toUInt16]
    exact Nat.mod_eq_of_lt (by simp [Nat.shiftLeft_eq]; omega)
  rw [UInt16.toNat_or, hshift, UInt8.toNat_toUInt16, Nat.or_comm,
    ← Nat.shiftLeft_add_eq_or_of_lt h0, Nat.shiftLeft_eq]

theorem toNat_rteBeToCpu16 (x : UInt16) :
    (rteBeToCpu16 x).toNat = x.toNat % 256 * 256 + x.toNat / 256 := by
  have hx := x.toNat_lt
  have hhigh : (x <<< 8).toNat = (x.toNat % 256) <<< 8 := by
    rw [UInt16.toNat_shiftLeft]
    simp [Nat.shiftLeft_eq]
    omega
  have hlow : (x >>> 8).toNat = x.toNat / 256 := by
    rw [UInt16.toNat_shiftRight]
    simp [Nat.shiftRight_eq_div_pow]
  rw [rteBeToCpu16, UInt16.toNat_or, hhigh, hlow,
    ← Nat.shiftLeft_add_eq_or_of_lt (by omega : x.toNat / 256 < 2 ^ 8), Nat.shiftLeft_eq]

/-- The bytes of the Ethernet type of IPv4. -/
theorem rteBeToCpu16_eq_ipv4_iff (b0 b1 : UInt8) :
    rteBeToCpu16 (b0.toUInt16 ||| b1.toUInt16 <<< 8) = rteEtherTypeIpv4 ↔ b0 = 0x08 ∧ b1 = 0 := by
  have h0 := b0.toNat_lt
  have h1 := b1.toNat_lt
  have hmod : (b1.toNat * 256 + b0.toNat) % 256 = b0.toNat := by omega
  have hdiv : (b1.toNat * 256 + b0.toNat) / 256 = b1.toNat := by omega
  have htype : rteEtherTypeIpv4.toNat = 2048 := rfl
  rw [← UInt16.toNat_inj, toNat_rteBeToCpu16, toNat_word, hmod, hdiv, htype, ← UInt8.toNat_inj,
    ← UInt8.toNat_inj]
  show b0.toNat * 256 + b1.toNat = 2048 ↔ b0.toNat = 8 ∧ b1.toNat = 0
  omega

theorem memory_eq {frame : List UInt8} {i : Nat} (behind : Nat → UInt8) (h : i < frame.length)
    (b : UInt8) : memory frame behind i = b ↔ frame[i]? = some b := by
  rw [memory, List.getElem?_eq_getElem h, Option.getD_some, Option.some.injEq]

theorem within_parseIpv4Packet (frame : List UInt8) (behind : Nat → UInt8) :
    Within parseIpv4Packet (memory frame behind) frame.length ↔ HeadersFit frame := by
  have htype : ∀ h : 14 ≤ frame.length,
      rteBeToCpu16 ((le16 12).value (memory frame behind)) = rteEtherTypeIpv4 ↔
        frame[12]? = some 0x08 ∧ frame[13]? = some 0x00 := by
    intro h
    rw [value_le16, rteBeToCpu16_eq_ipv4_iff, memory_eq behind (by omega),
      memory_eq behind (by omega)]
  rw [HeadersFit, parseIpv4Packet, within_bind, within_le16]
  refine and_congr_right (fun hlen => ?_)
  by_cases hipv4 : rteBeToCpu16 ((le16 12).value (memory frame behind)) = rteEtherTypeIpv4
  · rw [if_neg (not_not.mpr hipv4)]
    rw [imp_iff_right ((htype hlen).mp hipv4)]
    simp only [within_bind, within_le32, within_byte, value_byte, within_extractL4Ports,
      within_pure, and_true]
    have hports : 34 ≤ frame.length → ((memory frame behind 23 = ipprotoTcp ∨
        memory frame behind 23 = ipprotoUdp →
        14 + (memory frame behind 14 &&& 0x0f).toNat * 4 + 3 < frame.length) ↔
        (frame[23]? = some ipprotoTcp ∨ frame[23]? = some ipprotoUdp →
          14 + 4 * ((frame[14]?.getD 0) &&& 0x0f).toNat + 4 ≤ frame.length)) := by
      intro h34
      have hihl : memory frame behind 14 = frame[14]?.getD 0 := by
        rw [memory, List.getElem?_eq_getElem (by omega)]
        rfl
      rw [memory_eq behind (by omega), memory_eq behind (by omega), hihl]
      refine imp_congr_right (fun _ => ?_)
      omega
    constructor
    · rintro ⟨-, hdst, -, -, h⟩
      exact ⟨hdst, (hports hdst).mp h⟩
    · rintro ⟨h34, h⟩
      exact ⟨by omega, h34, by omega, by omega, (hports h34).mpr h⟩
  · rw [if_pos hipv4, within_pure]
    exact iff_of_true trivial (fun h => absurd ((htype hlen).mpr h) hipv4)

/-- **When the parser stays in the frame.**  For every frame and everything that may lie
behind it, all offsets that are read lie below the length of the frame if and only if
the headers end inside it. -/
theorem parse_stays_in_frame_iff (frame : List UInt8) (behind : Nat → UInt8) :
    (∀ i ∈ parseIpv4Packet.offsets (memory frame behind), i < frame.length) ↔ HeadersFit frame :=
  within_parseIpv4Packet frame behind

/-- A frame of the least size Ethernet carries, with the largest header length and the
protocol TCP. -/
def longHeaderFrame : List UInt8 :=
  List.replicate 12 0 ++ [0x08, 0x00, 0x4f] ++ List.replicate 8 0 ++ [6] ++ List.replicate 36 0

/-- **The ports are read behind the frame**, at offset 74 of 60 bytes. -/
theorem ports_read_behind_frame :
    longHeaderFrame.length = 60 ∧
    ¬ ∀ i ∈ parseIpv4Packet.offsets (memory longHeaderFrame (fun _ => 0)), i < 60 := by
  refine ⟨by decide, fun h => ?_⟩
  have hread : 74 ∈ parseIpv4Packet.offsets (memory longHeaderFrame (fun _ => 0)) := by
    decide +kernel
  exact absurd (h 74 hread) (by decide)

/-! ### What lies behind the frame -/

theorem local_extractL4Ports (nextProtoId : UInt8) (l4Hdr : Nat) :
    Local (extractL4Ports nextProtoId l4Hdr) := by
  have hports : Local (l4Ports l4Hdr) :=
    (local_le16 l4Hdr).bind (fun _ => (local_le16 (l4Hdr + 2)).bind (fun _ => local_pure _))
  unfold extractL4Ports
  split
  · exact hports
  · split
    · exact hports
    · exact local_pure _

theorem local_parseIpv4Packet : Local parseIpv4Packet := by
  refine (local_le16 12).bind (fun etherType => ?_)
  split
  · exact local_pure _
  · exact (local_le32 26).bind (fun _ => (local_le32 30).bind (fun _ => (local_byte 23).bind
      (fun _ => (local_byte 14).bind (fun _ => (local_extractL4Ports _ _).bind
        (fun _ => local_pure _)))))

/-- A frame that holds its headers is parsed alike whatever lies behind it. -/
theorem parse_eq_of_fits {frame : List UInt8} (h : HeadersFit frame)
    (behind behind' : Nat → UInt8) :
    parseIpv4Packet.value (memory frame behind') = parseIpv4Packet.value (memory frame behind) := by
  have hw := (within_parseIpv4Packet frame behind).mpr h
  refine congrArg Prod.fst (local_parseIpv4Packet.eq_of_within hw (fun i hi => ?_))
  rw [memory, memory, List.getElem?_eq_getElem hi]
  rfl

/-! ### Packets -/

structure FwMetrics where
  pktsReceived : UInt64
  pktsAllowed : UInt64
  pktsDenied : UInt64
  deriving DecidableEq

structure CtOffloadCtx where
  policy : Policy
  metrics : FwMetrics

/-- What becomes of a packet; one that is allowed is offered to the connection table with
its two matches. -/
inductive PacketOutcome
  | notIpv4
  | denied
  | allowed (matchO matchR : CtMatch)
  deriving DecidableEq

/-- `ct_offload_process_packet`, up to the calls of the connection table. -/
def ctOffloadProcessPacket (ctx : CtOffloadCtx) (mem : Nat → UInt8) :
    PacketOutcome × CtOffloadCtx :=
  let ctx :=
    { ctx with metrics := { ctx.metrics with pktsReceived := ctx.metrics.pktsReceived + 1 } }
  match parseIpv4Packet.value mem with
  | none => (.notIpv4, ctx)
  | some pkt =>
    let (action, policy) := policyEvaluate ctx.policy pkt.tuple
    let ctx := { ctx with policy := policy }
    match action with
    | .DENY =>
      (.denied,
        { ctx with metrics := { ctx.metrics with pktsDenied := ctx.metrics.pktsDenied + 1 } })
    | .ALLOW =>
      (.allowed pkt.matchO pkt.matchR,
        { ctx with metrics := { ctx.metrics with pktsAllowed := ctx.metrics.pktsAllowed + 1 } })

/-- **The frame decides**: a packet that holds its headers gets the same outcome, and
leaves the same state, whatever lies behind it. -/
theorem processPacket_eq_of_fits {frame : List UInt8} (h : HeadersFit frame)
    (behind behind' : Nat → UInt8) (ctx : CtOffloadCtx) :
    ctOffloadProcessPacket ctx (memory frame behind')
      = ctOffloadProcessPacket ctx (memory frame behind) := by
  simp only [ctOffloadProcessPacket, parse_eq_of_fits h behind behind']

end PrismFirewall.DocaFirewall
