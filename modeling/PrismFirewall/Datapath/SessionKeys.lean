import PrismFirewall.Datapath.OffloadClient
import PrismFirewall.OffloadDaemon.KeyText

/-!
# The sessions of the datapath

`five_tuple_to_session_key` prints the addresses as dotted quads and maps the protocol
numbers `6`, `17` and `1` to three values of the daemon's enumeration and all others to
`Unspecified`.  A dotted quad determines its address (`ipv4ToString_injective`) and holds no
colon, so nothing else is lost on the way to the text of the key: two flows share a session
exactly if they differ in nothing but protocols that both go to `Unspecified`
(`SameSession`).
-/

namespace PrismFirewall.Datapath

open Lib Lib.Text
open PrismFirewall.OffloadDaemon (SessionKey sessionKeyString sessionKeyString_eq_iff_shifted
  Shifted colon_not_mem_digits)

/-! ### Dotted quads -/

theorem dot_not_mem_digits (n : Nat) : '.' ∉ (toString n).toList := by
  intro h
  have hd := isDigit_toDigits '.' (by simpa using h : '.' ∈ Nat.toDigits 10 n)
  exact absurd hd (by decide)

theorem toList_ipv4ToString (ip : UInt32) : (ipv4ToString ip).toList
    = (toString (ip >>> 24).toNat).toList ++ '.' :: ((toString (ip >>> 16 &&& 0xff).toNat).toList
      ++ '.' :: ((toString (ip >>> 8 &&& 0xff).toNat).toList
      ++ '.' :: (toString (ip &&& 0xff).toNat).toList)) := by
  have hdot : ("." : String).toList = ['.'] := rfl
  simp only [ipv4ToString, String.toList_append, hdot, List.append_assoc, List.cons_append,
    List.nil_append]
  rfl

/-- The four numbers of an address make it up. -/
theorem eq_of_octets {a b : UInt32} (h3 : (a >>> 24).toNat = (b >>> 24).toNat)
    (h2 : (a >>> 16 &&& 0xff).toNat = (b >>> 16 &&& 0xff).toNat)
    (h1 : (a >>> 8 &&& 0xff).toNat = (b >>> 8 &&& 0xff).toNat)
    (h0 : (a &&& 0xff).toNat = (b &&& 0xff).toNat) : a = b := by
  have hand : ∀ x : UInt32, (x &&& 0xff).toNat = x.toNat % 256 := by
    intro x
    rw [UInt32.toNat_and]
    exact Nat.and_two_pow_sub_one_eq_mod x.toNat 8
  have hshift : ∀ (x : UInt32), (x >>> 24).toNat = x.toNat / 16777216 ∧
      (x >>> 16).toNat = x.toNat / 65536 ∧ (x >>> 8).toNat = x.toNat / 256 := by
    intro x
    refine ⟨?_, ?_, ?_⟩
    · rw [UInt32.toNat_shiftRight, Nat.shiftRight_eq_div_pow]
      rfl
    · rw [UInt32.toNat_shiftRight, Nat.shiftRight_eq_div_pow]
      rfl
    · rw [UInt32.toNat_shiftRight, Nat.shiftRight_eq_div_pow]
      rfl
  obtain ⟨a3, a2, a1⟩ := hshift a
  obtain ⟨b3, b2, b1⟩ := hshift b
  rw [a3, b3] at h3
  rw [hand, hand, a2, b2] at h2
  rw [hand, hand, a1, b1] at h1
  rw [hand, hand] at h0
  apply UInt32.toNat_inj.mp
  omega

/-- **A dotted quad determines its address.** -/
theorem ipv4ToString_injective : Function.Injective ipv4ToString := by
  intro a b h
  have hnat : ∀ m n : Nat, (toString m).toList = (toString n).toList → m = n := fun m n h =>
    toString_inj.mp (String.toList_inj.mp h)
  rw [← String.toList_inj, toList_ipv4ToString, toList_ipv4ToString,
    append_sep_inj (dot_not_mem_digits _) (dot_not_mem_digits _),
    append_sep_inj (dot_not_mem_digits _) (dot_not_mem_digits _),
    append_sep_inj (dot_not_mem_digits _) (dot_not_mem_digits _)] at h
  obtain ⟨h3, h2, h1, h0⟩ := h
  exact eq_of_octets (hnat _ _ h3) (hnat _ _ h2) (hnat _ _ h1) (hnat _ _ h0)

theorem colon_not_mem_ipv4ToString (ip : UInt32) : ':' ∉ (ipv4ToString ip).toList := by
  rw [toList_ipv4ToString]
  intro h
  simp only [List.mem_append, List.mem_cons] at h
  rcases h with h | h | h | h | h | h | h
  · exact colon_not_mem_digits _ h
  · exact absurd h (by decide)
  · exact colon_not_mem_digits _ h
  · exact absurd h (by decide)
  · exact colon_not_mem_digits _ h
  · exact absurd h (by decide)
  · exact colon_not_mem_digits _ h

/-! ### Protocols -/

/-- `five_tuple_to_session_key` has a value of its own for the protocol. -/
def Named (protocol : UInt8) : Prop := protocol = 6 ∨ protocol = 17 ∨ protocol = 1

instance (protocol : UInt8) : Decidable (Named protocol) := inferInstanceAs (Decidable (_ ∨ _ ∨ _))

theorem protocolNumber_of_not_named {p : UInt8} (h : ¬ Named p) : protocolNumber p = 0 := by
  obtain ⟨h6, h17, h1⟩ : p ≠ 6 ∧ p ≠ 17 ∧ p ≠ 1 := by simpa only [Named, not_or] using h
  rw [protocolNumber, if_neg h6, if_neg h17, if_neg h1]

/-- The three values of their own are different, and none of them is `Unspecified`. -/
theorem eq_of_protocolNumber_eq {p q : UInt8} (h : Named p)
    (he : protocolNumber q = protocolNumber p) : q = p := by
  have hq : q = 6 ∨ q = 17 ∨ q = 1 := by
    by_contra hn
    rw [protocolNumber_of_not_named hn] at he
    rcases h with rfl | rfl | rfl
    · exact absurd he (by decide)
    · exact absurd he (by decide)
    · exact absurd he (by decide)
  rcases h with rfl | rfl | rfl <;> rcases hq with rfl | rfl | rfl
  all_goals first
    | rfl
    | exact absurd he (by decide)

/-- Two protocols get one value exactly if they are the same, or if both have none of their
own. -/
theorem protocolNumber_eq_iff {p q : UInt8} :
    protocolNumber p = protocolNumber q ↔ p = q ∨ ¬ Named p ∧ ¬ Named q := by
  constructor
  · intro he
    by_cases hp : Named p
    · exact Or.inl (eq_of_protocolNumber_eq hp he.symm).symm
    by_cases hq : Named q
    · exact Or.inl (eq_of_protocolNumber_eq hq he)
    · exact Or.inr ⟨hp, hq⟩
  · rintro (rfl | ⟨hp, hq⟩)
    · rfl
    · rw [protocolNumber_of_not_named hp, protocolNumber_of_not_named hq]

/-! ### Flows and sessions -/

/-- The flows differ in their protocols at most, and if they do, neither protocol has a
value of its own. -/
def SameSession (vni vni' : UInt32) (t t' : FiveTuple) : Prop :=
  (vni = vni' ∧ t.srcIp = t'.srcIp ∧ t.dstIp = t'.dstIp ∧ t.srcPort = t'.srcPort ∧
    t.dstPort = t'.dstPort) ∧
  (t.protocol = t'.protocol ∨ ¬ Named t.protocol ∧ ¬ Named t'.protocol)

theorem toUInt32_inj {a b : UInt16} : a.toUInt32 = b.toUInt32 ↔ a = b := by
  rw [← UInt32.toNat_inj, UInt16.toNat_toUInt32, UInt16.toNat_toUInt32, UInt16.toNat_inj]

theorem fiveTupleToSessionKey_eq_iff {vni vni' : UInt32} {t t' : FiveTuple} :
    fiveTupleToSessionKey vni t = fiveTupleToSessionKey vni' t' ↔ SameSession vni vni' t t' := by
  simp only [fiveTupleToSessionKey, SessionKey.mk.injEq, ipv4ToString_injective.eq_iff,
    toUInt32_inj, protocolNumber_eq_iff, SameSession]
  tauto

/-- No key of the datapath is another one cut apart differently. -/
theorem not_shifted_fiveTupleToSessionKey (vni vni' : UInt32) (t t' : FiveTuple) :
    ¬ Shifted (fiveTupleToSessionKey vni t) (fiveTupleToSessionKey vni' t') := by
  intro h
  exact colon_not_mem_ipv4ToString t'.srcIp h.colon_mem.1

/-- **Two flows share a session exactly if they differ in nothing but two protocols that
both go to `Unspecified`**, and the texts of their keys tell the keys. -/
theorem flows_share_session_iff (vni vni' : UInt32) (t t' : FiveTuple) :
    (fiveTupleToSessionKey vni t = fiveTupleToSessionKey vni' t' ↔ SameSession vni vni' t t') ∧
    (sessionKeyString (fiveTupleToSessionKey vni t)
        = sessionKeyString (fiveTupleToSessionKey vni' t') ↔ SameSession vni vni' t t') := by
  refine ⟨fiveTupleToSessionKey_eq_iff, ?_⟩
  rw [sessionKeyString_eq_iff_shifted, ← fiveTupleToSessionKey_eq_iff]
  refine or_iff_left ?_
  rintro (h | h)
  · exact not_shifted_fiveTupleToSessionKey vni vni' t t' h
  · exact not_shifted_fiveTupleToSessionKey vni' vni t' t h

/-- A GRE and an ESP flow between the same hosts. -/
theorem gre_and_esp_share_session :
    let gre : FiveTuple := ⟨0x0a000001, 0x0a000002, 0, 0, 47⟩
    let esp : FiveTuple := ⟨0x0a000001, 0x0a000002, 0, 0, 50⟩
    ((100 : UInt32), gre) ≠ (100, esp) ∧
    fiveTupleToSessionKey 100 gre = fiveTupleToSessionKey 100 esp ∧
    sessionKeyString (fiveTupleToSessionKey 100 gre)
      = sessionKeyString (fiveTupleToSessionKey 100 esp) := by
  decide +kernel

end PrismFirewall.Datapath
