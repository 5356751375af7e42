import PrismFirewall.Datapath.Acl

/-!
# Networks of the access list

What `ip_matches_cidr` is to decide: a text `net/len` stands for the addresses that agree
with `net` in the top `len` bits (`Covers`).  The length is any `u32`, and the function
never compares it with `32`; up to there the mask is the right one and the answer exact
(`ipMatchesCidr_eq_of_le`), above it the subtraction underflows (`ipMatchesCidr_of_gt`).
-/

namespace PrismFirewall.Datapath

open Lib

/-- One slash, an address before it and a `u32` behind it. -/
def IsCidr (cidr : String) (a n : UInt32) : Prop :=
  ∃ net len, cidr.toList.splitOn '/' = [net, len] ∧ parseIpv4Addr net = some a ∧
    parseU32 len = some n

/-- The top `n` bits of two addresses are the same. -/
def TopBitsAgree (n : Nat) (ip a : UInt32) : Prop :=
  ip.toNat / 2 ^ (32 - n) = a.toNat / 2 ^ (32 - n)

instance (n : Nat) (ip a : UInt32) : Decidable (TopBitsAgree n ip a) :=
  inferInstanceAs (Decidable (_ = _))

/-- The text is a network and the address lies in it. -/
def Covers (cidr : String) (ip : UInt32) : Prop :=
  ∃ a n, IsCidr cidr a n ∧ n.toNat ≤ 32 ∧ TopBitsAgree n.toNat ip a

theorem IsCidr.unique {cidr : String} {a n a' n' : UInt32} (h : IsCidr cidr a n)
    (h' : IsCidr cidr a' n') : a' = a ∧ n' = n := by
  obtain ⟨net, len, hs, ha, hn⟩ := h
  obtain ⟨net', len', hs', ha', hn'⟩ := h'
  rw [hs] at hs'
  obtain ⟨hnet, hlen⟩ := List.cons.inj hs'
  obtain ⟨hlen, -⟩ := List.cons.inj hlen
  rw [← hnet, ha] at ha'
  rw [← hlen, hn] at hn'
  exact ⟨(Option.some.inj ha').symm, (Option.some.inj hn').symm⟩

theorem IsCidr.covers_iff {cidr : String} {a n : UInt32} (h : IsCidr cidr a n)
    (hn : n.toNat ≤ 32) (ip : UInt32) : Covers cidr ip ↔ TopBitsAgree n.toNat ip a := by
  constructor
  · rintro ⟨a', n', h', -, hbits⟩
    obtain ⟨rfl, rfl⟩ := h.unique h'
    exact hbits
  · exact fun hbits => ⟨a, n, h, hn, hbits⟩

/-! ### What the function does to such a text -/

/-- The answer of `ip_matches_cidr` for a network with the address `a` and the length `n`. -/
def masked (checked : Bool) (ip a n : UInt32) : Option Bool :=
  if n = 0 then some true
  else do
    let k ← Overflow.subU32 checked 32 n
    let mask ← Overflow.shlU32 checked 0xffffffff k
    return ip &&& mask == a &&& mask

theorem ipMatchesCidr_of_isCidr (checked : Bool) {cidr : String} {a n : UInt32}
    (h : IsCidr cidr a n) (ip : UInt32) :
    ipMatchesCidr checked ip cidr = masked checked ip a n := by
  obtain ⟨net, len, hs, ha, hn⟩ := h
  simp only [ipMatchesCidr, hs, ha, hn, masked]

theorem ipMatchesCidr_of_not_isCidr (checked : Bool) {cidr : String}
    (h : ¬ ∃ a n, IsCidr cidr a n) (ip : UInt32) :
    ipMatchesCidr checked ip cidr = some false := by
  unfold ipMatchesCidr
  split
  · rename_i net len hs
    split
    · rename_i a n ha hn
      exact absurd ⟨a, n, net, len, hs, ha, hn⟩ h
    · rfl
  · rfl

/-- A text that is no network covers nothing. -/
theorem not_covers_of_not_isCidr {cidr : String} (h : ¬ ∃ a n, IsCidr cidr a n) (ip : UInt32) :
    ¬ Covers cidr ip := by
  rintro ⟨a, n, hc, -⟩
  exact h ⟨a, n, hc⟩

/-- Up to the length `32` nothing overflows, and the mask keeps the top bits. -/
theorem masked_of_le (checked : Bool) {n : UInt32} (hn : n.toNat ≤ 32) (ip a : UInt32) :
    masked checked ip a n = some (decide (TopBitsAgree n.toNat ip a)) := by
  unfold masked
  by_cases h0 : n = 0
  · subst h0
    have hall : TopBitsAgree (0 : UInt32).toNat ip a := by
      show ip.toNat / 2 ^ 32 = a.toNat / 2 ^ 32
      rw [Nat.div_eq_of_lt ip.toNat_lt, Nat.div_eq_of_lt a.toNat_lt]
    rw [if_pos rfl, decide_eq_true hall]
  · have hpos : n.toNat ≠ 0 := fun h => h0 (UInt32.toNat_inj.mp h)
    have hle : n ≤ 32 := UInt32.le_iff_toNat_le.mpr hn
    have hsub : ((32 : UInt32) - n).toNat = 32 - n.toNat := UInt32.toNat_sub_of_le _ _ hle
    have hlt : ((32 : UInt32) - n) < 32 := by
      rw [UInt32.lt_iff_toNat_lt, hsub]
      show 32 - n.toNat < 32
      omega
    have hmask : (0xffffffff : UInt32) <<< (32 - n) = Inet.mask (32 - n.toNat) := by
      rw [Inet.mask, ← hsub, UInt32.ofNat_toNat]
    have hk : 32 - n.toNat < 32 := by omega
    rw [if_neg h0, Overflow.subU32, if_neg (fun h => absurd h.2 (UInt32.not_lt.mpr hle))]
    show (Overflow.shlU32 checked 0xffffffff (32 - n)).bind _ = _
    rw [Overflow.shlU32, if_neg (fun h => absurd h.2 (UInt32.not_le.mpr hlt)), hmask]
    show some (ip &&& Inet.mask (32 - n.toNat) == a &&& Inet.mask (32 - n.toNat)) = _
    rw [Option.some.injEq, Bool.eq_iff_iff, beq_iff_eq, decide_eq_true_eq,
      Inet.and_mask_eq_iff hk, TopBitsAgree]

/-- Above it the program that checks its arithmetic ends. -/
theorem masked_of_gt {n : UInt32} (hn : 32 < n.toNat) (ip a : UInt32) :
    masked true ip a n = none := by
  have h0 : n ≠ 0 := by
    rintro rfl
    exact absurd hn (by decide)
  have hlt : (32 : UInt32) < n := UInt32.lt_iff_toNat_lt.mpr hn
  rw [masked, if_neg h0, Overflow.subU32, if_pos ⟨rfl, hlt⟩]
  rfl

/-- **Within the lengths of an address the answer is exact.** -/
theorem ipMatchesCidr_eq_of_le (checked : Bool) (cidr : String)
    (h : ∀ a n, IsCidr cidr a n → n.toNat ≤ 32) (ip : UInt32) :
    ∃ b, ipMatchesCidr checked ip cidr = some b ∧ (b = true ↔ Covers cidr ip) := by
  by_cases hc : ∃ a n, IsCidr cidr a n
  · obtain ⟨a, n, hc⟩ := hc
    have hn := h a n hc
    refine ⟨decide (TopBitsAgree n.toNat ip a), ?_, ?_⟩
    · rw [ipMatchesCidr_of_isCidr checked hc, masked_of_le checked hn]
    · rw [decide_eq_true_eq, hc.covers_iff hn]
  · refine ⟨false, ipMatchesCidr_of_not_isCidr checked hc ip, ?_⟩
    exact iff_of_false Bool.false_ne_true (not_covers_of_not_isCidr hc ip)

theorem ipMatchesCidr_of_gt {cidr : String} {a n : UInt32} (hc : IsCidr cidr a n)
    (hn : 32 < n.toNat) (ip : UInt32) : ipMatchesCidr true ip cidr = none := by
  rw [ipMatchesCidr_of_isCidr true hc, masked_of_gt hn]

/-! ### Total and exact -/

/-- Nothing under- or overflows, and with and without overflow checks the answer is whether
the address lies in the network. -/
def CidrExact (ip : UInt32) (cidr : String) : Prop :=
  (ipMatchesCidr true ip cidr).isSome ∧
  ∀ checked, ipMatchesCidr checked ip cidr = some true ↔ Covers cidr ip

/-- **CIDR matching is total and exact exactly for the texts whose length, if they are
networks, is at most `32`.** -/
theorem cidr_exact_iff (ip : UInt32) (cidr : String) :
    CidrExact ip cidr ↔ ∀ a n, IsCidr cidr a n → n.toNat ≤ 32 := by
  constructor
  · intro h a n hc
    by_contra hn
    have hnone := ipMatchesCidr_of_gt hc (Nat.lt_of_not_le hn) ip
    have hsome := h.1
    rw [hnone] at hsome
    exact absurd hsome (by decide)
  · intro h
    refine ⟨?_, fun checked => ?_⟩
    · obtain ⟨b, hb, -⟩ := ipMatchesCidr_eq_of_le true cidr h ip
      rw [hb]
      rfl
    · obtain ⟨b, hb, hiff⟩ := ipMatchesCidr_eq_of_le checked cidr h ip
      rw [hb, Option.some.injEq, hiff]

/-- A length of `33`: the program ends with overflow checks, and without them the top bit
alone decides, so that `127.0.0.1` is taken for an address of `10.0.0.0/33`. -/
theorem cidr_prefix_above_32 : ¬ CidrExact 0x7f000001 "10.0.0.0/33" ∧
    ipMatchesCidr true 0x7f000001 "10.0.0.0/33" = none ∧
    ipMatchesCidr false 0x7f000001 "10.0.0.0/33" = some true ∧
    ¬ Covers "10.0.0.0/33" 0x7f000001 := by
  have hc : IsCidr "10.0.0.0/33" 0x0a000000 33 :=
    ⟨['1', '0', '.', '0', '.', '0', '.', '0'], ['3', '3'], by decide, by decide, by decide⟩
  have hnot : ¬ Covers "10.0.0.0/33" 0x7f000001 := by
    rintro ⟨a, n, h, hn, -⟩
    obtain ⟨rfl, rfl⟩ := hc.unique h
    exact absurd hn (by decide)
  have hfalse : ipMatchesCidr false 0x7f000001 "10.0.0.0/33" = some true := by
    rw [ipMatchesCidr_of_isCidr false hc]
    decide
  exact ⟨fun h => hnot ((h.2 false).mp hfalse), ipMatchesCidr_of_gt hc (by decide) _, hfalse, hnot⟩

end PrismFirewall.Datapath
