import PrismFirewall.Lib.Inet
import PrismFirewall.OffloadDaemon.SessionTable

/-!
# The text of a session key

`session_key_string` joins the six fields of a key with colons.  Four of them are numbers
and hold no colon, so they can be told from the text; the two addresses stand next to each
other in the middle, and an IPv6 address holds colons itself.  `sessionKeyString_eq_iff`
says what the text tells: the numbers, and the two addresses with a colon between them.
Two different keys have one text exactly if the addresses are cut apart at different colons
(`Shifted`).
-/

namespace PrismFirewall.OffloadDaemon

open PrismFirewall.Lib (Inet.quad?)
open PrismFirewall.Lib.Text

/-! ### Textual addresses -/

def isHexChar (c : Char) : Bool :=
  c.isDigit || ('a' ≤ c && c ≤ 'f') || ('A' ≤ c && c ≤ 'F')

/-- A group of an IPv6 address: one to four hexadecimal digits. -/
def isGroup (cs : List Char) : Bool := decide (1 ≤ cs.length ∧ cs.length ≤ 4) && cs.all isHexChar

/-- The number of groups in a text with single colons; a dotted quad at the end stands for
two. -/
def groupCount (quadAllowed : Bool) (cs : List Char) : Option Nat :=
  let parts := cs.splitOn ':'
  if cs = [] then some 0
  else if parts.all isGroup then some parts.length
  else if quadAllowed && parts.dropLast.all isGroup && (Inet.quad? (parts.getLastD [])).isSome then
    some (parts.length + 1)
  else none

/-- What stands before and behind the first double colon. -/
def splitAtGap : List Char → Option (List Char × List Char)
  | ':' :: ':' :: rest => some ([], rest)
  | c :: rest => (splitAtGap rest).map (fun p => (c :: p.1, p.2))
  | [] => none

/-- `str::parse::<Ipv6Addr>` accepts the text: eight groups, or fewer with a gap. -/
def isIpv6Text (cs : List Char) : Bool :=
  match splitAtGap cs with
  | none => groupCount true cs == some 8
  | some (head, tail) =>
    match groupCount false head, groupCount true tail with
    | some a, some b => decide (a + b ≤ 7)
    | _, _ => false

/-- A textual IPv4 or IPv6 address. -/
def isIpText (s : String) : Bool := (Inet.quad? s.toList).isSome || isIpv6Text s.toList

/-! ### What the text tells -/

theorem colon_not_mem_digits (n : Nat) : ':' ∉ (toString n).toList := by
  intro h
  have hd := isDigit_toDigits ':' (by simpa using h : ':' ∈ Nat.toDigits 10 n)
  exact absurd hd (by decide)

theorem colon_not_mem_int (g : Int) : ':' ∉ (toString g).toList := by
  intro h
  rcases mem_toString_int h with hd | hd
  · exact absurd hd (by decide)
  · exact absurd hd (by decide)

theorem toList_sessionKeyString (k : SessionKey) : (sessionKeyString k).toList
    = (toString k.vni.toNat).toList ++ ':' :: ((((k.srcIp.toList ++ ':' :: k.dstIp.toList)
      ++ ':' :: (toString k.srcPort.toNat).toList) ++ ':' :: (toString k.dstPort.toNat).toList)
      ++ ':' :: (toString k.protocol.toInt).toList) := by
  have hcolon : (":" : String).toList = [':'] := rfl
  simp only [sessionKeyString, String.toList_append, hcolon, List.append_assoc,
    List.cons_append, List.nil_append]
  rfl

/-- **The text of a key** tells its numbers, and its addresses with a colon between them. -/
theorem sessionKeyString_eq_iff {k k' : SessionKey} :
    sessionKeyString k = sessionKeyString k' ↔
      (k.vni = k'.vni ∧ k.srcPort = k'.srcPort ∧ k.dstPort = k'.dstPort ∧
        k.protocol = k'.protocol) ∧
      k.srcIp.toList ++ ':' :: k.dstIp.toList = k'.srcIp.toList ++ ':' :: k'.dstIp.toList := by
  have hnat : ∀ m n : Nat, (toString m).toList = (toString n).toList ↔ m = n := fun m n =>
    String.toList_inj.trans toString_inj
  rw [← String.toList_inj, toList_sessionKeyString, toList_sessionKeyString,
    append_sep_inj (colon_not_mem_digits _) (colon_not_mem_digits _),
    append_sep_inj' (colon_not_mem_int _) (colon_not_mem_int _),
    append_sep_inj' (colon_not_mem_digits _) (colon_not_mem_digits _),
    append_sep_inj' (colon_not_mem_digits _) (colon_not_mem_digits _), hnat, hnat, hnat,
    String.toList_inj, toString_int_inj, UInt32.toNat_inj, UInt32.toNat_inj, UInt32.toNat_inj,
    Int32.toInt_inj]
  tauto

/-! ### Which keys share a text -/

/-- The source address of the second key goes on, after a colon, with the start of the
first key's destination; everything else is the same. -/
def Shifted (k k' : SessionKey) : Prop :=
  (k.vni = k'.vni ∧ k.srcPort = k'.srcPort ∧ k.dstPort = k'.dstPort ∧
    k.protocol = k'.protocol) ∧
  ∃ m : String, k'.srcIp = k.srcIp ++ ":" ++ m ∧ k.dstIp = m ++ ":" ++ k'.dstIp

theorem sessionKey_ext {k k' : SessionKey} (h : k.vni = k'.vni ∧ k.srcPort = k'.srcPort ∧
    k.dstPort = k'.dstPort ∧ k.protocol = k'.protocol) (hsrc : k.srcIp = k'.srcIp)
    (hdst : k.dstIp = k'.dstIp) : k = k' := by
  obtain ⟨vni, src, dst, sp, dp, pr⟩ := k
  obtain ⟨vni', src', dst', sp', dp', pr'⟩ := k'
  obtain ⟨rfl, rfl, rfl, rfl⟩ := h
  subst hsrc hdst
  rfl

/-- A colon further on in the text. -/
theorem exists_shift_iff {a b x y : String} :
    (∃ m : List Char, b.toList = a.toList ++ ':' :: m ∧ x.toList = m ++ ':' :: y.toList) ↔
      ∃ m : String, b = a ++ ":" ++ m ∧ x = m ++ ":" ++ y := by
  have hcolon : (":" : String).toList = [':'] := rfl
  constructor
  · rintro ⟨m, hb, hx⟩
    refine ⟨String.ofList m, ?_, ?_⟩
    · rw [← String.toList_inj, hb]
      simp [String.toList_append, hcolon]
    · rw [← String.toList_inj, hx]
      simp [String.toList_append, hcolon]
  · rintro ⟨m, rfl, rfl⟩
    refine ⟨m.toList, ?_, ?_⟩
    · simp [String.toList_append, hcolon]
    · simp [String.toList_append, hcolon]

/-- **Two keys share a text exactly if they are the same, or if one is the other with its
addresses cut apart at another colon.** -/
theorem sessionKeyString_eq_iff_shifted {k k' : SessionKey} :
    sessionKeyString k = sessionKeyString k' ↔ k = k' ∨ Shifted k k' ∨ Shifted k' k := by
  rw [sessionKeyString_eq_iff, append_sep_eq_iff, exists_shift_iff, exists_shift_iff,
    String.toList_inj, String.toList_inj]
  constructor
  · rintro ⟨h, ⟨hsrc, hdst⟩ | hm | hm⟩
    · exact Or.inl (sessionKey_ext h hsrc hdst)
    · exact Or.inr (Or.inl ⟨h, hm⟩)
    · exact Or.inr (Or.inr ⟨⟨h.1.symm, h.2.1.symm, h.2.2.1.symm, h.2.2.2.symm⟩, hm⟩)
  · rintro (rfl | ⟨h, hm⟩ | ⟨h, hm⟩)
    · exact ⟨⟨rfl, rfl, rfl, rfl⟩, Or.inl ⟨rfl, rfl⟩⟩
    · exact ⟨h, Or.inr (Or.inl hm)⟩
    · exact ⟨⟨h.1.symm, h.2.1.symm, h.2.2.1.symm, h.2.2.2.symm⟩, Or.inr (Or.inr hm)⟩

theorem Shifted.ne {k k' : SessionKey} (h : Shifted k k') : k ≠ k' := by
  rintro rfl
  obtain ⟨-, m, hsrc, -⟩ := h
  have hlen := congrArg (fun s : String => s.toList.length) hsrc
  simp [String.toList_append] at hlen

/-- A source address without a colon cannot go on. -/
theorem Shifted.colon_mem {k k' : SessionKey} (h : Shifted k k') :
    ':' ∈ k'.srcIp.toList ∧ ':' ∈ k.dstIp.toList := by
  obtain ⟨-, m, hsrc, hdst⟩ := h
  rw [hsrc, hdst]
  simp [String.toList_append]

/-- **Distinct keys have distinct texts unless their addresses are cut apart at different
colons.** -/
theorem key_text_separates_iff (k k' : SessionKey) :
    (sessionKeyString k = sessionKeyString k' → k = k') ↔ ¬ (Shifted k k' ∨ Shifted k' k) := by
  rw [sessionKeyString_eq_iff_shifted]
  constructor
  · rintro h (hs | hs)
    · exact hs.ne (h (Or.inr (Or.inl hs)))
    · exact hs.ne (h (Or.inr (Or.inr hs))).symm
  · rintro h (rfl | hs)
    · rfl
    · exact absurd hs h

/-- Two sessions between IPv6 hosts: `1::2` to `3:4::5`, and `1::2:3` to `4::5`. -/
theorem two_sessions_one_text :
    let k : SessionKey := ⟨100, "1::2", "3:4::5", 5000, 80, 1⟩
    let k' : SessionKey := ⟨100, "1::2:3", "4::5", 5000, 80, 1⟩
    (isIpText k.srcIp && isIpText k.dstIp && isIpText k'.srcIp && isIpText k'.dstIp) = true ∧
    sessionKeyString k = sessionKeyString k' ∧ k ≠ k' := by
  decide +kernel

end PrismFirewall.OffloadDaemon
