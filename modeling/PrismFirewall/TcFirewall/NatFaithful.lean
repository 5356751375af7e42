import PrismFirewall.TcFirewall.AuditTrail
import PrismFirewall.TcFirewall.NatRepeat
import PrismFirewall.TcFirewall.RuleSignature
import PrismFirewall.TcFirewall.TenantDeletion

/-!
# Whether a NAT creation gives what was asked for

A NAT request is answered with a new entry, or with the one that the signature index leads
to.  A new entry has the fields of the request.  One that was found has the signature of the
request, as long as no identifier of a live entry has been drawn again
(`natIndexRight_run`), and the signature does not tell everything: for source NAT it leaves
out the mode, and the texts in it are joined with bars that may stand in them as well
(`signatureText_eq_iff`).

`nat_creation_faithful_iff` says when the answer is faithful: no live entry with the same
signature text may differ from the request.
-/

namespace PrismFirewall.TcFirewall

open Lib Lib.Text

/-! ### What a signature tells -/

/-- The text that is hashed for an entry. -/
def NATEntry.signatureText (e : NATEntry) : String :=
  match e.type with
  | .snat => "snat|" ++ e.privateIp ++ "|" ++ e.publicIp
  | _ => e.type.value ++ "|" ++ e.publicIp ++ "|" ++ toString (e.publicPort.getD 0) ++ "|"
      ++ e.privateIp ++ "|" ++ toString (e.privatePort.getD 0) ++ "|" ++ e.protocol.getD ""

theorem signature_eq_shortHash (e : NATEntry) : e.signature = shortHash e.signatureText := by
  unfold NATEntry.signature NATEntry.signatureText computeNatSignature
  cases e.type <;> rfl

/-- The fields of an entry that go into its signature. -/
structure SameRewrite (e e' : NATEntry) : Prop where
  type : e.type = e'.type
  publicIp : e.publicIp = e'.publicIp
  privateIp : e.privateIp = e'.privateIp
  publicPort : e.publicPort = e'.publicPort
  privatePort : e.privatePort = e'.privatePort
  protocol : e.protocol = e'.protocol

/-- The entry is what was asked for: its type, addresses, ports, protocol and mode. -/
structure Faithful (e template : NATEntry) : Prop where
  rewrite : SameRewrite e template
  mode : e.mode = template.mode

/-- Source NAT has a mode and no ports, destination NAT has ports and no mode. -/
def NATEntry.Shaped (e : NATEntry) : Prop :=
  if e.type = .snat then e.publicPort = none ∧ e.privatePort = none ∧ e.protocol = none
  else (∃ n, e.publicPort = some n) ∧ (∃ n, e.privatePort = some n) ∧
    (∃ p, e.protocol = some p) ∧ e.mode = none

/-- None of the texts of the entry holds a bar. -/
def NATEntry.NoBars (e : NATEntry) : Prop :=
  '|' ∉ e.publicIp.toList ∧ '|' ∉ e.privateIp.toList ∧ '|' ∉ (e.protocol.getD "").toList

theorem bar_not_mem_natType (x : NatType) : '|' ∉ x.value.toList := by
  cases x <;> decide

theorem NatType.value_inj {x y : NatType} : x.value = y.value ↔ x = y := by
  cases x <;> cases y <;> decide

/-- The text starts with the type. -/
theorem toList_signatureText (e : NATEntry) : e.signatureText.toList = e.type.value.toList ++ '|' ::
    (if e.type = .snat then e.privateIp.toList ++ '|' :: e.publicIp.toList
      else e.publicIp.toList ++ '|' :: ((toString (e.publicPort.getD 0)).toList ++ '|' ::
        (e.privateIp.toList ++ '|' :: ((toString (e.privatePort.getD 0)).toList ++ '|' ::
          (e.protocol.getD "").toList)))) := by
  have hbar : ("|" : String).toList = ['|'] := rfl
  have hsnat : ("snat|" : String).toList = NatType.snat.value.toList ++ ['|'] := rfl
  unfold NATEntry.signatureText
  cases e.type with
  | snat => simp only [String.toList_append, hbar, hsnat, if_true, List.append_assoc,
      List.cons_append, List.nil_append]
  | dnat => simp [String.toList_append, hbar]
  | forward => simp [String.toList_append, hbar]

/-- **Without bars the text tells all the fields in it.** -/
theorem signatureText_eq_iff {e e' : NATEntry} (hs : e.Shaped) (hs' : e'.Shaped)
    (hb : e.NoBars) (hb' : e'.NoBars) :
    e.signatureText = e'.signatureText ↔ SameRewrite e e' := by
  obtain ⟨hpub, hpriv, hproto⟩ := hb
  obtain ⟨hpub', hpriv', hproto'⟩ := hb'
  rw [← String.toList_inj, toList_signatureText, toList_signatureText,
    append_sep_inj (bar_not_mem_natType _) (bar_not_mem_natType _), String.toList_inj,
    NatType.value_inj]
  unfold NATEntry.Shaped at hs hs'
  by_cases ht : e.type = .snat
  · constructor
    · rintro ⟨htype, htail⟩
      rw [← htype] at hs' htail
      rw [if_pos ht] at hs hs'
      rw [if_pos ht, if_pos ht, append_sep_inj hpriv hpriv', String.toList_inj,
        String.toList_inj] at htail
      exact ⟨htype, htail.2, htail.1, hs.1.trans hs'.1.symm, hs.2.1.trans hs'.2.1.symm,
        hs.2.2.trans hs'.2.2.symm⟩
    · intro h
      rw [← h.type, h.publicIp, h.privateIp, if_pos ht, if_pos ht]
      exact ⟨rfl, rfl⟩
  · constructor
    · rintro ⟨htype, htail⟩
      rw [← htype] at hs' htail
      rw [if_neg ht] at hs hs'
      obtain ⟨⟨m, hm⟩, ⟨n, hn⟩, ⟨p, hp⟩, -⟩ := hs
      obtain ⟨⟨m', hm'⟩, ⟨n', hn'⟩, ⟨p', hp'⟩, -⟩ := hs'
      rw [if_neg ht, if_neg ht, append_sep_inj hpub hpub',
        append_sep_inj (bar_not_mem_digits _) (bar_not_mem_digits _),
        append_sep_inj hpriv hpriv', append_sep_inj (bar_not_mem_digits _) (bar_not_mem_digits _)]
        at htail
      simp only [String.toList_inj, toString_inj, hm, hn, hp, hm', hn', hp', Option.getD_some]
        at htail
      obtain ⟨h1, h2, h3, h4, h5⟩ := htail
      exact ⟨htype, h1, h3, by rw [hm, hm', h2], by rw [hn, hn', h4], by rw [hp, hp', h5]⟩
    · intro h
      rw [← h.type, h.publicIp, h.privateIp, h.publicPort, h.privatePort, h.protocol]
      exact ⟨rfl, rfl⟩

/-! ### The index is right -/

/-- A creation that makes a new entry does not draw the identifier of a live one. -/
def DrawsUnused (d : Daemon) (c : Call) : Prop :=
  ∀ template, c.request.natTemplate c.newId = some template →
    findExistingNat d.stores template.signature = none → c.newId.val ∉ d.stores.natDb

/-- What the index leads to has the signature it was looked up by. -/
def NatIndexRight (s : Stores) : Prop :=
  ∀ sig id e, s.natSignatureIndex.get? sig = some id → s.natDb.get? id = some e →
    e.signature = sig

theorem natIndexRight_step {c : Call} {d : Daemon} {s' : Stores} (h : NatIndexRight d.stores)
    (hlive : NatIndexLive d.stores) (ho : NatOwned d.stores) (hs : NatStep c d.stores s')
    (hc : DrawsUnused d c) : NatIndexRight s' := by
  cases hs with
  | same e =>
    simp only [Stores.natStore, Prod.mk.injEq] at e
    unfold NatIndexRight
    rw [e.1, e.2.2]
    exact h
  | claimed template t e hreq hf hw =>
    have hwritten := natWritten_of_claimed hw
    simp only [Stores.natStore, recordNatOwner, Prod.mk.injEq] at hw
    obtain ⟨id', -, he⟩ := findExistingNat_eq_some hf
    obtain ⟨rfl, -⟩ := ho.mirrored id' e he
    intro sig id x hsig hx
    rw [hw.2.2] at hsig
    rw [hwritten.natDb] at hx
    split at hx
    · rename_i hid
      rw [← Option.some.inj hx]
      exact h sig id e hsig (hid ▸ he)
    · exact h sig id x hsig hx
  | created template t inHw hreq hf hw =>
    have hnew := hc template hreq hf
    rw [← id_of_natTemplate hreq] at hw hnew
    have hwritten := natWritten_of_created hw
    simp only [Stores.natStore, recordNatOwner, Prod.mk.injEq] at hw
    intro sig id x hsig hx
    rw [hw.2.2, Dict.get?_insert] at hsig
    rw [hwritten.natDb] at hx
    by_cases hid : id = template.id
    · rw [if_pos hid] at hx
      -- only the new entry of the index leads to the new identifier
      have hsame : sig = template.signature := by
        by_contra hne
        rw [if_neg hne] at hsig
        exact hnew (hid ▸ hlive sig id hsig)
      rw [← Option.some.inj hx, hsame]
      rfl
    · rw [if_neg hid] at hx
      split at hsig
      · exact absurd (Option.some.inj hsig).symm hid
      · exact h sig id x hsig hx
  | removed t ids entryIds index' hact hown hsub hindex hkept hw =>
    simp only [Stores.natStore, Prod.mk.injEq] at hw
    intro sig id x hsig hx
    rw [hw.2.2] at hsig
    rw [hw.1] at hx
    exact h sig id x (hindex sig id hsig) (Dict.get?_eraseAll_eq_some.mp hx).1

/-- **The index is right in every run** that draws no identifier of a live entry. -/
theorem natIndexRight_run (calls : List Call) (h : daemon.Meets DrawsUnused calls) :
    NatIndexRight (daemon.run calls).stores := by
  refine (daemon.run_induction_of_meets (C := DrawsUnused) (P := fun l d => NatOwned d.stores ∧
    NatIndexLive d.stores ∧ NatIndexRight d.stores) ⟨natOwned_run [], natIndexLive_run [], ?_⟩
    ?_ calls h).2.2
  · intro sig id e hsig
    simp [daemon, Daemon.init] at hsig
  · intro l c d ih hc
    obtain ⟨ho, hlive, hright⟩ := ih
    exact ⟨natOwned_step ho (natStep_serve d c), natIndexLive_step hlive (storesStep_serve d c),
      natIndexRight_step hright hlive ho (natStep_serve d c) hc⟩

/-- Every live entry has the shape of its type. -/
def NatShaped (s : Stores) : Prop := ∀ id e, s.natDb.get? id = some e → e.Shaped

theorem shaped_of_natTemplate {request : Request} {newId : ShortId} {template : NATEntry}
    (h : request.natTemplate newId = some template) : template.Shaped := by
  cases request with
  | addSnatRule r =>
    obtain rfl := Option.some.inj h
    exact ⟨rfl, rfl, rfl⟩
  | addDnatRule r =>
    obtain rfl := Option.some.inj h
    exact ⟨⟨_, rfl⟩, ⟨_, rfl⟩, ⟨_, rfl⟩, rfl⟩
  | addPortForwardRule r =>
    obtain rfl := Option.some.inj h
    exact ⟨⟨_, rfl⟩, ⟨_, rfl⟩, ⟨_, rfl⟩, rfl⟩
  | _ => simp [Request.natTemplate] at h

theorem NatShaped.write {s s' : Stores} (h : NatShaped s) {e : NATEntry}
    (hw : NatWritten s s' e) (he : e.Shaped) : NatShaped s' :=
  hw.forall_natDb (P := fun _ x => x.Shaped) h he

theorem natShaped_step {c : Call} {s s' : Stores} (h : NatShaped s) (hs : NatStep c s s') :
    NatShaped s' := by
  cases hs with
  | same e =>
    simp only [Stores.natStore, Prod.mk.injEq] at e
    unfold NatShaped
    rw [e.1]
    exact h
  | claimed template t e hreq hf hw =>
    obtain ⟨id, -, he⟩ := findExistingNat_eq_some hf
    have hshape := h id e he
    exact h.write (natWritten_of_claimed hw) hshape
  | created template t inHw hreq hf hw =>
    rw [← id_of_natTemplate hreq] at hw
    have hshape := shaped_of_natTemplate hreq
    exact h.write (natWritten_of_created hw) hshape
  | removed t ids entryIds index' hact hown hsub hindex hkept hw =>
    simp only [Stores.natStore, Prod.mk.injEq] at hw
    intro id e he
    rw [hw.1] at he
    exact h id e (Dict.get?_eraseAll_eq_some.mp he).1

theorem natShaped_run (calls : List Call) : NatShaped (daemon.run calls).stores := by
  refine daemon.run_induction (P := fun _ d => NatShaped d.stores) ?_ ?_ calls
  · intro id e he
    simp [daemon, Daemon.init] at he
  · intro l c d ih
    exact natShaped_step ih (natStep_serve d c)

/-! ### The answer -/

/-- The live entries that have the signature text of the request are what was asked for. -/
def NoLookAlike (s : Stores) (template : NATEntry) : Prop :=
  ∀ id e, s.natDb.get? id = some e → e.signatureText = template.signatureText →
    Faithful e template

/-- Distinct signature texts that are compared here have distinct hashes. -/
def HashTells (s : Stores) (template : NATEntry) : Prop :=
  ∀ id e, s.natDb.get? id = some e →
    shortHash e.signatureText = shortHash template.signatureText →
    e.signatureText = template.signatureText

/-- It does not matter whose the entry is. -/
theorem faithful_owner_iff {e template : NATEntry} (owner : Option String) :
    Faithful { e with tenantId := owner } template ↔ Faithful e template := by
  constructor
  · rintro ⟨⟨h1, h2, h3, h4, h5, h6⟩, h7⟩
    exact ⟨⟨h1, h2, h3, h4, h5, h6⟩, h7⟩
  · rintro ⟨⟨h1, h2, h3, h4, h5, h6⟩, h7⟩
    exact ⟨⟨h1, h2, h3, h4, h5, h6⟩, h7⟩

theorem faithful_iff_noLookAlike {d : Daemon} {c : Call} {template e : NATEntry}
    (hfind : Findable d.stores) (hright : NatIndexRight d.stores)
    (hnat : c.request.natTemplate c.newId = some template)
    (hanswer : (serve d c).1 = ⟨201, .nat e⟩) (hhash : HashTells d.stores template) :
    Faithful e template ↔ NoLookAlike d.stores template := by
  have hsig : ∀ {x : NATEntry}, x.signatureText = template.signatureText →
      x.signature = template.signature := by
    intro x hx
    rw [signature_eq_shortHash, signature_eq_shortHash, hx]
  rcases serve_natCreation (d := d) hnat with ⟨details, t, e', hr, -, hcase⟩ | ⟨hstatus, -⟩
  · rw [hr, Response.mk.injEq, Body.nat.injEq] at hanswer
    rw [← hanswer.2, faithful_owner_iff]
    rcases hcase with ⟨hf, -⟩ | ⟨hf, -, -, inHw, he, -⟩
    · have hfound : findExistingNat d.stores template.signature = some e' := hf
      obtain ⟨id, hi, hid⟩ := findExistingNat_eq_some hfound
      constructor
      · intro h id' x hx htext
        -- two live entries with one signature are the same entry
        have hi' := hfind.nat id' x hx
        rw [hsig htext, hi, Option.some.injEq] at hi'
        have hxe : x = e' := Option.some.inj (hx.symm.trans (hi' ▸ hid))
        rw [hxe]
        exact h
      · intro h
        have hsame := hright template.signature id e' hi hid
        rw [signature_eq_shortHash, signature_eq_shortHash] at hsame
        exact h id e' hid (hhash id e' hid hsame)
    · subst he
      refine iff_of_true ⟨⟨rfl, rfl, rfl, rfl, rfl, rfl⟩, rfl⟩ (fun id x hx htext => ?_)
      have hi := hfind.nat id x hx
      rw [hsig htext] at hi
      exact absurd (Dict.mem_of_get? hx) (hfind.nat_not_stored hf id hi)
  · rw [hanswer] at hstatus
    exact absurd hstatus (by simp)

/-- A live source NAT entry with the requested addresses and the other mode. -/
def OtherMode (s : Stores) (template : NATEntry) : Prop :=
  template.type = .snat ∧ ∃ id e, s.natDb.get? id = some e ∧ SameRewrite e template ∧
    e.mode ≠ template.mode

/-- Where no text holds a bar, only the mode can go wrong. -/
theorem noLookAlike_iff_not_otherMode {s : Stores} {template : NATEntry} (hs : NatShaped s)
    (hst : template.Shaped) (hb : template.NoBars)
    (hbars : ∀ id e, s.natDb.get? id = some e → e.NoBars) :
    NoLookAlike s template ↔ ¬ OtherMode s template := by
  constructor
  · rintro h ⟨-, id, e, he, hsame, hmode⟩
    exact hmode (h id e he ((signatureText_eq_iff (hs id e he) hst (hbars id e he) hb).mpr
      hsame)).mode
  · intro h id e he htext
    have hsame := (signatureText_eq_iff (hs id e he) hst (hbars id e he) hb).mp htext
    refine ⟨hsame, ?_⟩
    by_cases ht : template.type = .snat
    · by_contra hmode
      exact h ⟨ht, id, e, he, hsame, hmode⟩
    · -- destination NAT has no mode
      have hshape := hs id e he
      unfold NATEntry.Shaped at hshape hst
      rw [if_neg (hsame.type ▸ ht)] at hshape
      rw [if_neg ht] at hst
      rw [hshape.2.2.2, hst.2.2.2]

/-- **When a NAT creation is faithful.**  After a run that never drew the identifier of a
live entry, and provided the hash tells the signature texts at hand apart, a request that is
answered with an entry gets what it asked for exactly if no live entry with the same
signature text differs from the request; where no text holds a bar, exactly if there is no
live source NAT entry with the same addresses and the other mode. -/
theorem nat_creation_faithful_iff (calls : List Call) (hmeets : daemon.Meets DrawsUnused calls)
    (c : Call) (template e : NATEntry) (hnat : c.request.natTemplate c.newId = some template)
    (hanswer : (serve (daemon.run calls) c).1 = ⟨201, .nat e⟩)
    (hhash : HashTells (daemon.run calls).stores template) :
    (Faithful e template ↔ NoLookAlike (daemon.run calls).stores template) ∧
    (template.NoBars → (∀ id e', (daemon.run calls).stores.natDb.get? id = some e' → e'.NoBars) →
      (Faithful e template ↔ ¬ OtherMode (daemon.run calls).stores template)) := by
  have h := faithful_iff_noLookAlike (findable_run calls) (natIndexRight_run calls hmeets) hnat
    hanswer hhash
  refine ⟨h, fun hb hbars => h.trans ?_⟩
  exact noLookAlike_iff_not_otherMode (natShaped_run calls) (shaped_of_natTemplate hnat) hb hbars

/-- The same addresses as the sample request, with the other mode. -/
def masqueradeSnat : SNATRule := ⟨"10.0.0.5", "203.0.113.7", "masquerade", none⟩

/-- Tenant `a` has a static entry. -/
def staticOfA : List Call :=
  [sampleTenant "a", sampleCall (.addSnatRule (sampleSnat "10.0.0.5")) "a" firstId]

/-- The source NAT entry of `a` for another private address. -/
def otherOfA : NATEntry :=
  ⟨secondId.val, some "a", .snat, some "static", "203.0.113.7", none, "10.0.0.6", none, none, false⟩

theorem drawsUnused_staticOfA : daemon.Meets DrawsUnused staticOfA := by
  refine daemon.meets_of_meetsFrom ⟨fun template h => ?_, fun template h => ?_, trivial⟩
  · simp [sampleTenant, sampleCall, Request.natTemplate] at h
  · intro _
    decide +kernel

/-- The only live entry is the static one. -/
theorem natDb_staticOfA {id : String} {e : NATEntry}
    (h : (daemon.run staticOfA).stores.natDb.get? id = some e) : e = entryOfA := by
  have hentries : (daemon.run staticOfA).stores.natDb.entries = [(firstId.val, entryOfA)] := by
    decide +kernel
  have hmem := Dict.mem_entries_iff.mpr h
  rw [hentries, List.mem_singleton, Prod.mk.injEq] at hmem
  exact hmem.2

/-- Next to a live entry, the same request again and one for another private address get
what they ask for: the live entry has the text of the first and not that of the second. -/
theorem nat_creation_faithful_iff_live :
    let again := sampleCall (.addSnatRule (sampleSnat "10.0.0.5")) "a" secondId
    let other := sampleCall (.addSnatRule (sampleSnat "10.0.0.6")) "a" secondId
    (daemon.run staticOfA).stores.natDb.get? firstId.val = some entryOfA ∧
    (serve (daemon.run staticOfA) again).1 = ⟨201, .nat entryOfA⟩ ∧
    Faithful entryOfA { entryOfA with id := secondId.val, tenantId := none } ∧
    (serve (daemon.run staticOfA) other).1 = ⟨201, .nat otherOfA⟩ ∧
    Faithful otherOfA { otherOfA with tenantId := none } := by
  intro again other
  have hagain : (serve (daemon.run staticOfA) again).1 = ⟨201, .nat entryOfA⟩ := by
    decide +kernel
  have hother : (serve (daemon.run staticOfA) other).1 = ⟨201, .nat otherOfA⟩ := by
    decide +kernel
  refine ⟨by decide +kernel, hagain, ?_, hother, ?_⟩
  · refine (nat_creation_faithful_iff staticOfA drawsUnused_staticOfA again
      { entryOfA with id := secondId.val, tenantId := none } entryOfA (by decide) hagain
      (fun id e he _ => ?_)).1.mpr (fun id e he _ => ?_)
    · rw [natDb_staticOfA he]
      rfl
    · rw [natDb_staticOfA he]
      exact ⟨⟨rfl, rfl, rfl, rfl, rfl, rfl⟩, rfl⟩
  · have htext : entryOfA.signatureText ≠ otherOfA.signatureText := by decide +kernel
    have hhash : shortHash entryOfA.signatureText ≠ shortHash otherOfA.signatureText := by
      decide +kernel
    refine (nat_creation_faithful_iff staticOfA drawsUnused_staticOfA other
      { otherOfA with tenantId := none } otherOfA (by decide) hother
      (fun id e he h => ?_)).1.mpr (fun id e he h => ?_)
    · rw [natDb_staticOfA he] at h
      exact absurd h hhash
    · rw [natDb_staticOfA he] at h
      exact absurd h htext

/-- **The mode is not what was asked for**: tenant `a` has a static entry, asks for
masquerade with the same addresses and is answered with the static one. -/
theorem masquerade_answered_with_static :
    let c := sampleCall (.addSnatRule masqueradeSnat) "a" secondId
    ∃ template e, c.request.natTemplate c.newId = some template ∧
      (serve (daemon.run staticOfA) c).1 = ⟨201, .nat e⟩ ∧ template.mode = some "masquerade" ∧
      e.mode = some "static" ∧ ¬ Faithful e template := by
  intro c
  refine ⟨⟨secondId.val, none, .snat, some "masquerade", "203.0.113.7", none, "10.0.0.5", none,
    none, false⟩, entryOfA, rfl, by decide +kernel, rfl, rfl, fun h => ?_⟩
  exact absurd h.mode (by decide)

end PrismFirewall.TcFirewall
