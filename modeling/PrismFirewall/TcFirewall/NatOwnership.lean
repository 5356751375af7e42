import Mathlib.Data.Set.Basic
import PrismFirewall.TcFirewall.NatStore

/-!
# Whose NAT entries a request touches

A NAT request of one tenant should leave the entries of every other tenant
alone.  Removals do.  A creation does not when an entry of another tenant has
the same signature: `nat_manager` returns that entry, because the signature does
not name the tenant, and the endpoint then writes the requesting tenant into it.

`nat_of_others_kept_iff` says that this, and drawing the identifier of another
tenant's entry, are the only ways.
-/

namespace PrismFirewall.TcFirewall

open Lib

/-- The entries a store attributes to a tenant, with their identifiers. -/
def attributed (db : Dict String NATEntry) (tenantId : String) : Set (String × NATEntry) :=
  { p | db.get? p.1 = some p.2 ∧ p.2.tenantId = some tenantId }

/-- The two stores attribute to every tenant other than `a` what they did. -/
def OthersKept (a : String) (s s' : Stores) : Prop :=
  ∀ b, b ≠ a → attributed s'.natDb b = attributed s.natDb b ∧
    attributed s'.natEntriesDb b = attributed s.natEntriesDb b

/-- The requests that create or remove NAT entries. -/
def Request.isNat : Request → Bool
  | .addSnatRule _ | .addDnatRule _ | .addPortForwardRule _ => true
  | .deleteNatRule _ | .flushNatRules => true
  | _ => false

/-! ### One store -/

theorem attributed_eq_of_get?_eq {db db' : Dict String NATEntry} {b : String}
    (h : ∀ id e, e.tenantId = some b → (db'.get? id = some e ↔ db.get? id = some e)) :
    attributed db' b = attributed db b := by
  ext ⟨id, e⟩
  constructor
  · intro h
    obtain ⟨h1, h2⟩ := h
    exact ⟨(h id e h2).mp h1, h2⟩
  · intro h
    obtain ⟨h1, h2⟩ := h
    exact ⟨(h id e h2).mpr h1, h2⟩

/-- Writing an entry of `a` disturbs the others exactly when it replaces an
entry of one of them. -/
theorem attributed_write_iff {db db' : Dict String NATEntry} {a : String} {e : NATEntry}
    (ha : e.tenantId = some a)
    (hw : ∀ id, db'.get? id = if id = e.id then some e else db.get? id) :
    (∀ b, b ≠ a → attributed db' b = attributed db b) ↔
      ∀ e' b, db.get? e.id = some e' → e'.tenantId = some b → b = a := by
  constructor
  · intro h e' b he' hb
    by_contra hne
    have hmem : (e.id, e') ∈ attributed db' b := by
      rw [h b hne]
      exact ⟨he', hb⟩
    obtain ⟨h1, -⟩ := hmem
    have h2 : e = e' := Option.some.inj ((if_pos rfl).symm.trans ((hw e.id).symm.trans h1))
    rw [← h2, ha, Option.some.injEq] at hb
    exact hne hb.symm
  · intro h b hne
    refine attributed_eq_of_get?_eq (fun id e' hb => ?_)
    rw [hw]
    by_cases hid : id = e.id
    · rw [if_pos hid, hid]
      constructor
      · intro he'
        rw [← Option.some.inj he', ha, Option.some.injEq] at hb
        exact absurd hb.symm hne
      · intro he'
        exact absurd (h e' b he' hb) hne
    · rw [if_neg hid]

/-! ### One request -/

/-- Removing entries of `a` leaves the others. -/
theorem othersKept_of_removed {s s' : Stores} {a : String} {ids entryIds : List String}
    (ho : NatOwned s) (hown : ∀ id ∈ ids, OwnedBy s a id) (hsub : ∀ id ∈ entryIds, id ∈ ids)
    (hdb : s'.natDb = s.natDb.eraseAll ids)
    (hentries : s'.natEntriesDb = s.natEntriesDb.eraseAll entryIds) : OthersKept a s s' := by
  have hnot : ∀ id e b, b ≠ a → s.natEntriesDb.get? id = some e → e.tenantId = some b →
      id ∉ ids := by
    intro id e b hne he hb hid
    obtain ⟨e', he', ha⟩ := hown id hid
    rw [he, Option.some.injEq] at he'
    rw [← he', hb, Option.some.injEq] at ha
    exact hne ha
  intro b hne
  refine ⟨attributed_eq_of_get?_eq (fun id e hb => ?_),
    attributed_eq_of_get?_eq (fun id e hb => ?_)⟩
  · rw [hdb]
    refine ⟨fun h => (Dict.get?_eraseAll_eq_some.mp h).1, fun h => ?_⟩
    rw [Dict.get?_eraseAll, if_neg (hnot id e b hne (ho.mirrored id e h).2 hb)]
    exact h
  · rw [hentries]
    refine ⟨fun h => (Dict.get?_eraseAll_eq_some.mp h).1, fun h => ?_⟩
    rw [Dict.get?_eraseAll, if_neg (fun hid => hnot id e b hne h hb (hsub id hid))]
    exact h

/-- Writing an entry of `a` to both stores: since `nat_entries_db` holds what
`nat_db` holds, only the former matters. -/
theorem othersKept_of_written_iff {s s' : Stores} {a : String} {e : NATEntry} (ho : NatOwned s)
    (ha : e.tenantId = some a) (hw : NatWritten s s' e) :
    OthersKept a s s' ↔
      ¬ ∃ e', s.natEntriesDb.get? e.id = some e' ∧ e'.tenantId ≠ some a := by
  have h1 := attributed_write_iff ha hw.natDb
  have h2 := attributed_write_iff ha hw.entries
  constructor
  · rintro h ⟨e', he', hne⟩
    obtain ⟨b, hb⟩ := ho.owner e.id e' he'
    have hba := h2.mp (fun b hne => (h b hne).2) e' b he' hb
    exact hne (hba ▸ hb)
  · intro h b hne
    have hentries : ∀ e' b, s.natEntriesDb.get? e.id = some e' → e'.tenantId = some b →
        b = a := by
      intro e' b he' hb
      by_contra hba
      refine h ⟨e', he', fun heq => hba ?_⟩
      rw [hb, Option.some.injEq] at heq
      exact heq
    exact ⟨h1.mpr (fun e' b he' hb => hentries e' b (ho.mirrored e.id e' he').2 hb) b hne,
      h2.mpr hentries b hne⟩

/-- The creation takes an entry from another tenant: it finds one with its
signature, or it finds none, gets through, and has drawn the identifier of one. -/
def TakesEntry (d : Daemon) (c : Call) (a : String) : Prop :=
  ∃ template, c.request.natTemplate c.newId = some template ∧
    Admitted d.stores c.tenantHeader c.request.ValidMode a ∧
    ((∃ e, findExistingNat d.stores template.signature = some e ∧ e.tenantId ≠ some a) ∨
      (findExistingNat d.stores template.signature = none ∧ c.request.PoolFree d.stores ∧
        (c.session d).tc.NatInstalls ∧
        ∃ e, d.stores.natEntriesDb.get? c.newId.val = some e ∧ e.tenantId ≠ some a))

/-- The creation asks for what a live entry of another tenant already does. -/
def SignatureTaken (d : Daemon) (c : Call) (a : String) : Prop :=
  ∃ template, c.request.natTemplate c.newId = some template ∧
    Admitted d.stores c.tenantHeader c.request.ValidMode a ∧
    ∃ id e, d.stores.natDb.get? id = some e ∧ e.signature = template.signature ∧
      e.tenantId ≠ some a

theorem othersKept_creation_iff {d : Daemon} {c : Call} {a : String} {template : NATEntry}
    (ho : NatOwned d.stores) (ht : c.request.natTemplate c.newId = some template)
    (ha : c.tenantHeader = some a) :
    OthersKept a d.stores (serve d c).2.stores ↔ ¬ TakesEntry d c a := by
  refine serve_of_wp (P := fun _ d' => OthersKept a d.stores d'.stores ↔ ¬ TakesEntry d c a) ?_
  have htake : TakesEntry d c a ↔ Admitted d.stores c.tenantHeader c.request.ValidMode a ∧ _ :=
    ⟨fun ⟨_, h1, h2⟩ => by rw [ht, Option.some.injEq] at h1; exact h1 ▸ h2,
      fun h => ⟨template, ht, h⟩⟩
  rw [htake]
  refine wp_mono (wp_natCreation ht) ?_ ?_
  · intro r s h
    obtain ⟨-, t, e, log, hadm, h⟩ := h
    obtain rfl : a = t := Option.some.inj (ha.symm.trans hadm.tenant.1)
    have hadm' : Admitted d.stores c.tenantHeader c.request.ValidMode a := hadm
    rcases h with ⟨hf, h⟩ | ⟨hf, hfree, hinst, inHw, rfl, h⟩
    · have hf' : findExistingNat d.stores template.signature = some e := hf
      obtain ⟨id, -, hid⟩ := findExistingNat_eq_some hf'
      obtain ⟨rfl, hent⟩ := ho.mirrored id e hid
      have hw : NatWritten d.stores s.stores { e with tenantId := some a } :=
        natWritten_of_claimed (by rw [h]; rfl)
      rw [othersKept_of_written_iff ho rfl hw]
      simp [hadm', hf', hent]
    · have hf' : findExistingNat d.stores template.signature = none := hf
      have hfree' : c.request.PoolFree d.stores := hfree
      have hinst' : (c.session d).tc.NatInstalls := hinst
      rw [← id_of_natTemplate ht] at h ⊢
      have hw : NatWritten d.stores s.stores
          { template with inHw := inHw, tenantId := some a } :=
        natWritten_of_created (e := { template with inHw := inHw }) (by rw [h]; rfl)
      rw [othersKept_of_written_iff ho rfl hw]
      simp [hadm', hf', hfree', hinst']
  · intro e s h
    obtain ⟨-, hs, hnone, hfail⟩ := h
    have hs' : s.stores = d.stores := hs
    refine iff_of_true (fun b _ => by rw [hs']; exact ⟨rfl, rfl⟩) ?_
    intro h
    rcases h with ⟨hadm, ⟨e', he', -⟩ | ⟨hn, hfree, hinst, -⟩⟩
    · have hn : findExistingNat d.stores template.signature = none := hnone ⟨a, hadm⟩
      rw [hn] at he'
      exact absurd he' (by simp)
    · exact hfail.not_installs ⟨⟨a, hadm⟩, hn, hfree⟩ hinst

theorem othersKept_removal {d : Daemon} {c : Call} {a : String} (ho : NatOwned d.stores)
    (hn : c.request.isNat) (ht : c.request.natTemplate c.newId = none)
    (ha : c.tenantHeader = some a) : OthersKept a d.stores (serve d c).2.stores := by
  cases natStep_serve d c with
  | same e =>
    simp only [Stores.natStore, Prod.mk.injEq] at e
    intro b _
    rw [e.1, e.2.1]
    exact ⟨rfl, rfl⟩
  | claimed template tenantId e hreq hf he => rw [ht] at hreq; exact absurd hreq (by simp)
  | created template tenantId inHw hreq hf he => rw [ht] at hreq; exact absurd hreq (by simp)
  | removed tenantId ids entryIds index' hact hown hsub hindex hkept he =>
    have hta : tenantId = a := by
      have hact' : c.actor = c.tenantHeader := by
        unfold Call.actor
        split
        · rename_i hr
          rw [hr] at hn
          exact absurd hn (by simp [Request.isNat])
        · rfl
      rw [hact', ha] at hact
      exact (Option.some.inj hact).symm
    simp only [Stores.natStore, Prod.mk.injEq] at he
    exact othersKept_of_removed ho (hta ▸ hown) hsub he.1 he.2.1

/-- As long as no identifier is drawn twice, an entry is taken exactly when its
signature is asked for. -/
theorem takesEntry_iff_signatureTaken {calls : List Call} {c : Call} {a : String}
    (h : (drawnNatIds (calls ++ [c])).Nodup) :
    TakesEntry (daemon.run calls) c a ↔ SignatureTaken (daemon.run calls) c a := by
  rw [drawnNatIds_snoc, List.nodup_append] at h
  have hc := natCoherent_run calls h.1
  constructor
  · intro h
    rcases h with ⟨template, ht, hadm, ⟨e, hf, hne⟩ | ⟨-, -, -, e, he, -⟩⟩
    · obtain ⟨id, hid, hs⟩ := hc.findExistingNat_iff.mp hf
      exact ⟨template, ht, hadm, id, e, hid, hs, hne⟩
    · have hd : c.drawnNatId = some c.newId.val := by
        rw [Call.drawnNatId, ht, ← id_of_natTemplate ht]
        rfl
      exact absurd rfl (h.2.2 _ (hc.entries _ (Dict.mem_of_get? he)) _ (by simp [hd]))
  · intro h
    obtain ⟨template, ht, hadm, id, e, hid, hs, hne⟩ := h
    exact ⟨template, ht, hadm, Or.inl ⟨e, hc.findExistingNat_iff.mpr ⟨id, hid, hs⟩, hne⟩⟩

/-- **Whose NAT entries a request touches.**  After any run, a NAT request of
tenant `a` keeps the entries of all other tenants, in both stores, if and only
if it is not an admitted creation that takes one over.  As long as no NAT
identifier is drawn twice, that means: no live entry of another tenant has the
signature of the request. -/
theorem nat_of_others_kept_iff (calls : List Call) (c : Call) (a : String)
    (hr : c.request.isNat) (ha : c.tenantHeader = some a) :
    (OthersKept a (daemon.run calls).stores (serve (daemon.run calls) c).2.stores ↔
      ¬ TakesEntry (daemon.run calls) c a) ∧
    ((drawnNatIds (calls ++ [c])).Nodup →
      (TakesEntry (daemon.run calls) c a ↔ SignatureTaken (daemon.run calls) c a)) := by
  refine ⟨?_, takesEntry_iff_signatureTaken⟩
  have ho := natOwned_run calls
  cases ht : c.request.natTemplate c.newId with
  | some template => exact othersKept_creation_iff ho ht ha
  | none =>
    refine iff_of_true (othersKept_removal ho hr ht ha) ?_
    intro h
    obtain ⟨template, ht', -⟩ := h
    rw [ht] at ht'
    exact absurd ht' (by simp)

/-- Static source NAT for a private address. -/
def sampleSnat (privateIp : String) : SNATRule := ⟨privateIp, "203.0.113.7", "static", none⟩

/-- Tenant `b` has a NAT entry. -/
def natOfB : List Call :=
  [sampleTenant "a", sampleTenant "b",
    sampleCall (.addSnatRule (sampleSnat "10.0.0.5")) "b" secondId]

/-- Tenant `a` asks for NAT of an address of its own. -/
theorem nat_of_others_kept_iff_natOfB :
    let c := sampleCall (.addSnatRule (sampleSnat "10.0.0.6")) "a" firstId
    ((serve (daemon.run natOfB) c).2.stores.natDb.values.map NATEntry.tenantId
      = [some "b", some "a"]) ∧
    (OthersKept "a" (daemon.run natOfB).stores (serve (daemon.run natOfB) c).2.stores ↔
      ¬ TakesEntry (daemon.run natOfB) c "a") ∧
    (TakesEntry (daemon.run natOfB) c "a" ↔ SignatureTaken (daemon.run natOfB) c "a") := by
  intro c
  have h := nat_of_others_kept_iff natOfB c "a" (by decide) rfl
  exact ⟨by decide +kernel, h.1, h.2 (by decide)⟩

/-- Tenant `a` asks for the NAT that `b` has. -/
def natOfBByA : Call := sampleCall (.addSnatRule (sampleSnat "10.0.0.5")) "a" firstId

/-- The entry of tenant `b`. -/
def entryOfB : NATEntry :=
  ⟨"b7e4005d", some "b", .snat, some "static", "203.0.113.7", none, "10.0.0.5", none, none, false⟩

/-- **An entry changes hands**: the request of `a` takes the entry of `b`. -/
theorem nat_entry_changes_hands :
    (daemon.run natOfB).stores.natDb.values = [entryOfB] ∧
    (serve (daemon.run natOfB) natOfBByA).2.stores.natDb.values
      = [{ entryOfB with tenantId := some "a" }] ∧
    ¬ OthersKept "a" (daemon.run natOfB).stores
      (serve (daemon.run natOfB) natOfBByA).2.stores := by
  refine ⟨by decide +kernel, by decide +kernel, fun h => ?_⟩
  have hbefore : ("b7e4005d", entryOfB) ∈ attributed (daemon.run natOfB).stores.natDb "b" :=
    ⟨by decide +kernel, by decide⟩
  rw [← (h "b" (by decide)).1] at hbefore
  have hafter : (serve (daemon.run natOfB) natOfBByA).2.stores.natDb.get? "b7e4005d"
      ≠ some entryOfB := by decide +kernel
  exact hafter hbefore.1

end PrismFirewall.TcFirewall
