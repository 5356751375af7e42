import PrismFirewall.TcFirewall.Install

/-!
# The pieces the handlers share

What the helpers of `main.py` and `nat_manager.py` do to the stores, each said
once: `get_tenant_id`, the tc half of a removal, the loops over the identifiers
of a tenant, and the three ways to create a NAT entry.
-/

namespace PrismFirewall.TcFirewall

open Lib

theorem get?_dropStale (index : Dict String String) (ids : List String) (k : String) :
    (dropStale index ids).get? k = (index.get? k).filter (fun v => !decide (v ∈ ids)) :=
  Dict.get?_eraseAll_of_values index (fun v => decide (v ∈ ids)) k

theorem get?_dropStale_eq_some {index : Dict String String} {ids : List String} {k v : String} :
    (dropStale index ids).get? k = some v ↔ index.get? k = some v ∧ v ∉ ids := by
  rw [get?_dropStale, Option.filter_eq_some_iff]
  simp

/-! ### Programs that leave the stores alone -/

/-- However it ends, the program leaves the stores as they were. -/
def KeepsStores {α : Type} (m : DaemonM α) : Prop :=
  ∀ s, wp m s (fun _ s' => s'.stores = s.stores) (fun _ s' => s'.stores = s.stores)

theorem keepsStores_pure {α : Type} (a : α) : KeepsStores (pure a) := fun _ => rfl

theorem keepsStores_tc {α : Type} (m : TcM α) : KeepsStores (tc m) :=
  fun _ => wp_tc_of_forall (fun _ _ => rfl) (fun _ _ => rfl)

theorem keepsStores_removeFilters (rule : FirewallRule) : KeepsStores (removeFilters rule) :=
  keeps_catchTcError (fun _ _ _ h h' => h'.trans h) (keepsStores_tc _)
    (fun _ => keepsStores_pure _)

/-- The header names a registered tenant. -/
def IsTenant (s : Stores) (header : Option String) (tenantId : String) : Prop :=
  header = some tenantId ∧ tenantId ≠ "" ∧ tenantId ∈ s.tenants

instance (s : Stores) (header : Option String) (tenantId : String) :
    Decidable (IsTenant s header tenantId) :=
  inferInstanceAs (Decidable (_ ∧ _ ∧ _))

/-- A header names one tenant. -/
theorem IsTenant.eq {s : Stores} {header : Option String} {t t' : String}
    (h : IsTenant s header t) (h' : IsTenant s header t') : t' = t :=
  Option.some.inj (h'.1.symm.trans h.1)

/-- `get_tenant_id` returns the header of a registered tenant and answers every
other request with an error of the client. -/
theorem wp_getTenantId {header : Option String} {s : Session} :
    wp (getTenantId header) s
      (fun t s' => s' = s ∧ IsTenant s.stores header t)
      (fun e s' => s' = s ∧ 400 ≤ (errorResponse e).status ∧
        ∀ t, ¬ IsTenant s.stores header t) := by
  unfold getTenantId IsTenant
  rw [wp_bind, wp_getStores]
  cases header with
  | none => simp [errorResponse]
  | some t =>
    by_cases h1 : t = ""
    · simp [h1, errorResponse]
    · by_cases h2 : t ∈ s.stores.tenants
      · simp [h1, h2]
      · simp [h1, h2, errorResponse]

/-- The entry `audit.log` writes. -/
def auditEntry (action resourceType resourceId : String) (details : List (String × AuditValue))
    (client : Option String) : AuditEntry :=
  ⟨action, resourceType, resourceId, details, orText client "unknown"⟩

@[simp] theorem wp_auditLog {action resourceType resourceId : String}
    {details : List (String × AuditValue)} {client : Option String} {s : Session}
    {Q : Unit → Session → Prop} {E : Exc → Session → Prop} :
    wp (auditLog action resourceType resourceId details client) s Q E ↔
      Q () { s with stores := { s.stores with audit := s.stores.audit ++
        [auditEntry action resourceType resourceId details client] } } := Iff.rfl

/-! ### Creations that fail -/

/-- How a creation fails: it is refused before the first command; or the filter
is not added; or it is added and a later command raises, and then it stays. -/
inductive CreationFailed (reaches installs : Prop) (s s' : Session) : Prop
  | refused (h : ¬ reaches) (hk : s'.tc.kernel = s.tc.kernel)
  | notAdded (h : reaches) (h0 : ¬ (s.tc.reply 0).succeeds) (hi : ¬ installs)
      (hk : s'.tc.kernel = s.tc.kernel)
  | left (h : reaches) (h0 : (s.tc.reply 0).succeeds) (hi : ¬ installs)
      (hk : s.tc.kernel.size < s'.tc.kernel.size)

theorem CreationFailed.congr {reaches reaches' installs : Prop} {s s' : Session}
    (h : CreationFailed reaches installs s s') (hv : reaches ↔ reaches') :
    CreationFailed reaches' installs s s' := by
  rw [← propext hv]
  exact h

/-- The failures of an installation that was reached. -/
theorem CreationFailed.of_reaches {reaches installs : Prop} {s s' : Session} (h : reaches)
    (hi : ¬ installs)
    (hk : (¬ (s.tc.reply 0).succeeds ∧ s'.tc.kernel = s.tc.kernel) ∨
      ((s.tc.reply 0).succeeds ∧ s.tc.kernel.size < s'.tc.kernel.size)) :
    CreationFailed reaches installs s s' := by
  rcases hk with ⟨h0, hk⟩ | ⟨h0, hk⟩
  · exact .notAdded h h0 hi hk
  · exact .left h h0 hi hk

/-- An installation that was reached and raised does not have the answers it
needs. -/
theorem CreationFailed.not_installs {reaches installs : Prop} {s s' : Session}
    (h : CreationFailed reaches installs s s') (hr : reaches) : ¬ installs := by
  cases h with
  | refused h hk => exact absurd hr h
  | notAdded h h0 hi hk => exact hi
  | left h h0 hi hk => exact hi

/-! ### Removing NAT entries -/

/-- The stores after a NAT entry has been taken out of `nat_db`. -/
def Stores.withoutNat (s : Stores) (id : String) : Stores :=
  { s with
    natSignatureIndex := dropStale s.natSignatureIndex [id]
    natDb := s.natDb.erase id }

/-- How many of the entries have their filter on the port. -/
def onPort (port : String) (entries : List NATEntry) : Nat :=
  entries.countP (fun e => decide (e.port = port))

/-- The commands that add a surviving entry again. -/
def reapplyEntry (port : String) (entry : NATEntry) : TcM Unit :=
  if entry.type = .snat ∧ port = clientPort then reapplySnat entry
  else if entry.type ≠ .snat ∧ port = internetPort then reapplyNatRule entry
  else pure ()

/-- Such an entry takes one command if its filter belongs to the port. -/
theorem wp_reapplyEntry {port : String} {entry : NATEntry} {t : TcState} :
    wp (reapplyEntry port entry) t
      (fun _ t' => t.Moved (onPort port [entry]) t' ∧
        (entry.port = port → ¬ (t.reply 0).timesOut) ∧
        (t.AllSucceed → NatChange [] t.kernel t'.kernel))
      (fun e _ => e = .timeoutExpired ∧ entry.port = port ∧ (t.reply 0).timesOut) := by
  have hmine : entry.port = port ↔ (entry.type = .snat ∧ port = clientPort) ∨
      (entry.type ≠ .snat ∧ port = internetPort) := by
    unfold NATEntry.port
    split
    · simp_all [eq_comm]
    · simp_all [eq_comm]
  have hrun : ∀ cmd, entry.port = port →
      (∀ (k : Kernel) handle, NatChange [] k (k.exec handle cmd)) →
      wp (do let _ ← runTc cmd false; return ()) t
        (fun _ t' => t.Moved (onPort port [entry]) t' ∧
          (entry.port = port → ¬ (t.reply 0).timesOut) ∧
          (t.AllSucceed → NatChange [] t.kernel t'.kernel))
        (fun e _ => e = .timeoutExpired ∧ entry.port = port ∧ (t.reply 0).timesOut) := by
    intro cmd hp hcmd
    rw [wp_bind]
    refine wp_mono wp_runTc_unchecked (fun _ t' h => ?_) (fun e _ h => ⟨h.1, hp, h.2⟩)
    obtain ⟨h0, hm, hk⟩ := h
    refine ⟨by simpa [onPort, hp] using hm, fun _ => h0, fun hall => ?_⟩
    obtain ⟨handle, hk⟩ := hk (hall.reply 0)
    rw [hk]
    exact hcmd _ _
  unfold reapplyEntry
  split
  · rename_i h
    exact hrun _ (hmine.mpr (Or.inl h)) (fun _ _ => natChange_snatCmd _ _)
  · rename_i h1
    split
    · rename_i h2
      refine hrun _ (hmine.mpr (Or.inr h2)) (fun _ _ => ?_)
      split
      · exact natChange_forwardCmd _ _ _ _ _
      · exact natChange_dnatCmd _ _ _ _
    · rename_i h2
      have hp : entry.port ≠ port := fun h => (hmine.mp h).elim h1 h2
      exact ⟨by simpa [onPort, hp] using TcState.Moved.mk rfl rfl, fun h => absurd h hp,
        fun _ => .refl _⟩

theorem onPort_append (port : String) (l l' : List NATEntry) :
    onPort port (l ++ l') = onPort port l + onPort port l' := List.countP_append

/-- **Rebuilding a band** takes one command, and one more for each entry of the
port; it raises if one of them times out. -/
theorem wp_rebuildNat {port : String} {remaining : List NATEntry} {t : TcState} :
    wp (rebuildNat port remaining) t
      (fun _ t' => t.Moved (1 + onPort port remaining) t' ∧
        (∀ i ≤ onPort port remaining, ¬ (t.reply i).timesOut) ∧
        (t.AllSucceed → NatChange [port] t.kernel t'.kernel))
      (fun e _ => e = .timeoutExpired ∧ ∃ i ≤ onPort port remaining, (t.reply i).timesOut) := by
  show wp (runTc _ false >>= fun _ => forM remaining (reapplyEntry port)) t _ _
  rw [wp_bind]
  refine wp_mono wp_runTc_unchecked (fun _ t1 h => ?_)
    (fun e _ h => ⟨h.1, 0, Nat.zero_le _, h.2⟩)
  obtain ⟨h0, hm1, hk1⟩ := h
  -- the invariant counts the commands of the entries gone through
  refine wp_mono (wp_forM (I := fun done t' => t.Moved (1 + onPort port done) t' ∧
    (∀ i ≤ onPort port done, ¬ (t.reply i).timesOut) ∧
    (t.AllSucceed → NatChange [port] t.kernel t'.kernel)) remaining ?_ t1 ?_)
    (fun _ _ h => h) (fun _ _ h => h)
  · intro done entry rest t' hl h
    obtain ⟨hm, hin, hk⟩ := h
    have hcount : onPort port remaining
        = onPort port done + (onPort port [entry] + onPort port rest) := by
      rw [hl, onPort_append, ← List.singleton_append, onPort_append]
    refine wp_mono wp_reapplyEntry (fun _ t'' h => ?_) (fun e _ h => ?_)
    · obtain ⟨hm', hin', hk'⟩ := h
      rw [onPort_append]
      refine ⟨by rw [← Nat.add_assoc]; exact hm.trans hm', fun i hi => ?_, fun hall => ?_⟩
      · by_cases hi' : i ≤ onPort port done
        · exact hin i hi'
        · have hp : entry.port = port := by
            by_contra hp
            have hz : onPort port [entry] = 0 := by simp [onPort, hp]
            omega
          have hone : onPort port [entry] = 1 := by simp [onPort, hp]
          have h1 := hin' hp
          rw [hm.reply] at h1
          have he : i = 1 + onPort port done + 0 := by omega
          rw [he]
          exact h1
      · exact (hk hall).trans (hk' (hm.allSucceed hall))
    · obtain ⟨rfl, hp, hto⟩ := h
      have hone : onPort port [entry] = 1 := by simp [onPort, hp]
      rw [hm.reply] at hto
      exact ⟨rfl, 1 + onPort port done + 0, by omega, hto⟩
  · refine ⟨hm1, fun i hi => ?_, fun hall => ?_⟩
    · have hz : i = 0 := Nat.le_zero.mp hi
      rw [hz]
      exact h0
    · obtain ⟨handle, hk⟩ := hk1 (hall.reply 0)
      rw [hk]
      exact natChange_del handle

/-- None of the commands that rebuild the band without the entry times out. -/
def RebuildsInTime (s : Session) (id : String) : Prop :=
  ∀ entry, s.stores.natDb.get? id = some entry →
    ∀ i ≤ onPort entry.port (s.stores.natDb.erase id).values, ¬ (s.tc.reply i).timesOut

/-- `remove_nat` raises before it starts, when there is no such entry, or after
it has removed the entry, when a command times out. -/
theorem wp_removeNat {id : String} {s : Session} :
    wp (removeNat id) s
      (fun _ s' => id ∈ s.stores.natDb ∧ RebuildsInTime s id ∧
        s'.stores = s.stores.withoutNat id ∧ s'.tc.replies = s.tc.replies ∧
        ∀ entry, s.stores.natDb.get? id = some entry → s.tc.AllSucceed →
          NatChange [entry.port] s.tc.kernel s'.tc.kernel)
      (fun _ s' => (id ∉ s.stores.natDb ∧ s' = s) ∨
        (id ∈ s.stores.natDb ∧ ¬ RebuildsInTime s id ∧ s'.stores = s.stores.withoutNat id)) := by
  unfold removeNat
  rw [wp_bind, wp_getStores]
  by_cases hid : id ∈ s.stores.natDb
  · obtain ⟨entry, he⟩ := Dict.mem_iff_get?.mp hid
    have hu : ∀ entry', s.stores.natDb.get? id = some entry' → entry' = entry :=
      fun entry' he' => Option.some.inj (he'.symm.trans he)
    rw [if_neg (not_not.mpr hid), wp_bind, wp_item_of_get? he, wp_bind, wp_modifyStores, wp_tc]
    refine wp_mono wp_rebuildNat (fun _ t h => ?_) (fun _ t h => ?_)
    · obtain ⟨hm, hin, hk⟩ := h
      refine ⟨hid, fun entry' he' => ?_, rfl, hm.replies, fun entry' he' => ?_⟩
      · rw [hu entry' he']
        exact hin
      · rw [hu entry' he']
        exact hk
    · obtain ⟨-, i, hi, hto⟩ := h
      exact Or.inr ⟨hid, fun hin => hin entry he i hi hto, rfl⟩
  · rw [if_pos hid, wp_bind, wp_throw]
    exact Or.inl ⟨hid, rfl⟩

/-- An index without the entries of the removed identifiers that were live. -/
def IndexWithout (index : Dict String String) (live : Dict String NATEntry) (ids : List String)
    (index' : Dict String String) : Prop :=
  ∀ k v, index'.get? k = some v ↔ index.get? k = some v ∧ ¬ (v ∈ ids ∧ v ∈ live)

/-- The NAT stores without the given identifiers. -/
def NatIdsRemoved (s : Stores) (ids : List String) (s' : Stores) : Prop :=
  ∃ index', IndexWithout s.natSignatureIndex s.natDb ids index' ∧ s' = { s with
    natEntriesDb := s.natEntriesDb.eraseAll ids
    natDb := s.natDb.eraseAll ids
    natSignatureIndex := index' }

theorem natIdsRemoved_snoc {s s' s'' : Stores} {done : List String} {id : String}
    (h : NatIdsRemoved s done s')
    (hs : (id ∉ s'.natDb ∧ s'' = s') ∨ (id ∈ s'.natDb ∧ s'' = s'.withoutNat id)) :
    NatIdsRemoved s (done ++ [id])
      { s'' with natEntriesDb := s''.natEntriesDb.erase id } := by
  obtain ⟨index', hi, rfl⟩ := h
  have hsnoc : ∀ {ν : Type} (d : Dict String ν),
      d.eraseAll (done ++ [id]) = (d.eraseAll done).erase id :=
    fun d => by simp [Dict.eraseAll, List.foldl_append]
  rcases hs with ⟨hid, rfl⟩ | ⟨hid, rfl⟩
  · refine ⟨index', fun k v => ?_, ?_⟩
    · rw [hi k v, List.mem_append, List.mem_singleton]
      rw [Dict.mem_eraseAll] at hid
      by_cases hv : v = id
      · subst hv
        tauto
      · tauto
    · simp only [hsnoc]
      rw [Dict.erase_of_not_mem hid]
  · refine ⟨dropStale index' [id], fun k v => ?_, ?_⟩
    · rw [get?_dropStale_eq_some, hi k v, List.mem_singleton, List.mem_append, List.mem_singleton]
      rw [Dict.mem_eraseAll] at hid
      by_cases hv : v = id
      · subst hv
        tauto
      · tauto
    · simp only [hsnoc, Stores.withoutNat]

/-- The ports on which the entries with the given identifiers have their filters. -/
def natPorts (s : Stores) (ids : List String) : List String :=
  (ids.filterMap s.natDb.get?).map NATEntry.port

theorem natPorts_append (s : Stores) (l l' : List String) :
    natPorts s (l ++ l') = natPorts s l ++ natPorts s l' := by
  simp [natPorts]

theorem mem_natPorts {s : Stores} {ids : List String} {dev : String} :
    dev ∈ natPorts s ids ↔ ∃ id ∈ ids, ∃ e, s.natDb.get? id = some e ∧ e.port = dev := by
  simp only [natPorts, List.mem_map, List.mem_filterMap]
  constructor
  · intro h
    obtain ⟨e, ⟨id, hid, he⟩, hp⟩ := h
    exact ⟨id, hid, e, he, hp⟩
  · intro h
    obtain ⟨id, hid, e, he, hp⟩ := h
    exact ⟨e, ⟨id, hid, he⟩, hp⟩

/-- One more entry is removed, or it was not there (any more). -/
theorem NatChange.snoc {s s' : Stores} {done : List String} {id : String} {k k' k'' : Kernel}
    (h : NatChange (natPorts s done) k k') (hr : NatIdsRemoved s done s')
    (hs : (id ∉ s'.natDb ∧ k'' = k') ∨
      ∃ entry, s'.natDb.get? id = some entry ∧ NatChange [entry.port] k' k'') :
    NatChange (natPorts s (done ++ [id])) k k'' := by
  obtain ⟨index', -, rfl⟩ := hr
  have hget : (s.natDb.eraseAll done).get? id = if id ∈ done then none else s.natDb.get? id :=
    Dict.get?_eraseAll _ _ _
  rcases hs with ⟨hid, rfl⟩ | ⟨entry, he, h'⟩
  · refine h.congr (fun dev => ?_)
    rw [natPorts_append, List.mem_append]
    refine ⟨Or.inl, fun hdev => hdev.elim (fun h => h) (fun hdev => ?_)⟩
    obtain ⟨x, hx, e, he, hp⟩ := mem_natPorts.mp hdev
    rw [List.mem_singleton] at hx
    subst hx
    refine mem_natPorts.mpr ⟨x, ?_, e, he, hp⟩
    by_contra hx
    rw [if_neg hx, he] at hget
    exact hid (Dict.mem_of_get? hget)
  · rw [natPorts_append]
    have he' : s.natDb.get? id = some entry := by
      by_cases hx : id ∈ done
      · rw [if_pos hx] at hget
        exact absurd (he.symm.trans hget) (by simp)
      · rw [if_neg hx] at hget
        exact hget.symm.trans he
    refine h.trans ?_
    rw [show natPorts s [id] = [entry.port] by simp [natPorts, he']]
    exact h'

/-- The loop over NAT identifiers removes them all and never raises; it empties
the bands of their ports. -/
theorem wp_flushNatIds (ids : List String) (s : Session) :
    wp (flushNatIds ids) s
      (fun _ s' => NatIdsRemoved s.stores ids s'.stores ∧
        (s.tc.AllSucceed → NatChange (natPorts s.stores ids) s.tc.kernel s'.tc.kernel))
      (fun _ _ => False) := by
  have hstart : NatIdsRemoved s.stores [] s.stores :=
    ⟨s.stores.natSignatureIndex, fun k v => by simp, rfl⟩
  have hkernel : NatChange (natPorts s.stores []) s.tc.kernel s.tc.kernel := .refl _
  refine wp_mono (wp_forM (I := fun done s' => NatIdsRemoved s.stores done s'.stores ∧
    (s.tc.AllSucceed → s'.tc.replies = s.tc.replies ∧
      NatChange (natPorts s.stores done) s.tc.kernel s'.tc.kernel)) ids ?_ s
    ⟨hstart, fun _ => ⟨rfl, hkernel⟩⟩)
    (fun _ s' h => ⟨h.1, fun hall => (h.2 hall).2⟩) (fun _ _ h => h)
  intro done id _ s' _ h
  obtain ⟨hrem, hk⟩ := h
  have hall' : s.tc.AllSucceed → s'.tc.AllSucceed := by
    intro hall i
    rw [(hk hall).1]
    exact hall i
  rw [wp_bind, wp_tryCatch]
  refine wp_mono wp_removeNat (fun _ s'' h => ?_) (fun _ s'' h => ?_)
  · obtain ⟨hid, -, hs, hreplies, hband⟩ := h
    rw [wp_modifyStores]
    refine ⟨natIdsRemoved_snoc hrem (Or.inr ⟨hid, hs⟩), fun hall => ?_⟩
    obtain ⟨entry, he⟩ := Dict.mem_iff_get?.mp hid
    exact ⟨hreplies.trans (hk hall).1,
      (hk hall).2.snoc hrem (Or.inr ⟨entry, he, hband entry he (hall' hall)⟩)⟩
  · rw [wp_pure, wp_modifyStores]
    rcases h with ⟨hid, rfl⟩ | ⟨hid, hlate, hs⟩
    · exact ⟨natIdsRemoved_snoc hrem (Or.inl ⟨hid, rfl⟩),
        fun hall => ⟨(hk hall).1, (hk hall).2.snoc hrem (Or.inl ⟨hid, rfl⟩)⟩⟩
    · refine ⟨natIdsRemoved_snoc hrem (Or.inr ⟨hid, hs⟩), fun hall => ?_⟩
      exact absurd (fun _ _ i _ => (hall' hall).not_timesOut i) hlate

/-! ### Creating NAT entries -/

/-- The signature of an entry, from its stored fields. -/
def NATEntry.signature (e : NATEntry) : String :=
  computeNatSignature e.type e.privateIp e.publicIp (e.publicPort.getD 0) (e.privatePort.getD 0)
    (e.protocol.getD "")

/-- The entry a NAT creation request asks for, before it has an owner. -/
def Request.natTemplate (newId : ShortId) : Request → Option NATEntry
  | .addSnatRule r => some ⟨newId.val, none, .snat, some r.mode, r.publicIp, none, r.privateIp,
      none, none, false⟩
  | .addDnatRule r => some ⟨newId.val, none, .dnat, none, r.publicIp, some r.publicPort.val,
      r.privateIp, some r.privatePort.val, some r.protocol, false⟩
  | .addPortForwardRule r => some ⟨newId.val, none, .forward, none, r.publicIp,
      some r.publicPort.val, r.privateIp, some r.privatePort.val, some r.protocol, false⟩
  | _ => none

/-- The mode of a source NAT request is one of the two there are. -/
def Request.ValidMode : Request → Prop
  | .addSnatRule r => r.mode = snatModeStatic ∨ r.mode = snatModeMasquerade
  | _ => True

/-- The pool a masquerade request draws on has a port left. -/
def Request.PoolFree (s : Stores) : Request → Prop
  | .addSnatRule r => ¬ (r.mode = snatModeMasquerade ∧ s.snatState.isExhausted r.publicIp)
  | _ => True

/-- What an `add_*` function of `nat_manager` does: return the entry with the
same signature, or store and index a new one, or fail without touching the
stores. -/
def AddSpec (newId : ShortId) (template : NATEntry) (valid : Prop) (free : Stores → Prop)
    (add : DaemonM NATEntry) : Prop :=
  ∀ s, wp add s
    (fun e s' => valid ∧
      ((findExistingNat s.stores template.signature = some e ∧ s'.stores = s.stores) ∨
      (findExistingNat s.stores template.signature = none ∧ free s.stores ∧ s.tc.NatInstalls ∧
        ∃ inHw, e = { template with inHw := inHw } ∧ s'.stores = { s.stores with
          natDb := s.stores.natDb.insert newId.val e
          natSignatureIndex := s.stores.natSignatureIndex.insert template.signature newId.val })))
    (fun exc s' => exc.IsTc ∧ s'.stores = s.stores ∧
      (valid → findExistingNat s.stores template.signature = none) ∧
      CreationFailed (valid ∧ findExistingNat s.stores template.signature = none ∧ free s.stores)
        s.tc.NatInstalls s s')

/-- The end of the `add_*` functions, once no entry with the signature exists. -/
theorem wp_addNat {newId : ShortId} {sig port : String} {cmd : List String}
    {entry : Bool → NATEntry} (hcmd : AddsFilter cmd) {s : Session} :
    wp (addNat newId sig port cmd entry) s
      (fun e s' => s.tc.NatInstalls ∧ ∃ inHw, e = entry inHw ∧ s'.stores = { s.stores with
        natDb := s.stores.natDb.insert newId.val e
        natSignatureIndex := s.stores.natSignatureIndex.insert sig newId.val })
      (fun exc s' => exc.IsTc ∧ s'.stores = s.stores ∧ ¬ s.tc.NatInstalls ∧
        ((¬ (s.tc.reply 0).succeeds ∧ s'.tc.kernel = s.tc.kernel) ∨
          ((s.tc.reply 0).succeeds ∧ s.tc.kernel.size < s'.tc.kernel.size))) := by
  unfold addNat
  rw [wp_bind, wp_tc]
  refine wp_mono (wp_installNat hcmd) (fun inHw t h => ?_) (fun e t h => ?_)
  · rw [wp_bind, wp_modifyStores, wp_pure]
    exact ⟨h, inHw, rfl, rfl⟩
  · obtain ⟨he, hi, hk⟩ := h
    exact ⟨he, rfl, hi, hk⟩

theorem addSpec_addSnat (newId : ShortId) (r : SNATRule) :
    AddSpec newId
      ⟨newId.val, none, .snat, some r.mode, r.publicIp, none, r.privateIp, none, none, false⟩
      (Request.addSnatRule r).ValidMode (Request.PoolFree · (.addSnatRule r))
      (addSnat newId r.privateIp r.publicIp r.mode) := by
  intro s
  unfold addSnat Request.ValidMode Request.PoolFree
  split
  · rename_i hmode
    have hv : ¬ (r.mode = snatModeStatic ∨ r.mode = snatModeMasquerade) := by tauto
    exact ⟨trivial, rfl, fun h => absurd h hv, .refused (fun h => hv h.1) rfl⟩
  · rename_i hmode
    have hv : r.mode = snatModeStatic ∨ r.mode = snatModeMasquerade := by tauto
    simp only [wp_bind, wp_getStores]
    split
    · rename_i e he
      exact ⟨hv, Or.inl ⟨he, rfl⟩⟩
    · rename_i he
      split
      · rename_i hfull
        exact ⟨trivial, rfl, fun _ => he, .refused (fun h => h.2.2 hfull) rfl⟩
      · rename_i hfree
        refine wp_mono (wp_addNat (addsFilter_snatCmd _ _)) ?_ ?_
        · intro e s' h
          obtain ⟨hi, inHw, h1, h2⟩ := h
          exact ⟨hv, Or.inr ⟨he, hfree, hi, inHw, h1, h2⟩⟩
        · intro exc s' h
          obtain ⟨hexc, hs, hi, hk⟩ := h
          exact ⟨hexc, hs, fun _ => he, .of_reaches ⟨hv, he, hfree⟩ hi hk⟩

theorem addSpec_addPortNat (natType : NatType) {cmd : List String} (hcmd : AddsFilter cmd)
    (newId : ShortId) (publicIp : String) (publicPort : Nat) (privateIp : String)
    (privatePort : Nat) (protocol : String) :
    AddSpec newId ⟨newId.val, none, natType, none, publicIp, some publicPort, privateIp,
      some privatePort, some protocol, false⟩ True (fun _ => True)
      (addPortNat natType cmd newId publicIp publicPort privateIp privatePort protocol) := by
  intro s
  unfold addPortNat
  simp only [wp_bind, wp_getStores]
  split
  · rename_i e he
    exact ⟨trivial, Or.inl ⟨he, rfl⟩⟩
  · rename_i he
    refine wp_mono (wp_addNat hcmd) ?_ ?_
    · intro e s' h
      obtain ⟨hi, inHw, h1, h2⟩ := h
      exact ⟨trivial, Or.inr ⟨he, trivial, hi, inHw, h1, h2⟩⟩
    · intro exc s' h
      obtain ⟨hexc, hs, hi, hk⟩ := h
      exact ⟨hexc, hs, fun _ => he, .of_reaches ⟨trivial, he, trivial⟩ hi hk⟩

/-- The tenant has room for another NAT entry. -/
def NatQuotaFree (s : Stores) (tenantId : String) : Prop :=
  ∀ config, s.tenants.get? tenantId = some config →
    (countTenantNatEntries s tenantId : Int) < config.maxNatEntries

/-- The request is let through to `nat_manager` and has a valid mode. -/
structure Admitted (s : Stores) (header : Option String) (valid : Prop) (tenantId : String) :
    Prop where
  tenant : IsTenant s header tenantId
  quota : NatQuotaFree s tenantId
  mode : valid

/-- A creation request got through: the tenant of the header is now the owner of
the entry the `add_*` function returned. -/
def NatRecorded (header : Option String) (newId : ShortId) (template : NATEntry) (valid : Prop)
    (free : Stores → Prop) (s : Session) (s' : Stores) : Prop :=
  ∃ t e log, Admitted s.stores header valid t ∧
    ((findExistingNat s.stores template.signature = some e ∧
        s' = { recordNatOwner t e s.stores with audit := log }) ∨
      (findExistingNat s.stores template.signature = none ∧ free s.stores ∧ s.tc.NatInstalls ∧
        ∃ inHw, e = { template with inHw := inHw } ∧ s' = { recordNatOwner t e { s.stores with
          natDb := s.stores.natDb.insert newId.val e
          natSignatureIndex := s.stores.natSignatureIndex.insert template.signature newId.val }
          with audit := log }))

/-- The entry `log_nat_created` writes. -/
def natCreatedEntry (natType : NatType) (details : List (String × AuditValue))
    (client : Option String) (id : String) : AuditEntry :=
  auditEntry ("nat." ++ natType.value ++ "_created") "nat_rule" id details client

/-- The same, with what is appended to the log. -/
def NatLogged (header : Option String) (newId : ShortId) (template : NATEntry) (valid : Prop)
    (free : Stores → Prop) (logEntry : String → AuditEntry) (s : Session) (s' : Stores) : Prop :=
  ∃ t e, Admitted s.stores header valid t ∧
    ((findExistingNat s.stores template.signature = some e ∧
        s' = { recordNatOwner t e s.stores with
          audit := s.stores.audit ++ [logEntry e.id] }) ∨
      (findExistingNat s.stores template.signature = none ∧ free s.stores ∧ s.tc.NatInstalls ∧
        ∃ inHw, e = { template with inHw := inHw } ∧ s' = { recordNatOwner t e { s.stores with
          natDb := s.stores.natDb.insert newId.val e
          natSignatureIndex := s.stores.natSignatureIndex.insert template.signature newId.val }
          with audit := s.stores.audit ++ [logEntry e.id] }))

/-- What a creation request that got through did, in the name of the tenant `t` and with the
entry `e` that the `add_*` function returned. -/
def NatAnswered (header : Option String) (newId : ShortId) (template : NATEntry) (valid : Prop)
    (free : Stores → Prop) (logEntry : String → AuditEntry) (s : Session) (s' : Stores)
    (t : String) (e : NATEntry) : Prop :=
  Admitted s.stores header valid t ∧
    ((findExistingNat s.stores template.signature = some e ∧
        s' = { recordNatOwner t e s.stores with
          audit := s.stores.audit ++ [logEntry e.id] }) ∨
      (findExistingNat s.stores template.signature = none ∧ free s.stores ∧ s.tc.NatInstalls ∧
        ∃ inHw, e = { template with inHw := inHw } ∧ s' = { recordNatOwner t e { s.stores with
          natDb := s.stores.natDb.insert newId.val e
          natSignatureIndex := s.stores.natSignatureIndex.insert template.signature newId.val }
          with audit := s.stores.audit ++ [logEntry e.id] }))

theorem NatLogged.recorded {header : Option String} {newId : ShortId} {template : NATEntry}
    {valid : Prop} {free : Stores → Prop} {logEntry : String → AuditEntry} {s : Session}
    {s' : Stores} (h : NatLogged header newId template valid free logEntry s s') :
    NatRecorded header newId template valid free s s' := by
  obtain ⟨t, e, hadm, ⟨hf, h⟩ | ⟨hf, hfree, hi, inHw, he, h⟩⟩ := h
  · exact ⟨t, e, _, hadm, Or.inl ⟨hf, h⟩⟩
  · exact ⟨t, e, _, hadm, Or.inr ⟨hf, hfree, hi, inHw, he, h⟩⟩

theorem wp_addNatRule {header client : Option String} {natType : NatType} {newId : ShortId}
    {template : NATEntry} {valid : Prop} {free : Stores → Prop} {add : DaemonM NATEntry}
    {details : List (String × AuditValue)} (hadd : AddSpec newId template valid free add)
    {s : Session} :
    wp (addNatRule header client natType add details) s
      (fun r s' => ∃ t e, r = ⟨201, .nat { e with tenantId := some t }⟩ ∧
        NatAnswered header newId template valid free (natCreatedEntry natType details client) s
          s'.stores t e)
      (fun e s' => 400 ≤ (errorResponse e).status ∧ s'.stores = s.stores ∧
        ((∃ t, Admitted s.stores header valid t) →
          findExistingNat s.stores template.signature = none) ∧
        CreationFailed ((∃ t, Admitted s.stores header valid t) ∧
          findExistingNat s.stores template.signature = none ∧ free s.stores)
          s.tc.NatInstalls s s') := by
  unfold addNatRule
  rw [wp_bind]
  refine wp_mono wp_getTenantId ?_ (fun e s' h => ?_)
  · intro t s' h
    obtain ⟨rfl, ht⟩ := h
    obtain ⟨config, hc⟩ := Dict.mem_iff_get?.mp ht.2.2
    have hu : ∀ t', IsTenant s'.stores header t' → t' = t := fun _ ht' => ht.eq ht'
    rw [wp_bind, wp_getStores]
    simp only [wp_bind, wp_item_of_get? hc]
    split
    · rename_i hq
      have hover : ¬ ∃ t, Admitted s'.stores header valid t := by
        intro h
        obtain ⟨t', h⟩ := h
        have hlt := h.quota config (hu t' h.tenant ▸ hc)
        rw [hu t' h.tenant] at hlt
        omega
      exact ⟨by simp [errorResponse], rfl, fun h => absurd h hover,
        .refused (fun h => hover h.1) rfl⟩
    · rename_i hq
      have hadm : valid ↔ ∃ t, Admitted s'.stores header valid t := by
        constructor
        · intro hv
          refine ⟨t, ht, fun config' hc' => ?_, hv⟩
          rw [hc, Option.some.injEq] at hc'
          subst hc'
          omega
        · intro h
          obtain ⟨_, h⟩ := h
          exact h.mode
      rw [wp_bind, wp_catchTcError]
      refine wp_mono (hadd s') (fun e s'' h => ?_) (fun e s'' h => ?_)
      · simp only [wp_bind, wp_modifyStores, wp_auditLog, wp_pure]
        obtain ⟨hv, h⟩ := h
        obtain ⟨t', hadmt⟩ := hadm.mp hv
        obtain rfl := hu t' hadmt.tenant
        rcases h with ⟨h1, h2⟩ | ⟨h1, hf, hi, inHw, h2, h3⟩
        · exact ⟨t', e, rfl, hadmt, Or.inl ⟨h1, by rw [h2]; rfl⟩⟩
        · exact ⟨t', e, rfl, hadmt, Or.inr ⟨h1, hf, hi, inHw, h2, by rw [h3]; rfl⟩⟩
      · obtain ⟨he, hs, hn, h⟩ := h
        have hn' := fun h => hn (hadm.mpr h)
        have h' := h.congr (and_congr_left' hadm)
        cases e with
        | tcError message => exact ⟨by simp [errorResponse], hs, hn', h'⟩
        | timeoutExpired => exact ⟨by simp [errorResponse], hs, hn', h'⟩
        | _ => exact he.elim
  · obtain ⟨rfl, he, hn⟩ := h
    have hnot : ¬ ∃ t, Admitted s'.stores header valid t := by
      intro h
      obtain ⟨t, ht⟩ := h
      exact hn t ht.tenant
    exact ⟨he, rfl, fun h => absurd h hnot, .refused (fun h => hnot h.1) rfl⟩

/-- **The three NAT creation endpoints** differ in the entry they ask for and in the
details they log. -/
theorem wp_natCreation_answered {c : Call} {template : NATEntry}
    (h : c.request.natTemplate c.newId = some template) {s : Session} :
    wp (handler c) s
      (fun r s' => ∃ details t e, r = ⟨201, .nat { e with tenantId := some t }⟩ ∧
        NatAnswered c.tenantHeader c.newId template c.request.ValidMode
          (Request.PoolFree · c.request) (natCreatedEntry template.type details c.client) s
          s'.stores t e)
      (fun e s' => 400 ≤ (errorResponse e).status ∧ s'.stores = s.stores ∧
        ((∃ t, Admitted s.stores c.tenantHeader c.request.ValidMode t) →
          findExistingNat s.stores template.signature = none) ∧
        CreationFailed ((∃ t, Admitted s.stores c.tenantHeader c.request.ValidMode t) ∧
          findExistingNat s.stores template.signature = none ∧ c.request.PoolFree s.stores)
          s.tc.NatInstalls s s') := by
  unfold handler
  cases hr : c.request with
  | addSnatRule r =>
    rw [hr, Request.natTemplate, Option.some.injEq] at h
    subst h
    exact wp_mono (wp_addNatRule (addSpec_addSnat c.newId r)) (fun _ _ h => ⟨_, h⟩)
      (fun _ _ h => h)
  | addDnatRule r =>
    rw [hr, Request.natTemplate, Option.some.injEq] at h
    subst h
    exact wp_mono (wp_addNatRule (addSpec_addPortNat .dnat (addsFilter_dnatCmd _ _ _ _) c.newId
      r.publicIp r.publicPort.val r.privateIp r.privatePort.val r.protocol))
      (fun _ _ h => ⟨_, h⟩) (fun _ _ h => h)
  | addPortForwardRule r =>
    rw [hr, Request.natTemplate, Option.some.injEq] at h
    subst h
    exact wp_mono (wp_addNatRule (addSpec_addPortNat .forward (addsFilter_forwardCmd _ _ _ _ _)
      c.newId r.publicIp r.publicPort.val r.privateIp r.privatePort.val r.protocol))
      (fun _ _ h => ⟨_, h⟩) (fun _ _ h => h)
  | _ => simp [hr, Request.natTemplate] at h

theorem wp_natCreation_logged {c : Call} {template : NATEntry}
    (h : c.request.natTemplate c.newId = some template) {s : Session} :
    wp (handler c) s
      (fun r s' => r.status = 201 ∧ ∃ details, NatLogged c.tenantHeader c.newId template
        c.request.ValidMode (Request.PoolFree · c.request)
        (natCreatedEntry template.type details c.client) s s'.stores)
      (fun e s' => 400 ≤ (errorResponse e).status ∧ s'.stores = s.stores ∧
        ((∃ t, Admitted s.stores c.tenantHeader c.request.ValidMode t) →
          findExistingNat s.stores template.signature = none) ∧
        CreationFailed ((∃ t, Admitted s.stores c.tenantHeader c.request.ValidMode t) ∧
          findExistingNat s.stores template.signature = none ∧ c.request.PoolFree s.stores)
          s.tc.NatInstalls s s') := by
  refine wp_mono (wp_natCreation_answered h) ?_ (fun _ _ h => h)
  intro r s' h'
  obtain ⟨details, t, e, rfl, h'⟩ := h'
  exact ⟨rfl, details, t, e, h'⟩

theorem wp_natCreation {c : Call} {template : NATEntry}
    (h : c.request.natTemplate c.newId = some template) {s : Session} :
    wp (handler c) s
      (fun r s' => r.status = 201 ∧ NatRecorded c.tenantHeader c.newId template
        c.request.ValidMode (Request.PoolFree · c.request) s s'.stores)
      (fun e s' => 400 ≤ (errorResponse e).status ∧ s'.stores = s.stores ∧
        ((∃ t, Admitted s.stores c.tenantHeader c.request.ValidMode t) →
          findExistingNat s.stores template.signature = none) ∧
        CreationFailed ((∃ t, Admitted s.stores c.tenantHeader c.request.ValidMode t) ∧
          findExistingNat s.stores template.signature = none ∧ c.request.PoolFree s.stores)
          s.tc.NatInstalls s s') := by
  refine wp_mono (wp_natCreation_logged h) ?_ (fun _ _ h => h)
  intro r s' h'
  obtain ⟨hr, details, h'⟩ := h'
  exact ⟨hr, h'.recorded⟩

/-- A registered tenant names an entry that is attributed to it. -/
structure DeletesNat (s : Stores) (header : Option String) (id tenantId : String)
    (e : NATEntry) : Prop where
  tenant : IsTenant s header tenantId
  entry : s.natEntriesDb.get? id = some e
  owner : e.tenantId = some tenantId

/-- `delete_nat_rule` removes an entry of the tenant.  When the rebuild of the
band times out, the entry is gone from `nat_db` only. -/
theorem wp_deleteNatRule {header client : Option String} {ruleId : String} {s : Session} :
    wp (deleteNatRule header client ruleId) s
      (fun _ s' => (∃ t e, DeletesNat s.stores header ruleId t e ∧
        s'.stores = { s.stores.withoutNat ruleId with
          natEntriesDb := s.stores.natEntriesDb.erase ruleId
          audit := s.stores.audit ++ [auditEntry "nat.deleted" "nat_rule" ruleId [] client] }) ∧
        ruleId ∈ s.stores.natDb ∧ RebuildsInTime s ruleId ∧
        ∀ entry, s.stores.natDb.get? ruleId = some entry → s.tc.AllSucceed →
          NatChange [entry.port] s.tc.kernel s'.tc.kernel)
      (fun _ s' => (s' = s ∧
          ((∃ t e, DeletesNat s.stores header ruleId t e) → ruleId ∉ s.stores.natDb)) ∨
        ((∃ t e, DeletesNat s.stores header ruleId t e) ∧ ruleId ∈ s.stores.natDb ∧
          ¬ RebuildsInTime s ruleId ∧ s'.stores = s.stores.withoutNat ruleId)) := by
  unfold deleteNatRule
  rw [wp_bind]
  refine wp_mono wp_getTenantId ?_ ?_
  · intro t s' h
    obtain ⟨rfl, ht⟩ := h
    have hu : ∀ t', IsTenant s'.stores header t' → t' = t := fun _ ht' => ht.eq ht'
    rw [wp_bind, wp_getStores]
    by_cases hid : ruleId ∈ s'.stores.natEntriesDb
    · obtain ⟨e, he⟩ := Dict.mem_iff_get?.mp hid
      rw [if_neg (not_not.mpr hid), wp_bind, wp_item_of_get? he]
      by_cases hown : e.tenantId = some t
      · have hdel : DeletesNat s'.stores header ruleId t e := ⟨ht, he, hown⟩
        rw [if_neg (not_not.mpr hown), wp_bind, wp_catchTcError]
        refine wp_mono wp_removeNat (fun _ s'' h => ?_) (fun exc s'' h => ?_)
        · obtain ⟨hmem, hin, hs, -, hk⟩ := h
          simp only [wp_bind, wp_modifyStores, wp_auditLog, wp_pure, hs]
          exact ⟨⟨t, e, hdel, rfl⟩, hmem, hin, hk⟩
        · have h' : (s'' = s' ∧ ((∃ t e, DeletesNat s'.stores header ruleId t e) →
                ruleId ∉ s'.stores.natDb)) ∨
              ((∃ t e, DeletesNat s'.stores header ruleId t e) ∧ ruleId ∈ s'.stores.natDb ∧
                ¬ RebuildsInTime s' ruleId ∧ s''.stores = s'.stores.withoutNat ruleId) := by
            rcases h with ⟨hmem, h⟩ | h
            · exact Or.inl ⟨h, fun _ => hmem⟩
            · exact Or.inr ⟨⟨t, e, hdel⟩, h⟩
          cases exc <;> exact h'
      · rw [if_pos hown, wp_bind, wp_throw]
        refine Or.inl ⟨rfl, fun h => ?_⟩
        obtain ⟨t', e', h⟩ := h
        have hee : e' = e := Option.some.inj (h.entry.symm.trans he)
        have howner := h.owner
        rw [hee, hu t' h.tenant] at howner
        exact absurd howner hown
    · rw [if_pos hid, wp_bind, wp_throw]
      refine Or.inl ⟨rfl, fun h => ?_⟩
      obtain ⟨t', e', h⟩ := h
      exact absurd (Dict.mem_of_get? h.entry) hid
  · intro exc s' h
    obtain ⟨rfl, -, hn⟩ := h
    refine Or.inl ⟨rfl, fun h => ?_⟩
    obtain ⟨t, e, h⟩ := h
    exact absurd h.tenant (hn t)

theorem wp_flushNatRules {header client : Option String} {s : Session} :
    wp (flushNatRules header client) s
      (fun _ s' => ∃ t s'', IsTenant s.stores header t ∧
        NatIdsRemoved s.stores (tenantNatIds s.stores t) s'' ∧
        s'.stores = { s'' with audit := s.stores.audit ++ [auditEntry "nat.flushed" "nat_rule" "*"
          [("rules_removed", .int (tenantNatIds s.stores t).length)] client] } ∧
        (s.tc.AllSucceed →
          NatChange (natPorts s.stores (tenantNatIds s.stores t)) s.tc.kernel s'.tc.kernel))
      (fun _ s' => s' = s ∧ ∀ t, ¬ IsTenant s.stores header t) := by
  unfold flushNatRules
  rw [wp_bind]
  refine wp_mono wp_getTenantId ?_ (fun _ s' h => ⟨h.1, h.2.2⟩)
  intro t s' h
  obtain ⟨rfl, ht⟩ := h
  rw [wp_bind, wp_getStores, wp_bind]
  refine wp_mono (wp_flushNatIds _ s') (fun _ s'' h => ?_) (fun _ _ h => h.elim)
  simp only [wp_bind, wp_auditLog, wp_pure]
  have haudit : s''.stores.audit = s'.stores.audit := by
    obtain ⟨index', -, hs⟩ := h.1
    rw [hs]
  exact ⟨t, s''.stores, ht, h.1, by rw [haudit], h.2⟩

/-! ### The remaining endpoints -/

/-- The configuration a registration asks for. -/
def TenantRegistrationRequest.config (request : TenantRegistrationRequest) : TenantConfig :=
  ⟨request.tenantId, request.publicIps, request.maxRules, request.maxNatEntries⟩

theorem wp_registerTenant {request : TenantRegistrationRequest} {s : Session} :
    wp (registerTenant request) s
      (fun _ s' => request.tenantId ∉ s.stores.tenants ∧ s'.stores = { s.stores with
        tenants := s.stores.tenants.insert request.tenantId request.config })
      (fun _ s' => s'.stores = s.stores) := by
  unfold registerTenant
  rw [wp_bind, wp_getStores]
  by_cases h : request.tenantId ∈ s.stores.tenants
  · rw [if_pos h, wp_bind, wp_throw]
  · rw [if_neg h]
    exact ⟨h, rfl⟩

/-- `list_rules` shows the rules of the tenant. -/
theorem wp_listRules {header : Option String} {s : Session} :
    wp (listRules header) s
      (fun r s' => s'.stores = s.stores ∧ ∃ t, header = some t ∧
        r.rules = s.stores.rulesDb.values.filter (fun x => decide (x.tenantId = some t)))
      (fun _ s' => s'.stores = s.stores) := by
  unfold listRules
  rw [wp_bind]
  refine wp_mono wp_getTenantId ?_ (fun _ s' h => by rw [h.1])
  intro t s' h
  obtain ⟨rfl, hh, -, -⟩ := h
  exact ⟨rfl, t, hh, rfl⟩

theorem wp_listNatRules {header : Option String} {s : Session} :
    wp (listNatRules header) s (fun _ s' => s'.stores = s.stores)
      (fun _ s' => s'.stores = s.stores) := by
  unfold listNatRules
  rw [wp_bind]
  refine wp_mono wp_getTenantId ?_ (fun _ s' h => by rw [h.1])
  intro t s' h
  obtain ⟨rfl, -, -, -⟩ := h
  exact rfl

end PrismFirewall.TcFirewall
