import PrismFirewall.TcFirewall.Handlers

/-!
# The commands a program issues

Where no answer times out, most programs of the tc layer issue a list of commands that is
known beforehand.  `TcState.afterAll` is the state after such a list, `Issues` says that a
program ends there, and `Issues.bind` puts programs together.  `answersFrom` pairs the
commands with their answers.

At the end the commands of `remove_nat`: the band of the port is emptied, and the entries
that remain on it are added again.
-/

namespace PrismFirewall.TcFirewall

open Lib

/-! ### Commands one after the other -/

/-- The state after the commands have been answered, one after the other. -/
def TcState.afterAll (s : TcState) (cmds : List (List String)) : TcState :=
  cmds.foldl TcState.after s

/-- The commands with their answers, from the `i`-th answer on. -/
def answersFrom (replies : Nat → TcReply) : Nat → List (List String) → List (List String × TcReply)
  | _, [] => []
  | i, cmd :: cmds => (cmd, replies i) :: answersFrom replies (i + 1) cmds

theorem answersFrom_append (replies : Nat → TcReply) (i : Nat) (cmds cmds' : List (List String)) :
    answersFrom replies i (cmds ++ cmds')
      = answersFrom replies i cmds ++ answersFrom replies (i + cmds.length) cmds' := by
  induction cmds generalizing i with
  | nil => rfl
  | cons cmd cmds ih =>
    rw [List.cons_append, answersFrom, answersFrom, ih, List.cons_append, List.length_cons]
    congr 3
    omega

theorem map_fst_answersFrom (replies : Nat → TcReply) (i : Nat) (cmds : List (List String)) :
    (answersFrom replies i cmds).map Prod.fst = cmds := by
  induction cmds generalizing i with
  | nil => rfl
  | cons cmd cmds ih => rw [answersFrom, List.map_cons, ih]

theorem TcState.afterAll_append (s : TcState) (cmds cmds' : List (List String)) :
    s.afterAll (cmds ++ cmds') = (s.afterAll cmds).afterAll cmds' := List.foldl_append

theorem TcState.replies_afterAll (s : TcState) (cmds : List (List String)) :
    (s.afterAll cmds).replies = s.replies := by
  induction cmds generalizing s with
  | nil => rfl
  | cons cmd cmds ih => exact ih (s.after cmd)

theorem TcState.issued_afterAll (s : TcState) (cmds : List (List String)) :
    (s.afterAll cmds).issued
      = (answersFrom s.replies s.issued.length cmds).reverse ++ s.issued := by
  induction cmds generalizing s with
  | nil => rfl
  | cons cmd cmds ih =>
    show ((s.after cmd).afterAll cmds).issued = _
    rw [ih, answersFrom, List.reverse_cons, List.append_assoc]
    rfl

theorem TcState.length_issued_afterAll (s : TcState) (cmds : List (List String)) :
    (s.afterAll cmds).issued.length = s.issued.length + cmds.length := by
  have hlen : (answersFrom s.replies s.issued.length cmds).length = cmds.length := by
    rw [← List.length_map Prod.fst, map_fst_answersFrom]
  rw [TcState.issued_afterAll, List.length_append, List.length_reverse, hlen, Nat.add_comm]

/-- No command times out. -/
def TcState.InTime (s : TcState) : Prop := ∀ i, ¬ (s.replies i).timesOut

theorem TcState.AllSucceed.inTime {s : TcState} (h : s.AllSucceed) : s.InTime :=
  fun i => TcReply.not_timesOut_of_succeeds (h i)

theorem TcState.InTime.afterAll {s : TcState} (h : s.InTime) (cmds : List (List String)) :
    (s.afterAll cmds).InTime := by
  intro i
  rw [TcState.replies_afterAll]
  exact h i

theorem TcState.AllSucceed.afterAll {s : TcState} (h : s.AllSucceed) (cmds : List (List String)) :
    (s.afterAll cmds).AllSucceed := by
  intro i
  rw [TcState.replies_afterAll]
  exact h i

theorem TcState.AllSucceed.after {s : TcState} (h : s.AllSucceed) (cmd : List String) :
    (s.after cmd).AllSucceed := h.afterAll [cmd]

/-- A command that succeeds is executed, and any other changes nothing. -/
theorem TcState.kernel_after (s : TcState) (cmd : List String) :
    ∃ handle, (s.after cmd).kernel =
      if (s.replies s.issued.length).succeeds then s.kernel.exec handle cmd else s.kernel := by
  unfold TcState.after
  cases s.replies s.issued.length with
  | timeout => exact ⟨0, rfl⟩
  | exit returncode stdout stderr handle => exact ⟨handle, by simp [TcReply.succeeds]⟩

theorem TcState.AllSucceed.kernel_after {s : TcState} (h : s.AllSucceed) (cmd : List String) :
    ∃ handle, (s.after cmd).kernel = s.kernel.exec handle cmd := by
  obtain ⟨handle, hk⟩ := s.kernel_after cmd
  rw [if_pos (h _)] at hk
  exact ⟨handle, hk⟩

/-! ### Programs that issue them -/

/-- The program issues exactly these commands and returns. -/
def Issues {α : Type} (m : TcM α) (cmds : List (List String)) (s : TcState) : Prop :=
  wp m s (fun _ s' => s' = s.afterAll cmds) (fun _ _ => False)

theorem issues_pure {α : Type} (a : α) (s : TcState) : Issues (pure a) [] s := rfl

theorem Issues.bind {α β : Type} {m : TcM α} {f : α → TcM β} {cmds cmds' : List (List String)}
    {s : TcState} (h : Issues m cmds s) (h' : ∀ a, Issues (f a) cmds' (s.afterAll cmds)) :
    Issues (m >>= f) (cmds ++ cmds') s := by
  unfold Issues
  rw [wp_bind, TcState.afterAll_append]
  refine wp_mono h (fun a s' hs => ?_) (fun _ _ hf => hf)
  subst hs
  exact h' a

/-- A command whose exit code is not looked at returns in time. -/
theorem issues_runTc {args : List String} {s : TcState} (h : s.InTime) :
    Issues (runTc args false) [args] s := by
  have h0 := h s.issued.length
  unfold Issues
  rw [wp_runTc]
  cases hr : s.replies s.issued.length with
  | timeout =>
    rw [hr] at h0
    exact absurd rfl h0
  | exit returncode stdout stderr handle => rfl

/-- A command whose exit code is looked at raises unless it is `0`. -/
theorem wp_runTc_inTime {args : List String} {s : TcState} (h : s.InTime) :
    wp (runTc args true) s
      (fun _ s' => s' = s.after args ∧ (s.replies s.issued.length).succeeds = true)
      (fun e s' => (∃ message, e = .tcError message) ∧ s' = s.after args ∧
        (s.replies s.issued.length).succeeds = false) := by
  have h0 := h s.issued.length
  rw [wp_runTc]
  cases hr : s.replies s.issued.length with
  | timeout =>
    rw [hr] at h0
    exact absurd rfl h0
  | exit returncode stdout stderr handle =>
    by_cases hzero : returncode = 0
    · simp [hzero, TcReply.succeeds]
    · simp [hzero, TcReply.succeeds]

theorem issues_getLastHandle {dev : String} {priority : Nat} {s : TcState} (h : s.InTime) :
    Issues (getLastHandle dev priority) [showCmd dev priority] s := by
  refine (issues_runTc h).bind (fun result => ?_)
  split
  · exact issues_pure _ _
  · exact issues_pure _ _

theorem issues_checkInHw {dev handle : String} {priority : Nat} {s : TcState}
    (h : s.InTime) : Issues (checkInHw dev handle priority) [showCmd dev priority] s := by
  refine (issues_runTc h).bind (fun result => ?_)
  split
  · exact issues_pure _ _
  · exact issues_pure _ _

theorem issues_installNat {port : String} {cmd : List String} {s : TcState} (h : s.AllSucceed) :
    Issues (installNat port cmd) [cmd, showCmd port natPriority, showCmd port natPriority] s := by
  have hadd : Issues (runTc cmd true) [cmd] s :=
    wp_mono (wp_runTc_inTime h.inTime) (fun _ _ hs => hs.1)
      (fun _ _ hf => by rw [h] at hf; exact absurd hf.2.2 (by simp))
  refine hadd.bind (fun _ => ?_)
  refine (issues_getLastHandle (h.inTime.afterAll _)).bind (fun _ => ?_)
  exact issues_checkInHw ((h.inTime.afterAll _).afterAll _)

/-! ### Adding the remaining entries again -/

/-- The command that adds the filter of a stored entry again. -/
def NATEntry.reapplyCommand (e : NATEntry) : List String :=
  if e.type = .snat then snatCmd e.privateIp e.publicIp
  else if e.type = .forward ∧ truthy e.publicPort ∧ truthy e.privatePort then
    forwardCmd e.publicIp (pyStr e.publicPort) e.privateIp (pyStr e.privatePort)
      (orText e.protocol "tcp")
  else dnatCmd e.publicIp (pyStr e.publicPort) e.privateIp (orText e.protocol "tcp")

theorem port_eq_clientPort_iff {e : NATEntry} : e.port = clientPort ↔ e.type = .snat := by
  have hne : internetPort ≠ clientPort := by decide
  unfold NATEntry.port
  by_cases h : e.type = .snat
  · simp [h]
  · simp [h, hne]

theorem port_eq_internetPort_iff {e : NATEntry} : e.port = internetPort ↔ e.type ≠ .snat := by
  have hne : clientPort ≠ internetPort := by decide
  unfold NATEntry.port
  by_cases h : e.type = .snat
  · simp [h, hne]
  · simp [h]

theorem issues_reapplyEntry (port : String) (e : NATEntry) {s : TcState} (h : s.InTime) :
    Issues (reapplyEntry port e) (if e.port = port then [e.reapplyCommand] else []) s := by
  have hrun : ∀ cmd, Issues (do let _ ← runTc cmd false; return ()) [cmd] s :=
    fun cmd => (issues_runTc h).bind (fun _ => issues_pure _ _)
  unfold reapplyEntry
  by_cases ht : e.type = .snat
  · have hport : e.port = clientPort := port_eq_clientPort_iff.mpr ht
    have hcmd : e.reapplyCommand = snatCmd e.privateIp e.publicIp := if_pos ht
    by_cases hp : port = clientPort
    · rw [if_pos ⟨ht, hp⟩, if_pos (hport.trans hp.symm), hcmd]
      exact hrun _
    · rw [if_neg (fun h => hp h.2), if_neg (fun h => h.1 ht),
        if_neg (fun h => hp (h.symm.trans hport))]
      exact issues_pure _ _
  · have hport : e.port = internetPort := port_eq_internetPort_iff.mpr ht
    rw [if_neg (fun h => ht h.1)]
    by_cases hp : port = internetPort
    · rw [if_pos ⟨ht, hp⟩, if_pos (hport.trans hp.symm), NATEntry.reapplyCommand, if_neg ht]
      exact hrun _
    · rw [if_neg (fun h => hp h.2), if_neg (fun h => hp (h.symm.trans hport))]
      exact issues_pure _ _

/-- The command that empties the band of a port. -/
def delCommand (port : String) : List String :=
  ["filter", "del", "dev", port, "ingress", "prio", toString natPriority]

/-- The entries that have their filter on a port, in their order. -/
def entriesOn (port : String) (entries : List NATEntry) : List NATEntry :=
  entries.filter (fun e => decide (e.port = port))

theorem entriesOn_append (port : String) (l l' : List NATEntry) :
    entriesOn port (l ++ l') = entriesOn port l ++ entriesOn port l' := List.filter_append ..

theorem entriesOn_singleton (port : String) (e : NATEntry) :
    entriesOn port [e] = if e.port = port then [e] else [] := by
  by_cases hp : e.port = port
  · simp [entriesOn, hp]
  · simp [entriesOn, hp]

/-- The commands that rebuild the band of a port with these entries. -/
def rebuildCommands (port : String) (remaining : List NATEntry) : List (List String) :=
  delCommand port :: (entriesOn port remaining).map NATEntry.reapplyCommand

theorem issues_rebuildNat (port : String) (remaining : List NATEntry) {s : TcState}
    (h : s.InTime) : Issues (rebuildNat port remaining) (rebuildCommands port remaining) s := by
  refine (issues_runTc h).bind (fun _ => ?_)
  -- the invariant lists the commands of the entries gone through
  refine wp_forM (I := fun done s' => s' = (s.afterAll [delCommand port]).afterAll
    ((entriesOn port done).map NATEntry.reapplyCommand)) remaining ?_ _ rfl
  intro done e rest s' hl hs
  have hin : s'.InTime := by
    rw [hs]
    exact (h.afterAll _).afterAll _
  refine wp_mono (issues_reapplyEntry port e hin) (fun _ s'' hs'' => ?_) (fun _ _ hf => hf)
  rw [hs'', hs, entriesOn_append, List.map_append, TcState.afterAll_append, entriesOn_singleton]
  split
  · rfl
  · rfl

/-- **`remove_nat` in time**: it raises only for an entry that is not there. -/
theorem wp_removeNat_inTime {id : String} {s : Session} (h : s.tc.InTime) :
    wp (removeNat id) s
      (fun _ s' => ∃ e, s.stores.natDb.get? id = some e ∧ s' = ⟨s.stores.withoutNat id,
        s.tc.afterAll (rebuildCommands e.port (s.stores.natDb.erase id).values)⟩)
      (fun _ s' => id ∉ s.stores.natDb ∧ s' = s) := by
  unfold removeNat
  rw [wp_bind, wp_getStores]
  by_cases hid : id ∈ s.stores.natDb
  · obtain ⟨e, he⟩ := Dict.mem_iff_get?.mp hid
    rw [if_neg (not_not.mpr hid), wp_bind, wp_item_of_get? he, wp_bind, wp_modifyStores, wp_tc]
    refine wp_mono (issues_rebuildNat e.port _ h) (fun _ t ht => ?_) (fun _ _ hf => hf.elim)
    subst ht
    exact ⟨e, he, rfl⟩
  · rw [if_pos hid, wp_bind, wp_throw]
    exact ⟨hid, rfl⟩

end PrismFirewall.TcFirewall
