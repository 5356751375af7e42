import Mathlib.Data.List.Sort
import PrismFirewall.Lib.Run
import PrismFirewall.TcFirewall.Install

/-!
# Which filter a recorded handle names

tc does not report the handle of a filter that it adds.  `_get_last_handle` lists
the filters of the preference and takes the last handle, and a rule is deleted
later through the two handles that were recorded for it.

The kernel is assumed to give a new filter a handle that is not in use on its
device at its preference, and to list filters by ascending handle (`KernelGives`).
The last handle of such a listing is the largest, which is that of the new filter
only if the kernel gave the largest: a handle that was freed and is given again
need not be.  `InOrder` is this condition, and `recorded_handles_right` says that
along runs that meet it every recorded handle is that of its filter and a deletion
takes out the filters of the deleted rule and no others.

The invariant is `Tracked`, which puts the same for each of the two ports
(`PortOk`).
-/

namespace PrismFirewall.TcFirewall

open Lib

/-! ### Handles in a list of filters -/

/-- A handle as tc prints it. -/
def hexHandle (handle : Nat) : String := "0x" ++ String.ofList (Nat.toDigits 16 handle)

theorem hexHandle_inj {m n : Nat} (h : hexHandle m = hexHandle n) : m = n := by
  have hlists := congrArg String.toList h
  simp only [hexHandle, String.toList_append, List.append_cancel_left_eq, String.toList_ofList]
    at hlists
  exact Text.toDigits_injective (by decide) (by decide) hlists

theorem hexHandle_ne_empty (n : Nat) : hexHandle n ≠ "" := by
  intro h
  have hlists := congrArg String.toList h
  simp [hexHandle] at hlists

/-- The handles in use at a preference. -/
def handlesAt (l : List Filter) (prio : String) : List Nat :=
  (l.filter (fun f => f.prio == prio)).map Filter.handle

theorem mem_handlesAt {l : List Filter} {prio : String} {h : Nat} :
    h ∈ handlesAt l prio ↔ ∃ f ∈ l, f.prio = prio ∧ f.handle = h := by
  simp only [handlesAt, List.mem_map, List.mem_filter, beq_iff_eq, and_assoc]

theorem handlesAt_append_singleton (l : List Filter) (f : Filter) (prio : String) :
    handlesAt (l ++ [f]) prio = handlesAt l prio ++ if f.prio = prio then [f.handle] else [] := by
  rw [handlesAt, List.filter_append, List.map_append, ← handlesAt]
  by_cases hf : f.prio = prio
  · simp [hf]
  · simp [hf]

theorem insertionSort_append_singleton {l : List Nat} {a : Nat} (h : ∀ x ∈ l, x < a) :
    (l ++ [a]).insertionSort (· ≤ ·) = l.insertionSort (· ≤ ·) ++ [a] := by
  refine List.Perm.eq_of_sortedLE List.sortedLE_insertionSort ?_ ?_
  · rw [List.sortedLE_iff_pairwise, List.pairwise_append]
    refine ⟨List.pairwise_insertionSort _ _, by simp, ?_⟩
    intro x hx y hy
    rw [List.mem_insertionSort] at hx
    rw [List.mem_singleton] at hy
    exact hy ▸ (h x hx).le
  · exact (List.perm_insertionSort _ _).trans
      ((List.perm_insertionSort _ l).symm.append_right [a])

/-! ### The kernel -/

/-- The handles that the answer to a listing shows, if it was answered. -/
def TcReply.shown : TcReply → Option (List String)
  | .exit returncode stdout _ _ =>
    if returncode = 0 then some (findHandles stdout.toList) else none
  | .timeout => none

/-- What is assumed of the kernel when a filter is added to `l` and then listed: the
handle is not in use, and the listing has the handles in ascending order. -/
def KernelGives (l : List Filter) (priority : Nat) (add listing : TcReply) : Prop :=
  add.succeeds = true → add.handle ∉ handlesAt l (toString priority) ∧
    ∀ shown ∈ listing.shown,
      shown = ((handlesAt l (toString priority) ++ [add.handle]).insertionSort (· ≤ ·)).map
        hexHandle

instance (l : List Filter) (priority : Nat) (add listing : TcReply) :
    Decidable (KernelGives l priority add listing) :=
  inferInstanceAs (Decidable (_ → _ ∧ ∀ shown ∈ _, _))

/-- The new handle is larger than every handle in use, and the listing is answered. -/
def GivesLargest (l : List Filter) (priority : Nat) (add listing : TcReply) : Prop :=
  (∀ h ∈ handlesAt l (toString priority), h < add.handle) ∧ listing.succeeds = true

instance (l : List Filter) (priority : Nat) (add listing : TcReply) :
    Decidable (GivesLargest l priority add listing) :=
  inferInstanceAs (Decidable (_ ∧ _))

/-- **The last handle of the listing** is the new one if the new one is the
largest. -/
theorem lastHandle_of_givesLargest {l : List Filter} {priority : Nat} {add listing : TcReply}
    (hadd : add.succeeds = true) (hk : KernelGives l priority add listing)
    (hg : GivesLargest l priority add listing) : listing.lastHandle = hexHandle add.handle := by
  obtain ⟨hlarge, hlist⟩ := hg
  cases listing with
  | timeout => simp [TcReply.succeeds] at hlist
  | exit returncode stdout stderr handle =>
    have h0 : returncode = 0 := by simpa [TcReply.succeeds] using hlist
    have hshown := (hk hadd).2 (findHandles stdout.toList) (by simp [TcReply.shown, h0])
    rw [insertionSort_append_singleton hlarge, List.map_append] at hshown
    simp [TcReply.lastHandle, h0, hshown]

/-! ### Rules -/

/-- A handle as it was recorded, and the filter it was recorded for. -/
structure Record where
  handle : String
  filter : Filter

structure RuleRecord where
  priority : Nat
  forward : Record
  reverse : Record

/-- What `add_allow_rule` and `add_deny_rule` are called with. -/
structure RuleArgs where
  action : RuleAction
  srcIp : Option String
  dstIp : Option String
  srcPort : Option Nat
  dstPort : Option Nat
  protocol : String
  priority : Nat

namespace RuleArgs

def add (a : RuleArgs) : TcM (String × String) :=
  match a.action with
  | .ALLOW => addAllowRule a.srcIp a.dstIp a.srcPort a.dstPort a.protocol a.priority
  | .DENY => addDenyRule a.srcIp a.dstIp a.srcPort a.dstPort a.protocol a.priority

/-- The filter that is added on the internet port. -/
def forward (a : RuleArgs) (handle : Nat) : Filter :=
  ⟨toString a.priority, handle,
    flowerKeys a.srcIp a.dstIp a.srcPort a.dstPort a.protocol ++ forwardAction a.action⟩

/-- The filter that is added on the client port. -/
def reverse (a : RuleArgs) (handle : Nat) : Filter :=
  ⟨toString a.priority, handle,
    flowerKeys a.dstIp a.srcIp a.dstPort a.srcPort a.protocol ++ reverseAction a.action⟩

/-- What is recorded for a rule: the handles that were returned, and the filters the
kernel added. -/
def record (a : RuleArgs) (returned : String × String) (replies : Nat → TcReply) : RuleRecord where
  priority := a.priority
  forward := ⟨returned.1, a.forward (replies 0).handle⟩
  reverse := ⟨returned.2, a.reverse (replies 2).handle⟩

end RuleArgs

/-- Delete the two filters of a rule through their recorded handles. -/
def RuleRecord.remove (r : RuleRecord) : TcM Unit := do
  removeRule internetPort r.forward.handle r.priority
  removeRule clientPort r.reverse.handle r.priority

/-! ### The machine -/

/-- The kernel and the rules that are on record. -/
structure Tables (κ : Type) where
  kernel : Kernel
  rules : κ → Option RuleRecord

/-- A call, with the answers its commands get. -/
inductive TableOp (κ : Type)
  | add (id : κ) (args : RuleArgs) (replies : Nat → TcReply)
  | remove (id : κ) (replies : Nat → TcReply)

section Tables

variable {κ : Type} [DecidableEq κ]

/-- Rules are added under new identifiers.  A deletion forgets the rule, also when
a command of it failed, unless it ran into a time-out. -/
def Tables.step (w : Tables κ) : TableOp κ → Option (Except Exc (String × String)) × Tables κ
  | .add id args replies =>
    match w.rules id with
    | some _ => (none, w)
    | none =>
      match args.add ⟨w.kernel, replies, []⟩ with
      | .ok r s => (some (.ok r),
          ⟨s.kernel, Function.update w.rules id (some (args.record r replies))⟩)
      | .error e s => (some (.error e), { w with kernel := s.kernel })
  | .remove id replies =>
    match w.rules id with
    | none => (none, w)
    | some rule =>
      match rule.remove ⟨w.kernel, replies, []⟩ with
      | .ok _ s => (none, ⟨s.kernel, Function.update w.rules id none⟩)
      | .error .timeoutExpired s => (none, { w with kernel := s.kernel })
      | .error _ s => (none, ⟨s.kernel, Function.update w.rules id none⟩)

/-- Rules are added to empty tables and deleted again. -/
def tables : Machine (Tables κ) (TableOp κ) (Option (Except Exc (String × String))) where
  init := ⟨⟨[], []⟩, fun _ => none⟩
  step := Tables.step

/-- The assumption on the kernel. -/
def KernelPromise (w : Tables κ) : TableOp κ → Prop
  | .add _ args replies =>
    KernelGives w.kernel.internet args.priority (replies 0) (replies 1) ∧
      KernelGives w.kernel.client args.priority (replies 2) (replies 3)
  | .remove _ _ => True

/-- The answers with which both filters are added and their handles returned. -/
def AddReturns (replies : Nat → TcReply) : Prop :=
  (replies 0).succeeds = true ∧ (replies 1).timesOut = false ∧
    (replies 2).succeeds = true ∧ (replies 3).timesOut = false

instance (w : Tables κ) : (op : TableOp κ) → Decidable (KernelPromise w op)
  | .add .. => inferInstanceAs (Decidable (_ ∧ _))
  | .remove .. => inferInstanceAs (Decidable True)

instance (replies : Nat → TcReply) : Decidable (AddReturns replies) :=
  inferInstanceAs (Decidable (_ ∧ _ ∧ _ ∧ _))

/-- The handles given to a rule are the largest ones at its preference, and a
deletion does not stop at a time-out between its two filters. -/
def InOrder (w : Tables κ) : TableOp κ → Prop
  | .add id args replies => w.rules id = none → AddReturns replies →
    GivesLargest w.kernel.internet args.priority (replies 0) (replies 1) ∧
      GivesLargest w.kernel.client args.priority (replies 2) (replies 3)
  | .remove _ replies => ¬ ((replies 0).succeeds = true ∧ (replies 1).timesOut = true)

instance (w : Tables κ) : (op : TableOp κ) → Decidable (InOrder w op)
  | .add .. => inferInstanceAs (Decidable (_ → _ → _ ∧ _))
  | .remove .. => inferInstanceAs (Decidable (¬ (_ ∧ _)))

end Tables

/-! ### What the calls do -/

theorem RuleArgs.add_eq (a : RuleArgs) :
    a.add = (do
      let fwdHandle ← addFilter (forwardAction a.action) internetPort a.srcIp a.dstIp a.srcPort
        a.dstPort a.protocol a.priority
      let revHandle ← addFilter (reverseAction a.action) clientPort a.dstIp a.srcIp a.dstPort
        a.srcPort a.protocol a.priority
      return (fwdHandle, revHandle)) := by
  unfold RuleArgs.add
  cases a.action with
  | ALLOW => rfl
  | DENY => rfl

theorem Kernel.modifyDev_internet (k : Kernel) (f : List Filter → List Filter) :
    k.modifyDev internetPort f = ⟨f k.internet, k.client⟩ := rfl

theorem Kernel.modifyDev_client (k : Kernel) (f : List Filter → List Filter) :
    k.modifyDev clientPort f = ⟨k.internet, f k.client⟩ := rfl

/-- **Adding a rule**: both filters are in and the handles are read from the two
listings, or it raises with none, one or both of them in. -/
theorem wp_ruleArgs_add (a : RuleArgs) (k : Kernel) (replies : Nat → TcReply) :
    wp a.add ⟨k, replies, []⟩
      (fun r s => AddReturns replies ∧ r = ((replies 1).lastHandle, (replies 3).lastHandle) ∧
        s.kernel = ⟨k.internet ++ [a.forward (replies 0).handle],
          k.client ++ [a.reverse (replies 2).handle]⟩)
      (fun _ s => s.kernel = k ∨ ((replies 0).succeeds = true ∧
        (s.kernel = ⟨k.internet ++ [a.forward (replies 0).handle], k.client⟩ ∨
          ((replies 2).succeeds = true ∧ s.kernel =
            ⟨k.internet ++ [a.forward (replies 0).handle],
              k.client ++ [a.reverse (replies 2).handle]⟩)))) := by
  have hreply : ∀ i, TcState.reply ⟨k, replies, []⟩ i = replies i := by
    intro i
    simp [TcState.reply]
  rw [RuleArgs.add_eq, wp_bind]
  refine wp_mono wp_addFilter ?_ ?_
  · intro fwd s1 h
    obtain ⟨h0, h1, hm, hfwd, hk1⟩ := h
    have hreply1 : ∀ i, s1.reply i = replies (2 + i) := by
      intro i
      rw [hm.reply, hreply]
    rw [hreply] at h0 h1 hfwd hk1
    rw [Kernel.modifyDev_internet] at hk1
    rw [wp_bind]
    refine wp_mono wp_addFilter ?_ ?_
    · intro rev s2 h
      obtain ⟨h2, h3, -, hrev, hk2⟩ := h
      rw [hreply1] at h2 h3 hrev hk2
      rw [hk1, Kernel.modifyDev_client] at hk2
      refine ⟨⟨h0, by simpa using h1, h2, by simpa using h3⟩, ?_, hk2⟩
      rw [hfwd, hrev]
    · intro e s2 h
      obtain ⟨-, ⟨-, hk2⟩ | ⟨h2, -, hk2⟩⟩ := h
      · exact Or.inr ⟨h0, Or.inl (hk2.trans hk1)⟩
      · rw [hreply1] at h2 hk2
        rw [hk1, Kernel.modifyDev_client] at hk2
        exact Or.inr ⟨h0, Or.inr ⟨h2, hk2⟩⟩
  · intro e s1 h
    obtain ⟨-, ⟨-, hk1⟩ | ⟨h0, -, hk1⟩⟩ := h
    · exact Or.inl hk1
    · rw [hreply] at h0 hk1
      exact Or.inr ⟨h0, Or.inl hk1⟩

/-- The filters that a deletion by preference and handle leaves. -/
def deleteAt (l : List Filter) (prio handle : String) : List Filter :=
  l.filter (fun f => !(f.prio == prio && f.handleText == handle))

theorem wp_removeRule {dev handle : String} {priority : Nat} (hh : handle ≠ "") {s : TcState} :
    wp (removeRule dev handle priority) s
      (fun _ s' => (s.reply 0).succeeds = true ∧ s.Moved 1 s' ∧
        s'.kernel = s.kernel.modifyDev dev (fun l => deleteAt l (toString priority) handle))
      (fun e s' => (s.reply 0).succeeds = false ∧ s'.kernel = s.kernel ∧
        (e = .timeoutExpired → (s.reply 0).timesOut = true)) := by
  unfold removeRule
  rw [if_neg hh, wp_bind, wp_runTc]
  have hmoved := s.moved_after ["filter", "del", "dev", dev, "ingress", "prio", toString priority,
    "handle", handle, "flower"]
  unfold TcState.reply
  rw [Nat.add_zero]
  cases hr : s.replies s.issued.length with
  | timeout => simp [hr, TcReply.succeeds, TcReply.timesOut, TcState.after]
  | exit returncode stdout stderr h =>
    by_cases h0 : returncode = 0
    · simp only [h0, bne_self_eq_false, Bool.and_false, Bool.false_eq_true, if_false, wp_pure,
        TcReply.succeeds]
      exact ⟨rfl, hmoved, by simp [TcState.after, hr, h0]; rfl⟩
    · simp [hr, h0, TcReply.succeeds, TcState.after]

/-- **Deleting a rule**: the second filter is tried only after the first is gone. -/
theorem wp_ruleRecord_remove (r : RuleRecord) (hf : r.forward.handle ≠ "")
    (hr : r.reverse.handle ≠ "") (k : Kernel) (replies : Nat → TcReply) :
    wp r.remove ⟨k, replies, []⟩
      (fun _ s => (replies 0).succeeds = true ∧ (replies 1).succeeds = true ∧
        s.kernel = ⟨deleteAt k.internet (toString r.priority) r.forward.handle,
          deleteAt k.client (toString r.priority) r.reverse.handle⟩)
      (fun e s => ((replies 0).succeeds = false ∧ s.kernel = k) ∨
        ((replies 0).succeeds = true ∧ (replies 1).succeeds = false ∧
          (e = .timeoutExpired → (replies 1).timesOut = true) ∧
          s.kernel = ⟨deleteAt k.internet (toString r.priority) r.forward.handle, k.client⟩)) := by
  have hreply : ∀ i, TcState.reply ⟨k, replies, []⟩ i = replies i := by
    intro i
    simp [TcState.reply]
  unfold RuleRecord.remove
  rw [wp_bind]
  refine wp_mono (wp_removeRule hf) ?_ ?_
  · intro _ s1 h
    obtain ⟨h0, hm, hk1⟩ := h
    rw [hreply] at h0
    rw [Kernel.modifyDev_internet] at hk1
    refine wp_mono (wp_removeRule hr) ?_ ?_
    · intro _ s2 h
      obtain ⟨h1, -, hk2⟩ := h
      rw [hm.reply, hreply] at h1
      rw [hk1, Kernel.modifyDev_client] at hk2
      exact ⟨h0, h1, hk2⟩
    · intro e s2 h
      obtain ⟨h1, hk2, he⟩ := h
      rw [hm.reply, hreply] at h1 he
      exact Or.inr ⟨h0, h1, he, hk2.trans hk1⟩
  · intro e s1 h
    obtain ⟨h0, hk1, -⟩ := h
    rw [hreply] at h0
    exact Or.inl ⟨h0, hk1⟩

/-! ### One port -/

section Port

variable {κ : Type} {l : List Filter} {part : RuleRecord → Record}
  {rules : κ → Option RuleRecord}

/-- On one port no handle is in use twice at a preference, and the handle recorded
for a rule is that of its own filter.  `part` is the half of a rule that is on this
port. -/
structure PortOk (l : List Filter) (part : RuleRecord → Record)
    (rules : κ → Option RuleRecord) : Prop where
  nodup : ∀ prio, (handlesAt l prio).Nodup
  handle_eq : ∀ {id rule}, rules id = some rule →
    (part rule).handle = hexHandle (part rule).filter.handle
  prio_eq : ∀ {id rule}, rules id = some rule →
    (part rule).filter.prio = toString rule.priority
  mem : ∀ {id rule}, rules id = some rule → (part rule).filter ∈ l
  inj : ∀ {id id' rule rule'}, rules id = some rule → rules id' = some rule' →
    (part rule).filter = (part rule').filter → id = id'

/-- A preference and a handle name one filter. -/
theorem PortOk.eq_of_handle_eq (h : PortOk l part rules) {f g : Filter} (hf : f ∈ l) (hg : g ∈ l)
    (hprio : f.prio = g.prio) (hhandle : f.handle = g.handle) : f = g := by
  have hf' : f ∈ l.filter (fun x => x.prio == g.prio) := by simp [hf, hprio]
  have hg' : g ∈ l.filter (fun x => x.prio == g.prio) := by simp [hg]
  exact List.inj_on_of_nodup_map (h.nodup g.prio) hf' hg' hhandle

theorem PortOk.handle_ne_empty (h : PortOk l part rules) {id : κ} {rule : RuleRecord}
    (hr : rules id = some rule) : (part rule).handle ≠ "" := by
  rw [h.handle_eq hr]
  exact hexHandle_ne_empty _

theorem PortOk.nodup_filters (h : PortOk l part rules) : l.Nodup := by
  rw [List.nodup_iff_count_le_one]
  intro f
  have hle := List.nodup_iff_count_le_one.mp (h.nodup f.prio) f.handle
  calc l.count f = (l.filter (fun g => g.prio == f.prio)).count f := by
        rw [List.count_filter (by simp)]
    _ ≤ (handlesAt l f.prio).count f.handle := List.count_le_count_map
    _ ≤ 1 := hle

/-- **Deleting by handle** takes out one filter: that of the rule. -/
theorem PortOk.deleteAt_eq (h : PortOk l part rules) {id : κ} {rule : RuleRecord}
    (hr : rules id = some rule) :
    deleteAt l (toString rule.priority) (part rule).handle = l.erase (part rule).filter := by
  rw [h.nodup_filters.erase_eq_filter, deleteAt]
  refine List.filter_congr ?_
  intro f hf
  rw [h.handle_eq hr, ← h.prio_eq hr]
  by_cases he : f = (part rule).filter
  · simp [he, Filter.handleText, hexHandle]
  · have hne : ¬ (f.prio = (part rule).filter.prio ∧
        f.handleText = hexHandle (part rule).filter.handle) :=
      fun hb => he (h.eq_of_handle_eq hf (h.mem hr) hb.1 (hexHandle_inj hb.2))
    have hkept : (f.prio == (part rule).filter.prio &&
        f.handleText == hexHandle (part rule).filter.handle) = false := by simpa using hne
    rw [hkept]
    simp [he]

/-- A filter with an unused handle joins the port; no rule need have it. -/
theorem PortOk.append (h : PortOk l part rules) {f : Filter}
    (hf : f.handle ∉ handlesAt l f.prio) : PortOk (l ++ [f]) part rules where
  nodup prio := by
    rw [handlesAt_append_singleton]
    by_cases hp : f.prio = prio
    · subst hp
      rw [if_pos rfl, List.nodup_append]
      refine ⟨h.nodup _, by simp, ?_⟩
      intro x hx y hy hxy
      rw [List.mem_singleton] at hy
      exact hf (hy ▸ hxy ▸ hx)
    · rw [if_neg hp, List.append_nil]
      exact h.nodup prio
  handle_eq := h.handle_eq
  prio_eq := h.prio_eq
  mem hr := List.mem_append_left _ (h.mem hr)
  inj := h.inj

variable [DecidableEq κ]

/-- The new filter goes on record with the handle that it has. -/
theorem PortOk.record (h : PortOk l part rules) (id : κ) (rule : RuleRecord)
    (hf : (part rule).filter.handle ∉ handlesAt l (part rule).filter.prio)
    (hprio : (part rule).filter.prio = toString rule.priority)
    (hhandle : (part rule).handle = hexHandle (part rule).filter.handle) :
    PortOk (l ++ [(part rule).filter]) part (Function.update rules id (some rule)) := by
  have hnew : (part rule).filter ∉ l := fun hm => hf (mem_handlesAt.mpr ⟨_, hm, rfl, rfl⟩)
  have hget : ∀ {id' rule'}, Function.update rules id (some rule) id' = some rule' →
      (id' = id ∧ rule' = rule) ∨ (id' ≠ id ∧ rules id' = some rule') := by
    intro id' rule' hr
    rw [Function.update_apply] at hr
    by_cases hid : id' = id
    · rw [if_pos hid] at hr
      exact Or.inl ⟨hid, (Option.some.inj hr).symm⟩
    · rw [if_neg hid] at hr
      exact Or.inr ⟨hid, hr⟩
  refine ⟨(h.append hf).nodup, ?_, ?_, ?_, ?_⟩
  · intro id' rule' hr
    rcases hget hr with ⟨-, rfl⟩ | ⟨-, hr⟩
    · exact hhandle
    · exact h.handle_eq hr
  · intro id' rule' hr
    rcases hget hr with ⟨-, rfl⟩ | ⟨-, hr⟩
    · exact hprio
    · exact h.prio_eq hr
  · intro id' rule' hr
    rcases hget hr with ⟨-, rfl⟩ | ⟨-, hr⟩
    · exact List.mem_append_right _ (List.mem_singleton.mpr rfl)
    · exact List.mem_append_left _ (h.mem hr)
  · intro i j r r' hi hj he
    rcases hget hi with ⟨rfl, rfl⟩ | ⟨-, hi'⟩
    · rcases hget hj with ⟨rfl, -⟩ | ⟨-, hj'⟩
      · rfl
      · exact absurd (he ▸ h.mem hj') hnew
    · rcases hget hj with ⟨rfl, rfl⟩ | ⟨-, hj'⟩
      · exact absurd (he ▸ h.mem hi') hnew
      · exact h.inj hi' hj' he

/-- A rule is forgotten; its filter may stay behind. -/
theorem PortOk.forget (h : PortOk l part rules) (id : κ) :
    PortOk l part (Function.update rules id none) := by
  have hget : ∀ {id' rule'}, Function.update rules id none id' = some rule' →
      rules id' = some rule' := by
    intro id' rule' hr
    rw [Function.update_apply] at hr
    by_cases hid : id' = id
    · simp [hid] at hr
    · rwa [if_neg hid] at hr
  exact ⟨h.nodup, fun hr => h.handle_eq (hget hr), fun hr => h.prio_eq (hget hr),
    fun hr => h.mem (hget hr), fun hi hj he => h.inj (hget hi) (hget hj) he⟩

/-- A rule and its filter go together. -/
theorem PortOk.erase (h : PortOk l part rules) {id : κ} {rule : RuleRecord}
    (hr : rules id = some rule) :
    PortOk (l.erase (part rule).filter) part (Function.update rules id none) := by
  have hfor := h.forget id
  refine ⟨?_, hfor.handle_eq, hfor.prio_eq, ?_, hfor.inj⟩
  · intro prio
    exact (h.nodup prio).sublist (((List.erase_sublist).filter _).map _)
  · intro id' rule' hr'
    have hid : id' ≠ id := by
      intro hid
      simp [hid] at hr'
    rw [Function.update_of_ne hid] at hr'
    have hne : (part rule').filter ≠ (part rule).filter := fun he => hid (h.inj hr' hr he)
    exact (List.mem_erase_of_ne hne).mpr (h.mem hr')

end Port

/-! ### Runs -/

section Runs

variable {κ : Type} [DecidableEq κ]

/-- Both ports are in order. -/
structure Tracked (w : Tables κ) : Prop where
  internet : PortOk w.kernel.internet RuleRecord.forward w.rules
  client : PortOk w.kernel.client RuleRecord.reverse w.rules

theorem tracked_init : Tracked (tables.init : Tables κ) where
  internet := ⟨fun _ => List.nodup_nil, nofun, nofun, nofun, nofun⟩
  client := ⟨fun _ => List.nodup_nil, nofun, nofun, nofun, nofun⟩

/-- **One addition** keeps the ports in order and returns the handles of the filters
it added. -/
theorem tracked_add {w : Tables κ} (h : Tracked w) {id : κ} {args : RuleArgs}
    {replies : Nat → TcReply} (hk : KernelPromise w (.add id args replies))
    (hc : InOrder w (.add id args replies)) :
    Tracked (w.step (.add id args replies)).2 ∧
      ∀ r, (w.step (.add id args replies)).1 = some (.ok r) →
        r = (hexHandle (replies 0).handle, hexHandle (replies 2).handle) ∧
        (w.step (.add id args replies)).2.kernel =
          ⟨w.kernel.internet ++ [args.forward (replies 0).handle],
            w.kernel.client ++ [args.reverse (replies 2).handle]⟩ := by
  obtain ⟨hki, hkc⟩ := hk
  cases hid : w.rules id with
  | some rule =>
    simp only [Tables.step, hid]
    exact ⟨h, fun _ hr => by cases hr⟩
  | none =>
    have hw := wp_ruleArgs_add args w.kernel replies
    unfold wp at hw
    cases he : args.add ⟨w.kernel, replies, []⟩ with
    | ok r s =>
      rw [he] at hw
      obtain ⟨hret, rfl, hkernel⟩ := hw
      obtain ⟨hli, hlc⟩ := hc hid hret
      have hfwd := lastHandle_of_givesLargest hret.1 hki hli
      have hrev := lastHandle_of_givesLargest hret.2.2.1 hkc hlc
      simp only [Tables.step, hid, he, hkernel]
      refine ⟨⟨?_, ?_⟩, ?_⟩
      · exact h.internet.record id (args.record _ replies) (hki hret.1).1 rfl hfwd
      · exact h.client.record id (args.record _ replies) (hkc hret.2.2.1).1 rfl hrev
      · intro r hr
        cases hr
        rw [hfwd, hrev]
        exact ⟨rfl, trivial⟩
    | error e s =>
      rw [he] at hw
      simp only [Tables.step, hid, he]
      refine ⟨?_, fun _ hr => by cases hr⟩
      -- what a failed addition leaves behind belongs to no rule
      rcases hw with hkernel | ⟨h0, hkernel | ⟨h2, hkernel⟩⟩
      · rw [hkernel]
        exact h
      · rw [hkernel]
        exact ⟨h.internet.append (hki h0).1, h.client⟩
      · rw [hkernel]
        exact ⟨h.internet.append (hki h0).1, h.client.append (hkc h2).1⟩

/-- **One deletion** takes out the filters of its rule, as far as its commands
succeed. -/
theorem tracked_remove {w : Tables κ} (h : Tracked w) {id : κ} {replies : Nat → TcReply}
    (hc : InOrder w (.remove id replies)) :
    Tracked (w.step (.remove id replies)).2 ∧
      (∀ id', id' ≠ id → (w.step (.remove id replies)).2.rules id' = w.rules id') ∧
      ∀ rule, w.rules id = some rule → (w.step (.remove id replies)).2.kernel =
        ⟨if (replies 0).succeeds then w.kernel.internet.erase rule.forward.filter
          else w.kernel.internet,
          if (replies 0).succeeds && (replies 1).succeeds then
            w.kernel.client.erase rule.reverse.filter else w.kernel.client⟩ := by
  cases hid : w.rules id with
  | none =>
    simp only [Tables.step, hid]
    exact ⟨h, fun _ _ => trivial, fun _ hr => by cases hr⟩
  | some rule =>
    have hi := h.internet.deleteAt_eq hid
    have hcl := h.client.deleteAt_eq hid
    have hw := wp_ruleRecord_remove rule (h.internet.handle_ne_empty hid)
      (h.client.handle_ne_empty hid) w.kernel replies
    unfold wp at hw
    have hother : ∀ id', id' ≠ id → Function.update w.rules id none id' = w.rules id' :=
      fun id' hne => Function.update_of_ne hne _ _
    cases he : rule.remove ⟨w.kernel, replies, []⟩ with
    | ok _ s =>
      rw [he] at hw
      obtain ⟨h0, h1, hkernel⟩ := hw
      rw [hi, hcl] at hkernel
      simp only [Tables.step, hid, he]
      refine ⟨?_, hother, ?_⟩
      · rw [hkernel]
        exact ⟨h.internet.erase hid, h.client.erase hid⟩
      · rintro _ ⟨⟩
        simp [hkernel, h0, h1]
    | error e s =>
      rw [he] at hw
      rcases hw with ⟨h0, hkernel⟩ | ⟨h0, h1, hexp, hkernel⟩
      · -- the first command failed: no filter is gone
        have hforget : Tracked (⟨s.kernel, Function.update w.rules id none⟩ : Tables κ) := by
          rw [hkernel]
          exact ⟨h.internet.forget id, h.client.forget id⟩
        cases e with
        | timeoutExpired =>
          simp only [Tables.step, hid, he]
          refine ⟨by rw [hkernel]; exact h, fun _ _ => trivial, ?_⟩
          rintro _ ⟨⟩
          simp [hkernel, h0]
        | _ =>
          simp only [Tables.step, hid, he]
          refine ⟨hforget, hother, ?_⟩
          rintro _ ⟨⟩
          simp [hkernel, h0]
      · -- the second command failed, and not by a time-out
        rw [hi] at hkernel
        have hforget : Tracked (⟨s.kernel, Function.update w.rules id none⟩ : Tables κ) := by
          rw [hkernel]
          exact ⟨h.internet.erase hid, h.client.forget id⟩
        cases e with
        | timeoutExpired => exact absurd ⟨h0, hexp rfl⟩ hc
        | _ =>
          simp only [Tables.step, hid, he]
          refine ⟨hforget, hother, ?_⟩
          rintro _ ⟨⟩
          simp [hkernel, h0, h1]

theorem tracked_run (ops : List (TableOp κ))
    (h : tables.Meets (fun w op => KernelPromise w op ∧ InOrder w op) ops) :
    Tracked (tables.run ops) := by
  refine tables.run_induction_of_meets (P := fun _ w => Tracked w) tracked_init ?_ ops h
  intro _ op w hw hop
  cases op with
  | add id args replies => exact (tracked_add hw hop.1 hop.2).1
  | remove id replies => exact (tracked_remove hw hop.2).1

/-- **Recorded handles are the right ones.**  Where every new filter is given the
largest handle at its preference, an addition returns the handles of the two filters
it added, and a deletion takes out exactly the two filters of its rule: those of
every other rule stay, whatever its commands answer. -/
theorem recorded_handles_right (ops : List (TableOp κ)) (hk : tables.Meets KernelPromise ops)
    (hc : tables.Meets InOrder ops) :
    (∀ l₁ id args replies l₂, ops = l₁ ++ .add id args replies :: l₂ → ∀ fwdHandle revHandle,
      (tables.step (tables.run l₁) (.add id args replies)).1 =
        some (.ok (fwdHandle, revHandle)) →
      fwdHandle = (args.forward (replies 0).handle).handleText ∧
      revHandle = (args.reverse (replies 2).handle).handleText ∧
      (tables.run (l₁ ++ [.add id args replies])).kernel =
        ⟨(tables.run l₁).kernel.internet ++ [args.forward (replies 0).handle],
          (tables.run l₁).kernel.client ++ [args.reverse (replies 2).handle]⟩) ∧
    ∀ l₁ id replies l₂, ops = l₁ ++ .remove id replies :: l₂ →
      (∀ rule, (tables.run l₁).rules id = some rule →
        rule.forward.filter ∈ (tables.run l₁).kernel.internet ∧
        rule.reverse.filter ∈ (tables.run l₁).kernel.client ∧
        ((replies 0).succeeds = true → (replies 1).succeeds = true →
          (tables.run (l₁ ++ [.remove id replies])).kernel =
            ⟨(tables.run l₁).kernel.internet.erase rule.forward.filter,
              (tables.run l₁).kernel.client.erase rule.reverse.filter⟩)) ∧
      ∀ id' rule', id' ≠ id → (tables.run l₁).rules id' = some rule' →
        rule'.forward.filter ∈ (tables.run (l₁ ++ [.remove id replies])).kernel.internet ∧
        rule'.reverse.filter ∈ (tables.run (l₁ ++ [.remove id replies])).kernel.client := by
  have hboth : tables.Meets (fun w op => KernelPromise w op ∧ InOrder w op) ops :=
    fun l₁ op l₂ e => ⟨hk l₁ op l₂ e, hc l₁ op l₂ e⟩
  constructor
  · intro l₁ id args replies l₂ e fwdHandle revHandle hr
    have hw := tracked_run l₁ (Machine.Meets.of_append _ (e ▸ hboth))
    obtain ⟨hhandles, hkernel⟩ := (tracked_add hw (hk _ _ _ e) (hc _ _ _ e)).2 _ hr
    cases hhandles
    rw [Machine.run_append_singleton]
    exact ⟨rfl, rfl, hkernel⟩
  · intro l₁ id replies l₂ e
    have hw := tracked_run l₁ (Machine.Meets.of_append _ (e ▸ hboth))
    obtain ⟨hw', hother, hkernel⟩ := tracked_remove hw (hc _ _ _ e)
    rw [Machine.run_append_singleton]
    refine ⟨?_, ?_⟩
    · intro rule hr
      refine ⟨hw.internet.mem hr, hw.client.mem hr, ?_⟩
      intro h0 h1
      rw [show (tables.step (tables.run l₁) (.remove id replies)).2.kernel = _ from
        hkernel rule hr]
      simp [h0, h1]
    · intro id' rule' hne hr
      rw [← hother id' hne] at hr
      exact ⟨hw'.internet.mem hr, hw'.client.mem hr⟩

end Runs

/-- An allow rule for one port at the preference 100. -/
def sampleArgs (dstPort : Nat) : RuleArgs where
  action := .ALLOW
  srcIp := none
  dstIp := none
  srcPort := none
  dstPort := some dstPort
  protocol := "tcp"
  priority := 100

/-- Every command succeeds: both filters get the same handle and both listings show
the same handles. -/
def sampleReplies (handle : Nat) (listing : String) : Nat → TcReply
  | 0 | 2 => .exit 0 "" "" handle
  | _ => .exit 0 listing "" 0

/-- Two rules get the handles 1 and 2, and the first is deleted. -/
def firstDeleted : List (TableOp Nat) :=
  [.add 0 (sampleArgs 80) (sampleReplies 1 "flower chain 0 handle 0x1"),
    .add 1 (sampleArgs 443) (sampleReplies 2 "flower chain 0 handle 0x1 handle 0x2"),
    .remove 0 (sampleReplies 0 "")]

theorem recorded_handles_right_firstDeleted :
    tables.Meets KernelPromise firstDeleted ∧ tables.Meets InOrder firstDeleted ∧
    ∃ rule, (tables.run (firstDeleted.take 2)).rules 0 = some rule ∧
      (tables.run firstDeleted).kernel =
        ⟨(tables.run (firstDeleted.take 2)).kernel.internet.erase rule.forward.filter,
          (tables.run (firstDeleted.take 2)).kernel.client.erase rule.reverse.filter⟩ := by
  have hk : tables.Meets KernelPromise firstDeleted := tables.meets_of_meetsFrom (by decide +kernel)
  have hc : tables.Meets InOrder firstDeleted := tables.meets_of_meetsFrom (by decide +kernel)
  refine ⟨hk, hc, ?_⟩
  obtain ⟨rule, hrule⟩ : ∃ rule, (tables.run (firstDeleted.take 2)).rules 0 = some rule :=
    Option.isSome_iff_exists.mp (by decide +kernel)
  obtain ⟨hremoved, -⟩ := (recorded_handles_right firstDeleted hk hc).2 (firstDeleted.take 2) 0
    (sampleReplies 0 "") [] rfl
  exact ⟨rule, hrule, (hremoved rule hrule).2.2 rfl rfl⟩

/-- A third rule is given the handle that the first had, and is deleted again. -/
def handleReused : List (TableOp Nat) :=
  firstDeleted ++
    [.add 2 (sampleArgs 8080) (sampleReplies 1 "flower chain 0 handle 0x1 handle 0x2"),
      .remove 2 (sampleReplies 0 "")]

/-- **The wrong handle is recorded**: the kernel keeps its promise and gives the third
rule the handle 1, the addition returns `0x2`, and the deletion takes out the filter of
the second rule and leaves that of the third. -/
theorem wrong_filter_deleted :
    tables.Meets KernelPromise handleReused ∧
    (tables.step (tables.run firstDeleted) (.add 2 (sampleArgs 8080)
      (sampleReplies 1 "flower chain 0 handle 0x1 handle 0x2"))).1 = some (.ok ("0x2", "0x2")) ∧
    ((sampleArgs 8080).forward 1).handleText = "0x1" ∧
    (sampleArgs 443).forward 2 ∈ (tables.run (handleReused.take 4)).kernel.internet ∧
    (tables.run handleReused).kernel =
      ⟨[(sampleArgs 8080).forward 1], [(sampleArgs 8080).reverse 1]⟩ := by
  refine ⟨tables.meets_of_meetsFrom (by decide +kernel), by decide +kernel, by decide +kernel,
    by decide +kernel, by decide +kernel⟩

end PrismFirewall.TcFirewall
