import PrismFirewall.TcFirewall.Main

/-!
# Which answers an installation needs

An installation is a short sequence of commands, and each can end it.  The
specifications below say for every pattern of answers whether it gets through,
and what the kernel holds if it does not: a filter that was added stays.

`reply i` is the answer to the `i`-th command still to come, and `Moved n` says
that `n` commands were answered in between.
-/

namespace PrismFirewall.TcFirewall

open Lib

/-! ### The commands still to come -/

/-- The answer to the `i`-th command from here. -/
def TcState.reply (s : TcState) (i : Nat) : TcReply := s.replies (s.issued.length + i)

/-- `n` commands have been answered. -/
structure TcState.Moved (s : TcState) (n : Nat) (s' : TcState) : Prop where
  replies : s'.replies = s.replies
  length : s'.issued.length = s.issued.length + n

theorem TcState.Moved.reply {s s' : TcState} {n : Nat} (h : s.Moved n s') (i : Nat) :
    s'.reply i = s.reply (n + i) := by
  rw [TcState.reply, TcState.reply, h.replies, h.length, Nat.add_assoc]

theorem TcState.Moved.trans {s s' s'' : TcState} {m n : Nat} (h : s.Moved m s')
    (h' : s'.Moved n s'') : s.Moved (m + n) s'' :=
  ⟨h'.replies.trans h.replies, by rw [h'.length, h.length, Nat.add_assoc]⟩

/-- Every command exits with `0`. -/
def TcState.AllSucceed (s : TcState) : Prop := ∀ i, (s.replies i).succeeds = true

theorem TcState.AllSucceed.reply {s : TcState} (h : s.AllSucceed) (i : Nat) :
    (s.reply i).succeeds = true := h _

theorem TcReply.not_timesOut_of_succeeds {r : TcReply} (h : r.succeeds = true) :
    ¬ r.timesOut = true := by
  cases r with
  | exit returncode stdout stderr handle => simp [TcReply.timesOut]
  | timeout => simp [TcReply.succeeds] at h

theorem TcState.AllSucceed.not_timesOut {s : TcState} (h : s.AllSucceed) (i : Nat) :
    ¬ (s.reply i).timesOut = true := by
  exact TcReply.not_timesOut_of_succeeds (h.reply i)

theorem TcState.Moved.allSucceed {s s' : TcState} {n : Nat} (h : s.Moved n s')
    (ha : s.AllSucceed) : s'.AllSucceed := by
  intro i
  rw [h.replies]
  exact ha i

theorem TcState.moved_after (s : TcState) (args : List String) : s.Moved 1 (s.after args) :=
  ⟨rfl, rfl⟩

/-! ### Filters in the kernel -/

/-- The number of filters on the two ports. -/
def Kernel.size (k : Kernel) : Nat := k.internet.length + k.client.length

/-- One of the two ports. -/
def IsPort (dev : String) : Prop := dev = internetPort ∨ dev = clientPort

instance (dev : String) : Decidable (IsPort dev) := inferInstanceAs (Decidable (_ ∨ _))

theorem Kernel.size_modifyDev_append (k : Kernel) {dev : String} (hdev : IsPort dev)
    (f : Filter) : (k.modifyDev dev (fun l => l ++ [f])).size = k.size + 1 := by
  rcases hdev with rfl | rfl
  · simp only [modifyDev, size, if_pos, List.length_append, List.length_singleton]
    omega
  · have hne : clientPort ≠ internetPort := by decide
    simp only [modifyDev, size, if_neg hne, if_pos, List.length_append, List.length_singleton]
    omega

/-- The filters on a device. -/
def Kernel.filters (k : Kernel) (dev : String) : List Filter :=
  if dev = internetPort then k.internet else if dev = clientPort then k.client else []

theorem Kernel.filters_modifyDev (k : Kernel) (dev dev' : String)
    (f : List Filter → List Filter) :
    (k.modifyDev dev f).filters dev' =
      if dev' = dev ∧ IsPort dev' then f (k.filters dev') else k.filters dev' := by
  have hne : clientPort ≠ internetPort := by decide
  unfold modifyDev filters IsPort
  by_cases hi : dev = internetPort
  · subst hi
    by_cases hd : dev' = internetPort <;> simp [hd]
  · by_cases hc : dev = clientPort
    · subst hc
      by_cases hd : dev' = clientPort
      · simp [hd, hne]
      · simp [hd, hne]
    · by_cases hd : dev' = dev
      · subst hd
        simp [hi, hc]
      · simp [hi, hc, hd]

/-- The keys a rule matches on, as `_build_flower_cmd` writes them. -/
def flowerKeys (srcIp dstIp : Option String) (srcPort dstPort : Option Nat) (protocol : String) :
    List String :=
  (if protocol ≠ "" ∧ protocol ≠ "any" ∧ protocol ≠ "ip" then ["ip_proto", protocol] else [])
    ++ textKey "src_ip" srcIp ++ textKey "dst_ip" dstIp
    ++ portKey "src_port" protocol srcPort ++ portKey "dst_port" protocol dstPort

section Walk

variable {α : Type} {f : List String → α} (hf : ∀ key value rest, key ≠ "action" →
  f (key :: value :: rest) = f rest)

include hf

theorem walk_textKey {key : String} (hkey : key ≠ "action") (x : Option String)
    (rest : List String) : f (textKey key x ++ rest) = f rest := by
  cases x with
  | none => rfl
  | some v =>
    rw [textKey]
    split
    · rfl
    · exact hf key v rest hkey

theorem walk_portKey {key : String} (hkey : key ≠ "action") (protocol : String)
    (x : Option Nat) (rest : List String) : f (portKey key protocol x ++ rest) = f rest := by
  cases x with
  | none => rfl
  | some n =>
    rw [portKey]
    split
    · exact hf key (toString n) rest hkey
    · rfl

/-- What skips keys and their values gets to what is behind the keys of a rule. -/
theorem walk_flowerKeys (srcIp dstIp : Option String) (srcPort dstPort : Option Nat)
    (protocol : String) (rest : List String) :
    f (flowerKeys srcIp dstIp srcPort dstPort protocol ++ rest) = f rest := by
  unfold flowerKeys
  simp only [List.append_assoc]
  have hrest : f (textKey "src_ip" srcIp ++ (textKey "dst_ip" dstIp ++
      (portKey "src_port" protocol srcPort ++ (portKey "dst_port" protocol dstPort ++ rest))))
        = f rest := by
    rw [walk_textKey hf (by decide), walk_textKey hf (by decide), walk_portKey hf (by decide),
      walk_portKey hf (by decide)]
  split
  · exact (hf "ip_proto" protocol _ (by decide)).trans hrest
  · exact hrest

end Walk

/-- Adding a filter appends it to the list of its port. -/
theorem exec_buildFlowerCmd (k : Kernel) (handle : Nat) (dev : String)
    (srcIp dstIp : Option String) (srcPort dstPort : Option Nat) (protocol : String)
    (priority : Nat) (action : List String) :
    k.exec handle (buildFlowerCmd dev srcIp dstIp srcPort dstPort protocol priority ++ action)
      = k.modifyDev dev (fun l => l ++ [⟨toString priority, handle,
          flowerKeys srcIp dstIp srcPort dstPort protocol ++ action⟩]) := by
  simp only [buildFlowerCmd, flowerKeys, List.append_assoc, List.cons_append, List.nil_append,
    Kernel.exec]

/-! ### Single commands -/

/-- What `_run_tc` raises. -/
def Exc.IsTc : Exc → Prop
  | .tcError _ => True
  | .timeoutExpired => True
  | _ => False

/-- A command whose exit code is checked. -/
theorem wp_runTc_checked {args : List String} {s : TcState} :
    wp (runTc args true) s
      (fun _ s' => (s.reply 0).succeeds ∧ s.Moved 1 s' ∧
        s'.kernel = s.kernel.exec (s.reply 0).handle args)
      (fun e s' => e.IsTc ∧ ¬ (s.reply 0).succeeds ∧ s'.kernel = s.kernel) := by
  rw [wp_runTc]
  have hmoved := s.moved_after args
  unfold TcState.reply
  cases hr : s.replies s.issued.length with
  | timeout => simp [hr, TcReply.succeeds, TcState.after, Exc.IsTc]
  | exit returncode stdout stderr handle =>
    by_cases h0 : returncode = 0
    · simp only [TcReply.succeeds, h0, bne_self_eq_false, Bool.and_false]
      exact ⟨rfl, hmoved, by simp [TcState.after, hr, h0, TcReply.handle]⟩
    · simp [hr, TcReply.succeeds, TcState.after, Exc.IsTc, h0]

/-- A command whose exit code is passed over: only a time-out ends it. -/
theorem wp_runTc_unchecked {args : List String} {s : TcState} :
    wp (runTc args false) s
      (fun _ s' => ¬ (s.reply 0).timesOut ∧ s.Moved 1 s' ∧
        ((s.reply 0).succeeds → ∃ handle, s'.kernel = s.kernel.exec handle args))
      (fun e _ => e = .timeoutExpired ∧ (s.reply 0).timesOut) := by
  rw [wp_runTc]
  have hmoved := s.moved_after args
  unfold TcState.reply
  cases hr : s.replies s.issued.length with
  | timeout => simp [TcReply.timesOut]
  | exit returncode stdout stderr handle =>
    simp only [TcReply.timesOut, Bool.false_and, Bool.false_eq_true, not_false_eq_true, if_false,
      true_and]
    refine ⟨hmoved, fun h => ⟨handle, ?_⟩⟩
    have h0 : returncode = 0 := by simpa [TcReply.succeeds, hr] using h
    simp [TcState.after, hr, h0]

/-- A listing. -/
def showCmd (dev : String) (priority : Nat) : List String :=
  ["filter", "show", "dev", dev, "ingress", "prio", toString priority]

theorem wp_runTc_show {dev : String} {priority : Nat} {s : TcState} :
    wp (runTc (showCmd dev priority) false) s
      (fun result s' => ¬ (s.reply 0).timesOut ∧ s.Moved 1 s' ∧ s'.kernel = s.kernel ∧
        ∃ handle, s.reply 0 = .exit result.returncode result.stdout result.stderr handle)
      (fun e s' => e.IsTc ∧ (s.reply 0).timesOut ∧ s'.kernel = s.kernel) := by
  rw [wp_runTc]
  have hmoved := s.moved_after (showCmd dev priority)
  have hkernel : (s.after (showCmd dev priority)).kernel = s.kernel := by
    simp only [TcState.after]
    split
    · split <;> rfl
    · rfl
  unfold TcState.reply
  cases hr : s.replies s.issued.length with
  | timeout => simp [TcReply.timesOut, Exc.IsTc, hkernel]
  | exit returncode stdout stderr handle =>
    simp only [TcReply.timesOut, Bool.false_and]
    exact ⟨by simp, hmoved, hkernel, handle, rfl⟩

/-- The handle read from the answer to a listing. -/
def TcReply.lastHandle : TcReply → String
  | .exit returncode stdout _ _ =>
    if returncode != 0 then "" else (findHandles stdout.toList).getLast?.getD ""
  | .timeout => ""

theorem wp_getLastHandle {dev : String} {priority : Nat} {s : TcState} :
    wp (getLastHandle dev priority) s
      (fun text s' => ¬ (s.reply 0).timesOut ∧ s.Moved 1 s' ∧ s'.kernel = s.kernel ∧
        text = (s.reply 0).lastHandle)
      (fun e s' => e.IsTc ∧ (s.reply 0).timesOut ∧ s'.kernel = s.kernel) := by
  unfold getLastHandle
  rw [wp_bind]
  refine wp_mono wp_runTc_show ?_ (fun _ _ h => h)
  intro result s' h
  obtain ⟨h1, h2, h3, handle, hr⟩ := h
  have htext : (s.reply 0).lastHandle = if result.returncode != 0 then "" else
      (findHandles result.stdout.toList).getLast?.getD "" := by rw [hr]; rfl
  rw [htext]
  split
  · exact ⟨h1, h2, h3, rfl⟩
  · exact ⟨h1, h2, h3, rfl⟩

theorem wp_checkInHw {dev handle : String} {priority : Nat} {s : TcState} :
    wp (checkInHw dev handle priority) s
      (fun _ s' => ¬ (s.reply 0).timesOut ∧ s.Moved 1 s' ∧ s'.kernel = s.kernel)
      (fun e s' => e.IsTc ∧ (s.reply 0).timesOut ∧ s'.kernel = s.kernel) := by
  unfold checkInHw
  rw [wp_bind]
  refine wp_mono wp_runTc_show (fun result s' h => ?_) (fun _ _ h => h)
  split <;> exact ⟨h.1, h.2.1, h.2.2.1⟩

/-! ### A rule -/

/-- A filter and the query for its handle. -/
theorem wp_addFilter {action : List String} {dev : String} {srcIp dstIp : Option String}
    {srcPort dstPort : Option Nat} {protocol : String} {priority : Nat} {s : TcState} :
    wp (addFilter action dev srcIp dstIp srcPort dstPort protocol priority) s
      (fun text s' => (s.reply 0).succeeds ∧ ¬ (s.reply 1).timesOut ∧ s.Moved 2 s' ∧
        text = (s.reply 1).lastHandle ∧
        s'.kernel = s.kernel.modifyDev dev (fun l => l ++ [⟨toString priority, (s.reply 0).handle,
          flowerKeys srcIp dstIp srcPort dstPort protocol ++ action⟩]))
      (fun e s' => e.IsTc ∧ ((¬ (s.reply 0).succeeds ∧ s'.kernel = s.kernel) ∨
        ((s.reply 0).succeeds ∧ (s.reply 1).timesOut ∧
          s'.kernel = s.kernel.modifyDev dev (fun l => l ++ [⟨toString priority,
            (s.reply 0).handle,
            flowerKeys srcIp dstIp srcPort dstPort protocol ++ action⟩])))) := by
  unfold addFilter
  rw [wp_bind]
  refine wp_mono wp_runTc_checked ?_ (fun e s' h => ⟨h.1, Or.inl h.2⟩)
  intro _ s' h
  obtain ⟨h0, hm, hk⟩ := h
  rw [exec_buildFlowerCmd] at hk
  refine wp_mono wp_getLastHandle ?_ ?_
  · intro _ s'' h
    obtain ⟨h1, hm', hk', htext⟩ := h
    rw [hm.reply] at h1 htext
    exact ⟨h0, h1, hm.trans hm', htext, hk'.trans hk⟩
  · intro e s'' h
    obtain ⟨he, h1, hk'⟩ := h
    rw [hm.reply] at h1
    exact ⟨he, Or.inr ⟨h0, h1, hk'.trans hk⟩⟩

/-- The answers with which a rule gets installed: two filters, two handles and
the offload check. -/
def TcState.RuleInstalls (s : TcState) : Prop :=
  (s.reply 0).succeeds ∧ ¬ (s.reply 1).timesOut ∧ (s.reply 2).succeeds ∧
    ¬ (s.reply 3).timesOut ∧ ¬ (s.reply 4).timesOut

theorem TcState.AllSucceed.ruleInstalls {s : TcState} (h : s.AllSucceed) : s.RuleInstalls :=
  ⟨h.reply 0, h.not_timesOut 1, h.reply 2, h.not_timesOut 3, h.not_timesOut 4⟩

/-- The action of the forward filter. -/
def forwardAction : RuleAction → List String
  | .ALLOW => ["action", "mirred", "egress", "redirect", "dev", clientPort]
  | .DENY => ["action", "drop"]

/-- The action of the reverse filter. -/
def reverseAction : RuleAction → List String
  | .ALLOW => ["action", "mirred", "egress", "redirect", "dev", internetPort]
  | .DENY => ["action", "drop"]

/-- The filter of a request on the internet port, as the kernel keeps it. -/
def forwardFilter (request : FirewallRuleRequest) (handle : Nat) : Filter :=
  ⟨toString request.priority.val, handle,
    flowerKeys request.srcIp request.dstIp (request.srcPort.map Field16.val)
      (request.dstPort.map Field16.val) (protoStr request.protocol)
      ++ forwardAction request.action⟩

/-- The filter of a request on the client port: sources and destinations change
places. -/
def reverseFilter (request : FirewallRuleRequest) (handle : Nat) : Filter :=
  ⟨toString request.priority.val, handle,
    flowerKeys request.dstIp request.srcIp (request.dstPort.map Field16.val)
      (request.srcPort.map Field16.val) (protoStr request.protocol)
      ++ reverseAction request.action⟩

/-- A filter of the request has been added on each port. -/
def FiltersAdded (request : FirewallRuleRequest) (k k' : Kernel) : Prop :=
  ∃ handle handle', k'.internet = k.internet ++ [forwardFilter request handle] ∧
    k'.client = k.client ++ [reverseFilter request handle']

/-- The two filters of a request, whatever the action. -/
theorem installRule_eq (request : FirewallRuleRequest) :
    installRule request = (do
      let fwdHandle ← addFilter (forwardAction request.action) internetPort request.srcIp
        request.dstIp (request.srcPort.map Field16.val) (request.dstPort.map Field16.val)
        (protoStr request.protocol) request.priority.val
      let revHandle ← addFilter (reverseAction request.action) clientPort request.dstIp
        request.srcIp (request.dstPort.map Field16.val) (request.srcPort.map Field16.val)
        (protoStr request.protocol) request.priority.val
      let inHw ← checkInHw internetPort fwdHandle request.priority.val
      return (fwdHandle, revHandle, inHw)) := by
  unfold installRule
  cases request.action with
  | ALLOW => simp only [addAllowRule, addRedirectRule, forwardAction, reverseAction, bind_assoc,
      pure_bind]
  | DENY => simp only [addDenyRule, addDropRule, forwardAction, reverseAction, bind_assoc,
      pure_bind]

/-- **Installing a rule.**  When it raises after the first filter went in, that
filter is still there. -/
theorem wp_installRule {request : FirewallRuleRequest} {s : TcState} :
    wp (installRule request) s
      (fun _ s' => s.RuleInstalls ∧ FiltersAdded request s.kernel s'.kernel)
      (fun e s' => e.IsTc ∧ ¬ s.RuleInstalls ∧
        ((¬ (s.reply 0).succeeds ∧ s'.kernel = s.kernel) ∨
          ((s.reply 0).succeeds ∧ s.kernel.size < s'.kernel.size))) := by
  have hi : IsPort internetPort := Or.inl rfl
  have hc : IsPort clientPort := Or.inr rfl
  rw [installRule_eq, wp_bind]
  refine wp_mono wp_addFilter ?_ ?_
  · intro fwdHandle s1 h
    obtain ⟨h0, h1, hm1, -, hk1⟩ := h
    have hsize1 : s1.kernel.size = s.kernel.size + 1 := by
      rw [hk1, Kernel.size_modifyDev_append _ hi]
    rw [wp_bind]
    refine wp_mono wp_addFilter ?_ ?_
    · intro revHandle s2 h
      obtain ⟨h2, h3, hm2, -, hk2⟩ := h
      rw [hm1.reply] at h2 h3
      have hsize2 : s2.kernel.size = s1.kernel.size + 1 := by
        rw [hk2, Kernel.size_modifyDev_append _ hc]
      rw [wp_bind]
      refine wp_mono wp_checkInHw ?_ ?_
      · intro inHw s3 h
        obtain ⟨h4, -, hk3⟩ := h
        rw [(hm1.trans hm2).reply] at h4
        refine ⟨⟨h0, h1, h2, h3, h4⟩, (s.reply 0).handle, (s1.reply 0).handle, ?_, ?_⟩
        · rw [hk3, hk2, hk1]
          rfl
        · rw [hk3, hk2, hk1]
          rfl
      · intro e s3 h
        obtain ⟨he, h4, hk3⟩ := h
        rw [(hm1.trans hm2).reply] at h4
        exact ⟨he, fun h => h.2.2.2.2 h4, Or.inr ⟨h0, by rw [hk3]; omega⟩⟩
    · intro e s2 h
      rcases h with ⟨he, ⟨h2, hk2⟩ | ⟨h2, h3, hk2⟩⟩
      · rw [hm1.reply] at h2
        exact ⟨he, fun h => h2 h.2.2.1, Or.inr ⟨h0, by rw [hk2]; omega⟩⟩
      · rw [hm1.reply] at h3
        refine ⟨he, fun h => h.2.2.2.1 h3, Or.inr ⟨h0, ?_⟩⟩
        rw [hk2, Kernel.size_modifyDev_append _ hc]
        omega
  · intro e s1 h
    rcases h with ⟨he, ⟨h0, hk1⟩ | ⟨h0, h1, hk1⟩⟩
    · exact ⟨he, fun h => h0 h.1, Or.inl ⟨h0, hk1⟩⟩
    · refine ⟨he, fun h => h.2.1 h1, Or.inr ⟨h0, ?_⟩⟩
      rw [hk1, Kernel.size_modifyDev_append _ hi]
      omega

/-! ### The NAT band -/

/-- The first action of a filter: the keys before it come in pairs. -/
def firstAction : List String → Option String
  | "action" :: action :: _ => some action
  | _ :: _ :: rest => firstAction rest
  | _ => none

/-- The filters of NAT entries rewrite the packet first. -/
def Filter.isNat (f : Filter) : Bool := firstAction f.spec == some "pedit"

/-- What NAT commands do to the filters that are not theirs: on the given ports
they empty the NAT band, and everything else stays. -/
def NatChange (ports : List String) (k k' : Kernel) : Prop :=
  ∀ dev (f : Filter), f.isNat = false → (k'.filters dev).count f =
    if dev ∈ ports ∧ f.prio = toString natPriority then 0 else (k.filters dev).count f

theorem NatChange.refl (k : Kernel) : NatChange [] k k := by
  intro dev f _
  rw [if_neg (by simp)]

theorem NatChange.trans {p q : List String} {k k' k'' : Kernel} (h : NatChange p k k')
    (h' : NatChange q k' k'') : NatChange (p ++ q) k k'' := by
  intro dev f hf
  rw [h' dev f hf, h dev f hf]
  generalize toString natPriority = prio
  by_cases hprio : f.prio = prio
  · by_cases hq : dev ∈ q <;> by_cases hp : dev ∈ p <;> simp [hp, hq, hprio]
  · simp [hprio]

/-- Only which ports are meant matters, not in which order or how often. -/
theorem NatChange.congr {p q : List String} {k k' : Kernel} (h : NatChange p k k')
    (hpq : ∀ dev, dev ∈ p ↔ dev ∈ q) : NatChange q k k' := by
  intro dev f hf
  rw [h dev f hf]
  simp only [hpq]

theorem natChange_append {k : Kernel} {dev : String} {g : Filter} (hg : g.isNat = true) :
    NatChange [] k (k.modifyDev dev (fun l => l ++ [g])) := by
  intro dev' f hf
  rw [if_neg (by simp), Kernel.filters_modifyDev]
  split
  · have hne : g ≠ f := by
      intro h
      rw [h, hf] at hg
      exact absurd hg (by simp)
    simp [hne]
  · rfl

/-- Emptying the NAT band of a port. -/
theorem natChange_del {k : Kernel} {port : String} (handle : Nat) :
    NatChange [port] k (k.exec handle
      ["filter", "del", "dev", port, "ingress", "prio", toString natPriority]) := by
  intro dev f _
  show ((k.modifyDev port (fun l => l.filter (fun f => f.prio != toString natPriority))).filters
    dev).count f = _
  have hmem : dev ∈ [port] ↔ dev = port := List.mem_singleton
  rw [Kernel.filters_modifyDev]
  by_cases hdev : dev = port
  · by_cases hport : IsPort dev
    · rw [if_pos ⟨hdev, hport⟩]
      by_cases hprio : f.prio = toString natPriority
      · rw [if_pos ⟨hmem.mpr hdev, hprio⟩, List.count_eq_zero]
        simp [hprio]
      · rw [if_neg (fun h => hprio h.2), List.count_filter (by simpa using hprio)]
    · have hnil : k.filters dev = [] := by
        unfold IsPort at hport
        rw [Kernel.filters, if_neg (fun h => hport (Or.inl h)), if_neg (fun h => hport (Or.inr h))]
      rw [if_neg (fun h => hport h.2), hnil]
      simp
  · rw [if_neg (fun h => hdev h.1), if_neg (fun h => hdev (hmem.mp h.1))]

theorem natChange_snatCmd {k : Kernel} {handle : Nat} (privateIp publicIp : String) :
    NatChange [] k (k.exec handle (snatCmd privateIp publicIp)) :=
  natChange_append (by simp [Filter.isNat, firstAction])

theorem natChange_dnatCmd {k : Kernel} {handle : Nat}
    (publicIp publicPort privateIp protocol : String) :
    NatChange [] k (k.exec handle (dnatCmd publicIp publicPort privateIp protocol)) :=
  natChange_append (by simp [Filter.isNat, firstAction])

theorem natChange_forwardCmd {k : Kernel} {handle : Nat}
    (publicIp publicPort privateIp privatePort protocol : String) :
    NatChange [] k
      (k.exec handle (forwardCmd publicIp publicPort privateIp privatePort protocol)) :=
  natChange_append (by simp [Filter.isNat, firstAction])

/-! ### A NAT entry -/

/-- The answers with which a NAT filter gets installed. -/
def TcState.NatInstalls (s : TcState) : Prop :=
  (s.reply 0).succeeds ∧ ¬ (s.reply 1).timesOut ∧ ¬ (s.reply 2).timesOut

theorem TcState.AllSucceed.natInstalls {s : TcState} (h : s.AllSucceed) : s.NatInstalls :=
  ⟨h.reply 0, h.not_timesOut 1, h.not_timesOut 2⟩

/-- The command adds one filter. -/
def AddsFilter (cmd : List String) : Prop :=
  ∀ (k : Kernel) (handle : Nat), (k.exec handle cmd).size = k.size + 1

theorem addsFilter_snatCmd (privateIp publicIp : String) :
    AddsFilter (snatCmd privateIp publicIp) :=
  fun k _ => k.size_modifyDev_append (Or.inr rfl) _

theorem addsFilter_dnatCmd (publicIp publicPort privateIp protocol : String) :
    AddsFilter (dnatCmd publicIp publicPort privateIp protocol) :=
  fun k _ => k.size_modifyDev_append (Or.inl rfl) _

theorem addsFilter_forwardCmd (publicIp publicPort privateIp privatePort protocol : String) :
    AddsFilter (forwardCmd publicIp publicPort privateIp privatePort protocol) :=
  fun k _ => k.size_modifyDev_append (Or.inl rfl) _

/-- **Installing a NAT filter.** -/
theorem wp_installNat {port : String} {cmd : List String} (hcmd : AddsFilter cmd) {s : TcState} :
    wp (installNat port cmd) s
      (fun _ _ => s.NatInstalls)
      (fun e s' => e.IsTc ∧ ¬ s.NatInstalls ∧
        ((¬ (s.reply 0).succeeds ∧ s'.kernel = s.kernel) ∨
          ((s.reply 0).succeeds ∧ s.kernel.size < s'.kernel.size))) := by
  unfold installNat
  rw [wp_bind]
  refine wp_mono wp_runTc_checked ?_ (fun e s' h => ⟨h.1, fun hi => h.2.1 hi.1, Or.inl h.2⟩)
  intro _ s1 h
  obtain ⟨h0, hm1, hk1⟩ := h
  have hsize : s1.kernel.size = s.kernel.size + 1 := by rw [hk1, hcmd]
  rw [wp_bind]
  refine wp_mono wp_getLastHandle ?_ ?_
  · intro _ s2 h
    obtain ⟨h1, hm2, hk2, -⟩ := h
    rw [hm1.reply] at h1
    refine wp_mono wp_checkInHw ?_ ?_
    · intro _ s3 h
      obtain ⟨h2, -, -⟩ := h
      rw [(hm1.trans hm2).reply] at h2
      exact ⟨h0, h1, h2⟩
    · intro e s3 h
      obtain ⟨he, h2, hk3⟩ := h
      rw [(hm1.trans hm2).reply] at h2
      exact ⟨he, fun h => h.2.2 h2, Or.inr ⟨h0, by rw [hk3, hk2]; omega⟩⟩
  · intro e s2 h
    obtain ⟨he, h1, hk2⟩ := h
    rw [hm1.reply] at h1
    exact ⟨he, fun h => h.2.1 h1, Or.inr ⟨h0, by rw [hk2]; omega⟩⟩

end PrismFirewall.TcFirewall
