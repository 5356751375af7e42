import PrismFirewall.TcFirewall.Commands

/-!
# Rebuilding the NAT band

`nat_manager` on its own: any sequence of `add_snat`, `add_dnat`, `add_port_forward` and
`remove_nat`, each with answers of tc that all report success (`natManager`).  The three
`add_*` functions build a command from their arguments, and `remove_nat` builds the commands
of the surviving entries from what was stored.  `NATEntry.Reappliable.reapplyCommand_eq` says
that the two agree for every entry that an `add_*` function stored, because its ports are not
`0` and its protocol is not empty.

`NatMove` lists what one call can do (`natMove_serve`).  From it follow what a run stores
(`natHistory_run`) and when the band of each port holds the filters of `nat_db`
(`bandsAgree_natServe_iff`): as long as no call that makes an entry draws the identifier of a
live one, which would be overwritten while its filter stays.
-/

namespace PrismFirewall.TcFirewall

open Lib

/-! ### The command of an entry -/

/-- The command that adds the filter of an entry. -/
def NATEntry.addCommand (e : NATEntry) : List String :=
  match e.type with
  | .snat => snatCmd e.privateIp e.publicIp
  | .dnat => dnatCmd e.publicIp (pyStr e.publicPort) e.privateIp (e.protocol.getD "")
  | .forward => forwardCmd e.publicIp (pyStr e.publicPort) e.privateIp (pyStr e.privatePort)
      (e.protocol.getD "")

/-- The keys and actions of the filter of an entry. -/
def NATEntry.spec (e : NATEntry) : List String := e.addCommand.drop 10

/-- How a command begins that adds a filter to the band of a port. -/
def addPrefix (port : String) : List String :=
  ["filter", "add", "dev", port, "ingress", "protocol", "ip", "prio", toString natPriority,
    "flower"]

theorem NATEntry.addCommand_eq (e : NATEntry) : e.addCommand = addPrefix e.port ++ e.spec := by
  unfold NATEntry.spec NATEntry.addCommand NATEntry.port
  cases e.type <;> rfl

/-- An entry whose stored fields give back its command: its ports are not `0` and its
protocol is not empty. -/
def NATEntry.Reappliable (e : NATEntry) : Prop :=
  e.type ≠ .snat → (∃ m, m ≠ 0 ∧ e.publicPort = some m) ∧ (∃ n, n ≠ 0 ∧ e.privatePort = some n) ∧
    ∃ p, p ≠ "" ∧ e.protocol = some p

/-- **The stored entry gives back its command.** -/
theorem NATEntry.Reappliable.reapplyCommand_eq {e : NATEntry} (he : e.Reappliable) :
    e.reapplyCommand = e.addCommand := by
  unfold NATEntry.reapplyCommand NATEntry.addCommand
  by_cases ht : e.type = .snat
  · rw [if_pos ht]
    simp only [ht]
  · obtain ⟨⟨m, hm, hpub⟩, ⟨n, hn, hpriv⟩, p, hp, hproto⟩ := he ht
    -- both branch conditions of `_reapply_nat_rule` come out as at the creation
    have hor : orText e.protocol "tcp" = e.protocol.getD "" := by
      rw [hproto]
      exact if_neg hp
    have htruthy : truthy e.publicPort = true ∧ truthy e.privatePort = true := by
      rw [hpub, hpriv]
      exact ⟨by simpa [truthy] using hm, by simpa [truthy] using hn⟩
    rw [if_neg ht, hor]
    cases hty : e.type with
    | snat => exact absurd hty ht
    | dnat => rw [if_neg (fun h => absurd h.1 (by simp))]
    | forward => rw [if_pos ⟨rfl, htruthy.1, htruthy.2⟩]

theorem rebuildCommands_eq {port : String} {remaining : List NATEntry}
    (hre : ∀ e ∈ remaining, e.Reappliable) : rebuildCommands port remaining
      = delCommand port :: (entriesOn port remaining).map NATEntry.addCommand := by
  unfold rebuildCommands
  congr 1
  exact List.map_congr_left (fun e he => (hre e (List.mem_filter.mp he).1).reapplyCommand_eq)

/-! ### The band of a port -/

/-- What the filters of the NAT band of a port match and do, in their order. -/
def natBand (k : Kernel) (dev : String) : List (List String) :=
  ((k.filters dev).filter (fun f => f.prio == toString natPriority)).map Filter.spec

theorem isPort_port (e : NATEntry) : IsPort e.port := by
  unfold NATEntry.port IsPort
  split
  · exact Or.inr rfl
  · exact Or.inl rfl

theorem natBand_addCommand (k : Kernel) (handle : Nat) (e : NATEntry) (dev : String) :
    natBand (k.exec handle e.addCommand) dev
      = natBand k dev ++ if e.port = dev then [e.spec] else [] := by
  rw [NATEntry.addCommand_eq]
  show natBand (k.modifyDev e.port (fun l => l ++ [⟨toString natPriority, handle, e.spec⟩])) dev = _
  unfold natBand
  rw [Kernel.filters_modifyDev]
  by_cases hdev : e.port = dev
  · rw [if_pos ⟨hdev.symm, hdev ▸ isPort_port e⟩, if_pos hdev, List.filter_append, List.map_append]
    simp
  · rw [if_neg (fun h => hdev h.1.symm), if_neg hdev, List.append_nil]

theorem natBand_delCommand (k : Kernel) (handle : Nat) {port : String} (hport : IsPort port)
    (dev : String) :
    natBand (k.exec handle (delCommand port)) dev = if dev = port then [] else natBand k dev := by
  show natBand (k.modifyDev port (fun l => l.filter (fun f => f.prio != toString natPriority))) dev
    = _
  unfold natBand
  rw [Kernel.filters_modifyDev]
  by_cases hdev : dev = port
  · rw [if_pos ⟨hdev, hdev ▸ hport⟩, if_pos hdev, List.filter_filter, List.map_eq_nil_iff,
      List.filter_eq_nil_iff]
    intro f _
    simp
  · rw [if_neg (fun h => hdev h.1), if_neg hdev]

theorem map_spec_entriesOn_singleton (dev : String) (e : NATEntry) :
    (entriesOn dev [e]).map NATEntry.spec = if e.port = dev then [e.spec] else [] := by
  rw [entriesOn_singleton, apply_ite (List.map NATEntry.spec)]
  rfl

/-- Adding the filters of entries extends each band by those of its port. -/
theorem natBand_afterAll {s : TcState} (h : s.AllSucceed) (entries : List NATEntry) (dev : String) :
    natBand (s.afterAll (entries.map NATEntry.addCommand)).kernel dev
      = natBand s.kernel dev ++ (entriesOn dev entries).map NATEntry.spec := by
  induction entries generalizing s with
  | nil => simp [entriesOn, TcState.afterAll]
  | cons e entries ih =>
    obtain ⟨handle, hk⟩ := h.kernel_after e.addCommand
    show natBand ((s.after e.addCommand).afterAll (entries.map NATEntry.addCommand)).kernel dev
      = natBand s.kernel dev ++ (entriesOn dev ([e] ++ entries)).map NATEntry.spec
    rw [ih (h.after e.addCommand), hk, natBand_addCommand, List.append_assoc, entriesOn_append,
      List.map_append, map_spec_entriesOn_singleton]

/-- An installation adds the filter of its entry; the two listings change nothing. -/
theorem natBand_installed {s : TcState} (h : s.AllSucceed) (e : NATEntry) (port dev : String) :
    natBand (s.afterAll [e.addCommand, showCmd port natPriority,
        showCmd port natPriority]).kernel dev
      = natBand s.kernel dev ++ if e.port = dev then [e.spec] else [] := by
  have hshow : ∀ {t : TcState}, t.AllSucceed →
      (t.after (showCmd port natPriority)).kernel = t.kernel := by
    intro t ht
    obtain ⟨handle, hk⟩ := ht.kernel_after (showCmd port natPriority)
    rw [hk]
    rfl
  obtain ⟨handle, hk⟩ := h.kernel_after e.addCommand
  show natBand (((s.after e.addCommand).after _).after _).kernel dev = _
  rw [hshow ((h.after _).after _), hshow (h.after _), hk, natBand_addCommand]

/-- **A rebuilt band** holds the filters of the remaining entries; the other one stays. -/
theorem natBand_rebuilt {s : TcState} (h : s.AllSucceed) {port : String} (hport : IsPort port)
    (remaining : List NATEntry) (dev : String) :
    natBand (s.afterAll (delCommand port ::
        (entriesOn port remaining).map NATEntry.addCommand)).kernel dev
      = if dev = port then (entriesOn port remaining).map NATEntry.spec
        else natBand s.kernel dev := by
  obtain ⟨handle, hk⟩ := h.kernel_after (delCommand port)
  show natBand ((s.after (delCommand port)).afterAll _).kernel dev = _
  rw [natBand_afterAll (h.after _), hk, natBand_delCommand _ _ hport]
  by_cases hdev : dev = port
  · rw [if_pos hdev, if_pos hdev, hdev, List.nil_append]
    congr 1
    simp [entriesOn]
  · have hnil : entriesOn dev (entriesOn port remaining) = [] := by
      refine List.filter_eq_nil_iff.mpr (fun e he => ?_)
      have hp : e.port = port := by simpa [entriesOn] using (List.mem_filter.mp he).2
      simpa [hp] using Ne.symm hdev
    rw [if_neg hdev, if_neg hdev, hnil, List.map_nil, List.append_nil]

/-! ### The calls -/

/-- The calls of `nat_manager`, with ports from `1` on and protocols that are not empty. -/
inductive NatOp
  | addSnat (privateIp publicIp mode : String)
  | addDnat (publicIp : String) (publicPort : { n : Nat // 1 ≤ n }) (privateIp : String)
      (privatePort : { n : Nat // 1 ≤ n }) (protocol : { p : String // p ≠ "" })
  | addPortForward (publicIp : String) (publicPort : { n : Nat // 1 ≤ n }) (privateIp : String)
      (privatePort : { n : Nat // 1 ≤ n }) (protocol : { p : String // p ≠ "" })
  | removeNat (ruleId : String)

/-- A call with what it takes from outside: the identifier it may draw, the port pools at
that moment, and answers of tc that all report success. -/
structure NatCall where
  op : NatOp
  newId : ShortId
  pools : SNATState Float
  replies : Nat → TcReply
  succeed : ∀ i, (replies i).succeeds = true

/-- What a call returns, and the commands it issued, the oldest first. -/
structure NatAnswer where
  result : Except Exc (Option NATEntry)
  issued : List (List String)

def NatCall.program (c : NatCall) : DaemonM (Option NATEntry) :=
  match c.op with
  | .addSnat privateIp publicIp mode => some <$> addSnat c.newId privateIp publicIp mode
  | .addDnat publicIp publicPort privateIp privatePort protocol =>
      some <$> addDnat c.newId publicIp publicPort.val privateIp privatePort.val protocol.val
  | .addPortForward publicIp publicPort privateIp privatePort protocol =>
      some <$> addPortForward c.newId publicIp publicPort.val privateIp privatePort.val protocol.val
  | .removeNat ruleId => (fun _ => none) <$> removeNat ruleId

def NatCall.session (c : NatCall) (d : Daemon) : Session :=
  ⟨{ d.stores with snatState := c.pools }, ⟨d.kernel, c.replies, []⟩⟩

def Session.answer (s : Session) (result : Except Exc (Option NATEntry)) : NatAnswer × Daemon :=
  (⟨result, (s.tc.issued.map Prod.fst).reverse⟩, ⟨s.stores, s.tc.kernel⟩)

def natServe (d : Daemon) (c : NatCall) : NatAnswer × Daemon :=
  match c.program (c.session d) with
  | .ok r s => s.answer (.ok r)
  | .error e s => s.answer (.error e)

def natManager : Machine Daemon NatCall NatAnswer := ⟨Daemon.init, natServe⟩

theorem natServe_of_wp {d : Daemon} {c : NatCall} {P : NatAnswer → Daemon → Prop}
    (h : wp c.program (c.session d) (fun r s => P (s.answer (.ok r)).1 (s.answer (.ok r)).2)
      (fun e s => P (s.answer (.error e)).1 (s.answer (.error e)).2)) :
    P (natServe d c).1 (natServe d c).2 := by
  unfold wp at h
  unfold natServe
  cases hm : c.program (c.session d) with
  | ok r s => rw [hm] at h; exact h
  | error e s => rw [hm] at h; exact h

theorem NatCall.allSucceed (c : NatCall) (d : Daemon) : (c.session d).tc.AllSucceed := c.succeed

/-! ### What a call does -/

/-- The call makes an entry: it is an `add_*` that is not refused and finds no equivalent
entry. -/
def NatCall.Creates (s : Stores) (c : NatCall) : Prop :=
  match c.op with
  | .addSnat privateIp publicIp mode => (mode = snatModeStatic ∨ mode = snatModeMasquerade) ∧
      findExistingNat s (computeNatSignature .snat privateIp publicIp 0 0 "") = none ∧
      ¬ (mode = snatModeMasquerade ∧ c.pools.isExhausted publicIp = true)
  | .addDnat publicIp publicPort privateIp privatePort protocol =>
      findExistingNat s (computeNatSignature .dnat privateIp publicIp publicPort.val
        privatePort.val protocol.val) = none
  | .addPortForward publicIp publicPort privateIp privatePort protocol =>
      findExistingNat s (computeNatSignature .forward privateIp publicIp publicPort.val
        privatePort.val protocol.val) = none
  | .removeNat _ => False

/-- The commands of an installation. -/
def NATEntry.installCommands (e : NATEntry) : List (List String) :=
  [e.addCommand, showCmd e.port natPriority, showCmd e.port natPriority]

/-- The commands of the removal of an entry, when these others remain. -/
def NATEntry.removeCommands (e : NATEntry) (remaining : List NATEntry) : List (List String) :=
  delCommand e.port :: (entriesOn e.port remaining).map NATEntry.addCommand

/-- What one call does, all its commands succeeding. -/
inductive NatMove (d : Daemon) (c : NatCall) (a : NatAnswer) (d' : Daemon) : Prop
  | idle (hnot : ¬ c.Creates d.stores)
      (hop : ∀ id, c.op = .removeNat id → id ∉ d.stores.natDb)
      (hissued : a.issued = [])
      (hdb : d'.stores.natDb = d.stores.natDb)
      (hband : ∀ dev, natBand d'.kernel dev = natBand d.kernel dev)
  | created (e : NATEntry) (hcr : c.Creates d.stores)
      (hop : ∀ id, c.op ≠ .removeNat id)
      (hid : e.id = c.newId.val)
      (hre : e.Reappliable)
      (hres : a.result = .ok (some e))
      (hissued : a.issued = e.installCommands)
      (hdb : d'.stores.natDb = d.stores.natDb.insert e.id e)
      (hband : ∀ dev, natBand d'.kernel dev
        = natBand d.kernel dev ++ if e.port = dev then [e.spec] else [])
  | removed (id : String) (e : NATEntry) (hnot : ¬ c.Creates d.stores)
      (hop : c.op = .removeNat id)
      (hget : d.stores.natDb.get? id = some e)
      (hres : a.result = .ok none)
      (hissued : a.issued = e.removeCommands (d.stores.natDb.erase id).values)
      (hdb : d'.stores.natDb = d.stores.natDb.erase id)
      (hband : ∀ dev, natBand d'.kernel dev
        = if dev = e.port then (entriesOn e.port (d.stores.natDb.erase id).values).map
            NATEntry.spec
          else natBand d.kernel dev)

theorem issued_answer {c : NatCall} {d : Daemon} {s : Session} {cmds : List (List String)}
    (h : s.tc = (c.session d).tc.afterAll cmds) (result : Except Exc (Option NATEntry)) :
    (s.answer result).1.issued = cmds := by
  show (s.tc.issued.map Prod.fst).reverse = cmds
  rw [h, TcState.issued_afterAll, List.map_append, List.map_reverse, map_fst_answersFrom]
  simp [NatCall.session]

/-- The end of the `add_*` functions, when the commands succeed. -/
theorem wp_addNat_succeeds {s : Session} (h : s.tc.AllSucceed) {newId : ShortId}
    {sig port : String} {cmd : List String} {entry : Bool → NATEntry} :
    wp (addNat newId sig port cmd entry) s
      (fun e s' => (∃ inHw, e = entry inHw) ∧
        s'.stores.natDb = s.stores.natDb.insert newId.val e ∧
        s'.tc = s.tc.afterAll [cmd, showCmd port natPriority, showCmd port natPriority])
      (fun _ _ => False) := by
  unfold addNat
  rw [wp_bind, wp_tc]
  refine wp_mono (issues_installNat h) (fun inHw t ht => ?_) (fun _ _ hf => hf)
  subst ht
  exact ⟨⟨inHw, rfl⟩, rfl, rfl⟩

/-- A call that makes an entry. -/
theorem natMove_created {d : Daemon} {c : NatCall} {newId : ShortId} {sig port : String}
    {cmd : List String} {entry : Bool → NATEntry} (hnew : newId = c.newId)
    (hcr : c.Creates d.stores) (hop : ∀ id, c.op ≠ .removeNat id)
    (hid : ∀ inHw, (entry inHw).id = newId.val) (hport : ∀ inHw, (entry inHw).port = port)
    (hcmd : ∀ inHw, (entry inHw).addCommand = cmd) (hre : ∀ inHw, (entry inHw).Reappliable) :
    wp (addNat newId sig port cmd entry) (c.session d)
      (fun e s => NatMove d c (s.answer (.ok (some e))).1 (s.answer (.ok (some e))).2)
      (fun e s => NatMove d c (s.answer (.error e)).1 (s.answer (.error e)).2) := by
  refine wp_mono (wp_addNat_succeeds (c.allSucceed d)) ?_ (fun _ _ hf => hf.elim)
  rintro e s ⟨⟨inHw, rfl⟩, hdb, htc⟩
  have htc' : s.tc = (c.session d).tc.afterAll (entry inHw).installCommands := by
    rw [htc, NATEntry.installCommands, hcmd, hport]
  refine .created (entry inHw) hcr hop ((hid inHw).trans (congrArg _ hnew)) (hre inHw) rfl
    (issued_answer htc' _) ?_ (fun dev => ?_)
  · rw [hid]
    exact hdb
  · show natBand s.tc.kernel dev = _
    rw [htc']
    exact natBand_installed (c.allSucceed d) (entry inHw) _ dev

/-- A call that does nothing. -/
theorem natMove_idle {d : Daemon} {c : NatCall} {result : Except Exc (Option NATEntry)}
    (hnot : ¬ c.Creates d.stores) (hop : ∀ id, c.op = .removeNat id → id ∉ d.stores.natDb) :
    NatMove d c ((c.session d).answer result).1 ((c.session d).answer result).2 :=
  .idle hnot hop rfl rfl (fun _ => rfl)

theorem natMove_addSnat {d : Daemon} {c : NatCall} {privateIp publicIp mode : String}
    (hc : c.op = .addSnat privateIp publicIp mode) :
    wp (addSnat c.newId privateIp publicIp mode) (c.session d)
      (fun e s => NatMove d c (s.answer (.ok (some e))).1 (s.answer (.ok (some e))).2)
      (fun e s => NatMove d c (s.answer (.error e)).1 (s.answer (.error e)).2) := by
  have hcr : c.Creates d.stores ↔ (mode = snatModeStatic ∨ mode = snatModeMasquerade) ∧
      findExistingNat d.stores (computeNatSignature .snat privateIp publicIp 0 0 "") = none ∧
      ¬ (mode = snatModeMasquerade ∧ c.pools.isExhausted publicIp = true) := by
    unfold NatCall.Creates
    rw [hc]
  have hop : ∀ id, c.op ≠ .removeNat id := by simp [hc]
  have hidle : ∀ {result}, ¬ c.Creates d.stores →
      NatMove d c ((c.session d).answer result).1 ((c.session d).answer result).2 :=
    fun hnot => natMove_idle hnot (fun id h => absurd h (hop id))
  unfold addSnat
  split
  · rename_i hmode
    exact hidle (fun h => by have := (hcr.mp h).1; tauto)
  · rename_i hmode
    simp only [wp_bind, wp_getStores]
    split
    · rename_i e he
      exact hidle (fun h => Option.some_ne_none e (he.symm.trans (hcr.mp h).2.1))
    · rename_i he
      split
      · rename_i hfull
        exact hidle (fun h => (hcr.mp h).2.2 hfull)
      · rename_i hfree
        refine natMove_created rfl (hcr.mpr ⟨by tauto, he, hfree⟩) hop (fun _ => rfl)
          (fun _ => rfl) (fun _ => rfl) (fun _ hty => ?_)
        exact absurd rfl hty

theorem natMove_addPortNat {d : Daemon} {c : NatCall} {natType : NatType} {cmd : List String}
    {publicIp privateIp protocol : String} {publicPort privatePort : Nat}
    (hcr : c.Creates d.stores ↔ findExistingNat d.stores (computeNatSignature natType privateIp
      publicIp publicPort privatePort protocol) = none)
    (hop : ∀ id, c.op ≠ .removeNat id) (hty : natType ≠ .snat)
    (hcmd : ∀ inHw, NATEntry.addCommand ⟨c.newId.val, none, natType, none, publicIp,
      some publicPort, privateIp, some privatePort, some protocol, inHw⟩ = cmd)
    (hpub : 1 ≤ publicPort) (hpriv : 1 ≤ privatePort) (hproto : protocol ≠ "") :
    wp (addPortNat natType cmd c.newId publicIp publicPort privateIp privatePort protocol)
      (c.session d)
      (fun e s => NatMove d c (s.answer (.ok (some e))).1 (s.answer (.ok (some e))).2)
      (fun e s => NatMove d c (s.answer (.error e)).1 (s.answer (.error e)).2) := by
  unfold addPortNat
  simp only [wp_bind, wp_getStores]
  split
  · rename_i e he
    exact natMove_idle (fun h => Option.some_ne_none e (he.symm.trans (hcr.mp h)))
      (fun id h => absurd h (hop id))
  · rename_i he
    refine natMove_created rfl (hcr.mpr he) hop (fun _ => rfl)
      (fun _ => port_eq_internetPort_iff.mpr hty) hcmd (fun _ _ => ?_)
    exact ⟨⟨publicPort, by omega, rfl⟩, ⟨privatePort, by omega, rfl⟩, protocol, hproto, rfl⟩

theorem natMove_removeNat {d : Daemon} {c : NatCall} {id : String} (hc : c.op = .removeNat id)
    (hre : ∀ id e, d.stores.natDb.get? id = some e → e.Reappliable) :
    wp (removeNat id) (c.session d)
      (fun _ s => NatMove d c (s.answer (.ok none)).1 (s.answer (.ok none)).2)
      (fun e s => NatMove d c (s.answer (.error e)).1 (s.answer (.error e)).2) := by
  have hnot : ¬ c.Creates d.stores := by
    unfold NatCall.Creates
    rw [hc]
    exact fun h => h
  refine wp_mono (wp_removeNat_inTime (c.allSucceed d).inTime) ?_ ?_
  · rintro - s ⟨e, he, rfl⟩
    have hrem : ∀ e' ∈ (d.stores.natDb.erase id).values, e'.Reappliable := by
      intro e' he'
      obtain ⟨k, hk⟩ := Dict.mem_values_iff.mp he'
      exact hre k e' (Dict.get?_erase_eq_some.mp hk).2
    have htc : (c.session d).tc.afterAll (rebuildCommands e.port (d.stores.natDb.erase id).values)
        = (c.session d).tc.afterAll (e.removeCommands (d.stores.natDb.erase id).values) := by
      rw [rebuildCommands_eq hrem, NATEntry.removeCommands]
    refine .removed id e hnot hc he rfl (issued_answer htc _) rfl (fun dev => ?_)
    show natBand ((c.session d).tc.afterAll (rebuildCommands e.port
      (d.stores.natDb.erase id).values)).kernel dev = _
    rw [htc]
    exact natBand_rebuilt (c.allSucceed d) (isPort_port e) _ dev
  · rintro exc s ⟨hid, rfl⟩
    exact natMove_idle hnot (fun id' h => by
      rw [hc, NatOp.removeNat.injEq] at h
      exact h ▸ hid)

/-- **One call**, on entries that give back their commands. -/
theorem natMove_serve {d : Daemon} (c : NatCall)
    (hre : ∀ id e, d.stores.natDb.get? id = some e → e.Reappliable) :
    NatMove d c (natServe d c).1 (natServe d c).2 := by
  refine natServe_of_wp (P := NatMove d c) ?_
  unfold NatCall.program
  cases hc : c.op with
  | addSnat privateIp publicIp mode =>
    rw [wp_map]
    exact natMove_addSnat hc
  | addDnat publicIp publicPort privateIp privatePort protocol =>
    rw [wp_map]
    exact natMove_addPortNat (by unfold NatCall.Creates; rw [hc]) (by simp [hc]) (by simp)
      (fun _ => rfl) publicPort.2 privatePort.2 protocol.2
  | addPortForward publicIp publicPort privateIp privatePort protocol =>
    rw [wp_map]
    exact natMove_addPortNat (by unfold NatCall.Creates; rw [hc]) (by simp [hc]) (by simp)
      (fun _ => rfl) publicPort.2 privatePort.2 protocol.2
  | removeNat id =>
    rw [wp_map]
    exact natMove_removeNat hc hre

/-! ### The commands of the creations -/

/-- A creation, as an answer tells it: the identifier of the entry and the command that
added its filter. -/
def NatAnswer.creation (a : NatAnswer) : Option (String × List String) :=
  match a.result, a.issued with
  | .ok (some e), cmd :: _ => some (e.id, cmd)
  | _, _ => none

theorem NatAnswer.creation_of_idle {a : NatAnswer} (h : a.issued = []) : a.creation = none := by
  unfold creation
  rw [h]
  cases a.result with
  | error e => rfl
  | ok r => cases r <;> rfl

/-- The command of the last creation under an identifier. -/
def originalCommand (calls : List NatCall) (id : String) : Option (List String) :=
  ((natManager.events (fun _ _ a => a.creation) calls).reverse.find?
    (fun p => decide (p.1 = id))).map Prod.snd

theorem originalCommand_of_creation {calls : List NatCall} {c : NatCall} {id : String}
    {cmd : List String} (h : (natServe (natManager.run calls) c).1.creation = some (id, cmd))
    (id' : String) : originalCommand (calls ++ [c]) id'
      = if id = id' then some cmd else originalCommand calls id' := by
  unfold originalCommand
  rw [Machine.events_append_singleton]
  show (((_ ++ (natServe (natManager.run calls) c).1.creation.toList).reverse).find? _).map _ = _
  rw [h]
  by_cases hid : id = id'
  · simp [hid]
  · simp [hid]

theorem originalCommand_of_no_creation {calls : List NatCall} {c : NatCall}
    (h : (natServe (natManager.run calls) c).1.creation = none) (id : String) :
    originalCommand (calls ++ [c]) id = originalCommand calls id := by
  unfold originalCommand
  rw [Machine.events_append_singleton]
  show (((_ ++ (natServe (natManager.run calls) c).1.creation.toList).reverse).find? _).map _ = _
  rw [h, Option.toList_none, List.append_nil]

/-- Every entry is stored under its identifier, and its stored fields give back the command
it was created with. -/
def NatHistory (calls : List NatCall) (s : Stores) : Prop :=
  ∀ id e, s.natDb.get? id = some e →
    e.id = id ∧ e.Reappliable ∧ originalCommand calls id = some e.addCommand

theorem natHistory_step {calls : List NatCall}
    (h : NatHistory calls (natManager.run calls).stores) (c : NatCall) :
    NatHistory (calls ++ [c]) (natServe (natManager.run calls) c).2.stores := by
  have hre : ∀ id e, (natManager.run calls).stores.natDb.get? id = some e → e.Reappliable :=
    fun id e he => (h id e he).2.1
  intro id e he
  cases natMove_serve c hre with
  | idle hnot hop hissued hdb hband =>
    rw [hdb] at he
    rw [originalCommand_of_no_creation (NatAnswer.creation_of_idle hissued)]
    exact h id e he
  | created e' hcr hop hid hre' hres hissued hdb hband =>
    have hsome : (natServe (natManager.run calls) c).1.creation = some (e'.id, e'.addCommand) := by
      unfold NatAnswer.creation
      rw [hres, hissued]
      rfl
    rw [hdb, Dict.get?_insert] at he
    rw [originalCommand_of_creation hsome]
    split at he
    · rename_i hid'
      cases he
      exact ⟨hid'.symm, hre', if_pos hid'.symm⟩
    · rename_i hid'
      rw [if_neg (Ne.symm hid')]
      exact h id e he
  | removed id' e' hnot hop hget hres hissued hdb hband =>
    have hnone : (natServe (natManager.run calls) c).1.creation = none := by
      unfold NatAnswer.creation
      rw [hres]
    rw [hdb] at he
    rw [originalCommand_of_no_creation hnone]
    exact h id e (Dict.get?_erase_eq_some.mp he).2

theorem natHistory_run (calls : List NatCall) :
    NatHistory calls (natManager.run calls).stores := by
  induction calls using List.reverseRecOn with
  | nil =>
    intro id e he
    cases he
  | append_singleton calls c ih =>
    rw [Machine.run_append_singleton]
    exact natHistory_step ih c

/-! ### The bands and `nat_db` -/

/-- Every band holds the filters of the entries of its port, in the order of `nat_db`. -/
def BandsAgree (d : Daemon) : Prop :=
  ∀ dev, natBand d.kernel dev = (entriesOn dev d.stores.natDb.values).map NATEntry.spec

/-- The condition of a call: if it makes an entry, it draws an identifier that no entry
has. -/
def DrawsNew (d : Daemon) (c : NatCall) : Prop :=
  c.Creates d.stores → c.newId.val ∉ d.stores.natDb

theorem bandsAgree_init : BandsAgree Daemon.init := by
  intro dev
  show ((Kernel.filters ⟨[], []⟩ dev).filter _).map _ = []
  have hnil : Kernel.filters ⟨[], []⟩ dev = [] := by
    unfold Kernel.filters
    simp
  rw [hnil]
  rfl

theorem length_entriesOn (entries : List NATEntry) :
    (entriesOn internetPort entries).length + (entriesOn clientPort entries).length
      = entries.length := by
  have hne : internetPort ≠ clientPort := by decide
  induction entries with
  | nil => rfl
  | cons e entries ih =>
    unfold entriesOn at ih ⊢
    rcases isPort_port e with h | h
    · rw [List.filter_cons_of_pos (by simpa using h),
        List.filter_cons_of_neg (by simp [h, hne]), List.length_cons, List.length_cons]
      omega
    · rw [List.filter_cons_of_neg (by simpa [h] using hne.symm),
        List.filter_cons_of_pos (by simpa using h), List.length_cons, List.length_cons]
      omega

theorem BandsAgree.length {d : Daemon} (h : BandsAgree d) :
    (natBand d.kernel internetPort).length + (natBand d.kernel clientPort).length
      = d.stores.natDb.size := by
  rw [h, h, List.length_map, List.length_map, length_entriesOn]
  exact List.length_map ..

/-- An entry stored under an identifier that is in use takes the place of another one, whose
filter stays. -/
theorem not_bandsAgree_of_drawn {d d' : Daemon} {e : NATEntry} (ha : BandsAgree d)
    (hid : e.id ∈ d.stores.natDb) (hdb : d'.stores.natDb = d.stores.natDb.insert e.id e)
    (hband : ∀ dev, natBand d'.kernel dev
      = natBand d.kernel dev ++ if e.port = dev then [e.spec] else []) : ¬ BandsAgree d' := by
  have hne : internetPort ≠ clientPort := by decide
  intro ha'
  have h := ha.length
  have h' := ha'.length
  rw [hdb, Dict.size_insert_of_mem hid, hband, hband, List.length_append, List.length_append] at h'
  rcases isPort_port e with hp | hp
  · rw [hp, if_pos rfl, if_neg hne, List.length_singleton, List.length_nil] at h'
    omega
  · rw [hp, if_pos rfl, if_neg hne.symm, List.length_singleton, List.length_nil] at h'
    omega

/-- **One call keeps the bands alike exactly if it draws a new identifier.** -/
theorem bandsAgree_natServe_iff {d : Daemon} (c : NatCall)
    (hre : ∀ id e, d.stores.natDb.get? id = some e → e.Reappliable) (ha : BandsAgree d) :
    BandsAgree (natServe d c).2 ↔ DrawsNew d c := by
  cases natMove_serve c hre with
  | idle hnot hop hissued hdb hband =>
    refine iff_of_true (fun dev => ?_) (fun hcr => absurd hcr hnot)
    rw [hdb, hband, ha]
  | created e hcr hop hid hre' hres hissued hdb hband =>
    unfold DrawsNew
    rw [← hid]
    by_cases hmem : e.id ∈ d.stores.natDb
    · exact iff_of_false (not_bandsAgree_of_drawn ha hmem hdb hband) (fun h => h hcr hmem)
    · refine iff_of_true (fun dev => ?_) (fun _ => hmem)
      have hvalues : (d.stores.natDb.insert e.id e).values = d.stores.natDb.values ++ [e] := by
        unfold Dict.values
        rw [Dict.entries_insert_of_not_mem hmem, List.map_append]
        rfl
      rw [hdb, hband, ha, hvalues, entriesOn_append, List.map_append, map_spec_entriesOn_singleton]
  | removed id e hnot hop hget hres hissued hdb hband =>
    refine iff_of_true (fun dev => ?_) (fun hcr => absurd hcr hnot)
    rw [hdb, hband]
    by_cases hdev : dev = e.port
    · rw [if_pos hdev, hdev]
    · have hsame : entriesOn dev (d.stores.natDb.erase id).values
          = entriesOn dev d.stores.natDb.values :=
        Dict.filter_values_erase hget (by simpa using Ne.symm hdev)
      rw [if_neg hdev, ha, hsame]

/-- **Removing an entry rebuilds what remains.**  After any calls, the stored fields of an
entry give back the command it was created with, and the removal of an entry empties the band
of its port and issues the commands of the entries that remain on it.  The bands hold
exactly the filters of `nat_db`, in its order, after every call, if and only if no call that
makes an entry draws the identifier of a live one. -/
theorem nat_removal_rebuilds (calls : List NatCall) :
    (∀ l₁ l₂, calls = l₁ ++ l₂ → ∀ id e, (natManager.run l₁).stores.natDb.get? id = some e →
      originalCommand l₁ id = some e.addCommand) ∧
    (∀ l₁ c l₂, calls = l₁ ++ c :: l₂ → ∀ id e, c.op = .removeNat id →
      (natManager.run l₁).stores.natDb.get? id = some e →
      (natManager.step (natManager.run l₁) c).1.issued = delCommand e.port ::
        (entriesOn e.port ((natManager.run l₁).stores.natDb.erase id).values).map
          NATEntry.addCommand) ∧
    ((∀ l₁ l₂, calls = l₁ ++ l₂ → ∀ dev, natBand (natManager.run l₁).kernel dev
        = (entriesOn dev (natManager.run l₁).stores.natDb.values).map NATEntry.spec) ↔
      natManager.Meets DrawsNew calls) := by
  refine ⟨fun l₁ _ _ id e he => (natHistory_run l₁ id e he).2.2, ?_, ?_⟩
  · intro l₁ c l₂ _ id e hop hget
    show (natServe (natManager.run l₁) c).1.issued = _
    cases natMove_serve c (fun id e he => (natHistory_run l₁ id e he).2.1) with
    | idle hnot hop' hissued hdb hband =>
      exact absurd (Dict.mem_of_get? hget) (hop' id hop)
    | created e' hcr hop' hid hre' hres hissued hdb hband => exact absurd hop (hop' id)
    | removed id' e' hnot hop' hget' hres hissued hdb hband =>
      rw [hop, NatOp.removeNat.injEq] at hop'
      subst hop'
      rw [hget, Option.some.injEq] at hget'
      exact hget' ▸ hissued
  · exact natManager.forall_run_iff_meets (A := BandsAgree) bandsAgree_init
      (fun l c ha => bandsAgree_natServe_iff c (fun id e he => (natHistory_run l id e he).2.1) ha)
      calls

/-- A call with answers that all report success. -/
def sampleNatCall (op : NatOp) (newId : ShortId) : NatCall :=
  ⟨op, newId, .new defaultPoolSize, fun _ => .exit 0 "" "" 1, fun _ => rfl⟩

/-- Two addresses, and the second call draws the identifier of the first entry. -/
def identifierDrawnTwice : List NatCall :=
  [sampleNatCall (.addSnat "10.0.0.5" "203.0.113.7" snatModeStatic) firstId,
    sampleNatCall (.addSnat "10.0.0.6" "203.0.113.8" snatModeStatic) firstId]

/-- **A filter without an entry**: the band of the client port holds two filters, and
`nat_db` only the entry of the second one. -/
theorem nat_band_without_entry :
    natBand (natManager.run identifierDrawnTwice).kernel clientPort
      = [(snatCmd "10.0.0.5" "203.0.113.7").drop 10, (snatCmd "10.0.0.6" "203.0.113.8").drop 10] ∧
    (entriesOn clientPort (natManager.run identifierDrawnTwice).stores.natDb.values).map
      NATEntry.spec = [(snatCmd "10.0.0.6" "203.0.113.8").drop 10] ∧
    ¬ ∀ dev, natBand (natManager.run identifierDrawnTwice).kernel dev
      = (entriesOn dev (natManager.run identifierDrawnTwice).stores.natDb.values).map
          NATEntry.spec := by
  have hband : natBand (natManager.run identifierDrawnTwice).kernel clientPort
      = [(snatCmd "10.0.0.5" "203.0.113.7").drop 10,
        (snatCmd "10.0.0.6" "203.0.113.8").drop 10] := by decide +kernel
  have hdb : (entriesOn clientPort (natManager.run identifierDrawnTwice).stores.natDb.values).map
      NATEntry.spec = [(snatCmd "10.0.0.6" "203.0.113.8").drop 10] := by decide +kernel
  refine ⟨hband, hdb, fun h => ?_⟩
  have hsame := h clientPort
  rw [hband, hdb] at hsame
  exact absurd (congrArg List.length hsame) (by decide)

end PrismFirewall.TcFirewall
