import PrismFirewall.Lib.Text
import PrismFirewall.TcFirewall.Models

/-!
# Driving tc

`tc_manager.py` talks to the kernel only through `_run_tc`.  What a command
does is split in two here.  The subprocess answers: it exits with a return code
and two texts, or the ten second limit strikes (`TcReply`); nothing is assumed
about the texts.  The kernel keeps one filter list for each of the two ports,
and a command that exits with `0` changes them as `Kernel.exec` says; a command
that fails changes nothing.

`runTc` takes the next answer, so the program is a function of the answers it
will get.  `wp_runTc` is the one equation the proofs about commands use.
-/

namespace PrismFirewall.TcFirewall

open Lib

/-! ### The kernel -/

def internetPort : String := "pf0vf0"

def clientPort : String := "pf0vf3"

/-- A flower filter: its preference, the handle the kernel gave it, and the
match keys and actions it was added with. -/
structure Filter where
  prio : String
  handle : Nat
  spec : List String
  deriving DecidableEq

def Filter.handleText (f : Filter) : String := "0x" ++ String.ofList (Nat.toDigits 16 f.handle)

/-- The ingress filters of the two ports. -/
structure Kernel where
  internet : List Filter
  client : List Filter
  deriving DecidableEq

def Kernel.modifyDev (k : Kernel) (dev : String) (f : List Filter → List Filter) : Kernel :=
  if dev = internetPort then { k with internet := f k.internet }
  else if dev = clientPort then { k with client := f k.client }
  else k

/-- What a command that succeeds does; `handle` is what the kernel gives a new
filter. -/
def Kernel.exec (k : Kernel) (handle : Nat) : List String → Kernel
  | "filter" :: "add" :: "dev" :: dev :: "ingress" :: "protocol" :: "ip" :: "prio" :: prio ::
      "flower" :: spec => k.modifyDev dev (fun l => l ++ [⟨prio, handle, spec⟩])
  | ["filter", "del", "dev", dev, "ingress", "prio", prio, "handle", h, "flower"] =>
      k.modifyDev dev (fun l => l.filter (fun f => !(f.prio == prio && f.handleText == h)))
  | ["filter", "del", "dev", dev, "ingress", "prio", prio] =>
      k.modifyDev dev (fun l => l.filter (fun f => f.prio != prio))
  | ["filter", "del", "dev", dev, "ingress"] => k.modifyDev dev (fun _ => [])
  | _ => k

/-! ### Running a command -/

/-- How one subprocess ends. -/
inductive TcReply
  | exit (returncode : Int) (stdout stderr : String) (handle : Nat)
  | timeout
  deriving DecidableEq

/-- The command ran and exited with `0`. -/
def TcReply.succeeds : TcReply → Bool
  | .exit returncode _ _ _ => returncode == 0
  | .timeout => false

def TcReply.timesOut : TcReply → Bool
  | .exit .. => false
  | .timeout => true

/-- The handle the kernel gives a filter that this command adds. -/
def TcReply.handle : TcReply → Nat
  | .exit _ _ _ handle => handle
  | .timeout => 0

structure CompletedProcess where
  returncode : Int
  stdout : String
  stderr : String

/-- The kernel, the answers the subprocesses will give, and the commands issued
so far, the newest first. -/
structure TcState where
  kernel : Kernel
  replies : Nat → TcReply
  issued : List (List String × TcReply)

abbrev TcM := EStateM Exc TcState

/-- `_run_tc`. -/
def runTc (args : List String) (check : Bool) : TcM CompletedProcess := do
  let s ← get
  let reply := s.replies s.issued.length
  match reply with
  | .timeout =>
    set { s with issued := (args, reply) :: s.issued }
    throw .timeoutExpired
  | .exit returncode stdout stderr handle =>
    set { s with
      kernel := if returncode = 0 then s.kernel.exec handle args else s.kernel
      issued := (args, reply) :: s.issued }
    if check && returncode != 0 then
      throw (.tcError ("tc failed: " ++ Text.strip stderr))
    return ⟨returncode, stdout, stderr⟩

/-! ### Reading a listing -/

/-- `handle\s+(0x[0-9a-f]+)` at the start of a text. -/
def matchHandle (cs : List Char) : Option String := do
  let rest ← Text.dropPrefix? "handle".toList cs
  guard (rest.takeWhile Text.isSpace ≠ [])
  let digits ← Text.dropPrefix? "0x".toList (rest.dropWhile Text.isSpace)
  guard (digits.takeWhile Text.isHexDigit ≠ [])
  return "0x" ++ String.ofList (digits.takeWhile Text.isHexDigit)

/-- `re.findall` of `matchHandle`.  No match begins inside another one: after
its first letter a match has no further `h`. -/
def findHandles : List Char → List String
  | [] => []
  | c :: cs => (matchHandle (c :: cs)).toList ++ findHandles cs

/-- `re.search(r"(?<!not_)in_hw", text)`; `before` is what was passed, reversed. -/
def searchInHw (before : List Char) : List Char → Bool
  | [] => false
  | c :: cs =>
      ((Text.dropPrefix? "in_hw".toList (c :: cs)).isSome
        && (Text.dropPrefix? "_ton".toList before).isNone)
      || searchInHw (c :: before) cs

/-- `_get_last_handle`. -/
def getLastHandle (dev : String) (priority : Nat) : TcM String := do
  let result ← runTc ["filter", "show", "dev", dev, "ingress", "prio", toString priority] false
  if result.returncode != 0 then
    return ""
  return (findHandles result.stdout.toList).getLast?.getD ""

/-- `check_in_hw`: the handle is not looked at. -/
def checkInHw (port _handle : String) (priority : Nat) : TcM Bool := do
  let result ← runTc ["filter", "show", "dev", port, "ingress", "prio", toString priority] false
  if result.returncode != 0 then
    return false
  return searchInHw [] result.stdout.toList

/-! ### Adding and removing filters -/

/-- A text field that is present and not empty gives its key. -/
def textKey (key : String) : Option String → List String
  | some v => if v = "" then [] else [key, v]
  | none => []

/-- A port is matched on only next to `ip_proto tcp` or `ip_proto udp`. -/
def portKey (key protocol : String) : Option Nat → List String
  | some n => if n ≠ 0 ∧ (protocol = "tcp" ∨ protocol = "udp") then [key, toString n] else []
  | none => []

/-- `_build_flower_cmd`. -/
def buildFlowerCmd (dev : String) (srcIp dstIp : Option String) (srcPort dstPort : Option Nat)
    (protocol : String) (priority : Nat) : List String :=
  ["filter", "add", "dev", dev, "ingress", "protocol", "ip", "prio", toString priority, "flower"]
    ++ (if protocol ≠ "" ∧ protocol ≠ "any" ∧ protocol ≠ "ip" then ["ip_proto", protocol] else [])
    ++ textKey "src_ip" srcIp
    ++ textKey "dst_ip" dstIp
    ++ portKey "src_port" protocol srcPort
    ++ portKey "dst_port" protocol dstPort

/-- The common part of `_add_redirect_rule` and `_add_drop_rule`: add one filter
with the given action and ask for its handle. -/
def addFilter (action : List String) (dev : String) (srcIp dstIp : Option String)
    (srcPort dstPort : Option Nat) (protocol : String) (priority : Nat) : TcM String := do
  let _ ← runTc (buildFlowerCmd dev srcIp dstIp srcPort dstPort protocol priority ++ action) true
  getLastHandle dev priority

/-- `_add_redirect_rule`. -/
def addRedirectRule (dev target : String) (srcIp dstIp : Option String)
    (srcPort dstPort : Option Nat) (protocol : String) (priority : Nat) : TcM String :=
  addFilter ["action", "mirred", "egress", "redirect", "dev", target]
    dev srcIp dstIp srcPort dstPort protocol priority

/-- `_add_drop_rule`. -/
def addDropRule (dev : String) (srcIp dstIp : Option String)
    (srcPort dstPort : Option Nat) (protocol : String) (priority : Nat) : TcM String :=
  addFilter ["action", "drop"] dev srcIp dstIp srcPort dstPort protocol priority

/-- `add_allow_rule` on the default ports. -/
def addAllowRule (srcIp dstIp : Option String) (srcPort dstPort : Option Nat)
    (protocol : String) (priority : Nat) : TcM (String × String) := do
  let fwdHandle ←
    addRedirectRule internetPort clientPort srcIp dstIp srcPort dstPort protocol priority
  let revHandle ←
    addRedirectRule clientPort internetPort dstIp srcIp dstPort srcPort protocol priority
  return (fwdHandle, revHandle)

/-- `add_deny_rule` on the default port. -/
def addDenyRule (srcIp dstIp : Option String) (srcPort dstPort : Option Nat)
    (protocol : String) (priority : Nat) : TcM (String × String) := do
  let fwdHandle ← addDropRule internetPort srcIp dstIp srcPort dstPort protocol priority
  let revHandle ← addDropRule clientPort dstIp srcIp dstPort srcPort protocol priority
  return (fwdHandle, revHandle)

/-- `remove_rule`. -/
def removeRule (dev handle : String) (priority : Nat) : TcM Unit := do
  if handle = "" then
    return ()
  let _ ← runTc ["filter", "del", "dev", dev, "ingress", "prio", toString priority,
    "handle", handle, "flower"] true
  return ()

/-! ### What a command does -/

/-- The state after a command has been answered. -/
def TcState.after (s : TcState) (args : List String) : TcState :=
  { s with
    kernel := match s.replies s.issued.length with
      | .exit returncode _ _ handle =>
        if returncode = 0 then s.kernel.exec handle args else s.kernel
      | .timeout => s.kernel
    issued := (args, s.replies s.issued.length) :: s.issued }

/-- **One command**: it raises on a time-out and, if `check` is set, on a
non-zero exit; otherwise it returns.  Either way the state is `after`. -/
theorem wp_runTc {args : List String} {check : Bool} {s : TcState}
    {Q : CompletedProcess → TcState → Prop} {E : Exc → TcState → Prop} :
    wp (runTc args check) s Q E ↔
      match s.replies s.issued.length with
      | .timeout => E .timeoutExpired (s.after args)
      | .exit returncode stdout stderr _ =>
        if check && returncode != 0 then
          E (.tcError ("tc failed: " ++ Text.strip stderr)) (s.after args)
        else Q ⟨returncode, stdout, stderr⟩ (s.after args) := by
  unfold runTc TcState.after
  rw [wp_bind, wp_get]
  cases hr : s.replies s.issued.length with
  | timeout => simp
  | exit returncode stdout stderr handle =>
    simp only [wp_bind, wp_set]
    split <;> simp

end PrismFirewall.TcFirewall
