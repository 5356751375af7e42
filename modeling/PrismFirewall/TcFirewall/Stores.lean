import PrismFirewall.TcFirewall.SnatState
import PrismFirewall.TcFirewall.TcManager

/-!
# The state of the daemon

`Stores` is everything the Python process remembers between requests: the
tenant registry, the rule store with its two idempotency indexes, the two NAT
stores with theirs, the SNAT pools and the audit log.  A `Daemon` is the process
together with the kernel it drives.

While a request is handled, the state is a `Session`: the stores and the state
of the tc layer.  A program of the tc layer runs inside through `tc`, which
leaves the stores alone (`wp_tc`).
-/

namespace PrismFirewall.TcFirewall

open Lib

/-- A value in the details of an audit entry. -/
inductive AuditValue
  | null
  | text (s : String)
  | int (n : Int)
  deriving DecidableEq

def AuditValue.ofText (s : Option String) : AuditValue := s.elim .null .text

def AuditValue.ofPort (p : Option Field16) : AuditValue := p.elim .null (fun n => .int n.val)

structure AuditEntry where
  action : String
  resourceType : String
  resourceId : String
  details : List (String × AuditValue)
  sourceIp : String
  deriving DecidableEq

structure Stores where
  tenants : Dict String TenantConfig
  rulesDb : Dict String FirewallRule
  ruleSignatureIndex : Dict String String
  idempotencyKeyIndex : Dict String String
  natEntriesDb : Dict String NATEntry
  natDb : Dict String NATEntry
  natSignatureIndex : Dict String String
  snatState : SNATState Float
  audit : List AuditEntry

structure Daemon where
  stores : Stores
  kernel : Kernel

/-- The daemon when it has just been started on ports without filters. -/
def Daemon.init : Daemon where
  stores := ⟨.empty, .empty, .empty, .empty, .empty, .empty, .empty, .new defaultPoolSize, []⟩
  kernel := ⟨[], []⟩

structure Session where
  stores : Stores
  tc : TcState

abbrev DaemonM := EStateM Exc Session

def getStores : DaemonM Stores := do return (← get).stores

def modifyStores (f : Stores → Stores) : DaemonM Unit :=
  modify (fun s => { s with stores := f s.stores })

/-- A program of the tc layer. -/
def tc {α : Type} (m : TcM α) : DaemonM α := zoom Session.tc (fun t s => { s with tc := t }) m

section

variable {s : Session} {E : Exc → Session → Prop}

@[simp] theorem wp_getStores {Q : Stores → Session → Prop} :
    wp getStores s Q E ↔ Q s.stores s := Iff.rfl

@[simp] theorem wp_modifyStores {f : Stores → Stores} {Q : Unit → Session → Prop} :
    wp (modifyStores f) s Q E ↔ Q () { s with stores := f s.stores } := Iff.rfl

/-- The tc layer cannot write to the stores. -/
theorem wp_tc {α : Type} {m : TcM α} {Q : α → Session → Prop} :
    wp (tc m) s Q E ↔
      wp m s.tc (fun a t => Q a { s with tc := t }) (fun e t => E e { s with tc := t }) := wp_zoom

/-- What holds in every state of the tc layer holds after a program of it. -/
theorem wp_tc_of_forall {α : Type} {m : TcM α} {Q : α → Session → Prop}
    (hQ : ∀ a t, Q a { s with tc := t }) (hE : ∀ e t, E e { s with tc := t }) :
    wp (tc m) s Q E := by
  rw [wp_tc]
  unfold wp
  cases m s.tc with
  | ok a t => exact hQ a t
  | error e t => exact hE e t

end

/-- `except TcError`: every other exception goes on. -/
def catchTcError {α : Type} (m : DaemonM α) (h : String → DaemonM α) : DaemonM α :=
  tryCatch m (fun e => match e with
    | .tcError message => h message
    | e => throw e)

theorem wp_catchTcError {α : Type} {m : DaemonM α} {h : String → DaemonM α} {s : Session}
    {Q : α → Session → Prop} {E : Exc → Session → Prop} :
    wp (catchTcError m h) s Q E ↔ wp m s Q (fun e s' => match e with
      | .tcError message => wp (h message) s' Q E
      | e => E e s') := by
  rw [catchTcError, wp_tryCatch]
  unfold wp
  cases m s with
  | ok a s' => rfl
  | error e s' => cases e <;> rfl

/-- The rule for a handler: what it is given a tc error with, and what the others go
on with. -/
theorem wp_catchTcError_of {α : Type} {m : DaemonM α} {h : String → DaemonM α} {s : Session}
    {Q : α → Session → Prop} {E F : Exc → Session → Prop} (hm : wp m s Q F)
    (hcatch : ∀ message s', F (.tcError message) s' → wp (h message) s' Q E)
    (hother : ∀ e s', (∀ message, e ≠ .tcError message) → F e s' → E e s') :
    wp (catchTcError m h) s Q E := by
  rw [wp_catchTcError]
  refine wp_mono hm (fun _ _ hq => hq) (fun e s' he => ?_)
  cases e with
  | tcError message => exact hcatch message s' he
  | timeoutExpired => exact hother _ s' (by simp) he
  | valueError message => exact hother _ s' (by simp) he
  | keyError => exact hother _ s' (by simp) he
  | httpException status detail => exact hother _ s' (by simp) he

theorem keeps_catchTcError {R : Session → Session → Prop}
    (ht : ∀ s s' s'', R s s' → R s' s'' → R s s'') {α : Type} {m : DaemonM α}
    {h : String → DaemonM α} (hm : Keeps R m) (hh : ∀ e, Keeps R (h e)) :
    Keeps R (catchTcError m h) := by
  intro s
  refine wp_catchTcError_of (hm s) ?_ (fun _ _ _ h' => h')
  intro message s' h'
  exact wp_mono (hh message s') (fun _ s'' h2 => ht s s' s'' h' h2)
    (fun _ s'' h2 => ht s s' s'' h' h2)

end PrismFirewall.TcFirewall
