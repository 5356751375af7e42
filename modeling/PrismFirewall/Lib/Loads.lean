import Mathlib.Logic.Basic

/-!
# Loads from memory

A `Load` is a piece of code that reads bytes of a memory and computes a value; the
offsets it has read come along with the value.  `Within len` says that all of them lie
below `len`.

A load is `Local` when it depends on nothing but the bytes it reads.  Whatever is put
together from single bytes is local, so a load that stays below `len` does not see what
lies in memory from there on (`Local.eq_of_within`).
-/

namespace PrismFirewall.Lib

/-- The value of a load and the offsets it reads, in order. -/
def Load (α : Type) : Type := (Nat → UInt8) → α × List Nat

namespace Load

variable {α β : Type}

instance : Monad Load where
  pure a := fun _ => (a, [])
  bind x f := fun mem => ((f (x mem).1 mem).1, (x mem).2 ++ (f (x mem).1 mem).2)

def value (x : Load α) (mem : Nat → UInt8) : α := (x mem).1

def offsets (x : Load α) (mem : Nat → UInt8) : List Nat := (x mem).2

/-- One byte. -/
def byte (i : Nat) : Load UInt8 := fun mem => (mem i, [i])

/-- A 16-bit word of a little-endian machine. -/
def le16 (i : Nat) : Load UInt16 := do
  let b0 ← byte i
  let b1 ← byte (i + 1)
  return b0.toUInt16 ||| b1.toUInt16 <<< 8

/-- A 32-bit word of a little-endian machine. -/
def le32 (i : Nat) : Load UInt32 := do
  let w0 ← le16 i
  let w1 ← le16 (i + 2)
  return w0.toUInt32 ||| w1.toUInt32 <<< 16

section Value

variable {mem : Nat → UInt8}

@[simp] theorem value_pure {a : α} : (pure a : Load α).value mem = a := rfl

@[simp] theorem value_bind {x : Load α} {f : α → Load β} :
    (x >>= f).value mem = (f (x.value mem)).value mem := rfl

@[simp] theorem value_byte {i : Nat} : (byte i).value mem = mem i := rfl

@[simp] theorem value_le16 {i : Nat} :
    (le16 i).value mem = (mem i).toUInt16 ||| (mem (i + 1)).toUInt16 <<< 8 := rfl

end Value

/-! ### Staying below a bound -/

/-- Every offset that is read lies below `len`. -/
def Within (x : Load α) (mem : Nat → UInt8) (len : Nat) : Prop := ∀ i ∈ x.offsets mem, i < len

section Within

variable {mem : Nat → UInt8} {len : Nat}

@[simp] theorem within_pure {a : α} : Within (pure a) mem len ↔ True :=
  iff_of_true (fun _ hi => absurd hi List.not_mem_nil) trivial

@[simp] theorem within_bind {x : Load α} {f : α → Load β} :
    Within (x >>= f) mem len ↔ Within x mem len ∧ Within (f (x.value mem)) mem len :=
  List.forall_mem_append

@[simp] theorem within_byte {i : Nat} : Within (byte i) mem len ↔ i < len := by
  show (∀ j ∈ [i], j < len) ↔ i < len
  rw [List.forall_mem_singleton]

@[simp] theorem within_le16 {i : Nat} : Within (le16 i) mem len ↔ i + 1 < len := by
  simp only [le16, within_bind, within_byte, within_pure, and_true]
  omega

@[simp] theorem within_le32 {i : Nat} : Within (le32 i) mem len ↔ i + 3 < len := by
  simp only [le32, within_bind, within_le16, within_pure, and_true]
  omega

end Within

/-! ### Depending on what is read -/

/-- The load depends on the bytes it reads and on no others. -/
def Local (x : Load α) : Prop :=
  ∀ mem mem', (∀ i ∈ x.offsets mem, mem' i = mem i) → x mem' = x mem

theorem local_pure (a : α) : Local (pure a : Load α) := fun _ _ _ => rfl

theorem local_byte (i : Nat) : Local (byte i) := by
  intro mem mem' h
  have hi : mem' i = mem i := h i (List.mem_singleton_self i)
  show (mem' i, [i]) = (mem i, [i])
  rw [hi]

theorem Local.bind {x : Load α} {f : α → Load β} (hx : Local x) (hf : ∀ a, Local (f a)) :
    Local (x >>= f) := by
  intro mem mem' h
  obtain ⟨h1, h2⟩ := List.forall_mem_append.mp h
  have e1 : x mem' = x mem := hx mem mem' h1
  have e2 : f (x mem).1 mem' = f (x mem).1 mem := hf _ mem mem' h2
  show ((f (x mem').1 mem').1, (x mem').2 ++ (f (x mem').1 mem').2) = _
  rw [e1, e2]
  rfl

theorem local_le16 (i : Nat) : Local (le16 i) :=
  (local_byte i).bind (fun _ => (local_byte (i + 1)).bind (fun _ => local_pure _))

theorem local_le32 (i : Nat) : Local (le32 i) :=
  (local_le16 i).bind (fun _ => (local_le16 (i + 2)).bind (fun _ => local_pure _))

/-- **What lies from the bound on does not matter** to a load that stays below it. -/
theorem Local.eq_of_within {x : Load α} (hx : Local x) {mem mem' : Nat → UInt8} {len : Nat}
    (hw : Within x mem len) (h : ∀ i < len, mem' i = mem i) : x mem' = x mem :=
  hx mem mem' (fun i hi => h i (hw i hi))

end Load

end PrismFirewall.Lib
