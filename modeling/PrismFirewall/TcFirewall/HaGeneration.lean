import PrismFirewall.Lib.Decimal
import PrismFirewall.TcFirewall.HaFencing

/-!
# The generation file

`ha.py` keeps the generation in a file, so that it survives a restart.  A
promotion counts up in memory and then rewrites the file in place: it is emptied
first and filled afterwards, and a crash may find it at any point between.

`HANode` is a node with its file.  `writing` says that a promotion has counted up
and its write has not ended; nothing else runs on the node until it has.  The
events say how a write ends, and when the node crashes and is started again.
-/

namespace PrismFirewall.TcFirewall.Ha

open Lib Lib.Text

/-- `_load_generation`; no content stands for a file that is missing or cannot be
read as text. -/
def loadGeneration : Option String → Int
  | some content => (readInt (strip content).toList).getD 1
  | none => 1

structure HANode where
  manager : HAManager
  genFile : Option String
  writing : Bool
  deriving DecidableEq

/-- What an interrupted write leaves: the old content, when the file had not been
opened yet, or the characters written so far. -/
inductive Left
  | old
  | cut (k : Nat)
  deriving DecidableEq

/-- The content of the file after an interrupted write. -/
def Left.content (old : Option String) (new : String) : Left → Option String
  | .old => old
  | .cut k => some (String.ofList (new.toList.take k))

/-- The methods that are called on a node. -/
inductive Method
  | promote
  | demote
  | receiveHeartbeat (now : Rat) (generation : Int) (role : HAState)
  | monitor (now : Rat)
  deriving DecidableEq

def Method.run : Method → HAManager → Reply × HAManager
  | .promote => HAManager.promote
  | .demote => HAManager.demote
  | .receiveHeartbeat now g r => fun m => m.receiveHeartbeat now g r
  | .monitor now => fun m => m.monitor now

/-- A method call, or the end of a write, or the end of the process. -/
inductive Act
  | call (f : Method)
  | written
  | writeFails (left : Left)
  | crash (left : Left)
  deriving DecidableEq

namespace HANode

/-- The text `_persist_generation` writes. -/
def text (s : HANode) : String := toString s.manager.generation

/-- A start of the process, on the file as it is. -/
def start (c : Config) (genFile : Option String) : HANode :=
  ⟨.new { c with generation := loadGeneration genFile }, genFile, false⟩

/-- One event.  A promotion goes on to write; an `OSError` of the write is passed
over; a crash restarts the node. -/
def step (c : Config) (s : HANode) : Act → Reply × HANode
  | .call f =>
    if s.writing then (.none, s)
    else ((f.run s.manager).1, { s with
      manager := (f.run s.manager).2
      writing := (f.run s.manager).1.isPromotion })
  | .written =>
    if s.writing then (.none, { s with genFile := some s.text, writing := false })
    else (.none, s)
  | .writeFails left =>
    if s.writing then
      (.none, { s with genFile := left.content s.genFile s.text, writing := false })
    else (.none, s)
  | .crash left =>
    (.none, start c (if s.writing then left.content s.genFile s.text else s.genFile))

end HANode

/-- One node, started on any file. -/
def haNode (c : Config) (genFile : Option String) : Machine HANode Act Reply where
  init := .start c genFile
  step := HANode.step c

/-! ### What is read back -/

theorem not_isSpace_toString (g : Int) : ∀ c ∈ (toString g).toList, isSpace c = false := by
  intro c hc
  rcases exists_natCast_or_neg g with ⟨n, rfl⟩ | ⟨n, hn, rfl⟩
  · rw [toList_toString_natCast] at hc
    exact isSpace_of_isDigit (isDigit_toDigits c hc)
  · rw [toList_toString_neg hn, List.mem_cons] at hc
    rcases hc with rfl | hc
    · decide
    · exact isSpace_of_isDigit (isDigit_toDigits c hc)

theorem loadGeneration_cut (g : Int) (k : Nat) (old : Option String) :
    loadGeneration ((Left.cut k).content old (toString g))
      = (readInt ((toString g).toList.take k)).getD 1 := by
  have hspace : ∀ c ∈ (String.ofList ((toString g).toList.take k)).toList, isSpace c = false := by
    intro c hc
    rw [String.toList_ofList] at hc
    exact not_isSpace_toString g c (List.mem_of_mem_take hc)
  rw [Left.content, loadGeneration, strip_of_not_isSpace hspace, String.toList_ofList]

theorem loadGeneration_toString (g : Int) : loadGeneration (some (toString g)) = g := by
  rw [loadGeneration, strip_of_not_isSpace (not_isSpace_toString g), readInt_toString]
  rfl

/-- What an interrupted write may leave without harm: the whole text, or, for a
generation of at most one, any part of it. -/
def Left.Kept (g : Int) : Left → Prop
  | .old => False
  | .cut k => (toString g).toList.length ≤ k ∨ g ≤ 1

/-- **When a write that breaks off loses nothing.** -/
theorem le_loadGeneration_cut_iff (g : Int) (k : Nat) (old : Option String) :
    g ≤ loadGeneration ((Left.cut k).content old (toString g)) ↔ (Left.cut k).Kept g := by
  rw [loadGeneration_cut, Left.Kept]
  by_cases hk : (toString g).toList.length ≤ k
  · rw [List.take_of_length_le hk, readInt_toString]
    exact ⟨fun _ => Or.inl hk, fun _ => le_refl g⟩
  · rw [not_le] at hk
    cases hread : readInt ((toString g).toList.take k) with
    | none =>
      -- nothing, or only a sign: the node starts at one
      show g ≤ 1 ↔ _
      omega
    | some v =>
      show g ≤ v ↔ _
      rcases lt_trichotomy g 1 with hg | rfl | hg
      · have hle := le_readInt_take (by omega) hread
        exact ⟨fun _ => Or.inr hg.le, fun _ => hle⟩
      · have hk0 : k = 0 := Nat.lt_one_iff.mp hk
        rw [hk0, List.take_zero] at hread
        exact absurd hread (by simp [readInt, readNat])
      · have hlt := readInt_take_lt (by omega) hk hread
        omega

theorem le_loadGeneration_of_kept {g : Int} {left : Left} (h : left.Kept g)
    (old : Option String) : g ≤ loadGeneration (left.content old (toString g)) := by
  cases left with
  | old => exact absurd h (by simp [Left.Kept])
  | cut k => exact (le_loadGeneration_cut_iff g k old).mpr h

theorem kept_of_le_loadGeneration {g : Int} {old : Option String} (hold : loadGeneration old < g)
    {left : Left} (h : g ≤ loadGeneration (left.content old (toString g))) : left.Kept g := by
  cases left with
  | old =>
    have hle : g ≤ loadGeneration old := h
    omega
  | cut k => exact (le_loadGeneration_cut_iff g k old).mp h

/-! ### One event -/

theorem counts_method (f : Method) (m : HAManager) : Counts m (f.run m) := by
  cases f with
  | promote => exact counts_promote m
  | demote => exact counts_demote m
  | receiveHeartbeat now g r => exact counts_receiveHeartbeat m now g r
  | monitor now => exact counts_monitor m now

instance decidableKept (g : Int) : (left : Left) → Decidable (left.Kept g)
  | .old => inferInstanceAs (Decidable False)
  | .cut k => inferInstanceAs (Decidable ((toString g).toList.length ≤ k ∨ g ≤ 1))

/-- The condition of a step: a write that is interrupted, by a crash or by an
error, loses nothing. -/
def WritesKept (s : HANode) : Act → Prop
  | .writeFails left | .crash left => s.writing = true → left.Kept s.manager.generation
  | _ => True

instance decidableWritesKept (s : HANode) : (e : Act) → Decidable (WritesKept s e)
  | .call _ => inferInstanceAs (Decidable True)
  | .written => inferInstanceAs (Decidable True)
  | .writeFails left =>
    inferInstanceAs (Decidable (s.writing = true → left.Kept s.manager.generation))
  | .crash left =>
    inferInstanceAs (Decidable (s.writing = true → left.Kept s.manager.generation))

/-- An `OSError` during the write. -/
def Act.isError : Act → Bool
  | .writeFails _ => true
  | _ => false

/-- Between two writes the file is not behind the node. -/
def Safe (s : HANode) : Prop :=
  s.writing = false → s.manager.generation ≤ loadGeneration s.genFile

/-- Between two writes the file holds the generation of the node, and during a
write a smaller one. -/
structure Synced (s : HANode) : Prop where
  rest : s.writing = false → loadGeneration s.genFile = s.manager.generation
  busy : s.writing = true → loadGeneration s.genFile < s.manager.generation

/-- A step that loses nothing does not lower the generation. -/
theorem safe_step {c : Config} {s : HANode} {e : Act} (hs : Safe s) (hk : WritesKept s e) :
    Safe (HANode.step c s e).2 ∧
      s.manager.generation ≤ (HANode.step c s e).2.manager.generation := by
  cases e with
  | call f =>
    have hc := counts_method f s.manager
    rw [HANode.step]
    split
    · exact ⟨hs, le_refl _⟩
    · rename_i hw
      have hgen := hc.generation
      rw [Bool.not_eq_true] at hw
      refine ⟨fun hp => ?_, ?_⟩
      · have hp : (f.run s.manager).1.isPromotion = false := hp
        simp only [hp, Bool.false_eq_true, if_false, add_zero] at hgen
        rw [hgen]
        exact hs hw
      · rw [hgen]
        split <;> omega
  | written =>
    rw [HANode.step]
    split
    · refine ⟨fun _ => ?_, le_refl _⟩
      exact (loadGeneration_toString _).ge
    · exact ⟨hs, le_refl _⟩
  | writeFails left =>
    rw [HANode.step]
    split
    · rename_i hw
      exact ⟨fun _ => le_loadGeneration_of_kept (hk hw) _, le_refl _⟩
    · exact ⟨hs, le_refl _⟩
  | crash left =>
    refine ⟨fun _ => le_refl _, ?_⟩
    show _ ≤ loadGeneration (if s.writing then left.content s.genFile s.text else s.genFile)
    split
    · rename_i hw
      exact le_loadGeneration_of_kept (hk hw) _
    · rename_i hw
      exact hs (Bool.not_eq_true _ ▸ hw)

/-- Without errors of the write the file keeps up. -/
theorem synced_step {c : Config} {s : HANode} {e : Act} (hs : Synced s) (he : e.isError = false) :
    Synced (HANode.step c s e).2 := by
  cases e with
  | call f =>
    have hc := counts_method f s.manager
    rw [HANode.step]
    split
    · exact hs
    · rename_i hw
      have hrest := hs.rest (Bool.not_eq_true _ ▸ hw)
      have hgen := hc.generation
      refine ⟨fun hp => ?_, fun hp => ?_⟩
      · have hp : (f.run s.manager).1.isPromotion = false := hp
        simp only [hp, Bool.false_eq_true, if_false, add_zero] at hgen
        rw [hgen]
        exact hrest
      · have hp : (f.run s.manager).1.isPromotion = true := hp
        simp only [hp, if_true] at hgen
        rw [hgen, hrest]
        omega
  | written =>
    rw [HANode.step]
    split
    · exact ⟨fun _ => loadGeneration_toString _, fun h => absurd h (by simp)⟩
    · exact hs
  | writeFails left => exact absurd he (by simp [Act.isError])
  | crash left => exact ⟨fun _ => rfl, fun h => absurd h (by simp [HANode.step, HANode.start])⟩

/-- And then a step that does not lower the generation loses nothing. -/
theorem writesKept_of_le {c : Config} {s : HANode} {e : Act} (hs : Synced s)
    (he : e.isError = false)
    (hle : s.manager.generation ≤ (HANode.step c s e).2.manager.generation) :
    WritesKept s e := by
  cases e with
  | call f => exact trivial
  | written => exact trivial
  | writeFails left => exact absurd he (by simp [Act.isError])
  | crash left =>
    intro hw
    refine kept_of_le_loadGeneration (hs.busy hw) ?_
    have hload : s.manager.generation
        ≤ loadGeneration (if s.writing then left.content s.genFile s.text else s.genFile) := hle
    rw [if_pos hw] at hload
    exact hload

/-! ### Runs -/

/-- **When the generation survives crashes.**  As long as every interrupted write
loses nothing, the generation of a node never decreases, however often it is
promoted, demoted and restarted.  Where no write ends in an error, this is also
needed: an interrupted write that leaves the old content, or a part of the text of
a generation above one, lowers the generation. -/
theorem generation_never_decreases_iff (c : Config) (genFile : Option String) (l : List Act) :
    ((haNode c genFile).Meets WritesKept l →
      ∀ l₁ l₂ l₃, l = l₁ ++ l₂ ++ l₃ → ((haNode c genFile).run l₁).manager.generation
        ≤ ((haNode c genFile).run (l₁ ++ l₂)).manager.generation) ∧
    ((∀ e ∈ l, e.isError = false) →
      (∀ l₁ l₂ l₃, l = l₁ ++ l₂ ++ l₃ → ((haNode c genFile).run l₁).manager.generation
        ≤ ((haNode c genFile).run (l₁ ++ l₂)).manager.generation) →
      (haNode c genFile).Meets WritesKept l) := by
  refine ⟨fun hm l₁ l₂ l₃ hl => ?_, fun herr hmono l₁ e l₂ hl => ?_⟩
  · subst hl
    exact (haNode c genFile).le_run_of_meets (fun s => s.manager.generation) (C := WritesKept)
      (P := Safe) (fun _ => le_refl _) (fun s e hs hk => safe_step hs hk) l₁ l₂ hm.of_append
  · have hsynced : ∀ l' : List Act, (∀ e ∈ l', e.isError = false) →
        Synced ((haNode c genFile).run l') := by
      intro l'
      induction l' using List.reverseRecOn with
      | nil => intro _; exact ⟨fun _ => rfl, fun h => absurd h (by simp [haNode, HANode.start])⟩
      | append_singleton l' e ih =>
        intro h
        rw [Machine.run_append_singleton]
        exact synced_step (ih (fun e' he' => h e' (List.mem_append_left _ he'))) (h e (by simp))
    subst hl
    have hle := hmono l₁ [e] l₂ (by simp)
    rw [Machine.run_append_singleton] at hle
    exact writesKept_of_le (hsynced l₁ (fun e' he' => herr e' (List.mem_append_left _ he')))
      (herr e (by simp)) hle

/-- A node with a peer; its generation comes from the file. -/
def standbyConfig : Config := ⟨some "http://peer:8443", 100, 300, 1⟩

/-- Two promotions; the first write ends, the second is cut by a crash that finds
the text complete. -/
def savedRun : List Act :=
  [.call .promote, .written, .crash .old, .call .promote, .crash (.cut 2), .call .demote]

theorem generation_never_decreases_iff_savedRun :
    (haNode standbyConfig (some "12")).Meets WritesKept savedRun ∧
    ∀ l₁ l₂ l₃, savedRun = l₁ ++ l₂ ++ l₃ →
      ((haNode standbyConfig (some "12")).run l₁).manager.generation
        ≤ ((haNode standbyConfig (some "12")).run (l₁ ++ l₂)).manager.generation := by
  have hm : (haNode standbyConfig (some "12")).Meets WritesKept savedRun :=
    Machine.meets_of_meetsFrom _ (by decide +kernel)
  exact ⟨hm, (generation_never_decreases_iff standbyConfig (some "12") savedRun).1 hm⟩

/-- A promotion of a node at generation twelve; the process is killed when one
character of the new text has been written. -/
def cutRun : List Act := [.call .promote, .crash (.cut 1)]

/-- **A generation that is lost**: the node was at thirteen and comes back at one. -/
theorem generation_lost :
    ((haNode standbyConfig (some "12")).run []).manager.generation = 12 ∧
    ((haNode standbyConfig (some "12")).run [.call .promote]).manager.generation = 13 ∧
    ((haNode standbyConfig (some "12")).run cutRun).genFile = some "1" ∧
    ((haNode standbyConfig (some "12")).run cutRun).manager.generation = 1 ∧
    ¬ ∀ l₁ l₂ l₃, cutRun = l₁ ++ l₂ ++ l₃ →
      ((haNode standbyConfig (some "12")).run l₁).manager.generation
        ≤ ((haNode standbyConfig (some "12")).run (l₁ ++ l₂)).manager.generation := by
  refine ⟨by decide +kernel, by decide +kernel, by decide +kernel, by decide +kernel, fun h => ?_⟩
  have hle := h [.call .promote] [.crash (.cut 1)] [] rfl
  revert hle
  decide +kernel

end PrismFirewall.TcFirewall.Ha
