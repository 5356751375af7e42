import Mathlib.Data.List.Find
import PrismFirewall.Lib.Words

/-!
# Reading the kernel's connections

`conntrack.py` asks for `conntrack -L -o extended` and takes some fields of a line by their
place and others by their key.  The extended layout begins with two words for the network
layer that the plain layout does not have, so the places are off by two: the protocol of a session
is `ipv4`, and its timeout is read from the name of the protocol.

`parseConntrackLine_words` says what the parser makes of a line in either layout.  With the words
of the plain layout all is right (`parse_plain`); with those of the extended layout the
protocol is wrong in every line (`parse_extended_ne`).
-/

namespace PrismFirewall.TcFirewall.Conntrack

open Lib Text

/-! ### The parser -/

structure Session where
  protocol : String
  srcIp : String
  dstIp : String
  srcPort : Option Nat
  dstPort : Option Nat
  state : Option String
  packets : Nat
  bytes : Nat
  timeout : Option Int
  deriving DecidableEq

def tcpStates : List String :=
  ["ESTABLISHED", "SYN_SENT", "SYN_RECV", "FIN_WAIT", "CLOSE_WAIT", "LAST_ACK", "TIME_WAIT",
    "CLOSE"]

/-- `re.search(key + r"(\S+)", line)`. -/
def textField (key : String) (line : List Char) : Option String :=
  (search (matchValue key.toList (fun c => !isSpace c)) line).map String.ofList

/-- `re.search(key + r"(\d+)", line)`. -/
def numberField (key : String) (line : List Char) : Option Nat :=
  (search (matchValue key.toList isDecimal) line).map natOfDigits

/-- `_parse_conntrack_line`. -/
def parseConntrackLine (line : String) : Option Session :=
  match words line.toList with
  | protocol :: _ :: timeout :: _ :: _ =>
    match textField "src=" line.toList, textField "dst=" line.toList with
    | some srcIp, some dstIp =>
      some {
        protocol := String.ofList protocol
        srcIp := srcIp
        dstIp := dstIp
        srcPort := numberField "sport=" line.toList
        dstPort := numberField "dport=" line.toList
        state := tcpStates.find? (fun s => s.toList <:+: line.toList)
        packets := (numberField "packets=" line.toList).getD 0
        bytes := (numberField "bytes=" line.toList).getD 0
        timeout := readInt timeout }
    | _, _ => none
  | _ => none

/-! ### Connections -/

/-- A word of a line: in capitals are only the states. -/
structure Word where
  text : List Char
  ne_nil : text ≠ []
  plain : ∀ c ∈ text, isSpace c = false ∧ c ≠ '=' ∧ c.isUpper = false

/-- The addresses, ports and counters of one direction. -/
structure Tuple where
  src : Word
  dst : Word
  ports : Option (Nat × Nat)
  counters : Option (Nat × Nat)

/-- Two numbers that a line has both or does not have. -/
def numberFields (key key' : String) (ns : Option (Nat × Nat)) : List (List Char × List Char) :=
  ns.elim [] (fun n =>
    [(key.toList, Nat.toDigits 10 n.1), (key'.toList, Nat.toDigits 10 n.2)])

def Tuple.fields (t : Tuple) : List (List Char × List Char) :=
  [("src".toList, t.src.text), ("dst".toList, t.dst.text)] ++
    (numberFields "sport" "dport" t.ports ++ numberFields "packets" "bytes" t.counters)

/-- A connection that the kernel tracks.  The protocol of the network layer is not one of the
transport layer, and the reply has ports and counters just when the original direction has. -/
structure Entry where
  l3name : Word
  l3num : Nat
  l4name : Word
  l4num : Nat
  timeout : Nat
  state : Option String
  original : Tuple
  reply : Tuple
  state_plain : ∀ s ∈ state, ∀ c ∈ s.toList, isSpace c = false ∧ c ≠ '='
  layers : l3name.text ≠ l4name.text
  ports : reply.ports.isSome = original.ports.isSome
  counters : reply.counters.isSome = original.counters.isSome

namespace Entry

/-- The words from the state on. -/
def tail (e : Entry) : List (List Char) :=
  (e.state.map String.toList).toList ++ (e.original.fields ++ e.reply.fields).map keyValue

/-- The words of `conntrack -L`. -/
def plainWords (e : Entry) : List (List Char) :=
  [e.l4name.text, Nat.toDigits 10 e.l4num, Nat.toDigits 10 e.timeout] ++ e.tail

/-- The words of `conntrack -L -o extended`. -/
def extendedWords (e : Entry) : List (List Char) :=
  [e.l3name.text, Nat.toDigits 10 e.l3num] ++ e.plainWords

/-- The session that the entry is. -/
def session (e : Entry) : Session where
  protocol := String.ofList e.l4name.text
  srcIp := String.ofList e.original.src.text
  dstIp := String.ofList e.original.dst.text
  srcPort := e.original.ports.map Prod.fst
  dstPort := e.original.ports.map Prod.snd
  state := e.state
  packets := (e.original.counters.map Prod.fst).getD 0
  bytes := (e.original.counters.map Prod.snd).getD 0
  timeout := some e.timeout

end Entry

/-! ### Fields -/

def textKeys : List (List Char) := ["src".toList, "dst".toList]

def numberKeys : List (List Char) :=
  ["sport".toList, "dport".toList, "packets".toList, "bytes".toList]

theorem key_not_suffix : ∀ k ∈ textKeys ++ numberKeys, ∀ k' ∈ textKeys ++ numberKeys,
    k' ≠ k → ¬k <:+ k' := by
  decide

theorem mem_numberFields {key key' : String} {ns : Option (Nat × Nat)}
    {kv : List Char × List Char} (h : kv ∈ numberFields key key' ns) :
    (kv.1 = key.toList ∨ kv.1 = key'.toList) ∧ ∃ n, kv.2 = Nat.toDigits 10 n := by
  cases ns with
  | none => cases h
  | some n =>
    rw [numberFields, Option.elim_some, List.mem_cons, List.mem_singleton] at h
    rcases h with rfl | rfl
    · exact ⟨.inl rfl, n.1, rfl⟩
    · exact ⟨.inr rfl, n.2, rfl⟩

/-- An address stands after its key, and a number after the keys of numbers. -/
theorem Tuple.mem_fields {t : Tuple} {kv : List Char × List Char} (h : kv ∈ t.fields) :
    (kv.1 ∈ textKeys ∧ ∃ w : Word, kv.2 = w.text) ∨
      (kv.1 ∈ numberKeys ∧ ∃ n, kv.2 = Nat.toDigits 10 n) := by
  rw [fields, List.mem_append, List.mem_append] at h
  rcases h with h | h | h
  · rw [List.mem_cons, List.mem_singleton] at h
    rcases h with rfl | rfl
    · exact .inl ⟨List.mem_cons_self, t.src, rfl⟩
    · exact .inl ⟨List.mem_cons_of_mem _ List.mem_cons_self, t.dst, rfl⟩
  · obtain ⟨hk, hn⟩ := mem_numberFields h
    refine .inr ⟨?_, hn⟩
    rcases hk with hk | hk <;> rw [hk] <;> decide
  · obtain ⟨hk, hn⟩ := mem_numberFields h
    refine .inr ⟨?_, hn⟩
    rcases hk with hk | hk <;> rw [hk] <;> decide

theorem Tuple.key_mem {t : Tuple} {kv : List Char × List Char} (h : kv ∈ t.fields) :
    kv.1 ∈ textKeys ++ numberKeys := by
  rcases mem_fields h with ⟨hk, -⟩ | ⟨hk, -⟩
  · exact List.mem_append_left _ hk
  · exact List.mem_append_right _ hk

theorem plain_of_isDigit {c : Char} (h : c.isDigit = true) :
    isSpace c = false ∧ c ≠ '=' ∧ c.isUpper = false := by
  refine ⟨isSpace_of_isDigit h, ?_, ?_⟩
  · rintro rfl
    cases h
  · obtain ⟨-, h9⟩ := Char.isDigit_iff_toNat.mp h
    have hn : '9'.toNat = 57 := rfl
    refine decide_eq_false (fun ⟨hA, _⟩ => ?_)
    have hA' : 65 ≤ c.toNat := hA
    omega

theorem toDigits_not_upper (n : Nat) : ∀ c ∈ Nat.toDigits 10 n, c ≠ '=' ∧ c.isUpper = false :=
  fun c hc => (plain_of_isDigit (isDigit_toDigits c hc)).2

theorem Word.not_upper (w : Word) : ∀ c ∈ w.text, c ≠ '=' ∧ c.isUpper = false :=
  fun c hc => (w.plain c hc).2

/-- A value is a word. -/
theorem Tuple.value_plain {t : Tuple} {kv : List Char × List Char} (h : kv ∈ t.fields) :
    kv.2 ≠ [] ∧ ∀ c ∈ kv.2, isSpace c = false ∧ c ≠ '=' ∧ c.isUpper = false := by
  rcases mem_fields h with ⟨-, w, hw⟩ | ⟨-, n, hn⟩
  · rw [hw]
    exact ⟨w.ne_nil, w.plain⟩
  · rw [hn]
    exact ⟨Nat.toDigits_ne_nil, fun c hc => plain_of_isDigit (isDigit_toDigits c hc)⟩

namespace Entry

def fields (e : Entry) : List (List Char × List Char) := e.original.fields ++ e.reply.fields

theorem forall_mem_fields {e : Entry} {P : List Char × List Char → Prop}
    (h : ∀ t : Tuple, ∀ kv ∈ t.fields, P kv) : ∀ kv ∈ e.fields, P kv := by
  intro kv hkv
  rcases List.mem_append.mp hkv with hkv | hkv
  · exact h _ kv hkv
  · exact h _ kv hkv

/-- A key is found in the fields, and not in what stands before them. -/
theorem search_field {e : Entry} {line : List Char} {heads : List (List Char)}
    (hheads : ∀ w ∈ heads, '=' ∉ w) (h : words line = heads ++ e.tail) {k : List Char}
    (hk : k ∈ textKeys ++ numberKeys) {p : Char → Bool} (hp : ∀ c, isSpace c = true → p c = false)
    (hself : ∀ t : Tuple, ∀ kv ∈ t.fields, kv.1 = k → ∀ c ∈ kv.2, p c = true) :
    search (matchValue (k ++ ['=']) p) line = e.fields.lookup k := by
  have hplain : ∀ k ∈ textKeys ++ numberKeys, '=' ∉ k ∧
      (k ++ ['=']).all (fun c => decide (isSpace c = false)) = true := by
    decide
  have hnone (w : List Char) (hw : '=' ∉ w) : search (matchValue (k ++ ['=']) p) w = none :=
    search_matchValue_of_not_mem hw
  rw [search_matchValue_words (by simp) (forall_mem_of_all (hplain k hk).2) hp, h, tail, List.findSome?_append,
    List.findSome?_append]
  rw [List.findSome?_eq_none_iff.mpr (fun w hw => hnone w (hheads w hw)), Option.none_or]
  rw [List.findSome?_eq_none_iff.mpr (fun w hw => hnone w ?_), Option.none_or]
  · refine findSome?_keyValue (forall_mem_fields ?_) (forall_mem_fields ?_) (forall_mem_fields ?_)
    · intro t kv hkv
      exact ⟨(hplain kv.1 (t.key_mem hkv)).1, fun hc => ((t.value_plain hkv).2 _ hc).2.1 rfl⟩
    · intro t kv hkv hkk
      exact ⟨(t.value_plain hkv).1, hself t kv hkv hkk⟩
    · intro t kv hkv
      exact key_not_suffix k hk kv.1 (t.key_mem hkv)
  · rw [Option.mem_toList, Option.map_eq_some_iff] at hw
    obtain ⟨s, hs, rfl⟩ := hw
    exact fun hc => (e.state_plain s hs _ hc).2 rfl

theorem textField_eq {e : Entry} {line : List Char} {heads : List (List Char)}
    (hheads : ∀ w ∈ heads, '=' ∉ w) (h : words line = heads ++ e.tail) {k : List Char}
    (hk : k ∈ textKeys) :
    search (matchValue (k ++ ['=']) (fun c => !isSpace c)) line = e.fields.lookup k := by
  refine search_field hheads h (List.mem_append_left _ hk) (fun c hc => by rw [hc]; rfl) ?_
  intro t kv hkv _ c hc
  rw [((t.value_plain hkv).2 c hc).1]
  rfl

theorem numberField_eq {e : Entry} {line : List Char} {heads : List (List Char)}
    (hheads : ∀ w ∈ heads, '=' ∉ w) (h : words line = heads ++ e.tail) {k : List Char}
    (hk : k ∈ numberKeys) :
    search (matchValue (k ++ ['=']) isDecimal) line = e.fields.lookup k := by
  refine search_field hheads h (List.mem_append_right _ hk) (fun c => isDecimal_of_isSpace) ?_
  intro t kv hkv hkk c hc
  rcases t.mem_fields hkv with ⟨htext, -⟩ | ⟨-, n, hn⟩
  · have hdisjoint : ∀ k ∈ numberKeys, k ∉ textKeys := by decide
    exact absurd (hkk ▸ htext) (hdisjoint k hk)
  · rw [hn] at hc
    exact isDecimal_of_isDigit (isDigit_toDigits c hc)

end Entry

/-- The ports and the counters are those of the first of two tuples of the same form. -/
theorem lookup_fields {o r : Tuple} (hports : r.ports.isSome = o.ports.isSome)
    (hcounters : r.counters.isSome = o.counters.isSome) :
    (o.fields ++ r.fields).lookup "sport".toList = o.ports.map (fun n => Nat.toDigits 10 n.1) ∧
    (o.fields ++ r.fields).lookup "dport".toList = o.ports.map (fun n => Nat.toDigits 10 n.2) ∧
    (o.fields ++ r.fields).lookup "packets".toList =
      o.counters.map (fun n => Nat.toDigits 10 n.1) ∧
    (o.fields ++ r.fields).lookup "bytes".toList =
      o.counters.map (fun n => Nat.toDigits 10 n.2) := by
  obtain ⟨src, dst, ports, counters⟩ := o
  obtain ⟨src', dst', ports', counters'⟩ := r
  cases ports <;> cases ports' <;> cases hports <;> cases counters <;> cases counters' <;>
    cases hcounters <;> exact ⟨rfl, rfl, rfl, rfl⟩

/-! ### Lines -/

/-- The first state of the list that is in the state of the line. -/
def seenState (state : Option String) : Option String :=
  tcpStates.find? (fun s => state.any (fun t => s.toList <:+: t.toList))

/-- A listed state is seen as itself: `CLOSE_WAIT` comes before `CLOSE`. -/
theorem seenState_eq {state : Option String} (h : ∀ s ∈ state, s ∈ tcpStates) :
    seenState state = state := by
  cases state with
  | none => rfl
  | some s =>
    have hall : ∀ s ∈ tcpStates, seenState (some s) = some s := by decide
    exact hall s (h s rfl)

namespace Entry

theorem isUpper_keyValue {e : Entry} :
    ∀ kv ∈ e.fields, ∀ c ∈ keyValue kv, c.isUpper = false := by
  have hkeys : ∀ k ∈ textKeys ++ numberKeys, k.all (fun c => decide (c.isUpper = false)) = true := by
    decide
  refine forall_mem_fields (fun t kv hkv c hc => ?_)
  rcases List.mem_append.mp hc with hc | hc
  · exact forall_mem_of_all (hkeys kv.1 (t.key_mem hkv)) c hc
  · rcases List.mem_cons.mp hc with rfl | hc
    · rfl
    · exact ((t.value_plain hkv).2 c hc).2.2

/-- Only the state of a line is in capitals, so a state is in the line just when it is in the
state. -/
theorem tcpState_infix_iff {e : Entry} {line : List Char} {heads : List (List Char)}
    (hheads : ∀ w ∈ heads, ∀ c ∈ w, c ≠ '=' ∧ c.isUpper = false)
    (h : words line = heads ++ e.tail) {s : String} (hs : s ∈ tcpStates) :
    s.toList <:+: line ↔ ∃ t ∈ e.state, s.toList <:+: t.toList := by
  have hstates : ∀ s ∈ tcpStates, s.toList ≠ [] ∧
      s.toList.all (fun c => decide (isSpace c = false)) = true ∧ s.toList.any Char.isUpper = true := by
    decide
  obtain ⟨hne, hspace, hany⟩ := hstates s hs
  obtain ⟨c, hc, hupper⟩ := List.any_eq_true.mp hany
  have hlower (w : List Char) (hw : ∀ c ∈ w, c.isUpper = false) : ¬s.toList <:+: w :=
    fun hin => Bool.false_ne_true ((hw c (hin.subset hc)).symm.trans hupper)
  rw [infix_iff_words hne (forall_mem_of_all hspace), h, tail]
  constructor
  · rintro ⟨w, hw, hin⟩
    rcases List.mem_append.mp hw with hw | hw
    · exact absurd hin (hlower w (fun c hc => (hheads w hw c hc).2))
    rcases List.mem_append.mp hw with hw | hw
    · rw [Option.mem_toList, Option.map_eq_some_iff] at hw
      obtain ⟨t, ht, rfl⟩ := hw
      exact ⟨t, ht, hin⟩
    · obtain ⟨kv, hkv, rfl⟩ := List.mem_map.mp hw
      exact absurd hin (hlower _ (isUpper_keyValue kv hkv))
  · rintro ⟨t, ht, hin⟩
    refine ⟨t.toList, List.mem_append_right _ (List.mem_append_left _ ?_), hin⟩
    rw [Option.mem_toList, Option.map_eq_some_iff]
    exact ⟨t, ht, rfl⟩

/-- **What the parser makes of a line**: the first and the third word are the protocol and the
timeout, and the fields are those of the original direction. -/
theorem parseConntrackLine_words {e : Entry} {line : String} {a b c : List Char}
    {more : List (List Char)}
    (hheads : ∀ w ∈ a :: b :: c :: more, ∀ x ∈ w, x ≠ '=' ∧ x.isUpper = false)
    (h : words line.toList = a :: b :: c :: more ++ e.tail) :
    parseConntrackLine line = some { e.session with
      protocol := String.ofList a
      state := seenState e.state
      timeout := readInt c } := by
  have heq : ∀ w ∈ a :: b :: c :: more, '=' ∉ w := fun w hw hmem => (hheads w hw _ hmem).1 rfl
  obtain ⟨hsport, hdport, hpackets, hbytes⟩ := lookup_fields e.ports e.counters
  have hsrc : textField "src=" line.toList = some e.session.srcIp :=
    congrArg (Option.map String.ofList) (textField_eq heq h (k := "src".toList) (by decide))
  have hdst : textField "dst=" line.toList = some e.session.dstIp :=
    congrArg (Option.map String.ofList) (textField_eq heq h (k := "dst".toList) (by decide))
  have hnumber (key : String) {k : List Char} {o : Option (Nat × Nat)} {f : Nat × Nat → Nat}
      (hkey : key.toList = k ++ ['=']) (hk : k ∈ numberKeys)
      (ho : e.fields.lookup k = o.map (fun n => Nat.toDigits 10 (f n))) :
      numberField key line.toList = o.map f := by
    rw [numberField, hkey, numberField_eq heq h hk, ho, Option.map_map]
    refine congrArg (o.map ·) (funext fun n => ?_)
    exact natOfDigits_toDigits (f n)
  have hstate : tcpStates.find? (fun s => s.toList <:+: line.toList) = seenState e.state := by
    refine List.find?_congr (fun s hs => ?_)
    rw [Bool.eq_iff_iff, decide_eq_true_iff, tcpState_infix_iff hheads h hs, Option.any_eq_true]
    simp only [decide_eq_true_eq]
    rfl
  obtain ⟨d, rest, hrest⟩ : ∃ d rest, more ++ e.tail = d :: rest := by
    refine List.exists_cons_of_ne_nil (fun hnil => ?_)
    have htail := (List.append_eq_nil_iff.mp hnil).2
    cases (List.append_eq_nil_iff.mp htail).2
  have hwords : words line.toList = a :: b :: c :: d :: rest := by rw [h, ← hrest]; rfl
  rw [parseConntrackLine, hwords]
  simp only [hsrc, hdst, hstate, hnumber "sport=" rfl (by decide) hsport,
    hnumber "dport=" rfl (by decide) hdport, hnumber "packets=" rfl (by decide) hpackets,
    hnumber "bytes=" rfl (by decide) hbytes]
  rfl

/-- **A line of the plain layout** is read back, if its state is one of the list. -/
theorem parse_plain {e : Entry} {line : String} (h : words line.toList = e.plainWords)
    (hstate : ∀ s ∈ e.state, s ∈ tcpStates) : parseConntrackLine line = some e.session := by
  have hheads : ∀ w ∈ [e.l4name.text, Nat.toDigits 10 e.l4num, Nat.toDigits 10 e.timeout],
      ∀ x ∈ w, x ≠ '=' ∧ x.isUpper = false := by
    simp only [List.forall_mem_cons]
    exact ⟨e.l4name.not_upper, toDigits_not_upper _, toDigits_not_upper _, fun _ h => nomatch h⟩
  rw [parseConntrackLine_words hheads h, seenState_eq hstate,
    readInt_of_isDigit isDigit_toDigits, readNat_toDigits]
  rfl

/-- **No connection survives the parser** in the layout that is asked for: its protocol is the
name of the network layer. -/
theorem parse_extended_ne (e : Entry) (line : String) (h : words line.toList = e.extendedWords) :
    parseConntrackLine line ≠ some e.session := by
  have hheads : ∀ w ∈ [e.l3name.text, Nat.toDigits 10 e.l3num, e.l4name.text,
      Nat.toDigits 10 e.l4num, Nat.toDigits 10 e.timeout], ∀ x ∈ w, x ≠ '=' ∧ x.isUpper = false := by
    simp only [List.forall_mem_cons]
    exact ⟨e.l3name.not_upper, toDigits_not_upper _, e.l4name.not_upper, toDigits_not_upper _,
      toDigits_not_upper _, fun _ h => nomatch h⟩
  rw [parseConntrackLine_words hheads h]
  intro heq
  have hprotocol := congrArg Session.protocol (Option.some.inj heq)
  exact e.layers (String.ofList_injective hprotocol)

end Entry

/-! ### A web connection -/

def webClient : Word := ⟨"10.0.0.1".toList, by decide, forall_mem_of_all rfl⟩

def webServer : Word := ⟨"10.0.0.2".toList, by decide, forall_mem_of_all rfl⟩

def webEntry : Entry where
  l3name := ⟨"ipv4".toList, by decide, forall_mem_of_all rfl⟩
  l3num := 2
  l4name := ⟨"tcp".toList, by decide, forall_mem_of_all rfl⟩
  l4num := 6
  timeout := 431999
  state := some "ESTABLISHED"
  original := ⟨webClient, webServer, some (54321, 80), some (10, 1000)⟩
  reply := ⟨webServer, webClient, some (80, 54321), some (8, 800)⟩
  state_plain := by
    rintro _ ⟨⟩
    exact forall_mem_of_all rfl
  layers := by decide
  ports := rfl
  counters := rfl

def webLine : String :=
  "ipv4     2 tcp      6 431999 ESTABLISHED src=10.0.0.1 dst=10.0.0.2 sport=54321 dport=80 " ++
    "packets=10 bytes=1000 src=10.0.0.2 dst=10.0.0.1 sport=80 dport=54321 packets=8 bytes=800"

theorem words_webLine : words webLine.toList = webEntry.extendedWords := by
  decide +kernel

theorem parse_extended_ne_web : parseConntrackLine webLine ≠ some webEntry.session :=
  webEntry.parse_extended_ne webLine words_webLine

/-- The protocol becomes `ipv4`, and `tcp` is not a timeout. -/
theorem parse_web : words webLine.toList = webEntry.extendedWords ∧
    parseConntrackLine webLine =
      some { webEntry.session with protocol := "ipv4", timeout := none } ∧
    parseConntrackLine webLine ≠ some webEntry.session := by
  have hparse : parseConntrackLine webLine =
      some { webEntry.session with protocol := "ipv4", timeout := none } := by
    decide +kernel
  refine ⟨words_webLine, hparse, ?_⟩
  rw [hparse]
  decide

end PrismFirewall.TcFirewall.Conntrack
