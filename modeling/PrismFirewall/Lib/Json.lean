import Mathlib.Data.List.Basic

/-!
# The members of a JSON text

`tokens` cuts a text into punctuation, strings and what stands between them.  It never fails:
a string that is not closed goes on to the end of the text, and what is neither punctuation
nor a string is a literal.  In a string the escapes are resolved.

`given` lists what is given for a name: the values of the members with that name which do
not stand in an inner object or array.
-/

namespace PrismFirewall.Lib.Json

inductive Token
  | punct (c : Char)
  | string (text : List Char)
  | literal (text : List Char)
  deriving DecidableEq

/-- The text of a value; a value that is no text is given by its first character. -/
def Token.text : Token → List Char
  | .punct c => [c]
  | .string text => text
  | .literal text => text

def isPunct (c : Char) : Bool :=
  c == '\x7b' || c == '\x7d' || c == '[' || c == ']' || c == ':' || c == ','

def isBlank (c : Char) : Bool := c == ' ' || c == '\t' || c == '\n' || c == '\r'

/-- The character behind a backslash. -/
def unescape (c : Char) : Char :=
  match c with
  | 'b' => '\x08'
  | 'f' => '\x0c'
  | 'n' => '\n'
  | 'r' => '\r'
  | 't' => '\t'
  | c => c

def hexValue (c : Char) : Nat :=
  if c.isDigit then c.toNat - '0'.toNat else c.toLower.toNat - 'a'.toNat + 10

/-- What has been read of a token. -/
inductive Mode
  | between
  | literal (text : List Char)
  | string (text : List Char)
  | escape (text : List Char)
  /-- Behind `\u`: the number of digits that are missing, and the code so far. -/
  | unicode (text : List Char) (missing code : Nat)

def tokensFrom : Mode → List Char → List Token
  | .between, [] => []
  | .literal text, [] => [.literal text]
  | .string text, [] => [.string text]
  | .escape text, [] => [.string text]
  | .unicode text _ _, [] => [.string text]
  | .between, c :: cs =>
    if c = '"' then tokensFrom (.string []) cs
    else if isBlank c then tokensFrom .between cs
    else if isPunct c then .punct c :: tokensFrom .between cs
    else tokensFrom (.literal [c]) cs
  | .literal text, c :: cs =>
    if c = '"' then .literal text :: tokensFrom (.string []) cs
    else if isBlank c then .literal text :: tokensFrom .between cs
    else if isPunct c then .literal text :: .punct c :: tokensFrom .between cs
    else tokensFrom (.literal (text ++ [c])) cs
  | .string text, c :: cs =>
    if c = '"' then .string text :: tokensFrom .between cs
    else if c = '\\' then tokensFrom (.escape text) cs
    else tokensFrom (.string (text ++ [c])) cs
  | .escape text, c :: cs =>
    if c = 'u' then tokensFrom (.unicode text 4 0) cs
    else tokensFrom (.string (text ++ [unescape c])) cs
  | .unicode text missing code, c :: cs =>
    let code := 16 * code + hexValue c
    if missing ≤ 1 then tokensFrom (.string (text ++ [Char.ofNat code])) cs
    else tokensFrom (.unicode text (missing - 1) code) cs

def tokens (cs : List Char) : List Token := tokensFrom .between cs

/-- How deep the text is inside objects and arrays, behind the token. -/
def Token.depth (depth : Nat) : Token → Nat
  | .punct c => if c = '\x7b' ∨ c = '[' then depth + 1
    else if c = '\x7d' ∨ c = ']' then depth - 1 else depth
  | _ => depth

/-- The value of a member that begins with the token, if it has the name. -/
def memberAt (name : List Char) : Token → List Token → Option (List Char)
  | .string s, .punct ':' :: value :: _ => if s = name then some value.text else none
  | _, _ => none

def givenFrom (name : List Char) : Nat → List Token → List (List Char)
  | _, [] => []
  | depth, t :: ts =>
    (if depth ≤ 1 then (memberAt name t ts).toList else []) ++ givenFrom name (t.depth depth) ts

/-- **What a text gives for a name.** -/
def given (name cs : List Char) : List (List Char) := givenFrom name 0 (tokens cs)

/-- A member whose name and value stand between quotation marks further inside, or as a value,
is none. -/
example : given "src_ip".toList
      "\x7b\"name\":\"src_ip\",\"a\":\x7b\"src_ip\":1\x7d,\"src\\u005fip\" : \"10.0.0.0\\/8\"\x7d".toList
    = ["10.0.0.0/8".toList] := by decide +kernel

end PrismFirewall.Lib.Json
