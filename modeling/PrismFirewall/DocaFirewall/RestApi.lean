import PrismFirewall.DocaFirewall.Policy
import PrismFirewall.Lib.CText
import PrismFirewall.Lib.Inet

/-!
# Adding a rule over the REST interface

`rest_api.c`: `parse_rule_json` picks the fields of a rule out of the body of a request
by searching for their names, and the branch of `handle_request` for `POST /rules` adds
the rule.  The parser has no way to fail: what it cannot read keeps its default, and the
answer of `inet_pton` is not looked at.

`proto` has no value before it is scanned, so what it holds when the scan fails is a
parameter (`proto`).
-/

namespace PrismFirewall.DocaFirewall

open Lib Lib.CText Lib.Inet

/-- From the first `"name"` on to behind the next colon. -/
def afterColon (body : List Char) (name : String) : Option (List Char) :=
  ((strstr ('"' :: name.toList ++ ['"']) body).bind (strchr ':')).map List.tail

/-- `while (*p == ' ' || *p == '"') p++;` -/
def skipQuotes (p : List Char) : List Char := p.dropWhile (fun c => c == ' ' || c == '"')

/-- A text field, as far as it fits the buffer. -/
def scanText (body : List Char) (name : String) (width : Nat) : Option (List Char) :=
  (afterColon body name).bind (fun p => scanUntil width '"' (skipQuotes p))

/-- The mask of a text with a slash: what follows it, between 1 and 32, or no mask. -/
def maskOf (prefixLen : Int) : UInt32 :=
  if prefixLen > 0 ∧ prefixLen ≤ 32 then
    htonl ((0xFFFFFFFF : UInt32) <<< UInt32.ofNat (32 - prefixLen.toNat))
  else 0

/-- The address and the mask of a text; an address that cannot be read stays zero. -/
def parseAddress (text : List Char) : UInt32 × UInt32 :=
  match strchr '/' text with
  | some slash =>
    ((pton (text.takeWhile (fun c => decide (c ≠ '/')))).getD 0, maskOf (atoi slash.tail))
  | none => ((pton text).getD 0, 0xFFFFFFFF)

/-- `strcasecmp(a, b) == 0`. -/
def caseEq (a b : List Char) : Bool := a.map Char.toLower == b.map Char.toLower

/-- `parse_rule_json`. -/
def parseRuleJson (proto : Int) (body : List Char) : PolicyRule :=
  let srcIpStr := (scanText body "src_ip" 63).getD "0.0.0.0/0".toList
  let dstIpStr := (scanText body "dst_ip" 63).getD "0.0.0.0/0".toList
  let actionStr := (scanText body "action" 15).getD "DENY".toList
  { id := 0
    srcIp := (parseAddress srcIpStr).1
    srcIpMask := (parseAddress srcIpStr).2
    dstIp := (parseAddress dstIpStr).1
    dstIpMask := (parseAddress dstIpStr).2
    srcPortMin := ((afterColon body "src_port_min").bind scanHu).getD 0
    srcPortMax := ((afterColon body "src_port_max").bind scanHu).getD 65535
    dstPortMin := ((afterColon body "dst_port_min").bind scanHu).getD 0
    dstPortMax := ((afterColon body "dst_port_max").bind scanHu).getD 65535
    protocol := match afterColon body "protocol" with
      | some p => UInt8.ofInt ((scanD p).getD proto)
      | none => 0
    action := if caseEq actionStr "ALLOW".toList || caseEq actionStr "allow".toList then .ALLOW
      else .DENY
    priority := ((afterColon body "priority").bind scanU).getD 100
    enabled := true
    hitCount := 0 }

/-- The answers to `POST /rules`. -/
inductive HttpReply
  | created (id : Int)
  | error (status : Nat) (text : String)
  deriving DecidableEq

/-- `handle_request`, for `POST /rules`.  The bytes are what one `recv` has returned behind the
empty line. -/
def postRules (proto : Int) (s : Policy) (bytes : List Char) : HttpReply × Policy :=
  let body := cString bytes
  if body = [] then (.error 400 "empty body", s)
  else
    let added := policyAddRule s (parseRuleJson proto body)
    if added.1 < 0 then (.error 500 "table full", added.2) else (.created added.1, added.2)

end PrismFirewall.DocaFirewall
