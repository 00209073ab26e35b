import P2PNode.Lib.Decimal
import P2PNode.Lib.Regex
import P2PNode.Web.Forwarding

/-!
# The dashboard (`web/app.js`)

What the page makes of the messages of type `output` and `done`: the exit code it shows, its map of
peers and the output it has not parsed yet. A character of a text is a code point; the expressions
name none beyond the first plane, so that two halves of a character are as little matched as the
character is. The times at which peers were last seen are left out.
-/

namespace P2PNode

open Regex

/-! ### Characters and numbers -/

namespace Js

/-- `\d`. -/
def isDigit (c : CodePoint) : Bool := decide (48 ≤ c.val ∧ c.val ≤ 57)

/-- `\s`. -/
def isSpace (c : CodePoint) : Bool :=
  decide (9 ≤ c.val ∧ c.val ≤ 13 ∨ c.val = 32 ∨ c.val = 0xA0 ∨ c.val = 0x1680 ∨
    0x2000 ≤ c.val ∧ c.val ≤ 0x200A ∨ c.val = 0x2028 ∨ c.val = 0x2029 ∨ c.val = 0x202F ∨
    c.val = 0x205F ∨ c.val = 0x3000 ∨ c.val = 0xFEFF)

/-- The character itself. -/
def lit (ch : Char) (c : CodePoint) : Bool := decide (c.val = ch.toNat)

/-- The character in either case. -/
def litCase (ch : Char) (c : CodePoint) : Bool := lit ch.toLower c || lit ch.toUpper c

/-- The digits at the beginning of a text. -/
def leadingDigits (s : PyStr) : List ℕ := (s.takeWhile isDigit).map fun c => c.val - 48

/-- `parseInt`, for a text of digits that may have a sign. -/
def parseInt (s : PyStr) : ExtRat :=
  let negative := s.head?.any (lit '-')
  let ds := leadingDigits (if negative then s.tail else s)
  if ds = [] then .nan
  else Decimal.binary64 (if negative then -Decimal.value ds else Decimal.value ds)

/-- `parseFloat`, for a text of digits and dots. -/
def parseFloat (s : PyStr) : ExtRat :=
  let whole := leadingDigits s
  let rest := s.dropWhile isDigit
  let frac := if rest.head?.any (lit '.') then leadingDigits rest.tail else []
  if whole ++ frac = [] then .nan
  else Decimal.binary64 (Decimal.value (whole ++ frac) / 10 ^ frac.length)

end Js

open Js

/-! ### The expressions -/

/-- `(?:\d{1,3}\.){3}\d{1,3}`. -/
def dottedRegex : Regex CodePoint :=
  seqs [many isDigit 1 (some 3), one (lit '.'), many isDigit 1 (some 3), one (lit '.'),
    many isDigit 1 (some 3), one (lit '.'), many isDigit 1 (some 3)]

/-- `[\s:]`. -/
def isSpaceColon (c : CodePoint) : Bool := isSpace c || lit ':' c

/-- `[\d.]`. -/
def isDigitDot (c : CodePoint) : Bool := isDigit c || lit '.' c

/-- The word in either case. -/
def wordCase (cs : List Char) : Regex CodePoint := word (cs.map litCase)

/-- The expression of `parsePeersOutput`:
`((?:\d{1,3}\.){3}\d{1,3})[\s:]+(\d+)\s+(?:load=)?\s*([\d.]+)\s*%?\s*(?:tasks=)?\s*(\d+)?`. -/
def peerRegex : Regex CodePoint :=
  seqs [group 1 dottedRegex, many isSpaceColon 1 none, group 2 (many isDigit 1 none),
    many isSpace 1 none, opt (wordCase ['l', 'o', 'a', 'd', '=']), many isSpace 0 none,
    group 3 (many isDigitDot 1 none), many isSpace 0 none, many (lit '%') 0 (some 1),
    many isSpace 0 none, opt (wordCase ['t', 'a', 's', 'k', 's', '=']), many isSpace 0 none,
    opt (group 4 (many isDigit 1 none))]

lemma minLength_peerRegex : 0 < peerRegex.minLength := by
  decide +kernel

/-- The expression of `tryParseExitCode`: `exit code[:：]\s*(-?\d+)`. -/
def exitRegex : Regex CodePoint :=
  seqs [wordCase ['e', 'x', 'i', 't', ' ', 'c', 'o', 'd', 'e'], one fun c => lit ':' c || lit '：' c,
    many isSpace 0 none, group 1 (seqs [many (lit '-') 0 (some 1), many isDigit 1 none])]

/-- `\d+\.\d+\.\d+\.\d+[\s:]+\d+`. -/
def addrRegex : Regex CodePoint :=
  seqs [many isDigit 1 none, one (lit '.'), many isDigit 1 none, one (lit '.'),
    many isDigit 1 none, one (lit '.'), many isDigit 1 none, many isSpaceColon 1 none,
    many isDigit 1 none]

/-- `load[%=\s]`. -/
def loadRegex : Regex CodePoint :=
  seqs [word (['l', 'o', 'a', 'd'].map lit), one fun c => lit '%' c || lit '=' c || isSpace c]

/-! ### The peers -/

/-- An entry of `peers`. -/
structure PeerEntry where
  ip : PyStr
  port : PyStr
  utilization : ExtRat
  activeTasks : ExtRat
  deriving DecidableEq

/-- `peers`, by the texts `ip:port`. -/
abbrev Peers := PyStr → Option PeerEntry

/-- `peers` of a page that has just been loaded. -/
def noPeers : Peers := fun _ => none

def peerKey (ip port : PyStr) : PyStr := ip ++ PyStr.ofChars [':'] ++ port

/-- The number that a group stands for, 0 when it is missing. -/
def groupNumber (parse : PyStr → ExtRat) : Option PyStr → ExtRat
  | some (c :: s) => parse (c :: s)
  | _             => .fin 0

/-- The entry for a match. -/
def matchEntry (m : Match CodePoint) : PeerEntry where
  ip := (m.group 1).getD []
  port := (m.group 2).getD []
  utilization := groupNumber parseFloat (m.group 3)
  activeTasks := groupNumber parseInt (m.group 4)

/-- An entry replaces one with the same key. -/
def putPeer (peers : Peers) (e : PeerEntry) : Peers :=
  Function.update peers (peerKey e.ip e.port) (some e)

def parsePeersOutput (raw : PyStr) (peers : Peers) : Peers :=
  ((matchAll peerRegex raw).map matchEntry).foldl putPeer peers

/-! ### The messages -/

def tryParseExitCode (line : PyStr) (statExit : Option ExtRat) : Option ExtRat :=
  match find exitRegex line with
  | some m => some (parseInt ((m.group 1).getD []))
  | none   => statExit

/-- The state of the page; `statExit` is `none` until an exit code is shown. -/
structure Dashboard where
  statExit : Option ExtRat := none
  peers : Peers := noPeers
  pendingOutput : PyStr := []

namespace Dashboard

def onOutput (d : Dashboard) (line : PyStr) : Dashboard where
  statExit := tryParseExitCode line d.statExit
  peers :=
    if (find addrRegex line).isSome || (find loadRegex line).isSome then
      parsePeersOutput line d.peers
    else d.peers
  pendingOutput := d.pendingOutput ++ (line ++ [newlineChar])

def onDone (d : Dashboard) : Dashboard where
  statExit := d.statExit
  peers :=
    if (find addrRegex d.pendingOutput).isSome then parsePeersOutput d.pendingOutput d.peers
    else d.peers
  pendingOutput := []

/-- `ws.onmessage`. -/
def onMessage (d : Dashboard) : BridgeMsg → Dashboard
  | .output _ line => d.onOutput line
  | .done _        => d.onDone

end Dashboard

end P2PNode
