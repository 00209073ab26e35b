import P2PNode.Lib.Prog
import P2PNode.Net.Common

/-!
# Making sockets (`net_utils.c`)

`make_udp_broadcast_socket` and `tcp_connect` as programs over the socket calls.
-/

namespace P2PNode

open Effect

inductive SockKind where
  | dgram
  | stream
  deriving DecidableEq

inductive SockOpt where
  | broadcast
  | reuseaddr
  | reuseport
  deriving DecidableEq

/-- The socket calls. An address is the text it was made from, a port is `none` when the variable
that holds it was never set. -/
inductive SockCall where
  | socket (kind : SockKind)
  | setsockopt (fd : Fd) (opt : SockOpt)
  | bind (fd : Fd) (port : ℕ)
  | inetPton (ip : Bytes)
  | connect (fd : Fd) (ip : Bytes) (port : Option ℕ)
  | close (fd : Fd)
  deriving DecidableEq

@[reducible] def SockCall.Ret : SockCall → Type
  | .socket _       => Fd
  | .setsockopt _ _ => Unit
  | .bind _ _       => ℤ
  | .inetPton _     => ℤ
  | .connect _ _ _  => ℤ
  | .close _        => Unit

abbrev SockProg := Prog SockCall SockCall.Ret

namespace SockCall

def doSocket (kind : SockKind) : SockProg Fd := Prog.perform (SockCall.socket kind)
def doSetsockopt (fd : Fd) (opt : SockOpt) : SockProg Unit :=
  Prog.perform (SockCall.setsockopt fd opt)
def doBind (fd : Fd) (port : ℕ) : SockProg ℤ := Prog.perform (SockCall.bind fd port)
def doInetPton (ip : Bytes) : SockProg ℤ := Prog.perform (SockCall.inetPton ip)
def doConnect (fd : Fd) (ip : Bytes) (port : Option ℕ) : SockProg ℤ :=
  Prog.perform (SockCall.connect fd ip port)
def doClose (fd : Fd) : SockProg Unit := Prog.perform (SockCall.close fd)

end SockCall

open SockCall

def makeUdpBroadcastSocket (port : ℕ) : SockProg Fd := do
  let fd ← doSocket .dgram
  if fd < 0 then return -1
  else
    doSetsockopt fd .broadcast
    doSetsockopt fd .reuseaddr
    doSetsockopt fd .reuseport
    if 0 < port then
      if (← doBind fd port) < 0 then
        doClose fd
        return -1
      else return fd
    else return fd

def tcpConnect (ip : Bytes) (port : Option ℕ) : SockProg Fd := do
  let fd ← doSocket .stream
  if fd < 0 then return -1
  else
    if (← doInetPton ip) ≤ 0 then
      doClose fd
      return -1
    else
      if (← doConnect fd ip port) < 0 then
        doClose fd
        return -1
      else return fd

end P2PNode
