import P2PNode.Net.Sockets
import P2PNode.Node.LoadMonitor

/-!
# The threads on the discovery port (`discovery.c`, `main.c`)

The listener thread of the discovery and the thread that answers load requests, as programs. Both
bind a socket to `DISCOVERY_PORT`. What is written to `stderr` is left out.
-/

namespace P2PNode

open Effect

/-! ### The calls -/

/-- The address of a datagram: the text that `inet_ntop` gives, and the port. -/
structure Addr where
  ip : Bytes
  port : ℕ
  deriving DecidableEq

inductive UdpCall where
  | sock (c : SockCall)
  | load (c : LoadCall)
  | recvfrom (fd : Fd) (size : ℕ)
  | sendto (fd : Fd) (dst : Addr) (data : Bytes)
  | peerListAdd (ip : Bytes) (port : ℕ)
  | peerListTouch (ip : Bytes)
  | peerListRemove (ip : Bytes)
  deriving DecidableEq

/-- The answer to each call; `recvfrom` gives `none` for -1. -/
@[reducible] def UdpCall.Ret : UdpCall → Type
  | .sock c            => c.Ret
  | .load c            => c.Ret
  | .recvfrom _ _      => Option (Addr × Bytes)
  | .sendto _ _ _      => Unit
  | .peerListAdd _ _   => Unit
  | .peerListTouch _   => Unit
  | .peerListRemove _  => Unit

abbrev UdpProg := Prog UdpCall UdpCall.Ret

namespace UdpCall

def doSock {α : Type} (p : SockProg α) : UdpProg α := p.embed UdpCall.sock fun _ r => r
def doLoad {α : Type} (p : LoadProg α) : UdpProg α := p.embed UdpCall.load fun _ r => r
def doRecvfrom (fd : Fd) (size : ℕ) : UdpProg (Option (Addr × Bytes)) :=
  Prog.perform (UdpCall.recvfrom fd size)
def doSendto (fd : Fd) (dst : Addr) (data : Bytes) : UdpProg Unit :=
  Prog.perform (UdpCall.sendto fd dst data)
def doPeerListAdd (ip : Bytes) (port : ℕ) : UdpProg Unit :=
  Prog.perform (UdpCall.peerListAdd ip port)
def doPeerListTouch (ip : Bytes) : UdpProg Unit := Prog.perform (UdpCall.peerListTouch ip)
def doPeerListRemove (ip : Bytes) : UdpProg Unit := Prog.perform (UdpCall.peerListRemove ip)

end UdpCall

open UdpCall

/-! ### The discovery listener -/

/-- `sizeof(payload_hello_t)`. -/
def helloSize : ℕ := 2 + maxHostnameLen

/-- `sizeof(buf)` in `listener_thread`. -/
def listenBufSize : ℕ := headerSize + helloSize + 16

/-- The body of the loop of `listener_thread`, after `recvfrom`. -/
def handleAnnouncement (local_ip : Bytes) : Option (Addr × Bytes) → UdpProg Unit
  | none => return ()
  | some (src, buf) =>
    if buf.length < headerSize then return ()
    else if buf.length < headerSize + headerLen buf then return ()
    else if src.ip = local_ip then return ()
    else if headerType buf = msgHello then
      if headerLen buf < helloSize then return ()
      else do
        doPeerListAdd src.ip (ofBe ((buf.drop headerSize).take 2))
        doPeerListTouch src.ip
    else if headerType buf = msgBye then doPeerListRemove src.ip
    else return ()

def listenerLoop (local_ip : Bytes) (listen_fd : Fd) : ℕ → UdpProg Unit
  | 0 => .spin
  | rounds + 1 => do
    let got ← doRecvfrom listen_fd listenBufSize
    handleAnnouncement local_ip got
    listenerLoop local_ip listen_fd rounds

def listenerThread (local_ip : Bytes) (rounds : ℕ) : UdpProg Unit := do
  let listen_fd ← doSock (makeUdpBroadcastSocket discoveryPort)
  if listen_fd < 0 then return ()
  else listenerLoop local_ip listen_fd rounds

/-! ### The load responder -/

/-- `sizeof(buf)` in `load_responder_thread`. -/
def respondBufSize : ℕ := headerSize + 16

/-- The header of the response. -/
def loadRespHdr : MsgHeader := { type := msgLoadResp, payload_len := loadRespSize }

/-- The body of the loop of `load_responder_thread`, after `recvfrom`; `bits` is the bit pattern
of a `float`. -/
def answerLoadReq (bits : ExtRat → ℕ) (fd : Fd) : Option (Addr × Bytes) → UdpProg Unit
  | none => return ()
  | some (src, buf) =>
    if buf.length < headerSize then return ()
    else if headerType buf ≠ msgLoadReq then return ()
    else do
      let lp ← doLoad loadGetPercentage
      let active ← doLoad loadGetActiveTasks
      let total ← doLoad loadGetTotalTasks
      let cores ← doLoad loadGetCoreCount
      let resp : LoadResp :=
        { load_pct := bits lp, active_tasks := active, total_tasks := total, num_cores := cores }
      doSendto fd src (loadRespHdr.bytes ++ resp.bytes)

def loadResponderLoop (bits : ExtRat → ℕ) (fd : Fd) : ℕ → UdpProg Unit
  | 0 => .spin
  | rounds + 1 => do
    let got ← doRecvfrom fd respondBufSize
    answerLoadReq bits fd got
    loadResponderLoop bits fd rounds

def loadResponderThread (bits : ExtRat → ℕ) (rounds : ℕ) : UdpProg Unit := do
  let fd ← doSock (makeUdpBroadcastSocket discoveryPort)
  if fd < 0 then return ()
  else loadResponderLoop bits fd rounds

end P2PNode
