import P2PNode.Lib.Prog
import P2PNode.Net.Common
import P2PNode.Node.Discovery

/-!
# Announcing a node (`discovery.c`, `main.c`)

The broadcasts of a node: the announcer thread, and the end of `main`, which sends the BYE.
-/

namespace P2PNode

open Effect

/-! ### The datagrams -/

/-- `gethostname` into the zeroed array. -/
def hostnameField (name : Bytes) : Bytes :=
  name.take (maxHostnameLen - 1) ++
    List.replicate (maxHostnameLen - (name.take (maxHostnameLen - 1)).length) 0

/-- `build_hello`: the port and the name of the host. -/
def buildHello (own_port : ℕ) (name : Bytes) : Bytes := be16 own_port ++ hostnameField name

/-- The header of a HELLO or BYE. -/
def broadcastHdr (type : MsgType) : MsgHeader := { type := type, payload_len := helloSize }

/-- The packet that `send_broadcast` puts together. -/
def broadcastPacket (type : MsgType) (own_port : ℕ) (name : Bytes) : Bytes :=
  (broadcastHdr type).bytes ++ buildHello own_port name

lemma length_hostnameField (name : Bytes) : (hostnameField name).length = maxHostnameLen := by
  have hle := List.length_take_le (maxHostnameLen - 1) name
  rw [hostnameField, List.length_append, List.length_replicate]
  have : maxHostnameLen - 1 ≤ maxHostnameLen := Nat.sub_le _ _
  omega

@[simp] lemma length_buildHello (own_port : ℕ) (name : Bytes) :
    (buildHello own_port name).length = helloSize := by
  rw [buildHello, List.length_append, length_be16, length_hostnameField, helloSize]

@[simp] lemma length_broadcastPacket (type : MsgType) (own_port : ℕ) (name : Bytes) :
    (broadcastPacket type own_port name).length = headerSize + helloSize := by
  rw [broadcastPacket, List.length_append, MsgHeader.length_bytes, length_buildHello]

@[simp] lemma headerType_broadcastPacket (type : MsgType) (own_port : ℕ) (name : Bytes) :
    headerType (broadcastPacket type own_port name) = type := rfl

@[simp] lemma headerLen_broadcastPacket (type : MsgType) (own_port : ℕ) (name : Bytes) :
    headerLen (broadcastPacket type own_port name) = helloSize := by
  have hlt : helloSize < 2 ^ 32 := by decide
  exact headerLen_bytes (h := broadcastHdr type) hlt _

/-- The port that a listener reads. -/
lemma port_broadcastPacket (type : MsgType) {own_port : ℕ} (h : own_port < 2 ^ 16)
    (name : Bytes) :
    ofBe (((broadcastPacket type own_port name).drop headerSize).take 2) = own_port := by
  have hdrop : (broadcastPacket type own_port name).drop headerSize = buildHello own_port name := by
    rw [broadcastPacket, List.drop_left' (MsgHeader.length_bytes _)]
  rw [hdrop, buildHello, List.take_left' (length_be16 _), ofBe_be16 h]

/-- The datagram fits into the buffer of the listener. -/
lemma take_broadcastPacket (type : MsgType) (own_port : ℕ) (name : Bytes) :
    (broadcastPacket type own_port name).take listenBufSize =
      broadcastPacket type own_port name := by
  apply List.take_of_length_le
  rw [length_broadcastPacket, listenBufSize]
  exact Nat.le_add_right _ _

/-! ### The threads -/

inductive BcastCall where
  | gethostname
  | sendto (fd : Fd) (dst : Addr) (data : Bytes)
  | sleep (secs : ℕ)
  | exit
  deriving DecidableEq

@[reducible] def BcastCall.Ret : BcastCall → Type
  | .gethostname  => Bytes
  | .sendto _ _ _ => Unit
  | .sleep _      => Unit
  | .exit         => Unit

abbrev BcastProg := Prog BcastCall BcastCall.Ret

namespace BcastCall

def doGethostname : BcastProg Bytes := Prog.perform BcastCall.gethostname
def doSendto (fd : Fd) (dst : Addr) (data : Bytes) : BcastProg Unit :=
  Prog.perform (BcastCall.sendto fd dst data)
def doSleep (secs : ℕ) : BcastProg Unit := Prog.perform (BcastCall.sleep secs)
def doExit : BcastProg Unit := Prog.perform BcastCall.exit

end BcastCall

open BcastCall

/-- `INADDR_BROADCAST`, the text `255.255.255.255`. -/
def inaddrBroadcast : Bytes := [50, 53, 53, 46, 50, 53, 53, 46, 50, 53, 53, 46, 50, 53, 53]

def sendBroadcast (bcast_fd : Fd) (own_port : ℕ) (type : MsgType) : BcastProg Unit :=
  if bcast_fd < 0 then return ()
  else do
    let name ← doGethostname
    doSendto bcast_fd ⟨inaddrBroadcast, discoveryPort⟩ (broadcastPacket type own_port name)

def announcerThread (bcast_fd : Fd) (own_port : ℕ) : ℕ → BcastProg Unit
  | 0 => .spin
  | rounds + 1 => do
    sendBroadcast bcast_fd own_port msgHello
    doSleep discoveryInterval
    announcerThread bcast_fd own_port rounds

/-- The end of `main`: `discovery_send_bye`, then the return that ends the process. -/
def mainEnd (bcast_fd : Fd) (own_port : ℕ) : BcastProg Unit := do
  sendBroadcast bcast_fd own_port msgBye
  doExit

end P2PNode
