import P2PNode.Dispatch.Dispatcher
import P2PNode.Net.Sending
import P2PNode.Net.Receiving

/-!
# The dispatching end of a task connection

The connection on which `send_task_file` and `receive_output` work, and the standard output of the
node.
-/

namespace P2PNode

open Effect

structure Client where
  fd : Fd
  conn : Outbound
  inb : Inbound
  stdout : Bytes := []

namespace Client

/-- `send_msg` on the connection. -/
def transmit (s : Client) (type : MsgType) (payload : Bytes) : Option (ℤ × Client) :=
  (s.conn.transmit s.fd type payload).map fun x => (x.1, { s with conn := x.2 })

/-- `recv_msg` on the connection. -/
def receive (s : Client) : Option ((ℤ × MsgOut) × Client) :=
  (s.inb.receive s.fd).map fun x => (x.1, { s with inb := x.2 })

/-- The answers at this end; allocation succeeds. -/
def handle : (c : DispCall) → Client → Option (c.Ret × Client)
  | .malloc _, s => some (some 1, s)
  | .free _, s => some ((), s)
  | .sendMsg fd type payload, s => if fd = s.fd then s.transmit type payload else some (-1, s)
  | .recvMsg fd, s => if fd = s.fd then s.receive else some ((-1, {}), s)
  | .fwriteStdout data, s => some ((), { s with stdout := s.stdout ++ data })
  | _, _ => none

end Client
end P2PNode
