import P2PNode.Lib.Prog
import P2PNode.Net.Common

/-!
# Framed messages over a stream socket (`net_utils.c`)

`send_all`, `recv_all`, `send_msg` and `recv_msg` as programs over `send`, `recv`, `malloc` and
`free`. The first argument of each is a bound on the rounds of its loops.
-/

namespace P2PNode

open Effect

inductive NetCall where
  | send (fd : Fd) (buf : Bytes)
  | recv (fd : Fd) (len : ℕ)
  | malloc (size : ℕ)
  | free (p : Option Ptr)
  deriving DecidableEq

/-- What `send` returns: -1 with `EINTR`, -1 otherwise, or a number of bytes. -/
inductive SendRet where
  | intr
  | err
  | sent (n : ℕ)

/-- What `recv` returns: -1 with `EINTR`, -1 otherwise, or the bytes put in the buffer (none at
the end of the stream). -/
inductive RecvRet where
  | intr
  | err
  | data (bs : Bytes)

/-- The answer to each call. -/
@[reducible] def NetCall.Ret : NetCall → Type
  | .send _ _ => SendRet
  | .recv _ _ => RecvRet
  | .malloc _ => Option Ptr
  | .free _ => Unit

abbrev NetProg := Prog NetCall NetCall.Ret

/-- A heap block with its contents. -/
structure Block where
  addr : Ptr
  bytes : Bytes

/-- The variables `recv_msg` writes through its pointers; `none` in `type` is a variable not yet
written, `none` in `payload` the `NULL` pointer. -/
structure MsgOut where
  type : Option MsgType := none
  payload : Option Block := none
  len : ℕ := 0

namespace NetCall

def doSend (fd : Fd) (buf : Bytes) : NetProg SendRet := Prog.perform (NetCall.send fd buf)
def doRecv (fd : Fd) (len : ℕ) : NetProg RecvRet := Prog.perform (NetCall.recv fd len)
def doMalloc (size : ℕ) : NetProg (Option Ptr) := Prog.perform (NetCall.malloc size)
def doFree (p : Option Ptr) : NetProg Unit := Prog.perform (NetCall.free p)

end NetCall

open NetCall

/-! ### `send_all` and `recv_all` -/

/-- The loop of `send_all` with `sent` bytes already sent. -/
def sendAllFrom : ℕ → Fd → Bytes → ℕ → NetProg ℤ
  | 0, _, _, _ => .spin
  | rounds + 1, fd, buf, sent =>
    if sent < buf.length then do
      match ← doSend fd (buf.drop sent) with
      | .intr => sendAllFrom rounds fd buf sent
      | .err => return -1
      | .sent n => if n = 0 then return -1 else sendAllFrom rounds fd buf (sent + n)
    else
      return 0

def sendAll (rounds : ℕ) (fd : Fd) (buf : Bytes) : NetProg ℤ := sendAllFrom rounds fd buf 0

/-- The loop of `recv_all` with `got` already in the buffer. The result is returned with the
written part of the buffer. -/
def recvAllFrom : ℕ → Fd → ℕ → Bytes → NetProg (ℤ × Bytes)
  | 0, _, _, _ => .spin
  | rounds + 1, fd, len, got =>
    if got.length < len then do
      match ← doRecv fd (len - got.length) with
      | .intr => recvAllFrom rounds fd len got
      | .err => return (-1, got)
      | .data [] => return (-1, got)
      | .data bs => recvAllFrom rounds fd len (got ++ bs)
    else
      return (0, got)

def recvAll (rounds : ℕ) (fd : Fd) (len : ℕ) : NetProg (ℤ × Bytes) :=
  recvAllFrom rounds fd len []

/-! ### `send_msg` and `recv_msg` -/

def sendMsg (rounds : ℕ) (fd : Fd) (type : MsgType) (payload : Option Bytes) (payload_len : ℕ) :
    NetProg ℤ := do
  let hdr : MsgHeader := { type := type, payload_len := payload_len }
  if (← sendAll rounds fd hdr.bytes) ≠ 0 then return -1
  else if 0 < payload_len then
    match payload with
    | none => return 0
    | some buf =>
      if (← sendAll rounds fd (buf.take payload_len)) ≠ 0 then return -1 else return 0
  else return 0

/-- The largest payload `recv_msg` takes. -/
def maxPayload : ℕ := maxFileSize + maxFilenameLen + 8

def recvMsg (rounds : ℕ) (fd : Fd) (out : MsgOut) : NetProg (ℤ × MsgOut) := do
  let (ret, hdr) ← recvAll rounds fd headerSize
  if ret ≠ 0 then return (-1, out)
  else
    let plen := headerLen hdr
    let out : MsgOut := { type := some (headerType hdr), payload := none, len := plen }
    if 0 < plen then
      if maxPayload < plen then return (-1, out)
      else
        match ← doMalloc ((plen + 1) % 2 ^ 32) with
        | none => return (-1, out)
        | some p =>
          let (ret, body) ← recvAll rounds fd plen
          if ret ≠ 0 then
            doFree (some p)
            return (-1, { out with payload := none })
          -- the byte after the payload was set to NUL before the payload was received
          else return (0, { out with payload := some ⟨p, body ++ [0]⟩ })
    else return (0, out)

end P2PNode
