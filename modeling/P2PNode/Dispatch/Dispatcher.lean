import P2PNode.Net.NetUtils
import P2PNode.Net.Sockets
import P2PNode.Node.LoadMonitor

/-!
# The dispatcher (`dispatcher.c`)

`query_peer_load`, `send_task_file`, `receive_output` and `dispatch` as programs. The calls are the
system calls and the functions of the other files; `send_msg` and `recv_msg` are one call each.
What is written to `stderr` is left out.
-/

namespace P2PNode

open Effect

/-! ### The calls -/

/-- The local `result` of `dispatch`: a field is `none` until `query_peer_load` writes it. -/
structure QueryResult where
  ip : Option Bytes := none
  port : Option ℕ := none
  load_pct : Option ℕ := none
  active_tasks : Option ℕ := none
  total_tasks : Option ℕ := none

/-- The lines that `dispatch` prints. -/
inductive OutLine where
  | load (ip : Bytes) (port : ℕ) (load_pct : Option ℕ)
  | loadSelf (ip : Bytes) (port : ℕ) (pct : ExtRat)
  | routeSelf (ip : Bytes) (port : ℕ)
  | routePeer (ip : Bytes) (port : Option ℕ) (score : ExtRat)
  deriving DecidableEq

inductive DispCall where
  | sock (c : SockCall)
  | load (c : LoadCall)
  | sendto (fd : Fd) (ip : Bytes) (port : ℕ) (data : Bytes)
  | select (fd : Fd)
  | recv (fd : Fd) (size : ℕ)
  | peerListGetAll (max : ℕ)
  | peerListUpdateLoad (ip : Bytes) (resp : LoadResp)
  | malloc (size : ℕ)
  | free (p : Option Ptr)
  | sendMsg (fd : Fd) (type : MsgType) (payload : Bytes)
  | recvMsg (fd : Fd)
  | fwriteStdout (data : Bytes)
  | printf (line : OutLine)
  deriving DecidableEq

/-- The answer to each call; `recv` gives `none` for -1. -/
@[reducible] def DispCall.Ret : DispCall → Type
  | .sock c                 => c.Ret
  | .load c                 => c.Ret
  | .sendto _ _ _ _         => Unit
  | .select _               => ℤ
  | .recv _ _               => Option Bytes
  | .peerListGetAll _       => List PeerInfo
  | .peerListUpdateLoad _ _ => Unit
  | .malloc _               => Option Ptr
  | .free _                 => Unit
  | .sendMsg _ _ _          => ℤ
  | .recvMsg _              => ℤ × MsgOut
  | .fwriteStdout _         => Unit
  | .printf _               => Unit

abbrev DispProg := Prog DispCall DispCall.Ret

namespace DispCall

def doSock {α : Type} (p : SockProg α) : DispProg α := p.embed DispCall.sock fun _ r => r
def doLoad {α : Type} (p : LoadProg α) : DispProg α := p.embed DispCall.load fun _ r => r
def doClose (fd : Fd) : DispProg Unit := doSock (SockCall.doClose fd)
def doSendto (fd : Fd) (ip : Bytes) (port : ℕ) (data : Bytes) : DispProg Unit :=
  Prog.perform (DispCall.sendto fd ip port data)
def doSelect (fd : Fd) : DispProg ℤ := Prog.perform (DispCall.select fd)
def doRecv (fd : Fd) (size : ℕ) : DispProg (Option Bytes) := Prog.perform (DispCall.recv fd size)
def doPeerListGetAll (max : ℕ) : DispProg (List PeerInfo) :=
  Prog.perform (DispCall.peerListGetAll max)
def doPeerListUpdateLoad (ip : Bytes) (resp : LoadResp) : DispProg Unit :=
  Prog.perform (DispCall.peerListUpdateLoad ip resp)
def doMalloc (size : ℕ) : DispProg (Option Ptr) := Prog.perform (DispCall.malloc size)
def doFree (p : Option Ptr) : DispProg Unit := Prog.perform (DispCall.free p)
def doSendMsg (fd : Fd) (type : MsgType) (payload : Bytes) : DispProg ℤ :=
  Prog.perform (DispCall.sendMsg fd type payload)
def doRecvMsg (fd : Fd) : DispProg (ℤ × MsgOut) := Prog.perform (DispCall.recvMsg fd)
def doFwriteStdout (data : Bytes) : DispProg Unit := Prog.perform (DispCall.fwriteStdout data)
def doPrintf (line : OutLine) : DispProg Unit := Prog.perform (DispCall.printf line)

end DispCall

open DispCall

/-! ### `query_peer_load` -/

/-- The score of a peer that gave no usable answer. -/
def noAnswerScore : ExtRat := .fin (10 ^ 9)

/-- The header of the request. -/
def loadReq : MsgHeader := { type := msgLoadReq, payload_len := 0 }

/-- `sizeof(buf)` in `query_peer_load`. -/
def queryBufSize : ℕ := headerSize + loadRespSize + 8

/-- The part of `query_peer_load` behind the socket: the answer, if one was received. -/
def awaitLoadResp (udp_fd : Fd) (ip : Bytes) : DispProg (Option Bytes) := do
  doSendto udp_fd ip discoveryPort loadReq.bytes
  let sel ← doSelect udp_fd
  if sel ≤ 0 then
    doClose udp_fd
    return none
  else
    let n ← doRecv udp_fd queryBufSize
    doClose udp_fd
    return n

lemma udpSocket_eq : doSock (makeUdpBroadcastSocket 0) =
    .call (.sock (.socket .dgram)) fun fd : ℤ => if fd < 0 then .ret (-1) else
      .call (.sock (.setsockopt fd .broadcast)) fun _ =>
      .call (.sock (.setsockopt fd .reuseaddr)) fun _ =>
      .call (.sock (.setsockopt fd .reuseport)) fun _ => .ret fd := by
  simp [doSock, makeUdpBroadcastSocket, SockCall.doSocket, SockCall.doSetsockopt, Prog.embed_ite]

lemma awaitLoadResp_eq (udp_fd : Fd) (ip : Bytes) : awaitLoadResp udp_fd ip =
    .call (.sendto udp_fd ip discoveryPort loadReq.bytes) fun _ =>
      .call (.select udp_fd) fun sel : ℤ =>
        if sel ≤ 0 then .call (.sock (.close udp_fd)) fun _ => .ret none
        else .call (.recv udp_fd queryBufSize) fun n =>
          .call (.sock (.close udp_fd)) fun _ => .ret n := rfl

/-- The checks on the answer, and the copy of its payload. -/
def checkLoadResp (buf : Bytes) : Option LoadResp :=
  if buf.length < headerSize + loadRespSize then none
  else if headerType buf ≠ msgLoadResp then none
  else some (LoadResp.ofBytes ((buf.drop headerSize).take loadRespSize))

/-- The buffer is large enough for what is read from it. -/
lemma checkLoadResp_take (data : Bytes) :
    checkLoadResp (data.take queryBufSize) = checkLoadResp data := by
  have hsize : headerSize + loadRespSize ≤ queryBufSize := by decide
  have hlen : (data.take queryBufSize).length < headerSize + loadRespSize ↔
      data.length < headerSize + loadRespSize := by
    rw [List.length_take]
    omega
  have htype : headerType (data.take queryBufSize) = headerType data := headerType_take (by decide)
  have hbody : ((data.take queryBufSize).drop headerSize).take loadRespSize =
      (data.drop headerSize).take loadRespSize := by
    rw [List.drop_take, List.take_take]
    rfl
  simp only [checkLoadResp, hlen, htype, hbody]

/-- The score of an answer. -/
def respScore (resp : LoadResp) : ExtRat :=
  ExtRat.ofBits resp.load_pct + .fin (10 * resp.active_tasks)

/-- The score, and what was written to `out_info`. -/
def queryPeerLoad (ip : Bytes) (port : ℕ) : DispProg (ExtRat × QueryResult) := do
  let udp_fd ← doSock (makeUdpBroadcastSocket 0)
  if udp_fd < 0 then return (noAnswerScore, {})
  else
    match (← awaitLoadResp udp_fd ip).bind checkLoadResp with
    | none => return (noAnswerScore, {})
    | some resp =>
      doPeerListUpdateLoad ip resp
      return (respScore resp, {
        ip := some ip
        port := some port
        load_pct := some resp.load_pct
        active_tasks := some resp.active_tasks
        total_tasks := some resp.total_tasks })

/-! ### `send_task_file` -/

/-- The payload length as computed in 32 bits; `fn_len` has 16. -/
def taskFileTotal (task : Task) : ℕ :=
  (2 + (cstr task.filename).length % 2 ^ 16 + 4 + task.file_size) % 2 ^ 32

/-- The bytes that are written to the buffer. -/
def taskFilePayload (task : Task) : Bytes :=
  let fn_len := (cstr task.filename).length % 2 ^ 16
  be16 fn_len ++ task.filename.take fn_len ++ be32 task.file_size ++
    task.file_data.take task.file_size

def sendTaskFile (fd : Fd) (task : Task) : DispProg ℤ := do
  match ← doMalloc (taskFileTotal task) with
  | none => return -1
  | some buf =>
    let ret ← doSendMsg fd msgTaskFile ((taskFilePayload task).take (taskFileTotal task))
    doFree (some buf)
    return ret

/-! ### `receive_output` -/

/-- The bytes `payload[0..plen-1]`; `recv_msg` leaves a `NULL` payload only with length 0. -/
def MsgOut.bytes (out : MsgOut) : Bytes := ((out.payload.map Block.bytes).getD []).take out.len

/-- `(int32_t)` of a 32-bit number. -/
def toInt32 (n : ℕ) : ℤ := if n < 2 ^ 31 then n else n - 2 ^ 32

/-- The exit code in the payload of `MSG_TASK_DONE`. -/
def doneExitCode (out : MsgOut) : ℤ :=
  if 4 ≤ out.len then toInt32 (ofBe (out.bytes.take 4)) else 0

def receiveOutput : ℕ → Fd → DispProg ℤ
  | 0, _ => .spin
  | rounds + 1, fd => do
    let (ret, out) ← doRecvMsg fd
    let payload := out.payload.map Block.addr
    if ret < 0 then
      doFree payload
      return -1
    else if out.type = some msgOutput then
      doFwriteStdout out.bytes
      doFree payload
      receiveOutput rounds fd
    else if out.type = some msgTaskDone then
      doFree payload
      return doneExitCode out
    else
      doFree payload
      receiveOutput rounds fd

/-! ### `dispatch` -/

/-- The variables `best_score`, `best_ip` and `best_port`. -/
structure Best where
  score : ExtRat := .fin (10 ^ 10)
  ip : Bytes := []
  port : Option ℕ := some 0

/-- The loop over the snapshot. -/
def queryPeers : List PeerInfo → Best → DispProg Best
  | [], best => return best
  | peer :: peers, best => do
    let (score, result) ← queryPeerLoad peer.ip peer.port
    doPrintf (.load peer.ip peer.port result.load_pct)
    if score < best.score then queryPeers peers ⟨score, peer.ip, result.port⟩
    else queryPeers peers best

/-- Steps 1 and 2 of `dispatch`: whether to run the task here, and the best peer. -/
def route (local_ip : Bytes) (own_port : ℕ) : DispProg (Bool × Best) := do
  let peers ← doPeerListGetAll maxPeers
  let best ← queryPeers peers {}
  let self_score ← doLoad loadScoreLocal
  let pct ← doLoad loadGetPercentage
  doPrintf (.loadSelf local_ip own_port pct)
  if peers.length = 0 ∨ self_score ≤ best.score then
    doPrintf (.routeSelf local_ip own_port)
    return (true, best)
  else
    doPrintf (.routePeer best.ip best.port best.score)
    return (false, best)

/-- The connection to the target, or to this node as a fallback. -/
def connectTarget (use_local : Bool) (best : Best) (local_ip : Bytes) (own_port : ℕ) :
    DispProg Fd := do
  let target_ip := if use_local then local_ip else best.ip
  let target_port := if use_local then some own_port else best.port
  let fd ← doSock (tcpConnect target_ip target_port)
  if fd < 0 then
    if use_local then return fd else doSock (tcpConnect local_ip (some own_port))
  else return fd

/-- Steps 3 and 4 of `dispatch`. -/
def deliver (rounds : ℕ) (task : Task) (use_local : Bool) (best : Best) (local_ip : Bytes)
    (own_port : ℕ) : DispProg ℤ := do
  let fd ← connectTarget use_local best local_ip own_port
  if fd < 0 then return -1
  else
    let send_ret ← sendTaskFile fd task
    if send_ret < 0 then
      doClose fd
      return -1
    else
      let exit_code ← receiveOutput rounds fd
      doClose fd
      return exit_code

def dispatch (rounds : ℕ) (task : Task) (local_ip : Bytes) (own_port : ℕ) : DispProg ℤ := do
  let (use_local, best) ← route local_ip own_port
  deliver rounds task use_local best local_ip own_port

end P2PNode
