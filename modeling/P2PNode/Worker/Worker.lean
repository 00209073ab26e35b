import P2PNode.Net.NetUtils
import P2PNode.Node.LoadMonitor

/-!
# The worker (`worker.c`)

`accept_loop`, `handle_connection`, `compile_and_stream` and `stream_and_wait` as programs. The
calls are the system calls and the functions of the other files; `send_msg` and `recv_msg` are one
call each. Logging is left out. The first argument of a program bounds the rounds of its loops.
-/

namespace P2PNode

open Effect

/-! ### The calls -/

/-- The two temp paths `/tmp/p2p_<pid>.c` and `/tmp/p2p_<pid>_bin`. -/
inductive TmpPath where
  | src (pid : ℤ)
  | bin (pid : ℤ)
  deriving DecidableEq

/-- `gcc -o <out> <src> 2>&1`. -/
structure GccCmd where
  out : TmpPath
  src : TmpPath
  deriving DecidableEq

/-- What a forked child does, call by call; an exec that succeeds is its last call. -/
inductive ChildCall where
  | close (fd : Fd)
  | dup2 (fd target : Fd)
  | execSh (cmd : GccCmd)
  | execBin (path : TmpPath)
  | exit (code : ℕ)
  deriving DecidableEq

/-- A `FILE *`. -/
abbrev FilePtr := ℕ

/-- `conn_args_t` at its address. -/
structure ConnArgs where
  addr : Ptr
  client_fd : Fd
  deriving DecidableEq

def connArgsSize : ℕ := 20

/-- The result of `pipe` and the contents of `pipefd` after it, which are indeterminate when the
call failed. -/
structure PipeRet where
  ret : ℤ
  rd : Fd
  wr : Fd

inductive AcceptRet where
  | intr
  | err
  | conn (cfd : Fd)

inductive WorkCall where
  | recvMsg (fd : Fd)
  | sendMsg (fd : Fd) (type : MsgType) (payload : Bytes)
  | load (c : LoadCall)
  | malloc (size : ℕ)
  | free (p : Option Ptr)
  | segfault
  | getpid
  | fopen (path : TmpPath)
  | fwrite (data : Bytes) (f : FilePtr)
  | fclose (f : FilePtr)
  | unlink (path : TmpPath)
  | pipe
  | fork (child : List ChildCall)
  | read (fd : Fd) (size : ℕ)
  | kill (pid : ℤ)
  | waitpid (pid : ℤ)
  | close (fd : Fd)
  | accept (server_fd : Fd)
  | pthreadCreate (ca : ConnArgs)
  deriving DecidableEq

/-- The answer to each call. `recv_msg` starts from an unset type, a `NULL` payload and length 0;
`fopen` gives `none` for `NULL`; `waitpid` gives the contents of `status` after the call, which are
indeterminate when it failed; nothing follows a segmentation fault. -/
@[reducible] def WorkCall.Ret : WorkCall → Type
  | .recvMsg _       => ℤ × MsgOut
  | .sendMsg _ _ _   => ℤ
  | .load c          => c.Ret
  | .malloc _        => Option Ptr
  | .free _          => Unit
  | .segfault        => Empty
  | .getpid          => ℤ
  | .fopen _         => Option FilePtr
  | .fwrite _ _      => ℕ
  | .fclose _        => Unit
  | .unlink _        => Unit
  | .pipe            => PipeRet
  | .fork _          => ℤ
  | .read _ _        => RecvRet
  | .kill _          => Unit
  | .waitpid _       => ℕ
  | .close _         => Unit
  | .accept _        => AcceptRet
  | .pthreadCreate _ => ℤ

abbrev WorkProg := Prog WorkCall WorkCall.Ret

namespace WorkCall

def doRecvMsg (fd : Fd) : WorkProg (ℤ × MsgOut) := Prog.perform (WorkCall.recvMsg fd)
def doSendMsg (fd : Fd) (type : MsgType) (payload : Bytes) : WorkProg ℤ :=
  Prog.perform (WorkCall.sendMsg fd type payload)
def doLoad {α : Type} (p : LoadProg α) : WorkProg α := p.embed WorkCall.load fun _ r => r
def doMalloc (size : ℕ) : WorkProg (Option Ptr) := Prog.perform (WorkCall.malloc size)
def doFree (p : Option Ptr) : WorkProg Unit := Prog.perform (WorkCall.free p)
def doSegfault {α : Type} : WorkProg α := .call .segfault Empty.elim
def doGetpid : WorkProg ℤ := Prog.perform WorkCall.getpid
def doFopen (path : TmpPath) : WorkProg (Option FilePtr) := Prog.perform (WorkCall.fopen path)
def doFwrite (data : Bytes) (f : FilePtr) : WorkProg ℕ := Prog.perform (WorkCall.fwrite data f)
def doFclose (f : FilePtr) : WorkProg Unit := Prog.perform (WorkCall.fclose f)
def doUnlink (path : TmpPath) : WorkProg Unit := Prog.perform (WorkCall.unlink path)
def doPipe : WorkProg PipeRet := Prog.perform WorkCall.pipe
def doFork (child : List ChildCall) : WorkProg ℤ := Prog.perform (WorkCall.fork child)
def doRead (fd : Fd) (size : ℕ) : WorkProg RecvRet := Prog.perform (WorkCall.read fd size)
def doKill (pid : ℤ) : WorkProg Unit := Prog.perform (WorkCall.kill pid)
def doWaitpid (pid : ℤ) : WorkProg ℕ := Prog.perform (WorkCall.waitpid pid)
def doClose (fd : Fd) : WorkProg Unit := Prog.perform (WorkCall.close fd)
def doAccept (server_fd : Fd) : WorkProg AcceptRet := Prog.perform (WorkCall.accept server_fd)
def doPthreadCreate (ca : ConnArgs) : WorkProg ℤ := Prog.perform (WorkCall.pthreadCreate ca)

end WorkCall

open WorkCall

/-! ### `stream_and_wait` -/

/-- The loop that forwards the child's output. -/
def streamLoop : ℕ → Fd → Fd → ℤ → WorkProg Unit
  | 0, _, _, _ => .spin
  | rounds + 1, client_fd, pipe_fd, child_pid => do
    match ← doRead pipe_fd outputBufSize with
    | .intr => streamLoop rounds client_fd pipe_fd child_pid
    | .err => return ()
    | .data [] => return ()
    | .data buf =>
      if (← doSendMsg client_fd msgOutput buf) < 0 then doKill child_pid
      else streamLoop rounds client_fd pipe_fd child_pid

/-- `WIFEXITED`, `WEXITSTATUS`, `WIFSIGNALED` and `WTERMSIG` of a status word, as combined by
`stream_and_wait`. -/
def childExit (status : ℕ) : ℤ :=
  if status % 128 = 0 then (status / 256 % 256 : ℕ)
  else if status % 128 < 127 then 128 + (status % 128 : ℕ)
  else 0

def streamAndWait (rounds : ℕ) (client_fd pipe_fd : Fd) (child_pid : ℤ) : WorkProg ℤ := do
  streamLoop rounds client_fd pipe_fd child_pid
  let status ← doWaitpid child_pid
  return childExit status

/-! ### `compile_and_stream` -/

/-- The child's side of a stage: its output goes to the pipe, then it becomes the program. -/
def childCode (pipefd : PipeRet) (exec : ChildCall) : List ChildCall :=
  [.close pipefd.rd, .dup2 pipefd.wr 1, .dup2 pipefd.wr 2, .close pipefd.wr, exec, .exit 127]

/-- The parent's side of a stage, from the `fork` to the closing of the pipe. -/
def runStage (rounds : ℕ) (client_fd : Fd) (pipefd : PipeRet) (exec : ChildCall) : WorkProg ℤ := do
  let pid ← doFork (childCode pipefd exec)
  doClose pipefd.wr
  let exit ← streamAndWait rounds client_fd pipefd.rd pid
  doClose pipefd.rd
  return exit

/-- `payload_task_done_t` with `exit_code` in network order. -/
def donePayload (exit_code : ℤ) : Bytes := be32 (exit_code % 2 ^ 32).toNat

/-- The part of `compile_and_stream` behind the compilation. -/
def runBinary (rounds : ℕ) (client_fd : Fd) (src_path bin_path : TmpPath) : WorkProg Unit := do
  let pipefd ← doPipe
  let run_exit ← runStage rounds client_fd pipefd (.execBin bin_path)
  let _ ← doSendMsg client_fd msgTaskDone (donePayload run_exit)
  doUnlink src_path
  doUnlink bin_path
  doLoad loadTaskDone

/-- The parts of `compile_and_stream` behind the writing of the source file. -/
def compileAndRun (rounds : ℕ) (client_fd : Fd) (src_path bin_path : TmpPath) : WorkProg Unit := do
  let pipefd ← doPipe
  if pipefd.ret = 0 then
    let compile_exit ← runStage rounds client_fd pipefd (.execSh ⟨bin_path, src_path⟩)
    if compile_exit ≠ 0 then
      let _ ← doSendMsg client_fd msgTaskDone (donePayload compile_exit)
      doUnlink src_path
      doLoad loadTaskDone
    else runBinary rounds client_fd src_path bin_path
  else runBinary rounds client_fd src_path bin_path

/-- The name is only logged. -/
def compileAndStream (rounds : ℕ) (client_fd : Fd) (_filename data : Bytes) : WorkProg Unit := do
  doLoad loadTaskStart
  let src_path := TmpPath.src (← doGetpid)
  let bin_path := TmpPath.bin (← doGetpid)
  match ← doFopen src_path with
  | none => doLoad loadTaskDone
  | some f =>
    let _ ← doFwrite data f
    doFclose f
    compileAndRun rounds client_fd src_path bin_path

/-! ### `handle_connection` -/

/-- The guards and copies of the `MSG_TASK_FILE` case: the file name (the bytes before the `NUL` put
behind it) and the file data. -/
def decodeTaskFile (payload : Bytes) (plen : ℕ) : Option (Bytes × Bytes) :=
  if plen < 6 then none
  else
    let fn_len := ofBe (payload.take 2)
    if maxFilenameLen ≤ fn_len ∨ plen < 2 + fn_len + 4 then none
    else
      let filename := (payload.drop 2).take fn_len
      let file_len := ofBe ((payload.drop (2 + fn_len)).take 4)
      if maxFileSize < file_len ∨ plen < 2 + fn_len + 4 + file_len then none
      else some (filename, (payload.drop (2 + fn_len + 4)).take file_len)

/-- The `MSG_TASK_FILE` case; returns what `payload` points to behind it. -/
def taskFileCase (task : Fd → Bytes → Bytes → WorkProg Unit) (cfd : Fd) (out : MsgOut) :
    WorkProg (Option Ptr) :=
  match out.payload with
  | none => if out.len < 6 then return none else doSegfault
  | some payload =>
    match decodeTaskFile payload.bytes out.len with
    | none => return some payload.addr
    | some (filename, data) => do
      task cfd filename data
      doFree (some payload.addr)
      return none

/-- `handle_connection`, with `task` for `compile_and_stream`. -/
def handleConnectionWith (task : Fd → Bytes → Bytes → WorkProg Unit) (ca : ConnArgs) :
    WorkProg Unit := do
  let cfd := ca.client_fd
  doFree (some ca.addr)
  let (ret, out) ← doRecvMsg cfd
  if ret < 0 then doClose cfd
  else
    let payload ←
      if out.type = some msgTaskFile then taskFileCase task cfd out
      else pure (out.payload.map Block.addr)
    doFree payload
    doClose cfd

def handleConnection (rounds : ℕ) (ca : ConnArgs) : WorkProg Unit :=
  handleConnectionWith (compileAndStream rounds) ca

/-! ### `accept_loop` -/

/-- The loop of `accept_loop`. -/
def acceptFrom : ℕ → Fd → WorkProg Unit
  | 0, _ => .spin
  | rounds + 1, server_fd => do
    match ← doAccept server_fd with
    | .intr => acceptFrom rounds server_fd
    | .err => return ()
    | .conn cfd =>
      if maxConcurrentTasks ≤ (← doLoad loadGetActiveTasks) then
        doClose cfd
        acceptFrom rounds server_fd
      else
        match ← doMalloc connArgsSize with
        | none => doSegfault
        | some p =>
          let _ ← doPthreadCreate ⟨p, cfd⟩
          acceptFrom rounds server_fd

def acceptLoop (rounds : ℕ) (arg : Ptr) (server_fd : Fd) : WorkProg Unit := do
  doFree (some arg)
  acceptFrom rounds server_fd

end P2PNode
