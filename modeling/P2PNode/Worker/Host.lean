import P2PNode.Net.Sending
import P2PNode.Net.Receiving
import P2PNode.Worker.Worker

/-!
# The host of a lone handler

The machine on which one handler runs by itself: the temp files, the pipe between a child and the
handler, the child processes and the connection to the client. How the calls end is scripted, so
that every way they can end is one script; what the programs do that are run is given by `Tools`.
-/

namespace P2PNode

open Effect

/-! ### Processes and how they end -/

/-- The number of a signal that can end a process. -/
abbrev Signal := {n : ℕ // 1 ≤ n ∧ n < 127}

def sigkill : Signal := ⟨9, by decide⟩

inductive WaitStatus where
  | exited (code : UInt8)
  | signaled (sig : Signal) (core : Bool)
  deriving DecidableEq

/-- The status word that `waitpid` stores. -/
def WaitStatus.word : WaitStatus → ℕ
  | .exited code       => code.toNat * 256
  | .signaled sig core => sig.1 + if core then 128 else 0

/-- The exit code, or 128 and the signal. -/
def WaitStatus.mapped : WaitStatus → ℤ
  | .exited code    => code.toNat
  | .signaled sig _ => 128 + sig.1

@[simp] lemma childExit_word (st : WaitStatus) : childExit st.word = st.mapped := by
  cases st with
  | exited code =>
    have := code.toNat_lt
    simp only [childExit, WaitStatus.word, WaitStatus.mapped]
    omega
  | signaled sig core =>
    obtain ⟨n, h1, h2⟩ := sig
    have hm : (n + if core then 128 else 0) % 128 = n := by
      cases core
      · simp only [Bool.false_eq_true, if_false]
        omega
      · simp only [if_true]
        omega
    simp only [childExit, WaitStatus.word, WaitStatus.mapped, hm]
    rw [if_neg (by omega), if_pos h2]

lemma WaitStatus.mapped_eq_zero {st : WaitStatus} : st.mapped = 0 ↔ st = .exited 0 := by
  cases st with
  | exited code =>
    simp only [WaitStatus.mapped, WaitStatus.exited.injEq]
    rw [← UInt8.toNat_inj]
    simp
  | signaled sig core =>
    simp only [WaitStatus.mapped, reduceCtorEq, iff_false]
    omega

lemma WaitStatus.mapped_mem (st : WaitStatus) : 0 ≤ st.mapped ∧ st.mapped < 256 := by
  cases st with
  | exited code =>
    have := code.toNat_lt
    simp only [WaitStatus.mapped]
    omega
  | signaled sig core =>
    obtain ⟨n, h1, h2⟩ := sig
    simp only [WaitStatus.mapped]
    omega

/-- A run of gcc: its output, how it ended, and the binary it wrote. -/
structure GccRun where
  out : Bytes
  status : WaitStatus
  bin : Option Bytes
  wrote : status = .exited 0 → bin.isSome

/-- A run of a binary. -/
structure BinRun where
  out : Bytes
  status : WaitStatus

/-- What gcc does with the contents of its input file (if there is one), and what the run of a
binary does. -/
structure Tools where
  gcc : Option Bytes → GccRun
  run : Bytes → BinRun

/-- What a child process executed. -/
inductive Job where
  | gcc (input bin : Option Bytes)
  | run (image : Bytes)
  | none
  deriving DecidableEq

structure Proc where
  pid : ℤ
  job : Job
  status : WaitStatus
  reaped : Bool := false
  deriving DecidableEq

/-! ### The host -/

/-- How `pipe` ends: a failure leaves the given values in `pipefd`. -/
inductive PipeEvent where
  | ok
  | fail (rd wr : Fd)

def PipeEvent.isOk : PipeEvent → Bool
  | .ok       => true
  | .fail _ _ => false

/-- How `waitpid` ends: a failure, or a call without a child to wait for, leaves `word` in
`status`. -/
structure WaitEvent where
  ok : Bool
  word : ℕ

/-- The open pipe: its read end in the handler, its write end, whether the handler still holds the
write end, and the output of the child that was not read yet. -/
structure PipeEnd where
  rd : Fd
  wr : Fd
  wrOpen : Bool
  pending : Bytes

structure Host where
  pid : ℕ
  cfd : Fd
  -- how the calls will end
  fopens : List Bool
  fwrites : List ℕ
  pipes : List PipeEvent
  forks : List Bool
  waits : List WaitEvent
  -- whether a kill comes before the child ends by itself
  kills : List Bool
  reads : List RecvEvent
  -- what reads from other descriptors than the pipe give
  stray : List RecvRet
  conn : Outbound
  inb : Inbound
  -- the state
  files : TmpPath → Option Bytes
  stream : Option TmpPath := none
  pipeEnd : Option PipeEnd := none
  nextFd : ℕ := 0
  procs : List Proc := []
  connOpen : Bool := true
  -- the messages that were sent whole
  sent : List (MsgType × Bytes) := []

namespace Host

def setFile (h : Host) (path : TmpPath) (contents : Option Bytes) : Host :=
  { h with files := Function.update h.files path contents }

/-- Output of a child whose descriptor 1 is a copy of `stdout`. -/
def emit (h : Host) (stdout : Fd) (out : Bytes) : Host :=
  { h with pipeEnd := h.pipeEnd.map fun p =>
      if p.wr = stdout then { p with pending := p.pending ++ out } else p }

/-- A new child process. -/
def start (h : Host) (job : Job) (status : WaitStatus) : Host :=
  { h with
    procs := h.procs ++ [{ pid := h.pid + h.procs.length + 1, job := job, status := status }] }

/-- The child's side of a `fork`. The child's descriptor 1 is a copy of `stdout`; an exec of a
missing file fails and the child goes on. -/
def child (T : Tools) : List ChildCall → Fd → Host → Host
  | [], _, h => h.start .none (.exited 0)
  | .close _ :: cs, stdout, h => child T cs stdout h
  | .dup2 fd target :: cs, stdout, h => child T cs (if target = 1 then fd else stdout) h
  | .execSh cmd :: _, stdout, h =>
    let input := h.files cmd.src
    let r := T.gcc input
    let h := if r.bin.isSome then h.setFile cmd.out r.bin else h
    (h.emit stdout r.out).start (.gcc input r.bin) r.status
  | .execBin path :: cs, stdout, h =>
    match h.files path with
    | none       => child T cs stdout h
    | some image => (h.emit stdout (T.run image).out).start (.run image) (T.run image).status
  | .exit code :: _, _, h => h.start .none (.exited (UInt8.ofNat code))

/-- The process that `waitpid pid` collects. -/
def waitFor (h : Host) (pid : ℤ) : Option Proc :=
  h.procs.find? fun p => !p.reaped && (pid = -1 || p.pid = pid)

def reap (h : Host) (pid : ℤ) : Host :=
  { h with procs := h.procs.map fun p => if p.pid = pid then { p with reaped := true } else p }

/-- `SIGKILL` ends the process (every process for -1), unless it had ended before. -/
def killed (h : Host) (pid : ℤ) : Host :=
  { h with procs := h.procs.map fun p =>
      if !p.reaped && (pid = -1 || p.pid = pid) then { p with status := .signaled sigkill false }
      else p }

/-- `close` of a descriptor: an end of the pipe, the connection, or another one. -/
def closeFd (h : Host) (fd : Fd) : Host :=
  if fd = h.cfd then { h with connOpen := false }
  else match h.pipeEnd with
    | none   => h
    | some p =>
      if fd = p.wr then { h with pipeEnd := some { p with wrOpen := false } }
      else if fd = p.rd then { h with pipeEnd := none }
      else h

/-- `recv_msg` on the connection. -/
def receive (h : Host) : Option ((ℤ × MsgOut) × Host) :=
  (h.inb.receive h.cfd).map fun x => (x.1, { h with inb := x.2 })

/-- `send_msg` on the connection. -/
def transmit (h : Host) (type : MsgType) (payload : Bytes) : Option (ℤ × Host) :=
  (h.conn.transmit h.cfd type payload).map fun (x : ℤ × Outbound) =>
    (x.1, { h with
      conn := x.2
      sent := if x.1 = 0 then h.sent ++ [(type, payload)] else h.sent })

/-- `read` from the pipe, or from another descriptor. -/
def readFd (h : Host) (fd : Fd) (size : ℕ) : Option (RecvRet × Host) :=
  match h.pipeEnd.filter fun p => p.rd = fd with
  | none =>
    match h.stray with
    | []      => none
    | r :: rs => some (r, { h with stray := rs })
  | some p =>
    match h.reads with
    | []          => none
    | .intr :: es => some (.intr, { h with reads := es })
    | .deliver n :: es =>
      -- without a byte there, the call waits for as long as the write end is open
      if p.pending = [] ∧ p.wrOpen then none
      else some (.data (p.pending.take (min (n + 1) size)), { h with
        reads := es
        pipeEnd := some { p with pending := p.pending.drop (min (n + 1) size) } })

/-- The answers of the host. -/
def handle (T : Tools) : (c : WorkCall) → Host → Option (c.Ret × Host)
  | .recvMsg fd, h =>
    if fd = h.cfd ∧ h.connOpen then h.receive else some ((-1, {}), h)
  | .sendMsg fd type payload, h =>
    if fd = h.cfd ∧ h.connOpen then h.transmit type payload else some (-1, h)
  | .load (.fetchAdd _), h => some ((), h)
  | .load (.fetchSub _), h => some ((), h)
  | .free _, h => some ((), h)
  | .getpid, h => some ((h.pid : ℤ), h)
  | .fopen path, h =>
    match h.fopens with
    | []          => none
    | false :: es => some (none, { h with fopens := es })
    | true :: es  =>
      some (some 1, { h.setFile path (some []) with fopens := es, stream := some path })
  | .fwrite data _, h =>
    match h.fwrites, h.stream with
    | n :: es, some path =>
      some ((data.take n).length,
        { h.setFile path ((h.files path).map (· ++ data.take n)) with fwrites := es })
    | _, _ => none
  | .fclose _, h => some ((), { h with stream := none })
  | .unlink path, h => some ((), h.setFile path none)
  | .pipe, h =>
    match h.pipes with
    | [] => none
    | .fail rd wr :: es => some (⟨-1, rd, wr⟩, { h with pipes := es })
    | .ok :: es =>
      let rd := h.cfd + h.nextFd + 1
      some (⟨0, rd, rd + 1⟩,
        { h with pipes := es, nextFd := h.nextFd + 2, pipeEnd := some ⟨rd, rd + 1, true, []⟩ })
  | .fork code, h =>
    match h.forks with
    | []          => none
    | false :: es => some (-1, { h with forks := es })
    | true :: es  =>
      some ((h.pid + h.procs.length + 1 : ℤ), child T code 1 { h with forks := es })
  | .read fd size, h => h.readFd fd size
  | .kill pid, h =>
    match h.kills with
    | []          => none
    | false :: es => some ((), { h with kills := es })
    | true :: es  => some ((), { h.killed pid with kills := es })
  | .waitpid pid, h =>
    match h.waits with
    | []      => none
    | e :: es =>
      match e.ok, h.waitFor pid with
      | true, some p => some (p.status.word, { h.reap p.pid with waits := es })
      | _, _         => some (e.word, { h with waits := es })
  | .close fd, h => some ((), h.closeFd fd)
  | _, _ => none

/-! ### The calls that always succeed -/

section Simp

variable (T : Tools) (h : Host)

@[simp] lemma handle_fetchAdd (c : Counter) : handle T (.load (.fetchAdd c)) h = some ((), h) := rfl
@[simp] lemma handle_fetchSub (c : Counter) : handle T (.load (.fetchSub c)) h = some ((), h) := rfl
@[simp] lemma handle_free (p : Option Ptr) : handle T (.free p) h = some ((), h) := rfl
@[simp] lemma handle_getpid : handle T .getpid h = some ((h.pid : ℤ), h) := rfl
@[simp] lemma handle_fclose (f : FilePtr) :
    handle T (.fclose f) h = some ((), { h with stream := none }) := rfl
@[simp] lemma handle_unlink (path : TmpPath) :
    handle T (.unlink path) h = some ((), h.setFile path none) := rfl
@[simp] lemma handle_close (fd : Fd) : handle T (.close fd) h = some ((), h.closeFd fd) := rfl

end Simp

end Host
end P2PNode
