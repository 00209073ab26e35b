import P2PNode.Lib.Decimal
import P2PNode.Lib.Interleave
import P2PNode.Lib.Lines
import P2PNode.Node.Repl
import P2PNode.Node.SelfExclusion

/-!
# The node process (`main.c`, `worker.c`, `discovery.c`, `net_utils.c`)

`main` with its arguments, the start of the threads, the command loop and the BYE, and the process
in which it runs: its sockets, its standard input, the files and blocks that it holds, and SIGINT,
which can come at any time. Of the other threads only the announcer is started here. What is written
to `stderr` is left out.
-/

namespace P2PNode

open Effect Lines

/-! ### The arguments -/

/-- The text `--port`. -/
def optPort : Bytes := [45, 45, 112, 111, 114, 116]

/-- The text `--iface`. -/
def optIface : Bytes := [45, 45, 105, 102, 97, 99, 101]

/-- The text `--help`. -/
def optHelp : Bytes := [45, 45, 104, 101, 108, 112]

/-- `isspace`. -/
def isBlank (b : UInt8) : Bool := decide (b = 32 ∨ (9 ≤ b.toNat ∧ b.toNat ≤ 13))

/-- `isdigit`. -/
def isNumeral (b : UInt8) : Bool := decide (48 ≤ b.toNat ∧ b.toNat ≤ 57)

/-- The characters `-` and `+`. -/
def minus : UInt8 := 45
def plus : UInt8 := 43

/-- The value of the digits at the beginning. -/
def leadingValue (s : Bytes) : ℕ :=
  Decimal.value ((s.takeWhile isNumeral).map fun b => b.toNat - 48)

/-- `strtol` with base 10, where `long` has 64 bits. -/
def strtol (s : Bytes) : ℤ :=
  let t := s.dropWhile isBlank
  if t.head? = some minus then max (-2 ^ 63) (-(leadingValue t.tail : ℤ))
  else min (2 ^ 63 - 1) (leadingValue (if t.head? = some plus then t.tail else t) : ℤ)

/-- `(uint16_t)atoi(s)`, where `atoi` is `strtol` cut to an `int`. -/
def portArg (s : Bytes) : ℕ := (Int.bmod (strtol s) (2 ^ 32) % 2 ^ 16).toNat

/-- Why `usage` is called. -/
inductive ArgError where
  | help
  | unknown (arg : Bytes)
  deriving DecidableEq

/-- The loop over `argv`; an option at the end of the arguments has no value. -/
def parseArgs (port : ℕ) (iface : Option Bytes) :
    List Bytes → Except ArgError (ℕ × Option Bytes)
  | []               => .ok (port, iface)
  | [arg]            => if arg = optHelp then .error .help else .error (.unknown arg)
  | arg :: v :: args =>
    if arg = optPort then parseArgs (portArg v) iface args
    else if arg = optIface then parseArgs port (some v) args
    else if arg = optHelp then .error .help
    else .error (.unknown arg)

/-! ### The calls -/

/-- What `pthread_create` starts, with what it reads of the globals. -/
inductive NodeThread where
  | acceptLoop (server_fd : Fd)
  | announcer (bcast_fd : Fd) (own_port : ℕ)
  | listener (local_ip : Bytes)
  | reaper
  | loadResponder
  deriving DecidableEq

/-- `signals` is the two calls of `signal`; `mallocFd` is the `malloc` of `worker_start`, answered
by whether it gives a block. -/
inductive MainCall where
  | signals
  | peerListInit
  | mallocFd
  | segfault
  | sock (c : SockCall)
  | listen (fd : Fd) (backlog : ℕ)
  | start (t : NodeThread)
  | sleep (secs : ℕ)
  | repl (c : ReplCall)
  | bcast (c : BcastCall)
  | exit (code : ℤ)
  deriving DecidableEq

@[reducible] def MainCall.Ret : MainCall → Type
  | .signals      => Unit
  | .peerListInit => Unit
  | .mallocFd     => Bool
  | .segfault     => Unit
  | .sock c       => c.Ret
  | .listen _ _   => ℤ
  | .start _      => Unit
  | .sleep _      => Unit
  | .repl c       => c.Ret
  | .bcast c      => c.Ret
  | .exit _       => Unit

abbrev MainProg := Prog MainCall MainCall.Ret

namespace MainCall

def doSignals : MainProg Unit := Prog.perform MainCall.signals
def doPeerListInit : MainProg Unit := Prog.perform MainCall.peerListInit
def doMallocFd : MainProg Bool := Prog.perform MainCall.mallocFd
def doListen (fd : Fd) (backlog : ℕ) : MainProg ℤ := Prog.perform (MainCall.listen fd backlog)
def doStart (t : NodeThread) : MainProg Unit := Prog.perform (MainCall.start t)
def doSleep (secs : ℕ) : MainProg Unit := Prog.perform (MainCall.sleep secs)

variable {α : Type}

def doSock (p : SockProg α) : MainProg α := p.embed MainCall.sock fun _ r => r
def doRepl (p : ReplProg α) : MainProg α := p.embed MainCall.repl fun _ r => r
def doBcast (p : BcastProg α) : MainProg α := p.embed MainCall.bcast fun _ r => r

/-- The calls after which nothing is done. -/
def doSegfault : MainProg α := .call .segfault fun _ => .spin
def doExit (code : ℤ) : MainProg α := .call (.exit code) fun _ => .spin

end MainCall

open MainCall

/-! ### `make_tcp_server`, `worker_start` and `discovery_start` -/

/-- The second argument of `listen`. -/
def serverBacklog : ℕ := 32

def makeTcpServer (port : ℕ) : MainProg Fd := do
  let fd ← doSock (SockCall.doSocket .stream)
  if fd < 0 then return -1
  else
    doSock (SockCall.doSetsockopt fd .reuseaddr)
    doSock (SockCall.doSetsockopt fd .reuseport)
    if (← doSock (SockCall.doBind fd port)) < 0 then
      doSock (SockCall.doClose fd)
      return -1
    else if (← doListen fd serverBacklog) < 0 then
      doSock (SockCall.doClose fd)
      return -1
    else return fd

/-- `EXIT_FAILURE`. -/
def exitFailure : ℤ := 1

def workerStart (port : ℕ) : MainProg Unit := do
  if ← doMallocFd then
    let server_fd ← makeTcpServer port
    if server_fd < 0 then doExit exitFailure else doStart (.acceptLoop server_fd)
  else doSegfault

/-- The result is `g_bcast_fd`. -/
def discoveryStart (own_tcp_port : ℕ) (local_ip : Bytes) : MainProg Fd := do
  let bcast_fd ← doSock (makeUdpBroadcastSocket 0)
  if bcast_fd < 0 then doExit exitFailure
  else
    doStart (.announcer bcast_fd own_tcp_port)
    doStart (.listener (discoveryLocalIp local_ip))
    doStart .reaper
    return bcast_fd

/-! ### `main` -/

/-- `ret` and `ifap` are what `getifaddrs` gives; `args` are the arguments behind the name of the
program. -/
def nodeMain (ret : ℤ) (ifap : List IfAddr) (rounds : ℕ) (args : List Bytes) : MainProg Unit :=
  match parseArgs defaultWorkerPort none args with
  | .error _          => doExit exitFailure
  | .ok (port, iface) => do
    doSignals
    doPeerListInit
    workerStart port
    let bcast_fd ← discoveryStart port (mainLocalIp ret ifap iface)
    doStart .loadResponder
    doSleep 2
    doRepl (runRepl rounds)
    doBcast (mainEnd bcast_fd port)

/-! ### The process -/

/-- The port of a socket; the kernel picks one where port 0 is asked for. -/
inductive Binding where
  | unbound
  | picked
  | port (n : ℕ)
  deriving DecidableEq

/-- What `bind` does with a port. -/
def Binding.ofPort (port : ℕ) : Binding := if port = 0 then .picked else .port port

structure SockState where
  kind : SockKind
  binding : Binding := .unbound
  listening : Bool := false
  deriving DecidableEq

/-- What the command loop does for a line. -/
inductive ReplAct where
  | peers
  | usage
  | unknown
  | submit (task : Task)
  deriving DecidableEq

/-- What failed in `read_file`. -/
inductive ReadFailure where
  | fopen (path : Bytes)
  | size (sz : ℤ)
  | malloc
  | fread
  deriving DecidableEq

/-- A line as `fgets` gave it, the file that was opened for it with its contents, what failed when
it was to be read, and what was done for the line. -/
structure Entry where
  raw : Bytes
  opened : Option (Bytes × Bytes) := none
  failure : Option ReadFailure := none
  acts : List ReplAct := []
  deriving DecidableEq

/-- What the command loop works on. `running` is `g_running`; `past` and `now` are the lines read
before the last one and the last one. `typed` is all that was ever written to the standard input,
which no other program reads, `signalled` how many lines had been read when SIGINT first came, and
`misuse` that a file was closed or a block freed which was not held. -/
structure ReplWorld where
  running : Bool := true
  signalled : Option ℕ := none
  input : Bytes := []
  closed : Bool := false
  typed : Bytes := []
  past : List Entry := []
  now : Option Entry := none
  disk : Bytes → Option Bytes := fun _ => none
  files : File → Option Bytes := fun _ => none
  blocks : Finset Ptr := ∅
  misuse : Bool := false

namespace ReplWorld

/-- The lines read, in their order. -/
def entries (w : ReplWorld) : List Entry := w.past ++ w.now.toList

/-- Something is done for the last line. -/
def did (w : ReplWorld) (a : ReplAct) : ReplWorld :=
  { w with now := w.now.map fun e => { e with acts := e.acts ++ [a] } }

/-- The file for the last line is not read. -/
def failed (w : ReplWorld) (f : ReadFailure) : ReplWorld :=
  { w with now := w.now.map fun e => { e with failure := some f } }

/-- `fgets` gives a line when it is complete, the buffer is full or no more can come; it gives
`NULL` at the end of the input. -/
def fgets (w : ReplWorld) (size : ℕ) : Option Bytes → Option ReplWorld
  | none     => if w.input = [] ∧ w.closed then some w else none
  | some raw =>
    if raw ≠ [] ∧ raw = (readLine newline (size - 1) w.input).1 ∧
        (raw.getLast? = some newline ∨ raw.length = size - 1 ∨ w.closed) then
      some { w with
        input := (readLine newline (size - 1) w.input).2
        past := w.entries
        now := some { raw := raw } }
    else none

def fopen (w : ReplWorld) (path : Bytes) : Option File → Option ReplWorld
  | none   => some (w.failed (.fopen path))
  | some f =>
    if w.files f = none then
      (w.disk path).map fun contents =>
        { w with
          files := Function.update w.files f (some contents)
          now := w.now.map fun e => { e with opened := some (path, contents) } }
    else none

/-- The size of an open file, or `-1` when it cannot be told. -/
def fileSize (w : ReplWorld) (f : File) (sz : ℤ) : Option ReplWorld :=
  if sz = -1 ∨ (w.files f).map (fun contents => (contents.length : ℤ)) = some sz then
    some (if sz ≤ 0 ∨ (maxFileSize : ℤ) < sz then w.failed (.size sz) else w)
  else none

def malloc (w : ReplWorld) : Option Ptr → Option ReplWorld
  | none   => some (w.failed .malloc)
  | some p => if p ∈ w.blocks then none else some { w with blocks := insert p w.blocks }

/-- `fread` gives all that is asked for, or less. -/
def fread (w : ReplWorld) (f : File) (n : ℕ) (bs : Bytes) : Option ReplWorld :=
  if (w.files f).any fun contents => bs <+: contents.take n then
    some (if bs.length ≠ n then w.failed .fread else w)
  else none

def free (w : ReplWorld) : Option Ptr → ReplWorld
  | none   => w
  | some p => { w with blocks := w.blocks.erase p, misuse := w.misuse || decide (p ∉ w.blocks) }

def act (w : ReplWorld) : (c : ReplCall) → c.Ret → Option ReplWorld
  | .running, b       => if b = w.running then some w else none
  | .stopRunning, _   => some { w with running := false }
  | .printf l, _      =>
    some (if l = .usage then w.did .usage else if l = .unknown then w.did .unknown else w)
  | .fgets size, r    => w.fgets size r
  | .peerListPrint, _ => some (w.did .peers)
  | .fopen path, r    => w.fopen path r
  | .fileSize f, sz   => w.fileSize f sz
  | .malloc _, r      => w.malloc r
  | .fread f n, bs    => w.fread f n bs
  | .fclose f, _      =>
    some { w with
      files := Function.update w.files f none, misuse := w.misuse || (w.files f).isNone }
  | .free p, _        => some (w.free p)
  | .dispatch task, _ => some (w.did (.submit task))

end ReplWorld

/-- The process; `handler` says whether SIGINT is handled, `inited` whether the peer table is
initialised. -/
structure NodeProc where
  exited : Bool := false
  handler : Bool := false
  inited : Bool := false
  socks : Fd → Option SockState := fun _ => none
  wire : List Bytes := []
  repl : ReplWorld := {}

namespace NodeProc

def sockAct (w : NodeProc) : (c : SockCall) → c.Ret → Option NodeProc
  | .socket kind, fd    =>
    if fd < 0 then some w
    else if w.socks fd = none then
      some { w with socks := Function.update w.socks fd (some { kind := kind }) }
    else none
  | .bind fd port, r    =>
    if r < 0 then some w
    else (w.socks fd).map fun s =>
      { w with socks := Function.update w.socks fd (some { s with binding := .ofPort port }) }
  | .close fd, _        => some { w with socks := Function.update w.socks fd none }
  | _, _                => some w

def bcastAct (w : NodeProc) : (c : BcastCall) → c.Ret → Option NodeProc
  | .sendto _ _ data, _ => some { w with wire := w.wire ++ [data] }
  | .exit, _            => some { w with exited := true }
  | _, _                => some w

def act (w : NodeProc) : (c : MainCall) → c.Ret → Option NodeProc
  | .signals, _      => some { w with handler := true }
  | .peerListInit, _ => some { w with inited := true }
  | .segfault, _     => some { w with exited := true }
  | .sock c, r       => w.sockAct c r
  | .listen fd _, r  =>
    if r < 0 then some w
    else (w.socks fd).map fun s =>
      { w with socks := Function.update w.socks fd (some { s with listening := true }) }
  | .repl c, r       => (w.repl.act c r).map fun v => { w with repl := v }
  | .bcast c, r      => w.bcastAct c r
  | .exit _, _       => some { w with exited := true }
  | _, _             => some w

def call (w : NodeProc) (_ : ℕ) (c : MainCall) (r : c.Ret) : Option NodeProc :=
  if w.exited then none else w.act c r

/-- What happens around the process. A file that is edited is replaced: who has it open keeps what
it was. -/
inductive ProcEvent where
  | sigint
  | typing (bs : Bytes)
  | close
  | edit (path : Bytes) (contents : Option Bytes)

/-- SIGINT ends a process that does not handle it. -/
def env (w : NodeProc) : ProcEvent → Option NodeProc
  | .sigint             =>
    if w.handler then
      some { w with repl := { w.repl with
        running := false
        signalled := some (w.repl.signalled.getD w.repl.entries.length) } }
    else some { w with exited := true }
  | .typing bs          =>
    if w.repl.closed then none
    else some { w with repl := { w.repl with
      input := w.repl.input ++ bs, typed := w.repl.typed ++ bs } }
  | .close              => some { w with repl := { w.repl with closed := true } }
  | .edit path contents =>
    some { w with repl := { w.repl with disk := Function.update w.repl.disk path contents } }

/-- A thread that cannot be created is one that never runs. -/
def sys (rounds : ℕ) : Conc MainCall MainCall.Ret NodeProc ProcEvent where
  call := call
  env := env
  spawn
    | .start (.announcer bcast_fd own_port), _ =>
      some (doBcast (announcerThread bcast_fd own_port rounds))
    | _, _ => none

/-- The process before `main`. -/
def start (ret : ℤ) (ifap : List IfAddr) (rounds : ℕ) (args : List Bytes) :
    Conf MainCall MainCall.Ret NodeProc where
  threads := [nodeMain ret ifap rounds args]
  world := {}

end NodeProc
end P2PNode
