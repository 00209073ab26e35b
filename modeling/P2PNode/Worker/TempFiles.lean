import P2PNode.Worker.Phases

/-!
# The temp files of the tasks

The file system as the handlers and their children use it, in a worker whose system calls all
succeed: directory entries and files behind them, output streams, and the steps of the children.
A file lives on behind its open descriptors when its entry is removed or replaced; `fopen` with
`"wb"` empties the file of an entry; the linker of gcc puts a new file in the place of its output.
-/

namespace P2PNode

open Effect

/-! ### Files and children -/

/-- A binary: the handler whose gcc made it, and the source that this gcc read. -/
structure Image where
  maker : ℕ
  source : Bytes
  deriving DecidableEq

inductive FileData where
  | text (bytes : Bytes)
  | exe (image : Image)
  deriving DecidableEq

/-- An open `FILE *`: its file, its position, and what it has not written yet. -/
structure Stream where
  ino : ℕ
  pos : ℕ
  buf : Bytes
  deriving DecidableEq

/-- Where a child is: before its exec (gcc: before it opened the source), gcc with the source open,
gcc after it has read the source, the running binary, ended, or waited for. -/
inductive TmpState where
  | started
  | opened (ino : ℕ)
  | compiling (source : Bytes)
  | running (image : Image)
  | exited (word : ℕ)
  | reaped
  deriving DecidableEq

/-- A child of the worker, with the handler that forked it and what it executes. -/
structure TmpProc where
  owner : ℕ
  pid : ℤ
  exec : ChildCall
  state : TmpState
  deriving DecidableEq

/-- The file with `b` written at `pos`. -/
def writeAt (c : Bytes) (pos : ℕ) (b : Bytes) : Bytes :=
  if b = [] then c
  else c.take pos ++ List.replicate (pos - c.length) 0 ++ b ++ c.drop (pos + b.length)

/-- What a child executes. -/
def execOf (code : List ChildCall) : ChildCall :=
  (code.find? fun
    | .execSh _ => true
    | .execBin _ => true
    | _ => false).getD (.exit 127)

/-- The temp files, the children and the requests of one worker with the process id `pid`.

`stage` is the child that each handler forked for its stage, whose output it reads, since a program
writes only to its own standard output and error; `got` the child that it waited for last. `writers`
are the handlers between the opening of the temp source and the end of their gcc's reading,
`runners` those between their gcc's writing of the binary and its execution. The logs: the sources
that the gcc of a handler read, the binaries that a handler executed, and the handler whose child's
output or exit code was sent to the client of a handler. -/
structure TmpWorld where
  pid : ℤ
  dir : TmpPath → Option ℕ
  content : ℕ → Option FileData
  nextIno : ℕ
  streams : FilePtr → Option Stream := fun _ => none
  procs : List TmpProc := []
  stage : ℕ → Option ℕ := fun _ => none
  got : ℕ → Option ℕ := fun _ => none
  request : ℕ → Option Bytes := fun _ => none
  writers : List ℕ := []
  runners : List ℕ := []
  reads : List (ℕ × Bytes) := []
  execs : List (ℕ × Image) := []
  sent : List (ℕ × Option ℕ) := []

/-- The file system when the worker starts: whatever was left there, without hard links between the
temp paths. -/
structure TmpFiles where
  dir : TmpPath → Option ℕ
  content : ℕ → Option FileData
  nextIno : ℕ
  known : ∀ path ino, dir path = some ino → ino < nextIno
  blank : ∀ ino, nextIno ≤ ino → content ino = none
  apart : ∀ path path' ino, dir path = some ino → dir path' = some ino → path = path'

/-- Nothing was left. -/
def TmpFiles.nothing : TmpFiles where
  dir _ := none
  content _ := none
  nextIno := 0
  known _ _ h := nomatch h
  blank _ _ := rfl
  apart _ _ _ h := nomatch h

/-- What happens without a call of the worker: a stream writes some of its bytes early; the gcc `n`
opens its source, reads it, writes the binary, or fails with a status word; the child `n` executes
the binary, or ends. -/
inductive TmpEvent where
  | flush (f : FilePtr) (k : ℕ)
  | gccOpen (n : ℕ)
  | gccRead (n : ℕ)
  | gccWrite (n : ℕ)
  | gccFail (n word : ℕ)
  | exec (n : ℕ)
  | exit (n word : ℕ)

namespace TmpWorld

/-! ### The calls -/

/-- The file of an entry, a new one when there is no entry. -/
def fileAt (w : TmpWorld) (path : TmpPath) : ℕ := (w.dir path).getD w.nextIno

/-- `fopen` with `"wb"`. -/
def openFile (w : TmpWorld) (i : ℕ) (path : TmpPath) (f : FilePtr) : TmpWorld :=
  { w with
    dir := Function.update w.dir path (some (w.fileAt path))
    content := Function.update w.content (w.fileAt path) (some (.text []))
    nextIno := max w.nextIno (w.fileAt path + 1)
    streams := Function.update w.streams f (some ⟨w.fileAt path, 0, []⟩)
    writers := i :: w.writers }

/-- The first `k` bytes that a stream still has to write, in its file. -/
def flushed (w : TmpWorld) (s : Stream) (k : ℕ) : ℕ → Option FileData :=
  match w.content s.ino with
  | some (.text c) =>
    Function.update w.content s.ino (some (.text (writeAt c s.pos (s.buf.take k))))
  | _ => w.content

/-- A child in a new state. -/
def setState (w : TmpWorld) (n : ℕ) (x : TmpProc) (state : TmpState) : TmpWorld :=
  { w with procs := w.procs.set n { x with state := state } }

/-- The child that was not waited for and has the pid. -/
def byPid (w : TmpWorld) (pid : ℤ) : Option ℕ :=
  w.procs.findIdx? fun x => x.pid = pid ∧ x.state ≠ .reaped

/-- The handler that forked a child. -/
def ownerOf (w : TmpWorld) (n : Option ℕ) : Option ℕ :=
  n.bind fun n => w.procs[n]?.map TmpProc.owner

/-- The calls that succeed. A final message carries the exit code of the child that the handler has
waited for, other messages the output of the child of the stage. -/
def call (w : TmpWorld) (i : ℕ) : (c : WorkCall) → c.Ret → Option TmpWorld
  | .recvMsg _, got => some { w with request := Function.update w.request i (requested got) }
  | .getpid, (pid : ℤ) => if pid = w.pid then some w else none
  | .fopen path, file =>
    file.bind fun f => if w.streams f = none then some (w.openFile i path f) else none
  | .fwrite data f, (n : ℕ) =>
    if n = data.length then
      (w.streams f).map fun s =>
        { w with streams := Function.update w.streams f (some { s with buf := s.buf ++ data }) }
    else none
  | .fclose f, _ =>
    (w.streams f).map fun s =>
      { w with
        content := w.flushed s s.buf.length
        streams := Function.update w.streams f none }
  | .pipe, p => if p.ret = 0 then some w else none
  | .fork code, (pid : ℤ) =>
    if 0 < pid ∧ w.byPid pid = none then
      some { w with
        procs := w.procs ++ [⟨i, pid, execOf code, .started⟩]
        stage := Function.update w.stage i (some w.procs.length) }
    else none
  | .sendMsg _ type _, (ret : ℤ) =>
    if 0 ≤ ret then
      some { w with
        sent := w.sent ++ [(i, w.ownerOf (if type = msgTaskDone then w.got i else w.stage i))] }
    else none
  | .waitpid pid, (word : ℕ) =>
    (w.byPid pid).bind fun n => w.procs[n]?.bind fun x =>
      if x.state = .exited word then
        some { w.setState n x .reaped with got := Function.update w.got i (some n) }
      else none
  | .unlink path, _ => some { w with dir := Function.update w.dir path none }
  | _, _ => some w

/-! ### The children -/

/-- gcc opens its source. -/
def gccOpen (w : TmpWorld) (n : ℕ) (x : TmpProc) : Option TmpWorld :=
  match x.exec, x.state with
  | .execSh cmd, .started => (w.dir cmd.src).map fun ino => w.setState n x (.opened ino)
  | _, _ => none

/-- gcc reads its source. -/
def gccRead (w : TmpWorld) (n : ℕ) (x : TmpProc) : Option TmpWorld :=
  match x.state with
  | .opened ino =>
    match w.content ino with
    | some (.text c) =>
      some { w.setState n x (.compiling c) with
        writers := w.writers.filter (· ≠ x.owner)
        reads := w.reads ++ [(x.owner, c)] }
    | _ => none
  | _ => none

/-- gcc writes the binary and ends with status 0. -/
def gccWrite (w : TmpWorld) (n : ℕ) (x : TmpProc) : Option TmpWorld :=
  match x.exec, x.state with
  | .execSh cmd, .compiling c =>
    some { w.setState n x (.exited 0) with
      dir := Function.update w.dir cmd.out (some w.nextIno)
      content := Function.update w.content w.nextIno (some (.exe ⟨x.owner, c⟩))
      nextIno := w.nextIno + 1
      runners := x.owner :: w.runners }
  | _, _ => none

/-- gcc finds an error. -/
def gccFail (w : TmpWorld) (n word : ℕ) (x : TmpProc) : Option TmpWorld :=
  match x.state with
  | .compiling _ => if childExit word ≠ 0 then some (w.setState n x (.exited word)) else none
  | _ => none

/-- The child executes the binary. -/
def execBin (w : TmpWorld) (n : ℕ) (x : TmpProc) : Option TmpWorld :=
  match x.exec, x.state with
  | .execBin path, .started =>
    match (w.dir path).bind w.content with
    | some (.exe image) =>
      some { w.setState n x (.running image) with
        runners := w.runners.filter (· ≠ x.owner)
        execs := w.execs ++ [(x.owner, image)] }
    | _ => none
  | _, _ => none

/-- The program ends. -/
def exitProc (w : TmpWorld) (n word : ℕ) (x : TmpProc) : Option TmpWorld :=
  match x.state with
  | .running _ => some (w.setState n x (.exited word))
  | _ => none

def env (w : TmpWorld) : TmpEvent → Option TmpWorld
  | .flush f k =>
    (w.streams f).map fun s =>
      { w with
        content := w.flushed s k
        streams := Function.update w.streams f
          (some { s with pos := s.pos + (s.buf.take k).length, buf := s.buf.drop k }) }
  | .gccOpen n => w.procs[n]?.bind (w.gccOpen n)
  | .gccRead n => w.procs[n]?.bind (w.gccRead n)
  | .gccWrite n => w.procs[n]?.bind (w.gccWrite n)
  | .gccFail n word => w.procs[n]?.bind (w.gccFail n word)
  | .exec n => w.procs[n]?.bind (w.execBin n)
  | .exit n word => w.procs[n]?.bind (w.exitProc n word)

/-- The worker. -/
abbrev sys (rounds : ℕ) : Conc WorkCall WorkCall.Ret TmpWorld TmpEvent :=
  Phase.workers rounds call env

/-- The world of a process that has done nothing yet. -/
def initial (pid : ℤ) (files : TmpFiles) : TmpWorld where
  pid := pid
  dir := files.dir
  content := files.content
  nextIno := files.nextIno

/-- The worker before its first step. -/
abbrev start (rounds : ℕ) (arg : Ptr) (server_fd : Fd) (pid : ℤ) (files : TmpFiles) :
    Conf WorkCall WorkCall.Ret TmpWorld :=
  Phase.workersStart rounds arg server_fd (initial pid files)

/-! ### Isolation -/

/-- Every gcc read the bytes of its handler's own request, every handler executed the binary that
its own gcc made from them, and every output and exit code went to the client whose handler forked
the child. -/
structure TaskIsolated (w : TmpWorld) : Prop where
  reads : ∀ x ∈ w.reads, w.request x.1 = some x.2
  execs : ∀ x ∈ w.execs, x.2.maker = x.1 ∧ w.request x.1 = some x.2.source
  sent : ∀ x ∈ w.sent, x.2 = some x.1

/-- No handler opens or removes the temp source while another is between its own opening and the
end of its gcc's reading, and no gcc writes and no handler removes the temp binary while another
handler is between its gcc's writing and the execution. -/
def Undisturbed (w : TmpWorld) : Move WorkCall WorkCall.Ret TmpEvent → Prop
  | .call i (.fopen _) _ => ∀ j ∈ w.writers, j = i
  | .call i (.unlink (.src _)) _ => ∀ j ∈ w.writers, j = i
  | .call i (.unlink (.bin _)) _ => ∀ j ∈ w.runners, j = i
  | .env (.gccWrite n) => ∀ j ∈ w.runners, w.ownerOf (some n) = some j
  | _ => True

instance (w : TmpWorld) (m : Move WorkCall WorkCall.Ret TmpEvent) :
    Decidable (Undisturbed w m) := by
  unfold Undisturbed
  split <;> infer_instance

end TmpWorld

end P2PNode
