import P2PNode.Dispatch.Submit

/-!
# The command loop (`main.c`)

`read_file` and `run_repl` as programs. `fseek`, `ftell` and `fseek` are one call, which gives the
size of the file; `dispatch` and `peer_list_print` are one call each. What is written to `stderr` is
left out.
-/

namespace P2PNode

open Effect

/-! ### The calls -/

/-- A `FILE *`. -/
abbrev File := ℕ

/-- The lines that the loop prints. -/
inductive ReplLine where
  | prompt
  | usage
  | output
  | exitCode (rc : ℤ)
  | unknown
  deriving DecidableEq

deriving instance DecidableEq for Task

inductive ReplCall where
  | running
  | stopRunning
  | printf (line : ReplLine)
  | fgets (size : ℕ)
  | peerListPrint
  | fopen (path : Bytes)
  | fileSize (f : File)
  | malloc (size : ℕ)
  | fread (f : File) (size : ℕ)
  | fclose (f : File)
  | free (p : Option Ptr)
  | dispatch (task : Task)
  deriving DecidableEq

/-- The answer to each call; `fgets` and `fopen` give `none` for `NULL`. -/
@[reducible] def ReplCall.Ret : ReplCall → Type
  | .running       => Bool
  | .stopRunning   => Unit
  | .printf _      => Unit
  | .fgets _       => Option Bytes
  | .peerListPrint => Unit
  | .fopen _       => Option File
  | .fileSize _    => ℤ
  | .malloc _      => Option Ptr
  | .fread _ _     => Bytes
  | .fclose _      => Unit
  | .free _        => Unit
  | .dispatch _    => ℤ

abbrev ReplProg := Prog ReplCall ReplCall.Ret

namespace ReplCall

def doRunning : ReplProg Bool := Prog.perform ReplCall.running
def doStopRunning : ReplProg Unit := Prog.perform ReplCall.stopRunning
def doPrintf (line : ReplLine) : ReplProg Unit := Prog.perform (ReplCall.printf line)
def doFgets (size : ℕ) : ReplProg (Option Bytes) := Prog.perform (ReplCall.fgets size)
def doPeerListPrint : ReplProg Unit := Prog.perform ReplCall.peerListPrint
def doFopen (path : Bytes) : ReplProg (Option File) := Prog.perform (ReplCall.fopen path)
def doFileSize (f : File) : ReplProg ℤ := Prog.perform (ReplCall.fileSize f)
def doMalloc (size : ℕ) : ReplProg (Option Ptr) := Prog.perform (ReplCall.malloc size)
def doFread (f : File) (size : ℕ) : ReplProg Bytes := Prog.perform (ReplCall.fread f size)
def doFclose (f : File) : ReplProg Unit := Prog.perform (ReplCall.fclose f)
def doFree (p : Option Ptr) : ReplProg Unit := Prog.perform (ReplCall.free p)
def doDispatch (task : Task) : ReplProg ℤ := Prog.perform (ReplCall.dispatch task)

end ReplCall

open ReplCall

/-! ### `read_file` -/

/-- The block with the contents of the file, and the contents. -/
def readFileBlock (path : Bytes) : ReplProg (Option (Ptr × Bytes)) := do
  match ← doFopen path with
  | none => return none
  | some f =>
    let sz ← doFileSize f
    if sz ≤ 0 ∨ (maxFileSize : ℤ) < sz then
      doFclose f
      return none
    else
      match ← doMalloc sz.toNat with
      | none =>
        doFclose f
        return none
      | some data =>
        let got ← doFread f sz.toNat
        if got.length ≠ sz.toNat then
          doFree (some data)
          doFclose f
          return none
        else
          doFclose f
          return some (data, got)

/-! ### `run_repl` -/

def maxCmdLen : ℕ := 4096

/-- `sizeof(line)`. -/
def lineSize : ℕ := maxCmdLen + 32

/-- The character `\n`. -/
def newline : UInt8 := 10

/-- The line without its trailing newline. -/
def stripNewline (raw : Bytes) : Bytes :=
  if (cstr raw).getLast? = some newline then (cstr raw).dropLast else cstr raw

/-- The text `peers`. -/
def cmdPeers : Bytes := [112, 101, 101, 114, 115]

/-- The text `quit`. -/
def cmdQuit : Bytes := [113, 117, 105, 116]

/-- The text `exit`. -/
def cmdExit : Bytes := [101, 120, 105, 116]

/-- The text `submit `, with its blank. -/
def cmdSubmit : Bytes := [115, 117, 98, 109, 105, 116, 32]

/-- The path of a `submit` line: what follows the word, without the blanks in front. -/
def submitPath (line : Bytes) : Bytes := (line.drop cmdSubmit.length).dropWhile (· = 32)

def submitFile (path : Bytes) : ReplProg Unit := do
  match ← readFileBlock path with
  | none => return ()
  | some (data, contents) =>
    doPrintf .output
    let rc ← doDispatch (fillTask (basename path) contents)
    doPrintf (.exitCode rc)
    doFree (some data)

/-- The body of the loop for one line: whether the loop goes on. -/
def execLine (line : Bytes) : ReplProg Bool :=
  if line = [] then return true
  else if line = cmdPeers then do
    doPeerListPrint
    return true
  else if line = cmdQuit ∨ line = cmdExit then do
    doStopRunning
    return false
  else if line.take cmdSubmit.length = cmdSubmit then
    if submitPath line = [] then do
      doPrintf .usage
      return true
    else do
      submitFile (submitPath line)
      return true
  else do
    doPrintf .unknown
    return true

def runRepl : ℕ → ReplProg Unit
  | 0 => .spin
  | rounds + 1 => do
    if ← doRunning then
      doPrintf .prompt
      match ← doFgets lineSize with
      | none => return ()
      | some raw =>
        if ← execLine (stripNewline raw) then runRepl rounds else return ()
    else return ()

end P2PNode
