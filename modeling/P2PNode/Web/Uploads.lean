import P2PNode.Lib.Interleave
import P2PNode.Web.Commands

/-!
# Uploaded files

The bridge and the command loop as two processes that share a directory and a pipe. The bridge saves
an uploaded file and writes a `submit` line; the loop reads the file when it comes to the line. As
long as no file is saved over one whose line waits, each submission passes on its own content.
-/

namespace P2PNode

open Effect Lines

/-! ### The processes -/

inductive WebCall where
  | nextMessage
  | bridge (c : BridgeCall)
  | repl (c : ReplCall)
  deriving DecidableEq

/-- The answer to each call; a message of a client carries a file name and a content. -/
@[reducible] def WebCall.Ret : WebCall → Type
  | .nextMessage => Option PyStr × Option PyStr
  | .bridge c    => c.Ret
  | .repl c      => c.Ret

abbrev WebProg := Prog WebCall WebCall.Ret

/-- The directory of `p2p_node`: its path is absolute and has no newline. -/
structure WebDir where
  path : PurePath
  root : path.root = true
  plain : ∀ part ∈ path.parts, newlineChar ∉ part

/-- The bridge, which takes the uploads of all clients in some order. -/
def bridgeLoop (dir : WebDir) : ℕ → WebProg Unit
  | 0 => .spin
  | rounds + 1 => do
    let m ← Prog.perform WebCall.nextMessage
    (wsUpload dir.path m.1 m.2).embed WebCall.bridge fun _ r => r
    bridgeLoop dir rounds

/-- The command loop. -/
def replProcess (rounds : ℕ) : WebProg Unit := (runRepl rounds).embed WebCall.repl fun _ r => r

/-! ### The directory and the pipe -/

/-- An upload that was submitted: its file, the line written for it and the content of its
message. -/
structure Submission where
  path : Bytes
  line : Bytes
  content : PyStr

/-- What the loop passed to `dispatch`: the number of the line it carries out, the line, and the
bytes. -/
structure Passed where
  number : ℕ
  line : Bytes
  data : Bytes

/-- The files; the file the bridge opened last, whether it is still open, what it buffers for it and
the content of its message; the pipe and what was submitted through it; the file handles of the
loop, the number of lines it has fetched, the last of them, the number of lines whose files it is
done with, and what it passed on. -/
structure WebWorld where
  files : Bytes → Option Bytes
  target : Bytes := []
  writing : Bool := false
  buffer : Bytes := []
  message : PyStr := []
  pipe : Bytes := []
  submissions : List Submission := []
  handles : File → Bytes := fun _ => []
  fetched : ℕ := 0
  current : Bytes := []
  done : ℕ := 0
  passed : List Passed := []

/-- `PATH_MAX`. -/
def pathMax : ℕ := 4096

/-- A file name that is a path component, without newline. -/
def ValidName (filename : Option PyStr) : Prop :=
  PurePath.sep ∉ filename.getD uploadName ∧ newlineChar ∉ filename.getD uploadName ∧
    0 ∉ filename.getD uploadName

instance (filename : Option PyStr) : Decidable (ValidName filename) :=
  inferInstanceAs (Decidable (_ ∧ _))

namespace WebWorld

/-- The bytes of the open file up to `n` are written. -/
def flush (w : WebWorld) (n : ℕ) : WebWorld :=
  { w with files := Function.update w.files w.target (some (w.buffer.take n)) }

/-- The calls of the bridge. The file is truncated where it is opened, and written at the latest
where it is closed. -/
def bridgeCall (w : WebWorld) : (c : BridgeCall) → c.Ret → Option WebWorld
  | .hasStdin, _ => some w
  | .openW path, (ok : Bool) =>
    if ok then
      (PyStr.fsencode path).bind fun p =>
        if 0 ∈ p ∨ pathMax ≤ p.length then none
        else some { w with
          files := Function.update w.files p (some [])
          target := p
          writing := true
          buffer := [] }
    else some w
  | .writeText content, (ok : Bool) =>
    if ok then content.encode.map fun bs => { w with buffer := bs }
    else some { w with buffer := content.encode.getD [] }
  | .closeFile, (ok : Bool) =>
    if ok then some { w.flush w.buffer.length with writing := false }
    else some { w with writing := false }
  | .writeStdin data, (ok : Bool) =>
    if ok then some { w with
      pipe := w.pipe ++ data
      submissions := w.submissions ++ [⟨w.target, data, w.message⟩] }
    else some w
  | .sendError, _ => some w

/-- A line that lies in the pipe whole, or fills the buffer. -/
def fetchable (w : WebWorld) (size : ℕ) : Bool :=
  decide (newline ∈ (readLine newline (size - 1) w.pipe).1 ∨
    (readLine newline (size - 1) w.pipe).1.length = size - 1)

/-- The calls of the loop. `done` counts a line when its file was read, could not be opened, or was
closed unread. -/
def replCall (w : WebWorld) : (c : ReplCall) → c.Ret → Option WebWorld
  | .fgets _, none => some w
  | .fgets size, some raw =>
    if w.fetchable size ∧ raw = (readLine newline (size - 1) w.pipe).1 then some { w with
      pipe := (readLine newline (size - 1) w.pipe).2
      fetched := w.fetched + 1
      current := raw }
    else none
  | .fopen _, none => some { w with done := w.fetched }
  | .fopen path, some f =>
    if (w.files path).isSome then some { w with handles := Function.update w.handles f path }
    else none
  | .fileSize f, (sz : ℤ) =>
    if sz < 0 ∨ sz = ((w.files (w.handles f)).getD []).length then some w else none
  | .fread f size, (got : Bytes) =>
    if got <+: ((w.files (w.handles f)).getD []).take size then some { w with done := w.fetched }
    else none
  | .fclose _, _ => some { w with done := w.fetched }
  | .dispatch task, _ => some { w with
      passed := w.passed ++ [⟨w.fetched - 1, w.current, task.file_data⟩] }
  | _, _ => some w

def call (w : WebWorld) (_ : ℕ) : (c : WebCall) → c.Ret → Option WebWorld
  | .nextMessage, (filename, content) =>
    if ValidName filename then some { w with message := content.getD [] } else none
  | .bridge c, r => w.bridgeCall c r
  | .repl c, r => w.replCall c r

/-- The two processes; a file that is open for writing may be written at any time. -/
def sys : Conc WebCall WebCall.Ret WebWorld ℕ where
  call := call
  env w n := if w.writing then some (w.flush n) else none
  spawn _ _ := none

/-- The processes before their first step, in any directory. -/
def start (dir : WebDir) (files : Bytes → Option Bytes) (rounds rounds' : ℕ) :
    Conf WebCall WebCall.Ret WebWorld where
  threads := [bridgeLoop dir rounds, replProcess rounds']
  world := { files := files }

/-- The submissions whose files the loop is not done with. -/
def unread (w : WebWorld) : List Submission := w.submissions.drop w.done

/-- No file is opened for writing over one that is still to be read. -/
def Undisturbed (w : WebWorld) : Move WebCall WebCall.Ret ℕ → Prop
  | .call _ (.bridge (.openW path)) (ok : Bool) =>
    ok = true → ∀ u ∈ w.unread, PyStr.fsencode path ≠ some u.path
  | _ => True

/-- What is passed to `dispatch` for a line is the content of the message that produced it. -/
def OwnContent (w : WebWorld) : Prop :=
  ∀ x ∈ w.passed, ∃ u, w.submissions[x.number]? = some u ∧ u.line = x.line ∧
    u.content.encode = some x.data

end WebWorld

/-! ### What the bridge does -/

/-- Where the bridge is with an upload. -/
inductive BridgePhase where
  | idle
  | told (filename content : Option PyStr)
  | opened (path content : PyStr)
  | written (path content : PyStr) (ok : Bool)
  | saved (path content : PyStr)
  | bad

namespace BridgePhase

def next (dir : WebDir) : BridgePhase → (c : BridgeCall) → c.Ret → BridgePhase
  | .idle, .sendError, _ => .idle
  | .told filename content, .openW path, (ok : Bool) =>
    if path = uploadPath dir.path filename then
      if ok then .opened path (content.getD []) else .idle
    else .bad
  | .opened path content, .writeText text, (ok : Bool) =>
    if text = content then .written path content ok else .bad
  | .written path content ok, .closeFile, (closed : Bool) =>
    if ok && closed then .saved path content else .idle
  | .saved path content, .hasStdin, (there : Bool) => if there then .saved path content else .idle
  | .saved path _, .writeStdin data, _ =>
    if (submitPrefix ++ path ++ [newlineChar]).encode = some data then .idle else .bad
  | .saved _ _, .sendError, _ => .idle
  | _, _, _ => .bad

/-- The bridge takes a message when it is idle. -/
def hear : BridgePhase → Option PyStr → Option PyStr → BridgePhase
  | .idle, filename, content => .told filename content
  | _, _, _                  => .bad

def kernel (dir : WebDir) : Kernel BridgeCall BridgeCall.Ret BridgePhase :=
  fun q c r => some (next dir q c r)

def Good (q : BridgePhase) : Prop := q ≠ .bad

/-- An upload leaves the bridge idle. -/
lemma always_wsUpload (dir : WebDir) (filename content : Option PyStr) :
    (wsUpload dir.path filename content).Always (kernel dir) Good (fun _ q => q = .idle)
      (.told filename content) := by
  have herror : (BridgeCall.doSendError).Always (kernel dir) Good (fun _ q => q = .idle) .idle := by
    refine ⟨nofun, fun _ q hq => ?_⟩
    cases hq
    exact ⟨nofun, rfl⟩
  refine ⟨nofun, fun ok q hq => ?_⟩
  simp only [kernel, next, if_true] at hq
  cases hq
  cases ok with
  | false => exact herror
  | true =>
    refine ⟨nofun, fun ok q hq => ?_⟩
    simp only [kernel, next, if_true] at hq
    cases hq
    refine ⟨nofun, fun closed q hq => ?_⟩
    simp only [kernel, next] at hq
    cases hq
    change Prog.Always _ _ _ (if _ then _ else _) _
    by_cases hsaved : (ok && closed) = true
    · rw [if_pos hsaved, if_pos hsaved]
      refine ⟨nofun, fun there q hq => ?_⟩
      cases hq
      cases there with
      | false => exact ⟨nofun, rfl⟩
      | true =>
        simp only [next, if_true]
        cases hdata : (submitPrefix ++ uploadPath dir.path filename ++ [newlineChar]).encode with
        | none =>
          refine ⟨nofun, fun _ q hq => ?_⟩
          cases hq
          exact ⟨nofun, rfl⟩
        | some data =>
          refine ⟨nofun, fun sent q hq => ?_⟩
          simp only [kernel, next, hdata, if_true] at hq
          cases hq
          cases sent with
          | false => exact herror
          | true => exact ⟨nofun, rfl⟩
    · rw [if_neg hsaved, if_neg hsaved]
      exact herror

end BridgePhase

/-! ### What the loop does -/

/-- Where the loop is with a line. -/
inductive ReplPhase where
  | waiting
  | line (path : Bytes)
  | opened (path : Bytes) (f : File)
  | sized (path : Bytes) (f : File) (sz : ℤ)
  | data (bytes : Bytes)
  | bad

namespace ReplPhase

/-- A `submit` line with a path; no other lines are expected. -/
def ofLine (line : Bytes) : Option ReplPhase :=
  if line = cmdSubmit ++ submitPath line ∧ submitPath line ≠ [] then some (.line (submitPath line))
  else none

def kernel : Kernel ReplCall ReplCall.Ret ReplPhase
  | .waiting, .running, _ => some .waiting
  | .waiting, .printf _, _ => some .waiting
  | .waiting, .fgets _, none => some .waiting
  | .waiting, .fgets size, some raw =>
    if size = lineSize then ofLine (stripNewline raw) else some .bad
  | .waiting, .free _, _ => some .waiting
  | .waiting, .fclose _, _ => some .waiting
  | .line path, .fopen path', none => some (if path' = path then .waiting else .bad)
  | .line path, .fopen path', some f => some (if path' = path then .opened path f else .bad)
  | .opened path f, .fileSize f', (sz : ℤ) => some (if f' = f then .sized path f sz else .bad)
  | .sized _ _ _, .fclose _, _ => some .waiting
  | .sized path f sz, .malloc _, _ => some (.sized path f sz)
  | .sized _ f sz, .fread f' size, (got : Bytes) =>
    some (if f' = f ∧ 0 < sz ∧ size = sz.toNat then
      if got.length = sz.toNat then .data got else .waiting
    else .bad)
  | .data bytes, .fclose _, _ => some (.data bytes)
  | .data bytes, .printf _, _ => some (.data bytes)
  | .data bytes, .dispatch task, _ => some (if task.file_data = bytes then .waiting else .bad)
  | _, _, _ => some .bad

def Good (q : ReplPhase) : Prop := q ≠ .bad

/-- Reading a file ends with its data, or without a block. -/
lemma always_readFileBlock (path : Bytes) :
    (readFileBlock path).Always kernel Good
      (fun got q => match got with
        | none => q = .waiting
        | some (_, bytes) => q = .data bytes) (.line path) := by
  refine ⟨nofun, fun f q hq => ?_⟩
  cases f with
  | none =>
    simp only [kernel, if_true] at hq
    cases hq
    exact ⟨nofun, rfl⟩
  | some f =>
    simp only [kernel, if_true] at hq
    cases hq
    refine ⟨nofun, fun sz q hq => ?_⟩
    simp only [kernel, if_true] at hq
    cases hq
    change Prog.Always _ _ _ (if _ then _ else _) _
    split
    · refine ⟨nofun, fun _ q hq => ?_⟩
      cases hq
      exact ⟨nofun, rfl⟩
    · rename_i hsz
      have hpos : 0 < sz := not_le.1 fun h => hsz (.inl h)
      refine ⟨nofun, fun data q hq => ?_⟩
      cases hq
      cases data with
      | none =>
        refine ⟨nofun, fun _ q hq => ?_⟩
        cases hq
        exact ⟨nofun, rfl⟩
      | some data =>
        refine ⟨nofun, fun got q hq => ?_⟩
        simp only [kernel, hpos, and_self, if_true] at hq
        cases hq
        change Prog.Always _ _ _ (if _ then _ else _) _
        by_cases hlen : got.length = sz.toNat
        · rw [if_neg (not_not.2 hlen), if_pos hlen]
          refine ⟨nofun, fun _ q hq => ?_⟩
          cases hq
          exact ⟨nofun, rfl⟩
        · rw [if_pos hlen, if_neg hlen]
          refine ⟨nofun, fun _ q hq => ?_⟩
          cases hq
          refine ⟨nofun, fun _ q hq => ?_⟩
          cases hq
          exact ⟨nofun, rfl⟩

lemma always_submitFile (path : Bytes) :
    (submitFile path).Always kernel Good (fun _ q => q = .waiting) (.line path) := by
  apply Prog.Always.bind
  apply (always_readFileBlock path).mono
  intro got q hq
  cases got with
  | none =>
    cases hq
    exact ⟨nofun, rfl⟩
  | some got =>
    cases hq
    refine ⟨nofun, fun _ q hq => ?_⟩
    cases hq
    refine ⟨nofun, fun rc q hq => ?_⟩
    simp only [kernel, fillTask, if_true] at hq
    cases hq
    refine ⟨nofun, fun _ q hq => ?_⟩
    cases hq
    refine ⟨nofun, fun _ q hq => ?_⟩
    cases hq
    exact ⟨nofun, rfl⟩

/-- A `submit` line is carried out, and the loop goes on. -/
lemma always_execLine {line path : Bytes} (h : line = cmdSubmit ++ path)
    (hp : submitPath line = path) (hne : path ≠ []) :
    (execLine line).Always kernel Good (fun _ q => q = .waiting) (.line path) := by
  have hnil : line ≠ [] := by
    rw [h]
    simp [cmdSubmit]
  have hpeers : line ≠ cmdPeers := by
    rw [h]
    simp [cmdSubmit, cmdPeers]
  have hquit : ¬ (line = cmdQuit ∨ line = cmdExit) := by
    rw [h]
    simp [cmdSubmit, cmdQuit, cmdExit]
  have hsubmit : line.take cmdSubmit.length = cmdSubmit := by
    rw [h, List.take_left]
  rw [execLine, if_neg hnil, if_neg hpeers, if_neg hquit, if_pos hsubmit, hp, if_neg hne]
  apply Prog.Always.bind
  apply (always_submitFile path).mono
  rintro _ q rfl
  exact ⟨by simp [Good], rfl⟩

lemma always_runRepl (rounds : ℕ) :
    (runRepl rounds).Always kernel Good (fun _ q => q = .waiting) .waiting := by
  induction rounds with
  | zero => exact nofun
  | succ rounds ih =>
    refine ⟨nofun, fun go q hq => ?_⟩
    cases hq
    cases go with
    | false => exact ⟨nofun, rfl⟩
    | true =>
      refine ⟨nofun, fun _ q hq => ?_⟩
      cases hq
      refine ⟨nofun, fun raw q hq => ?_⟩
      cases raw with
      | none =>
        cases hq
        exact ⟨nofun, rfl⟩
      | some raw =>
        simp only [kernel, if_true, ofLine] at hq
        split at hq
        · rename_i hline
          cases hq
          apply Prog.Always.bind (p := execLine _)
          apply (always_execLine hline.1 rfl hline.2).mono
          rintro go q rfl
          cases go with
          | false => exact ⟨nofun, rfl⟩
          | true => exact ih
        · cases hq

end ReplPhase

end P2PNode
