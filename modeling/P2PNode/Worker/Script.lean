import P2PNode.Worker.Worker

/-!
# What a handler does on its connection

One handler with a well-formed request, and a script with an answer to every call that it makes:
any results of `fopen`, `pipe` and `fork`, any output and status of the children, any result of
each send. What the handler does on the connection is computed from the script (`TaskScript.log`).
-/

namespace P2PNode

open Effect

/-! ### The script -/

/-- How a send ends; a failing one may have written some bytes of its frame. -/
inductive SendOut where
  | ok
  | fail (written : ℕ)
  deriving DecidableEq

/-- The answers to the calls of one handler: the pipes in the order of the `pipe` calls, the pids,
the reads and the status words in the order of the `fork` calls, the results of the sends in their
order. After the listed reads comes the end of the file. A `pipe` that failed leaves any values in
`pipefd`. -/
structure TaskScript where
  cfd : Fd
  block : Block
  len : ℕ
  name : Bytes
  data : Bytes
  pid : ℤ
  fopen : Option FilePtr
  written : ℕ
  pipe : ℕ → PipeRet
  fork : ℕ → ℤ
  reads : ℕ → List RecvRet
  status : ℕ → ℕ
  send : ℕ → SendOut
  decodes : decodeTaskFile block.bytes len = some (name, data)
  apart : ∀ n, (pipe n).ret = 0 → (pipe n).rd ≠ cfd ∧ (pipe n).wr ≠ cfd

/-- What the handler does on the connection, and the children that it starts. -/
inductive ReplyEvent where
  | frame (type : MsgType) (payload : Bytes)
  | lost (type : MsgType) (payload : Bytes) (written : ℕ)
  | fork
  | close
  deriving DecidableEq

structure ReplyState where
  pipes : ℕ := 0
  forks : ℕ := 0
  sends : ℕ := 0
  reads : List RecvRet := []
  opened : Bool := true
  log : List ReplyEvent := []

namespace TaskScript

variable (sc : TaskScript)

/-- The request as `recv_msg` yields it. -/
def request : ℤ × MsgOut :=
  (0, { type := some msgTaskFile, len := sc.len, payload := some sc.block })

/-- The result of a send; none succeeds on a closed descriptor. -/
def out (opened : Bool) (i : ℕ) : SendOut := if opened then sc.send i else .fail 0

def sendEvent (o : SendOut) (type : MsgType) (payload : Bytes) : ReplyEvent :=
  match o with
  | .ok     => .frame type payload
  | .fail n => .lost type payload n

def forkEvents (k : ℕ) : List ReplyEvent := if 0 ≤ sc.fork k then [.fork] else []

def closeEvents (fd : Fd) : List ReplyEvent := if fd = sc.cfd then [.close] else []

/-- The answers. -/
def handle : (c : WorkCall) → ReplyState → Option (c.Ret × ReplyState)
  | .recvMsg _, s => some (sc.request, s)
  | .sendMsg fd type payload, s =>
    let o := sc.out (s.opened && decide (fd = sc.cfd)) s.sends
    some (if o = .ok then 0 else -1, { s with
      sends := s.sends + 1
      log := s.log ++ [sendEvent o type payload] })
  | .load (.fetchAdd _), s => some ((), s)
  | .load (.fetchSub _), s => some ((), s)
  | .free _, s => some ((), s)
  | .getpid, s => some (sc.pid, s)
  | .fopen _, s => some (sc.fopen, s)
  | .fwrite _ _, s => some (sc.written, s)
  | .fclose _, s => some ((), s)
  | .unlink _, s => some ((), s)
  | .pipe, s => some (sc.pipe s.pipes, { s with pipes := s.pipes + 1 })
  | .fork _, s => some (sc.fork s.forks, { s with
      forks := s.forks + 1
      reads := sc.reads s.forks
      log := s.log ++ sc.forkEvents s.forks })
  | .read _ _, s =>
    match s.reads with
    | []      => some (.data [], s)
    | r :: rs => some (r, { s with reads := rs })
  | .kill _, s => some ((), s)
  | .waitpid _, s => some (sc.status (s.forks - 1), s)
  | .close fd, s => some ((), { s with
      opened := s.opened && decide (fd ≠ sc.cfd)
      log := s.log ++ sc.closeEvents fd })
  | _, _ => none

/-! ### What the script says about the connection -/

end TaskScript

/-- The chunks that a child's output is read in, up to its end or an error. -/
def chunksOf : List RecvRet → List Bytes
  | [] => []
  | .intr :: rs => chunksOf rs
  | .err :: _ => []
  | .data [] :: _ => []
  | .data (b :: bs) :: rs => (b :: bs) :: chunksOf rs

/-- The sends of the chunks, from the send `i` on and up to the first that fails. -/
def forwarded (out : ℕ → SendOut) : ℕ → List Bytes → List ReplyEvent
  | _, [] => []
  | i, c :: cs =>
    match out i with
    | .ok     => .frame msgOutput c :: forwarded out (i + 1) cs
    | .fail n => [.lost msgOutput c n]

namespace TaskScript

variable (sc : TaskScript)

/-- The output of the child `k` over the pipe `p`. -/
def outputs (k : ℕ) (p : PipeRet) (i : ℕ) : List ReplyEvent :=
  forwarded (sc.out (decide (p.wr ≠ sc.cfd))) i (chunksOf (sc.reads k))

/-- A stage on an open connection. -/
def stage (k : ℕ) (p : PipeRet) (i : ℕ) : List ReplyEvent :=
  sc.forkEvents k ++ sc.closeEvents p.wr ++ sc.outputs k p i ++ sc.closeEvents p.rd

/-- The final message of a stage. -/
def done (k : ℕ) (p : PipeRet) (i : ℕ) : ReplyEvent :=
  sendEvent (sc.out (decide (p.wr ≠ sc.cfd) && decide (p.rd ≠ sc.cfd)) i) msgTaskDone
    (donePayload (childExit (sc.status k)))

/-- The run of the binary as the child `k`. -/
def binaryLog (k : ℕ) (i : ℕ) : List ReplyEvent :=
  sc.stage k (sc.pipe 1) i ++ [sc.done k (sc.pipe 1) (i + (sc.outputs k (sc.pipe 1) i).length)]

/-- The number of sends of the compilation. -/
def compileSends : ℕ := (sc.outputs 0 (sc.pipe 0) 0).length

/-- The events of a task. -/
def taskLog : List ReplyEvent :=
  if sc.fopen.isSome then
    if (sc.pipe 0).ret = 0 then
      sc.stage 0 (sc.pipe 0) 0 ++
        if childExit (sc.status 0) ≠ 0 then [sc.done 0 (sc.pipe 0) sc.compileSends]
        else sc.binaryLog 1 sc.compileSends
    else sc.binaryLog 0 0
  else []

/-- The events of the handler. -/
def log : List ReplyEvent := sc.taskLog ++ [.close]

end TaskScript

/-! ### The handler does what the script says -/

namespace TaskScript

variable (sc : TaskScript)

section Handle

variable (s : ReplyState)

lemma handle_read_nil (hr : s.reads = []) (fd : Fd) (size : ℕ) :
    sc.handle (.read fd size) s = some (.data [], s) := by
  simp [handle, hr]

lemma handle_read_cons {r : RecvRet} {rs : List RecvRet} (hr : s.reads = r :: rs) (fd : Fd)
    (size : ℕ) : sc.handle (.read fd size) s = some (r, { s with reads := rs }) := by
  simp [handle, hr]

lemma handle_send (type : MsgType) (payload : Bytes) :
    sc.handle (.sendMsg sc.cfd type payload) s =
      some (if sc.out s.opened s.sends = .ok then 0 else -1, { s with
        sends := s.sends + 1
        log := s.log ++ [sendEvent (sc.out s.opened s.sends) type payload] }) := by
  simp [handle]

lemma handle_free (a : Option Ptr) : sc.handle (.free a) s = some ((), s) := rfl

lemma handle_recvMsg (fd : Fd) : sc.handle (.recvMsg fd) s = some (sc.request, s) := rfl

lemma handle_kill (pid : ℤ) : sc.handle (.kill pid) s = some ((), s) := rfl

lemma handle_waitpid (pid : ℤ) :
    sc.handle (.waitpid pid) s = some (sc.status (s.forks - 1), s) := rfl

lemma handle_close (fd : Fd) : sc.handle (.close fd) s = some ((), { s with
    opened := s.opened && decide (fd ≠ sc.cfd)
    log := s.log ++ sc.closeEvents fd }) := rfl

lemma handle_fork (code : List ChildCall) : sc.handle (.fork code) s =
    some (sc.fork s.forks, { s with
      forks := s.forks + 1
      reads := sc.reads s.forks
      log := s.log ++ sc.forkEvents s.forks }) := rfl

lemma handle_unlink (path : TmpPath) : sc.handle (.unlink path) s = some ((), s) := rfl

lemma handle_getpid : sc.handle .getpid s = some (sc.pid, s) := rfl

lemma handle_fopen (path : TmpPath) : sc.handle (.fopen path) s = some (sc.fopen, s) := rfl

lemma handle_fwrite (data : Bytes) (f : FilePtr) :
    sc.handle (.fwrite data f) s = some (sc.written, s) := rfl

lemma handle_fclose (f : FilePtr) : sc.handle (.fclose f) s = some ((), s) := rfl

lemma run_taskStart : (WorkCall.doLoad loadTaskStart).run sc.handle s = some ((), s) := rfl

lemma handle_pipe :
    sc.handle .pipe s = some (sc.pipe s.pipes, { s with pipes := s.pipes + 1 }) := rfl

end Handle

/-- The loop sends the chunks up to the first send that fails. -/
lemma run_streamLoop (rounds : ℕ) (fd : Fd) (pid : ℤ) (s : ReplyState)
    (hr : s.reads.length < rounds) :
    ∃ rest, (streamLoop rounds sc.cfd fd pid).run sc.handle s = some ((), { s with
      reads := rest
      sends := s.sends + (forwarded (sc.out s.opened) s.sends (chunksOf s.reads)).length
      log := s.log ++ forwarded (sc.out s.opened) s.sends (chunksOf s.reads) }) := by
  induction rounds generalizing s with
  | zero => exact absurd hr (Nat.not_lt_zero _)
  | succ rounds ih =>
    cases hreads : s.reads with
    | nil =>
      refine ⟨[], ?_⟩
      simp [streamLoop, WorkCall.doRead, handle_read_nil sc s hreads, chunksOf, forwarded, ← hreads]
    | cons r rs =>
      have hread := handle_read_cons sc s hreads fd outputBufSize
      rw [hreads, List.length_cons] at hr
      have hrs : rs.length < rounds := Nat.lt_of_succ_lt_succ hr
      cases r with
      | intr =>
        obtain ⟨rest, hrest⟩ := ih { s with reads := rs } hrs
        refine ⟨rest, ?_⟩
        simp only [streamLoop, WorkCall.doRead, Prog.perform_bind, Prog.run_call, hread,
          Option.bind_some, hrest, chunksOf]
      | err =>
        refine ⟨rs, ?_⟩
        simp [streamLoop, WorkCall.doRead, hread, chunksOf, forwarded]
      | data buf =>
        cases buf with
        | nil =>
          refine ⟨rs, ?_⟩
          simp [streamLoop, WorkCall.doRead, hread, chunksOf, forwarded]
        | cons b bs =>
          have hsend := handle_send sc { s with reads := rs } msgOutput (b :: bs)
          cases ho : sc.out s.opened s.sends with
          | ok =>
            obtain ⟨rest, hrest⟩ := ih { s with
              reads := rs
              sends := s.sends + 1
              log := s.log ++ [.frame msgOutput (b :: bs)] } hrs
            refine ⟨rest, ?_⟩
            simp only [ho, if_true, sendEvent] at hsend
            simp [streamLoop, WorkCall.doRead, WorkCall.doSendMsg, hread, hsend, hrest, chunksOf,
              forwarded, ho]
            omega
          | fail n =>
            refine ⟨rs, ?_⟩
            simp only [ho, reduceCtorEq, if_false, sendEvent] at hsend
            simp [streamLoop, WorkCall.doRead, WorkCall.doSendMsg, WorkCall.doKill, hread, hsend,
              chunksOf, forwarded, ho, handle_kill]

/-- The state behind a stage that `s` is in front of, with `rest` of the reads left over. -/
def after (p : PipeRet) (rest : List RecvRet) (s : ReplyState) : ReplyState := { s with
  forks := s.forks + 1
  sends := s.sends + (sc.outputs s.forks p s.sends).length
  reads := rest
  opened := decide (p.wr ≠ sc.cfd) && decide (p.rd ≠ sc.cfd)
  log := s.log ++ sc.stage s.forks p s.sends }

/-- A stage from the `fork` on. -/
lemma run_runStage (rounds : ℕ) (p : PipeRet) (exec : ChildCall) (s : ReplyState)
    (ho : s.opened = true) (hr : (sc.reads s.forks).length < rounds) :
    ∃ rest, (runStage rounds sc.cfd p exec).run sc.handle s =
      some (childExit (sc.status s.forks), sc.after p rest s) := by
  obtain ⟨rest, hrest⟩ := run_streamLoop sc rounds p.rd (sc.fork s.forks) { s with
    forks := s.forks + 1
    reads := sc.reads s.forks
    opened := s.opened && decide (p.wr ≠ sc.cfd)
    log := s.log ++ sc.forkEvents s.forks ++ sc.closeEvents p.wr } hr
  refine ⟨rest, ?_⟩
  simp only [ho, Bool.true_and, List.append_assoc] at hrest
  simp only [runStage, streamAndWait, WorkCall.doFork, WorkCall.doClose, WorkCall.doWaitpid,
    Prog.perform_bind, Prog.pure_def, Prog.run_call, Prog.run_bind, Prog.run_ret, handle_fork,
    handle_close, handle_waitpid, Option.bind_some, ho, Bool.true_and, List.append_assoc, hrest,
    Nat.add_sub_cancel, after, stage, outputs]

/-- The final message of a stage. -/
lemma handle_done (p : PipeRet) (rest : List RecvRet) (s : ReplyState) :
    ∃ (r : ℤ) (s' : ReplyState),
      sc.handle (.sendMsg sc.cfd msgTaskDone (donePayload (childExit (sc.status s.forks))))
        (sc.after p rest s) = some (r, s') ∧
      s'.log = (sc.after p rest s).log ++ [sc.done s.forks p (sc.after p rest s).sends] := by
  refine ⟨_, _, handle_send sc _ _ _, ?_⟩
  rfl

/-- From `s` on, the program returns, and `es` are its events. -/
def Does (p : WorkProg Unit) (s : ReplyState) (es : List ReplyEvent) : Prop :=
  ∃ s', p.run sc.handle s = some ((), s') ∧ s'.log = s.log ++ es

section Does

variable {sc} {α : Type} {p : WorkProg α} {f : α → WorkProg Unit} {a : α} {s s₁ : ReplyState}
  {es fs : List ReplyEvent}

lemma Does.bind (hf : sc.Does (f a) s₁ fs) (hp : p.run sc.handle s = some (a, s₁))
    (hlog : s₁.log = s.log ++ es) : sc.Does (p >>= f) s (es ++ fs) := by
  obtain ⟨s₂, hrun, hlog₂⟩ := hf
  refine ⟨s₂, ?_, ?_⟩
  · rw [Prog.run_bind, hp]
    exact hrun
  · rw [hlog₂, hlog, List.append_assoc]

/-- A part of the program that leaves no event. -/
lemma Does.bind_silent (hf : sc.Does (f a) s₁ es) (hp : p.run sc.handle s = some (a, s₁))
    (hlog : s₁.log = s.log) : sc.Does (p >>= f) s es :=
  Does.bind hf hp (hlog.trans (List.append_nil _).symm)

variable {c : WorkCall} {r : c.Ret} {k : c.Ret → WorkProg Unit}

/-- A call that leaves no event. -/
lemma Does.call_silent (hk : sc.Does (k r) s₁ es) (hc : sc.handle c s = some (r, s₁))
    (hlog : s₁.log = s.log) : sc.Does (Prog.perform c >>= k) s es :=
  Does.bind_silent hk ((Prog.run_perform _ _ _).trans hc) hlog

/-- A call that leaves the last events. -/
lemma Does.call_last (hk : sc.Does (k r) s₁ []) (hc : sc.handle c s = some (r, s₁))
    (hlog : s₁.log = s.log ++ es) : sc.Does (Prog.perform c >>= k) s es := by
  have := Does.bind hk ((Prog.run_perform _ _ _).trans hc) hlog
  rwa [List.append_nil] at this

end Does

lemma does_taskDone (s : ReplyState) : sc.Does (WorkCall.doLoad loadTaskDone) s [] :=
  ⟨s, rfl, (List.append_nil _).symm⟩

/-- The run of the binary. -/
lemma does_runBinary (rounds : ℕ) (src bin : TmpPath) (s : ReplyState) (ho : s.opened = true)
    (hp : s.pipes = 1) (hr : (sc.reads s.forks).length < rounds) :
    sc.Does (runBinary rounds sc.cfd src bin) s (sc.binaryLog s.forks s.sends) := by
  have hpipe := handle_pipe sc s
  rw [hp] at hpipe
  obtain ⟨rest, hstage⟩ := run_runStage sc rounds (sc.pipe 1) (.execBin bin)
    { s with pipes := 1 + 1 } ho hr
  obtain ⟨r, s₁, hdone, hlog⟩ := handle_done sc (sc.pipe 1) rest { s with pipes := 1 + 1 }
  apply Does.call_silent _ hpipe rfl
  apply Does.bind _ hstage rfl
  apply Does.call_last _ hdone hlog
  exact does_taskDone sc s₁

/-- The part behind the writing of the source file. -/
lemma does_compileAndRun (rounds : ℕ) (src bin : TmpPath) (h₀ : (sc.reads 0).length < rounds)
    (h₁ : (sc.reads 1).length < rounds) (hf : sc.fopen.isSome) :
    sc.Does (compileAndRun rounds sc.cfd src bin) {} sc.taskLog := by
  apply Does.call_silent _ (handle_pipe sc {}) rfl
  rw [taskLog, if_pos hf]
  by_cases hret : (sc.pipe 0).ret = 0
  · rw [if_pos hret, if_pos hret]
    obtain ⟨rest, hstage⟩ :=
      run_runStage sc rounds (sc.pipe 0) (.execSh ⟨bin, src⟩) { pipes := 1 } rfl h₀
    obtain ⟨hrd, hwr⟩ := sc.apart 0 hret
    rw [compileSends, ← Nat.zero_add (sc.outputs 0 (sc.pipe 0) 0).length]
    apply Does.bind _ hstage rfl
    by_cases hexit : childExit (sc.status 0) ≠ 0
    · rw [if_pos hexit, if_pos hexit]
      obtain ⟨r, s₁, hdone, hlog⟩ := handle_done sc (sc.pipe 0) rest { pipes := 1 }
      apply Does.call_last _ hdone hlog
      exact does_taskDone sc s₁
    · rw [if_neg hexit, if_neg hexit]
      have ho : (sc.after (sc.pipe 0) rest { pipes := 1 }).opened = true := by
        simp only [after, hrd, hwr, ne_eq, not_false_eq_true, decide_true, Bool.and_true]
      exact does_runBinary sc rounds src bin _ ho rfl h₁
  · rw [if_neg hret, if_neg hret]
    exact does_runBinary sc rounds src bin { pipes := 1 } rfl rfl h₀

/-- `compile_and_stream` as a whole. -/
lemma does_compileAndStream (rounds : ℕ) (h₀ : (sc.reads 0).length < rounds)
    (h₁ : (sc.reads 1).length < rounds) :
    sc.Does (compileAndStream rounds sc.cfd sc.name sc.data) {} sc.taskLog := by
  apply Does.bind_silent _ (run_taskStart sc {}) rfl
  apply Does.call_silent _ (handle_getpid sc {}) rfl
  apply Does.call_silent _ (handle_getpid sc {}) rfl
  apply Does.call_silent _ (handle_fopen sc {} _) rfl
  cases hf : sc.fopen with
  | none =>
    have hnil : sc.taskLog = [] := by rw [taskLog, hf]; rfl
    rw [hnil]
    exact does_taskDone sc {}
  | some f =>
    apply Does.call_silent _ (handle_fwrite sc {} sc.data f) rfl
    apply Does.call_silent _ (handle_fclose sc {} f) rfl
    apply does_compileAndRun sc rounds _ _ h₀ h₁
    rw [hf]
    rfl

/-- The handler as a whole. -/
lemma does_handleConnection (rounds : ℕ) (ca : ConnArgs) (hfd : ca.client_fd = sc.cfd)
    (h₀ : (sc.reads 0).length < rounds) (h₁ : (sc.reads 1).length < rounds) :
    sc.Does (handleConnection rounds ca) {} sc.log := by
  have htask : taskFileCase (compileAndStream rounds) sc.cfd sc.request.2 =
      (do
        compileAndStream rounds sc.cfd sc.name sc.data
        WorkCall.doFree (some sc.block.addr)
        return none) := by
    simp only [taskFileCase, request, sc.decodes]
  rw [handleConnection, handleConnectionWith, hfd]
  apply Does.call_silent _ (handle_free sc {} _) rfl
  apply Does.call_silent _ (handle_recvMsg sc {} _) rfl
  show sc.Does (taskFileCase (compileAndStream rounds) sc.cfd sc.request.2 >>= fun payload => do
    WorkCall.doFree payload
    WorkCall.doClose sc.cfd) {} sc.log
  obtain ⟨s, hrun, hlog⟩ := does_compileAndStream sc rounds h₀ h₁
  rw [htask, Prog.bind_assoc]
  apply Does.bind _ hrun hlog
  apply Does.call_silent _ (handle_free sc s _) rfl
  apply Does.call_silent _ (handle_free sc s _) rfl
  refine ⟨_, Prog.run_perform _ _ _, ?_⟩
  simp [closeEvents]

end TaskScript

end P2PNode
