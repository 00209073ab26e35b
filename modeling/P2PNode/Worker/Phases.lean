import P2PNode.Lib.Interleave
import P2PNode.Worker.Worker

/-!
# The phases of a handler

What a thread of the worker does call by call, as an automaton: the phase says which call comes
next and with which arguments, whatever the other threads do. The invariants about several handlers
are stated over their phases.
-/

namespace P2PNode

open Effect

deriving instance DecidableEq for PipeRet

/-! ### The phases -/

/-- The two stages of a task. -/
inductive Stage where
  | compile
  | run
  deriving DecidableEq

/-- A task: the connection it came from, the bytes of its file, and its temp paths. -/
structure TaskCtx where
  cfd : Fd
  data : Bytes
  src : TmpPath
  bin : TmpPath
  deriving DecidableEq

/-- What the child of a stage becomes. -/
def TaskCtx.exec (t : TaskCtx) : Stage → ChildCall
  | .compile => .execSh ⟨t.bin, t.src⟩
  | .run => .execBin t.bin

inductive Phase where
  /-- The accept loop. -/
  | acceptor
  /-- The accept loop behind a capacity check that has passed. -/
  | passed
  /-- Before the request was received. -/
  | waiting (cfd : Fd)
  /-- A task with these bytes was received. -/
  | asked (cfd : Fd) (data : Bytes)
  /-- Between the two increments of `load_task_start`. -/
  | starting (cfd : Fd) (data : Bytes)
  | started (cfd : Fd) (data : Bytes)
  | named (cfd : Fd) (data : Bytes) (pid : ℤ)
  | ready (t : TaskCtx)
  | opened (t : TaskCtx) (f : FilePtr)
  | written (t : TaskCtx) (f : FilePtr)
  /-- Before the pipe of a stage. -/
  | before (st : Stage) (t : TaskCtx)
  /-- Before the fork of a stage. -/
  | piped (st : Stage) (t : TaskCtx) (p : PipeRet)
  /-- Before the write end is closed; `pid` is what `fork` returned. -/
  | forked (st : Stage) (t : TaskCtx) (p : PipeRet) (pid : ℤ)
  | streaming (st : Stage) (t : TaskCtx) (p : PipeRet) (pid : ℤ)
  | chunk (st : Stage) (t : TaskCtx) (p : PipeRet) (pid : ℤ) (buf : Bytes)
  | lost (st : Stage) (t : TaskCtx) (p : PipeRet) (pid : ℤ)
  | drained (st : Stage) (t : TaskCtx) (p : PipeRet) (pid : ℤ)
  | collected (st : Stage) (t : TaskCtx) (p : PipeRet) (status : ℕ)
  | reporting (st : Stage) (t : TaskCtx) (exit : ℤ)
  | cleaning (st : Stage) (t : TaskCtx)
  | unlinking (t : TaskCtx)
  /-- Before `load_task_done`. -/
  | ending (cfd : Fd)
  /-- Before the connection is closed. -/
  | leaving (cfd : Fd)
  | closed
  | bad
  deriving DecidableEq

/-- The file data of a received request, if it is a task. -/
def requested (got : ℤ × MsgOut) : Option Bytes :=
  if got.1 < 0 ∨ got.2.type ≠ some msgTaskFile then none
  else got.2.payload.bind fun b => (decodeTaskFile b.bytes got.2.len).map Prod.snd

/-- The phase behind the pipe call of a stage; only the first is checked for failure. -/
def Stage.afterPipe (st : Stage) (t : TaskCtx) (p : PipeRet) : Phase :=
  match st with
  | .compile => if p.ret = 0 then .piped .compile t p else .before .run t
  | .run => .piped .run t p

/-- The phase behind a stage. -/
def Stage.after (st : Stage) (t : TaskCtx) (exit : ℤ) : Phase :=
  match st with
  | .compile => if exit = 0 then .before .run t else .reporting .compile t exit
  | .run => .reporting .run t exit

/-- A stage begins, or the compilation is left out because there is no pipe. -/
@[elab_as_elim]
lemma Stage.afterPipe_cases {P : Phase → Prop} (st : Stage) (t : TaskCtx) (p : PipeRet)
    (hpiped : P (.piped st t p)) (hbefore : p.ret ≠ 0 → P (.before .run t)) :
    P (st.afterPipe t p) := by
  cases st with
  | compile =>
    rw [Stage.afterPipe]
    split
    · exact hpiped
    · rename_i hret
      exact hbefore hret
  | run => exact hpiped

/-- After a compilation without errors the binary is run; otherwise the exit code is reported. -/
@[elab_as_elim]
lemma Stage.after_cases {P : Phase → Prop} (st : Stage) (t : TaskCtx) (exit : ℤ)
    (hbefore : st = .compile → exit = 0 → P (.before .run t))
    (hreporting : ¬ (st = .compile ∧ exit = 0) → P (.reporting st t exit)) :
    P (st.after t exit) := by
  cases st with
  | compile =>
    rw [Stage.after]
    split
    · rename_i hexit
      exact hbefore rfl hexit
    · rename_i hexit
      exact hreporting fun h => hexit h.2
  | run => exact hreporting (by simp)

namespace Phase

/-- The phase behind a capacity check. -/
def afterCheck (n : ℕ) : Phase := if n < maxConcurrentTasks then .passed else .acceptor

/-- The phase behind a `read` of the pipe. -/
def afterRead (st : Stage) (t : TaskCtx) (p : PipeRet) (pid : ℤ) : RecvRet → Phase
  | .intr => .streaming st t p pid
  | .err => .drained st t p pid
  | .data [] => .drained st t p pid
  | .data buf => .chunk st t p pid buf

@[elab_as_elim]
lemma afterCheck_cases {P : Phase → Prop} (n : ℕ) (hpassed : n < maxConcurrentTasks → P .passed)
    (hacceptor : P .acceptor) : P (afterCheck n) := by
  rw [afterCheck]
  split
  · rename_i hn
    exact hpassed hn
  · exact hacceptor

@[elab_as_elim]
lemma afterRead_cases {P : Phase → Prop} (st : Stage) (t : TaskCtx) (p : PipeRet) (pid : ℤ)
    (got : RecvRet) (hstreaming : P (.streaming st t p pid)) (hdrained : P (.drained st t p pid))
    (hchunk : ∀ buf, P (.chunk st t p pid buf)) : P (afterRead st t p pid got) := by
  cases got with
  | intr => exact hstreaming
  | err => exact hdrained
  | data buf =>
    cases buf with
    | nil => exact hdrained
    | cons b bs => exact hchunk (b :: bs)

/-- The next phase, the phase `bad` when the call is not the one the phase expects. -/
def next : Phase → (c : WorkCall) → c.Ret → Phase
  | .acceptor, .free _, _ => .acceptor
  | .acceptor, .accept _, _ => .acceptor
  | .acceptor, .load (.atomicLoad .activeTasks), (n : ℕ) => afterCheck n
  | .acceptor, .close _, _ => .acceptor
  | .passed, .malloc _, _ => .passed
  | .passed, .pthreadCreate _, _ => .acceptor
  | .waiting cfd, .free _, _ => .waiting cfd
  | .waiting cfd, .recvMsg fd, got =>
    if fd = cfd then
      match requested got with
      | some data => .asked cfd data
      | none => .leaving cfd
    else .bad
  | .asked cfd data, .load (.fetchAdd .activeTasks), _ => .starting cfd data
  | .starting cfd data, .load (.fetchAdd .totalTasks), _ => .started cfd data
  | .started cfd data, .getpid, (pid : ℤ) => .named cfd data pid
  | .named cfd data pid, .getpid, (pid' : ℤ) => .ready ⟨cfd, data, .src pid, .bin pid'⟩
  | .ready t, .fopen path, file =>
    if path = t.src then
      match file with
      | none => .ending t.cfd
      | some f => .opened t f
    else .bad
  | .opened t f, .fwrite data g, _ => if data = t.data ∧ g = f then .written t f else .bad
  | .written t f, .fclose g, _ => if g = f then .before .compile t else .bad
  | .before st t, .pipe, p => st.afterPipe t p
  | .piped st t p, .fork code, (pid : ℤ) =>
    if code = childCode p (t.exec st) then .forked st t p pid else .bad
  | .forked st t p pid, .close fd, _ => if fd = p.wr then .streaming st t p pid else .bad
  | .streaming st t p pid, .read fd _, got => if fd = p.rd then afterRead st t p pid got else .bad
  | .chunk st t p pid buf, .sendMsg fd type payload, (ret : ℤ) =>
    if fd = t.cfd ∧ type = msgOutput ∧ payload = buf then
      if ret < 0 then .lost st t p pid else .streaming st t p pid
    else .bad
  | .lost st t p pid, .kill pid', _ => if pid' = pid then .drained st t p pid else .bad
  | .drained st t p pid, .waitpid pid', (status : ℕ) =>
    if pid' = pid then .collected st t p status else .bad
  | .collected st t p status, .close fd, _ =>
    if fd = p.rd then st.after t (childExit status) else .bad
  | .reporting st t exit, .sendMsg fd type payload, _ =>
    if fd = t.cfd ∧ type = msgTaskDone ∧ payload = donePayload exit then .cleaning st t else .bad
  | .cleaning st t, .unlink path, _ =>
    if path = t.src then
      match st with
      | .compile => .ending t.cfd
      | .run => .unlinking t
    else .bad
  | .unlinking t, .unlink path, _ => if path = t.bin then .ending t.cfd else .bad
  | .ending cfd, .load (.fetchSub .activeTasks), _ => .leaving cfd
  | .leaving cfd, .free _, _ => .leaving cfd
  | .leaving cfd, .close fd, _ => if fd = cfd then .closed else .bad
  | _, _, _ => .bad

/-- The automaton of a thread. -/
def auto : Kernel WorkCall WorkCall.Ret Phase := fun q c r => some (q.next c r)

def Good (q : Phase) : Prop := q ≠ .bad

/-- The calls that each phase expects. -/
inductive Step : Phase → (c : WorkCall) → c.Ret → Phase → Prop where
  | freeArg (ptr : Option Ptr) (r : Unit) : Step .acceptor (.free ptr) r .acceptor
  | accept (fd : Fd) (got : AcceptRet) : Step .acceptor (.accept fd) got .acceptor
  | check (n : ℕ) : Step .acceptor (.load (.atomicLoad .activeTasks)) n (afterCheck n)
  | refuse (fd : Fd) (r : Unit) : Step .acceptor (.close fd) r .acceptor
  | allocate (size : ℕ) (ptr : Option Ptr) : Step .passed (.malloc size) ptr .passed
  | create (ca : ConnArgs) (ret : ℤ) : Step .passed (.pthreadCreate ca) ret .acceptor
  | freeArgs (cfd : Fd) (ptr : Option Ptr) (r : Unit) :
    Step (.waiting cfd) (.free ptr) r (.waiting cfd)
  | task (cfd : Fd) (got : ℤ × MsgOut) (data : Bytes) (h : requested got = some data) :
    Step (.waiting cfd) (.recvMsg cfd) got (.asked cfd data)
  | noTask (cfd : Fd) (got : ℤ × MsgOut) (h : requested got = none) :
    Step (.waiting cfd) (.recvMsg cfd) got (.leaving cfd)
  | raise (cfd : Fd) (data : Bytes) (r : Unit) :
    Step (.asked cfd data) (.load (.fetchAdd .activeTasks)) r (.starting cfd data)
  | count (cfd : Fd) (data : Bytes) (r : Unit) :
    Step (.starting cfd data) (.load (.fetchAdd .totalTasks)) r (.started cfd data)
  | srcName (cfd : Fd) (data : Bytes) (pid : ℤ) :
    Step (.started cfd data) .getpid pid (.named cfd data pid)
  | binName (cfd : Fd) (data : Bytes) (pid pid' : ℤ) :
    Step (.named cfd data pid) .getpid pid' (.ready ⟨cfd, data, .src pid, .bin pid'⟩)
  | noFile (t : TaskCtx) : Step (.ready t) (.fopen t.src) none (.ending t.cfd)
  | open (t : TaskCtx) (f : FilePtr) : Step (.ready t) (.fopen t.src) (some f) (.opened t f)
  | write (t : TaskCtx) (f : FilePtr) (n : ℕ) :
    Step (.opened t f) (.fwrite t.data f) n (.written t f)
  | flush (t : TaskCtx) (f : FilePtr) (r : Unit) :
    Step (.written t f) (.fclose f) r (.before .compile t)
  | pipe (st : Stage) (t : TaskCtx) (p : PipeRet) :
    Step (.before st t) .pipe p (st.afterPipe t p)
  | fork (st : Stage) (t : TaskCtx) (p : PipeRet) (pid : ℤ) :
    Step (.piped st t p) (.fork (childCode p (t.exec st))) pid (.forked st t p pid)
  | closeWr (st : Stage) (t : TaskCtx) (p : PipeRet) (pid : ℤ) (r : Unit) :
    Step (.forked st t p pid) (.close p.wr) r (.streaming st t p pid)
  | read (st : Stage) (t : TaskCtx) (p : PipeRet) (pid : ℤ) (size : ℕ) (got : RecvRet) :
    Step (.streaming st t p pid) (.read p.rd size) got (afterRead st t p pid got)
  | output (st : Stage) (t : TaskCtx) (p : PipeRet) (pid : ℤ) (buf : Bytes) (ret : ℤ) :
    Step (.chunk st t p pid buf) (.sendMsg t.cfd msgOutput buf) ret
      (if ret < 0 then .lost st t p pid else .streaming st t p pid)
  | kill (st : Stage) (t : TaskCtx) (p : PipeRet) (pid : ℤ) (r : Unit) :
    Step (.lost st t p pid) (.kill pid) r (.drained st t p pid)
  | wait (st : Stage) (t : TaskCtx) (p : PipeRet) (pid : ℤ) (status : ℕ) :
    Step (.drained st t p pid) (.waitpid pid) status (.collected st t p status)
  | closeRd (st : Stage) (t : TaskCtx) (p : PipeRet) (status : ℕ) (r : Unit) :
    Step (.collected st t p status) (.close p.rd) r (st.after t (childExit status))
  | report (st : Stage) (t : TaskCtx) (exit ret : ℤ) :
    Step (.reporting st t exit) (.sendMsg t.cfd msgTaskDone (donePayload exit)) ret
      (.cleaning st t)
  | unlinkFailed (t : TaskCtx) (r : Unit) :
    Step (.cleaning .compile t) (.unlink t.src) r (.ending t.cfd)
  | unlinkSrc (t : TaskCtx) (r : Unit) :
    Step (.cleaning .run t) (.unlink t.src) r (.unlinking t)
  | unlinkBin (t : TaskCtx) (r : Unit) : Step (.unlinking t) (.unlink t.bin) r (.ending t.cfd)
  | lower (cfd : Fd) (r : Unit) :
    Step (.ending cfd) (.load (.fetchSub .activeTasks)) r (.leaving cfd)
  | freePayload (cfd : Fd) (ptr : Option Ptr) (r : Unit) :
    Step (.leaving cfd) (.free ptr) r (.leaving cfd)
  | close (cfd : Fd) (r : Unit) : Step (.leaving cfd) (.close cfd) r .closed

/-- What a thread can do next. -/
theorem step_of_next {q q' : Phase} {c : WorkCall} {r : c.Ret} (h : q.next c r = q')
    (hg : Good q') : Step q c r q' := by
  unfold next at h
  split at h
  · subst h
    exact .freeArg _ _
  · subst h
    exact .accept _ _
  · subst h
    exact .check _
  · subst h
    exact .refuse _ _
  · subst h
    exact .allocate _ _
  · subst h
    exact .create _ _
  · subst h
    exact .freeArgs _ _ _
  · obtain ⟨rfl, h⟩ := eq_of_ite_ne h hg
    split at h
    · rename_i hreq
      subst h
      exact .task _ _ _ hreq
    · rename_i hreq
      subst h
      exact .noTask _ _ hreq
  · subst h
    exact .raise _ _ _
  · subst h
    exact .count _ _ _
  · subst h
    exact .srcName _ _ _
  · subst h
    exact .binName _ _ _ _
  · obtain ⟨rfl, h⟩ := eq_of_ite_ne h hg
    split at h
    · subst h
      exact .noFile _
    · subst h
      exact .open _ _
  · obtain ⟨⟨rfl, rfl⟩, rfl⟩ := eq_of_ite_ne h hg
    exact .write _ _ _
  · obtain ⟨rfl, rfl⟩ := eq_of_ite_ne h hg
    exact .flush _ _ _
  · subst h
    exact .pipe _ _ _
  · obtain ⟨rfl, rfl⟩ := eq_of_ite_ne h hg
    exact .fork _ _ _ _
  · obtain ⟨rfl, rfl⟩ := eq_of_ite_ne h hg
    exact .closeWr _ _ _ _ _
  · obtain ⟨rfl, rfl⟩ := eq_of_ite_ne h hg
    exact .read _ _ _ _ _ _
  · obtain ⟨⟨rfl, rfl, rfl⟩, rfl⟩ := eq_of_ite_ne h hg
    exact .output _ _ _ _ _ _
  · obtain ⟨rfl, rfl⟩ := eq_of_ite_ne h hg
    exact .kill _ _ _ _ _
  · obtain ⟨rfl, rfl⟩ := eq_of_ite_ne h hg
    exact .wait _ _ _ _ _
  · obtain ⟨rfl, rfl⟩ := eq_of_ite_ne h hg
    exact .closeRd _ _ _ _ _
  · obtain ⟨⟨rfl, rfl, rfl⟩, rfl⟩ := eq_of_ite_ne h hg
    exact .report _ _ _ _
  · rename_i st t path r
    obtain ⟨rfl, hst⟩ := eq_of_ite_ne h hg
    cases st with
    | compile =>
      subst hst
      exact .unlinkFailed _ _
    | run =>
      subst hst
      exact .unlinkSrc _ _
  · obtain ⟨rfl, rfl⟩ := eq_of_ite_ne h hg
    exact .unlinkBin _ _
  · subst h
    exact .lower _ _
  · subst h
    exact .freePayload _ _ _
  · obtain ⟨rfl, rfl⟩ := eq_of_ite_ne h hg
    exact .close _ _
  · exact absurd h.symm hg

/-! ### The calls that a phase expects -/

section Expected

variable (st : Stage) (t : TaskCtx) (p : PipeRet) (pid : ℤ)

@[simp] lemma next_recvMsg (cfd : Fd) (got : ℤ × MsgOut) :
    (waiting cfd).next (.recvMsg cfd) got =
      match requested got with
      | some data => .asked cfd data
      | none => .leaving cfd := if_pos rfl

@[simp] lemma next_fopen (file : Option FilePtr) :
    (ready t).next (.fopen t.src) file =
      match file with
      | none => .ending t.cfd
      | some f => .opened t f := by
  cases file with
  | none => exact if_pos rfl
  | some f => exact if_pos rfl

@[simp] lemma next_fwrite (f : FilePtr) (n : ℕ) :
    (opened t f).next (.fwrite t.data f) n = .written t f := if_pos ⟨rfl, rfl⟩

@[simp] lemma next_fclose (f : FilePtr) :
    (written t f).next (.fclose f) () = .before .compile t := if_pos rfl

@[simp] lemma next_fork :
    (piped st t p).next (.fork (childCode p (t.exec st))) pid = .forked st t p pid := if_pos rfl

@[simp] lemma next_closeWr :
    (forked st t p pid).next (.close p.wr) () = .streaming st t p pid := if_pos rfl

@[simp] lemma next_read (size : ℕ) (got : RecvRet) :
    (streaming st t p pid).next (.read p.rd size) got = afterRead st t p pid got := if_pos rfl

@[simp] lemma next_sendOutput (buf : Bytes) (ret : ℤ) :
    (chunk st t p pid buf).next (.sendMsg t.cfd msgOutput buf) ret =
      if ret < 0 then .lost st t p pid else .streaming st t p pid := if_pos ⟨rfl, rfl, rfl⟩

@[simp] lemma next_kill : (lost st t p pid).next (.kill pid) () = .drained st t p pid := if_pos rfl

@[simp] lemma next_waitpid (status : ℕ) :
    (drained st t p pid).next (.waitpid pid) status = .collected st t p status := if_pos rfl

@[simp] lemma next_closeRd (status : ℕ) :
    (collected st t p status).next (.close p.rd) () = st.after t (childExit status) := if_pos rfl

@[simp] lemma next_sendDone (exit ret : ℤ) :
    (reporting st t exit).next (.sendMsg t.cfd msgTaskDone (donePayload exit)) ret =
      .cleaning st t := if_pos ⟨rfl, rfl, rfl⟩

@[simp] lemma next_unlinkSrc :
    (cleaning st t).next (.unlink t.src) () =
      match st with
      | .compile => .ending t.cfd
      | .run => .unlinking t := if_pos rfl

@[simp] lemma next_unlinkBin : (unlinking t).next (.unlink t.bin) () = .ending t.cfd := if_pos rfl

@[simp] lemma next_free (cfd : Fd) (ptr : Option Ptr) :
    (leaving cfd).next (.free ptr) () = .leaving cfd := rfl

@[simp] lemma next_close (cfd : Fd) : (leaving cfd).next (.close cfd) () = .closed := if_pos rfl

end Expected

/-- One call of a thread. -/
lemma always_call {α : Type} {q : Phase} {c : WorkCall} {k : c.Ret → WorkProg α}
    {post : α → Phase → Prop} (hq : Good q) (h : ∀ r, (k r).Always auto Good post (q.next c r)) :
    (Prog.call c k).Always auto Good post q := by
  refine ⟨hq, fun r q' hr => ?_⟩
  cases hr
  exact h r

lemma always_perform {α : Type} {q : Phase} {c : WorkCall} {f : c.Ret → WorkProg α}
    {post : α → Phase → Prop} (hq : Good q) (h : ∀ r, (f r).Always auto Good post (q.next c r)) :
    (Prog.perform c >>= f).Always auto Good post q := always_call hq h

/-! ### A stage -/

lemma always_streamLoop (rounds : ℕ) (st : Stage) (t : TaskCtx) (p : PipeRet) (pid : ℤ) :
    (streamLoop rounds t.cfd p.rd pid).Always auto Good (fun _ q => q = .drained st t p pid)
      (.streaming st t p pid) := by
  have hg : Good (.streaming st t p pid) := nofun
  have hd : Good (.drained st t p pid) := nofun
  induction rounds with
  | zero => exact hg
  | succ rounds ih =>
    apply always_perform hg
    intro got
    rw [next_read]
    cases got with
    | intr => exact ih
    | err => exact ⟨hd, rfl⟩
    | data buf =>
      cases buf with
      | nil => exact ⟨hd, rfl⟩
      | cons b bs =>
        refine always_perform nofun ?_
        intro (ret : ℤ)
        show Prog.Always _ _ _ _
          ((chunk st t p pid (b :: bs)).next (.sendMsg t.cfd msgOutput (b :: bs)) ret)
        rw [next_sendOutput]
        by_cases hret : ret < 0
        · rw [if_pos hret, if_pos hret]
          refine always_call nofun ?_
          intro _
          rw [next_kill]
          exact ⟨hd, rfl⟩
        · rw [if_neg hret, if_neg hret]
          exact ih

lemma always_runStage (rounds : ℕ) (st : Stage) (t : TaskCtx) (p : PipeRet) :
    (runStage rounds t.cfd p (t.exec st)).Always auto Good (fun exit q => q = st.after t exit)
      (.piped st t p) := by
  refine always_perform nofun ?_
  intro pid
  rw [next_fork]
  refine always_perform nofun ?_
  intro _
  rw [next_closeWr]
  refine Prog.Always.bind (Prog.Always.bind ((always_streamLoop rounds st t p pid).mono ?_))
  rintro _ q rfl
  refine always_perform nofun ?_
  intro status
  rw [next_waitpid]
  refine ⟨nofun, ?_⟩
  refine always_perform nofun ?_
  intro _
  rw [next_closeRd]
  refine ⟨?_, rfl⟩
  cases st with
  | compile =>
    rw [Stage.after]
    split
    · exact nofun
    · exact nofun
  | run => exact nofun

/-! ### A task -/

lemma always_ending (cfd : Fd) :
    (WorkCall.doLoad loadTaskDone).Always auto Good (fun _ q => q = .leaving cfd)
      (.ending cfd) := by
  refine always_call nofun ?_
  intro _
  exact ⟨nofun, rfl⟩

lemma always_runBinary (rounds : ℕ) (t : TaskCtx) :
    (runBinary rounds t.cfd t.src t.bin).Always auto Good (fun _ q => q = .leaving t.cfd)
      (.before .run t) := by
  refine always_perform nofun ?_
  intro p
  refine Prog.Always.bind ((always_runStage rounds .run t p).mono ?_)
  rintro exit q rfl
  refine always_perform nofun ?_
  intro ret
  rw [Stage.after, next_sendDone]
  refine always_perform nofun ?_
  intro _
  rw [next_unlinkSrc]
  refine always_perform nofun ?_
  intro _
  rw [next_unlinkBin]
  exact always_ending t.cfd

lemma always_compileAndRun (rounds : ℕ) (t : TaskCtx) :
    (compileAndRun rounds t.cfd t.src t.bin).Always auto Good (fun _ q => q = .leaving t.cfd)
      (.before .compile t) := by
  refine always_perform nofun ?_
  intro (p : PipeRet)
  show Prog.Always _ _ _ _ (Stage.compile.afterPipe t p)
  rw [Stage.afterPipe]
  by_cases hp : p.ret = 0
  · rw [if_pos hp, if_pos hp]
    refine Prog.Always.bind ((always_runStage rounds .compile t p).mono ?_)
    rintro exit q rfl
    rw [Stage.after]
    by_cases he : exit = 0
    · rw [if_pos he, if_neg (not_not.2 he)]
      exact always_runBinary rounds t
    · rw [if_neg he, if_pos he]
      refine always_perform nofun ?_
      intro ret
      rw [next_sendDone]
      refine always_perform nofun ?_
      intro _
      rw [next_unlinkSrc]
      exact always_ending t.cfd
  · rw [if_neg hp, if_neg hp]
    exact always_runBinary rounds t

lemma always_compileAndStream (rounds : ℕ) (cfd : Fd) (name data : Bytes) :
    (compileAndStream rounds cfd name data).Always auto Good (fun _ q => q = .leaving cfd)
      (.asked cfd data) := by
  refine always_call nofun ?_
  intro _
  refine always_call nofun ?_
  intro _
  refine always_perform nofun ?_
  intro pid
  refine always_perform nofun ?_
  intro pid'
  obtain ⟨t, ht⟩ : ∃ t : TaskCtx, t = ⟨cfd, data, .src pid, .bin pid'⟩ := ⟨_, rfl⟩
  have hcfd : cfd = t.cfd := by rw [ht]
  have hdata : data = t.data := by rw [ht]
  have hsrc : TmpPath.src pid = t.src := by rw [ht]
  have hbin : TmpPath.bin pid' = t.bin := by rw [ht]
  show Prog.Always _ _ _ _ (ready ⟨cfd, data, .src pid, .bin pid'⟩)
  rw [← ht, hcfd, hdata, hsrc, hbin]
  refine always_perform nofun ?_
  intro file
  rw [next_fopen]
  cases file with
  | none => exact always_ending t.cfd
  | some f =>
    refine always_perform nofun ?_
    intro n
    rw [next_fwrite]
    refine always_perform nofun ?_
    intro _
    rw [next_fclose]
    exact always_compileAndRun rounds t

/-! ### The threads -/

lemma always_leave (cfd : Fd) (ptr : Option Ptr) :
    (WorkCall.doFree ptr >>= fun _ => WorkCall.doClose cfd).Always auto Good
      (fun _ q => q = .closed) (.leaving cfd) := by
  refine always_perform nofun ?_
  intro _
  refine always_call nofun ?_
  intro _
  exact ⟨by rw [next_free, next_close]; exact nofun, next_close cfd⟩

lemma always_taskFileCase (rounds : ℕ) (cfd : Fd) {ret : ℤ} {out : MsgOut} (hret : ¬ ret < 0)
    (htype : out.type = some msgTaskFile) :
    (taskFileCase (compileAndStream rounds) cfd out).Always auto Good
      (fun _ q => q = .leaving cfd)
      (match requested (ret, out) with
      | some data => .asked cfd data
      | none => .leaving cfd) := by
  have hl : Good (.leaving cfd) := nofun
  rw [requested, if_neg (by simp [hret, htype]), taskFileCase]
  cases out.payload with
  | none =>
    simp only [Option.bind_none]
    by_cases hlen : out.len < 6
    · rw [if_pos hlen]
      exact ⟨hl, rfl⟩
    · rw [if_neg hlen]
      exact ⟨hl, fun r => r.elim⟩
  | some payload =>
    simp only [Option.bind_some]
    cases decodeTaskFile payload.bytes out.len with
    | none => exact ⟨hl, rfl⟩
    | some x =>
      refine Prog.Always.bind ((always_compileAndStream rounds cfd x.1 x.2).mono ?_)
      rintro _ q rfl
      refine always_perform nofun ?_
      intro _
      exact ⟨hl, rfl⟩

/-- Every handler obeys the automaton. -/
theorem always_handleConnection (rounds : ℕ) (ca : ConnArgs) :
    (handleConnection rounds ca).Always auto Good (fun _ q => q = .closed)
      (.waiting ca.client_fd) := by
  refine always_perform nofun ?_
  intro _
  refine always_perform nofun ?_
  rintro ⟨ret, out⟩
  show (if ret < 0 then WorkCall.doClose ca.client_fd else _ : WorkProg Unit).Always _ _ _
    ((waiting ca.client_fd).next (.recvMsg ca.client_fd) (ret, out))
  rw [next_recvMsg]
  by_cases hret : ret < 0
  · rw [if_pos hret, requested, if_pos (.inl hret)]
    refine always_call nofun ?_
    intro _
    exact ⟨by rw [next_close]; exact nofun, next_close _⟩
  · rw [if_neg hret]
    by_cases htype : out.type = some msgTaskFile
    · rw [if_pos htype]
      refine Prog.Always.bind ((always_taskFileCase rounds ca.client_fd hret htype).mono ?_)
      rintro payload q rfl
      exact always_leave ca.client_fd payload
    · rw [if_neg htype, requested, if_pos (.inr htype)]
      exact always_leave ca.client_fd _

lemma always_acceptFrom (rounds : ℕ) (server_fd : Fd) :
    (acceptFrom rounds server_fd).Always auto Good (fun _ q => q = .acceptor) .acceptor := by
  have ha : Good .acceptor := nofun
  induction rounds with
  | zero => exact ha
  | succ rounds ih =>
    refine always_perform nofun ?_
    intro got
    cases got with
    | intr => exact ih
    | err => exact ⟨ha, rfl⟩
    | conn cfd =>
      apply always_call ha
      intro (n : ℕ)
      show (if maxConcurrentTasks ≤ n then _ else _ : WorkProg Unit).Always _ _ _ (afterCheck n)
      rw [afterCheck]
      by_cases hfull : maxConcurrentTasks ≤ n
      · rw [if_pos hfull, if_neg (Nat.not_lt.2 hfull)]
        refine always_perform nofun ?_
        intro _
        exact ih
      · rw [if_neg hfull, if_pos (Nat.lt_of_not_le hfull)]
        refine always_perform nofun ?_
        intro (ptr : Option Ptr)
        cases ptr with
        | none => exact ⟨nofun, fun r => r.elim⟩
        | some ptr =>
          refine always_perform nofun ?_
          intro _
          exact ih

/-- The accept loop obeys the automaton. -/
theorem always_acceptLoop (rounds : ℕ) (arg : Ptr) (server_fd : Fd) :
    (acceptLoop rounds arg server_fd).Always auto Good (fun _ q => q = .acceptor) .acceptor := by
  refine always_perform nofun ?_
  intro _
  exact always_acceptFrom rounds server_fd

/-! ### The worker in a world -/

section Workers

variable {W E : Type} (rounds : ℕ) (call : W → ℕ → (c : WorkCall) → c.Ret → Option W)
  (env : W → E → Option W)

/-- The accept loop and the handlers it starts, in a world that answers their calls by `call` and
changes by itself by `env`. -/
def workers : Conc WorkCall WorkCall.Ret W E where
  call := call
  env := env
  spawn
    | .pthreadCreate ca, (ret : ℤ) => if ret = 0 then some (handleConnection rounds ca) else none
    | _, _ => none

/-- The worker before its first step. -/
def workersStart (arg : Ptr) (server_fd : Fd) (w : W) : Conf WorkCall WorkCall.Ret W where
  threads := [acceptLoop rounds arg server_fd]
  world := w

/-- The phases of the threads that a call starts. -/
def born : (c : WorkCall) → c.Ret → List Phase
  | .pthreadCreate ca, (ret : ℤ) => if ret = 0 then [.waiting ca.client_fd] else []
  | _, _ => []

variable (ok : W → Move WorkCall WorkCall.Ret E → Prop) (inv : List Phase → W → Prop)

/-- The outline of the worker for an invariant of the world and the phases of all threads. -/
def outline
    (hcall : ∀ {qs w i q c r w' q'}, inv qs w → qs[i]? = some q → Step q c r q' →
      ok w (.call i c r) → call w i c r = some w' → inv (qs.set i q' ++ born c r) w')
    (henv : ∀ {qs w e w'}, inv qs w → ok w (.env e) → env w e = some w' → inv qs w') :
    Conc.Outline (workers rounds call env) ok Phase where
  auto := auto
  good := Good
  fin := fun q => q = .acceptor ∨ q = .closed
  fresh
    | .pthreadCreate ca, _ => .waiting ca.client_fd
    | _, _ => .bad
  inv := inv
  spawned := by
    intro c r p hs
    cases c with
    | pthreadCreate ca =>
      simp only [workers] at hs
      split at hs
      · cases hs
        exact (always_handleConnection rounds ca).mono fun _ _ hq => .inr hq
      · cases hs
    | _ => cases hs
  call := by
    intro qs w i q c r w' hinv hq _ hok hw
    refine ⟨q.next c r, rfl, fun hgood => ?_⟩
    have hnext := hcall hinv hq (step_of_next rfl hgood) hok hw
    cases c with
    | pthreadCreate ca =>
      simp only [workers, born] at hnext ⊢
      split
      · rename_i hr
        rwa [if_pos hr] at hnext
      · rename_i hr
        rwa [if_neg hr] at hnext
    | _ => exact hnext
  env := fun hinv hok hw => henv hinv hok hw

variable {rounds call env ok inv}

lemma holds_start (arg : Ptr) (server_fd : Fd) {w : W} (h : inv [.acceptor] w) {hcall henv} :
    (outline rounds call env ok inv hcall henv).Holds (workersStart rounds arg server_fd w)
      [.acceptor] := by
  refine ⟨.cons ?_ .nil, h⟩
  exact (always_acceptLoop rounds arg server_fd).mono fun _ _ hq => .inl hq

/-- The phase of a thread. -/
lemma of_thread {threads : List (WorkProg Unit)} {qs : List Phase} {post : Unit → Phase → Prop}
    (h : List.Forall₂ (fun p q => p.Always auto Good post q) threads qs) {i : ℕ} {p : WorkProg Unit}
    (hp : threads[i]? = some p) : ∃ q, qs[i]? = some q ∧ p.Always auto Good post q := by
  obtain ⟨hlen, hall⟩ := List.forall₂_iff_get.1 h
  obtain ⟨hi, hget⟩ := List.getElem?_eq_some_iff.1 hp
  have hiq : i < qs.length := hlen ▸ hi
  refine ⟨qs[i], List.getElem?_eq_getElem _, ?_⟩
  have := hall i hi hiq
  rwa [List.get_eq_getElem, hget] at this

end Workers

/-! ### The phases after a call -/

section Lookup

variable {qs : List Phase} {i : ℕ} {q q' : Phase} {c : WorkCall} {r : c.Ret}

lemma mem_born {p : Phase} (hp : p ∈ born c r) : ∃ cfd, p = .waiting cfd := by
  cases c with
  | pthreadCreate ca =>
    simp only [born] at hp
    split at hp
    · exact ⟨_, List.mem_singleton.1 hp⟩
    · cases hp
  | _ => cases hp

lemma length_born_le : (born c r).length ≤ 1 := by
  cases c with
  | pthreadCreate ca =>
    simp only [born]
    split
    · exact le_rfl
    · exact Nat.zero_le _
  | _ => exact Nat.zero_le _

/-- A thread after a call is the caller, another thread, or the one it started. -/
lemma getElem?_call (hq : qs[i]? = some q) {j : ℕ} {p : Phase}
    (hp : (qs.set i q' ++ born c r)[j]? = some p) :
    (j = i ∧ p = q') ∨ (j ≠ i ∧ qs[j]? = some p) ∨ (j = qs.length ∧ p ∈ born c r) := by
  have hi := (List.getElem?_eq_some_iff.1 hq).1
  rcases lt_or_ge j qs.length with hj | hj
  · rw [List.getElem?_append_left (by simpa using hj), List.getElem?_set] at hp
    by_cases hij : i = j
    · rw [if_pos hij, if_pos hi] at hp
      exact .inl ⟨hij.symm, (Option.some.inj hp).symm⟩
    · rw [if_neg hij] at hp
      exact .inr (.inl ⟨Ne.symm hij, hp⟩)
  · rw [List.getElem?_append_right (by simpa using hj), List.length_set] at hp
    have hlt := (List.getElem?_eq_some_iff.1 hp).1
    have hle : (born c r).length ≤ 1 := length_born_le
    refine .inr (.inr ⟨by omega, List.mem_of_getElem? hp⟩)

/-- What holds of all threads after a call: it is to be shown for the caller, for the others, and
for a new thread. -/
lemma forall_call {P : ℕ → Phase → Prop} (hq : qs[i]? = some q) (hi : P i q')
    (hne : ∀ j p, j ≠ i → qs[j]? = some p → P j p)
    (hnew : qs.length ≠ i → ∀ cfd, P qs.length (.waiting cfd)) :
    ∀ j p, (qs.set i q' ++ born c r)[j]? = some p → P j p := by
  intro j p hp
  rcases getElem?_call hq hp with ⟨rfl, rfl⟩ | ⟨hj, hold⟩ | ⟨rfl, hborn⟩
  · exact hi
  · exact hne j p hj hold
  · obtain ⟨cfd, rfl⟩ := mem_born hborn
    exact hnew (List.getElem?_eq_some_iff.1 hq).1.ne' cfd

lemma getElem?_call_self (hq : qs[i]? = some q) :
    (qs.set i q' ++ born c r)[i]? = some q' := by
  have hi := (List.getElem?_eq_some_iff.1 hq).1
  rw [List.getElem?_append_left (by simpa using hi), List.getElem?_set, if_pos rfl, if_pos hi]

lemma getElem?_call_ne {j : ℕ} {p : Phase} (hj : j ≠ i) (hp : qs[j]? = some p) :
    (qs.set i q' ++ born c r)[j]? = some p := by
  apply getElem?_append_of_some
  rw [List.getElem?_set, if_neg (Ne.symm hj), hp]

/-- The phases of the accept loop. -/
def Accepts (q : Phase) : Prop := q = .acceptor ∨ q = .passed

lemma accepts_afterCheck (n : ℕ) : (afterCheck n).Accepts :=
  afterCheck_cases n (fun _ => .inr rfl) (.inl rfl)

/-- The accept loop stays the accept loop. -/
lemma Step.accepts (h : Step q c r q') (hq : q.Accepts) : q'.Accepts := by
  rcases hq with rfl | rfl
  · cases h with
    | check n => exact accepts_afterCheck n
    | _ => exact .inl rfl
  · cases h with
    | allocate size ptr => exact .inr rfl
    | create ca ret => exact .inl rfl

/-- The first thread stays in the accept loop. -/
lemma first_call (h : ∃ p, qs[0]? = some p ∧ p.Accepts) (hq : qs[i]? = some q)
    (ha : q.Accepts → q'.Accepts) : ∃ p, (qs.set i q' ++ born c r)[0]? = some p ∧ p.Accepts := by
  obtain ⟨p, hp, hacc⟩ := h
  by_cases hi : i = 0
  · subst hi
    obtain rfl := Option.some.inj (hp.symm.trans hq)
    exact ⟨q', getElem?_call_self hq, ha hacc⟩
  · exact ⟨p, getElem?_call_ne (Ne.symm hi) hp, hacc⟩

end Lookup

/-! ### Pieces of a schedule -/

section Moves

variable {E : Type}

/-- The accept loop accepts a connection and creates the handler `k`. -/
def admitMoves (k : ℕ) : List (Move WorkCall WorkCall.Ret E) :=
  [.call 0 (.accept 3) (.conn (10 + k)), .call 0 (.load (.atomicLoad .activeTasks)) (0 : ℕ),
    .call 0 (.malloc connArgsSize) (some k), .call 0 (.pthreadCreate ⟨k, 10 + k⟩) (0 : ℤ)]

/-- The handler `k` receives a task with a file of one byte and makes the first increment. -/
def raiseMoves (k : ℕ) (b : UInt8) : List (Move WorkCall WorkCall.Ret E) :=
  [.call k (.free (some k)) (), .call k (.recvMsg (10 + k)) (0, {
      type := some msgTaskFile
      payload := some ⟨100, [0, 1, 97, 0, 0, 0, 1, b, 0]⟩
      len := 8 }),
    .call k (.load (.fetchAdd .activeTasks)) ()]

/-- The handler `k` writes its file and makes the pipe of the first stage. -/
def pipeMoves (k : ℕ) (b : UInt8) (p : PipeRet) : List (Move WorkCall WorkCall.Ret E) :=
  [.call k (.load (.fetchAdd .totalTasks)) (), .call k .getpid (7 : ℤ), .call k .getpid (7 : ℤ),
    .call k (.fopen (.src 7)) (some k), .call k (.fwrite [b] k) (1 : ℕ), .call k (.fclose k) (),
    .call k .pipe p]

/-- The handler `k` forks the child of a stage and reads its output to the end. -/
def forkMoves (k : ℕ) (p : PipeRet) (exec : ChildCall) (pid : ℤ) :
    List (Move WorkCall WorkCall.Ret E) :=
  [.call k (.fork (childCode p exec)) pid, .call k (.close p.wr) (),
    .call k (.read p.rd outputBufSize) (.data [])]

/-- The handler `k` waits for `pid`, gets an exit code and reports it. -/
def reportMoves (k : ℕ) (pid : ℤ) (rd : Fd) (code : UInt8) : List (Move WorkCall WorkCall.Ret E) :=
  [.call k (.waitpid pid) (256 * code.toNat : ℕ), .call k (.close rd) (),
    .call k (.sendMsg (10 + k) msgTaskDone [0, 0, 0, code]) (0 : ℤ)]

/-- The handler `k`, whose compiler failed, ends. -/
def leaveMoves (k : ℕ) : List (Move WorkCall WorkCall.Ret E) :=
  [.call k (.unlink (.src 7)) (), .call k (.load (.fetchSub .activeTasks)) (),
    .call k (.free (some 100)) (), .call k (.free none) (), .call k (.close (10 + k)) ()]

end Moves
end Phase
end P2PNode
