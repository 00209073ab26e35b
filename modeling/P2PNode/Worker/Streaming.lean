import P2PNode.Worker.Host

/-!
# One stage of a task

What `stream_and_wait` and the stages of `compile_and_stream` do on the host of a lone handler.
-/

namespace P2PNode

open Effect

variable {T : Tools}

namespace Host

lemma handle_read_intr {h : Host} {p : PipeEnd} {es : List RecvEvent} (hp : h.pipeEnd = some p)
    (hr : h.reads = .intr :: es) (size : ℕ) :
    handle T (.read p.rd size) h = some (.intr, { h with reads := es }) := by
  simp [handle, readFd, hp, hr, Option.filter]

lemma handle_read_deliver {h : Host} {p : PipeEnd} {n : ℕ} {es : List RecvEvent}
    (hp : h.pipeEnd = some p) (hw : p.wrOpen = false) (hr : h.reads = .deliver n :: es) (size : ℕ) :
    handle T (.read p.rd size) h = some (.data (p.pending.take (min (n + 1) size)), { h with
      reads := es
      pipeEnd := some { p with pending := p.pending.drop (min (n + 1) size) } }) := by
  simp [handle, readFd, hp, hr, hw, Option.filter]

lemma handle_read_nil {h : Host} {p : PipeEnd} (hp : h.pipeEnd = some p) (hr : h.reads = [])
    (size : ℕ) : handle T (.read p.rd size) h = none := by
  simp [handle, readFd, hp, hr, Option.filter]

lemma handle_sendMsg {h : Host} (ho : h.connOpen = true) (type : MsgType) (payload : Bytes) :
    handle T (.sendMsg h.cfd type payload) h = h.transmit type payload := by
  simp [handle, ho]

end Host

/-! ### Forwarding the output -/

/-- The frames of one output, cut in chunks. -/
def outputFrames (chunks : List Bytes) : Bytes := chunks.flatMap (frame msgOutput)

/-- The host after the whole output of a child was forwarded in the given chunks. -/
structure Host.Forwarded (p : PipeEnd) (chunks : List Bytes) (h h' : Host) : Prop where
  chunk : ∀ c ∈ chunks, c ≠ [] ∧ c.length ≤ outputBufSize
  all : chunks.flatten = p.pending
  conn : h.conn.Sent (outputFrames chunks) h'.conn
  reads : h'.reads <:+ h.reads
  moves : h.reads.countP RecvEvent.moves ≤ h'.reads.countP RecvEvent.moves + p.pending.length + 1
  rest : h' = { h with
    reads := h'.reads
    conn := h'.conn
    pipeEnd := some { p with pending := [] }
    sent := h.sent ++ chunks.map fun c => (msgOutput, c) }

/-- The host after one chunk was read from the pipe and sent. -/
def Host.afterChunk (h : Host) (p : PipeEnd) (c : Bytes) (es : List RecvEvent) (conn : Outbound) :
    Host :=
  { h with
    reads := es
    conn := conn
    pipeEnd := some { p with pending := p.pending.drop c.length }
    sent := h.sent ++ [(msgOutput, c)] }

/-- One round of the loop: the next chunk of the output is sent, or the schedule of the connection
ends. -/
lemma run_streamLoop_chunk (rounds : ℕ) (pid : ℤ) {h : Host} {p : PipeEnd} {n : ℕ}
    {es : List RecvEvent} (hp : h.pipeEnd = some p) (hw : p.wrOpen = false)
    (ho : h.connOpen = true) (hc : h.conn.Reliable) (hr : h.reads = .deliver n :: es)
    (hne : p.pending ≠ []) :
    ∃ c, c = p.pending.take c.length ∧ c ≠ [] ∧ c.length ≤ outputBufSize ∧
      ((streamLoop (rounds + 1) h.cfd p.rd pid).run (Host.handle T) h = none ∧
          h.conn.sched.countP SendEvent.moves < (frame msgOutput c).length ∨
        ∃ conn, h.conn.Sent (frame msgOutput c) conn ∧
          (streamLoop (rounds + 1) h.cfd p.rd pid).run (Host.handle T) h =
            (streamLoop rounds h.cfd p.rd pid).run (Host.handle T) (h.afterChunk p c es conn)) := by
  obtain ⟨k, hk⟩ : ∃ k, k = min (n + 1) outputBufSize := ⟨_, rfl⟩
  have hbuf : outputBufSize = 4096 := rfl
  have hlen := List.length_pos_iff.mpr hne
  have hread := Host.handle_read_deliver (T := T) hp hw hr outputBufSize
  rw [← hk] at hread
  obtain ⟨c, hcdef⟩ : ∃ c, c = p.pending.take k := ⟨_, rfl⟩
  have hclen : c.length = min k p.pending.length := by rw [hcdef, List.length_take]
  have hdrop : p.pending.drop k = p.pending.drop c.length := by
    rw [hclen, List.drop_eq_drop_min]
  obtain ⟨b, bs, hb⟩ : ∃ b bs, c = b :: bs :=
    List.exists_cons_of_ne_nil (List.length_pos_iff.mp (by omega))
  have htake : c = p.pending.take c.length := by
    rw [hclen, hcdef, List.take_eq_take_min]
  rw [← hcdef, hdrop] at hread
  refine ⟨c, htake, by rw [hb]; simp, by omega, ?_⟩
  have hsend (g : Host) (hg : g.cfd = h.cfd) (hgo : g.connOpen = true) :
      Host.handle T (.sendMsg h.cfd msgOutput c) g = g.transmit msgOutput c := by
    rw [← hg, Host.handle_sendMsg hgo]
  rcases h.conn.transmit_cases hc h.cfd msgOutput c with ⟨ht, hst⟩ | ⟨conn, ht, hsent⟩
  · refine .inl ⟨?_, hst⟩
    rw [hb] at hread hsend ht
    simp [streamLoop, WorkCall.doRead, WorkCall.doSendMsg, hread, hsend, ho, Host.transmit, ht]
  · refine .inr ⟨conn, hsent, ?_⟩
    rw [hb] at hread hsend ht ⊢
    simp [streamLoop, WorkCall.doRead, WorkCall.doSendMsg, hread, hsend, ho, Host.transmit, ht,
      Host.afterChunk]

/-- The loop of `stream_and_wait` forwards exactly the output of the child, unless one of the
schedules ends first. -/
lemma run_streamLoop (rounds : ℕ) (pid : ℤ) {h : Host} {p : PipeEnd} (hp : h.pipeEnd = some p)
    (hw : p.wrOpen = false) (ho : h.connOpen = true) (hc : h.conn.Reliable) :
    ((streamLoop rounds h.cfd p.rd pid).run (Host.handle T) h = none ∧
        (h.reads.length < rounds → h.reads.countP RecvEvent.moves ≤ p.pending.length ∨
          h.conn.sched.countP SendEvent.moves < 9 * p.pending.length)) ∨
      ∃ chunks h', (streamLoop rounds h.cfd p.rd pid).run (Host.handle T) h = some ((), h') ∧
        h.Forwarded p chunks h' := by
  induction rounds generalizing h p with
  | zero => exact .inl ⟨rfl, fun h => absurd h (Nat.not_lt_zero _)⟩
  | succ rounds ih =>
    cases hr : h.reads with
    | nil =>
      refine .inl ⟨?_, fun _ => .inl (by simp)⟩
      simp [streamLoop, WorkCall.doRead, Host.handle_read_nil hp hr]
    | cons e es =>
      cases e with
      | intr =>
        have hrun : (streamLoop (rounds + 1) h.cfd p.rd pid).run (Host.handle T) h =
            (streamLoop rounds h.cfd p.rd pid).run (Host.handle T) { h with reads := es } := by
          simp [streamLoop, WorkCall.doRead, Host.handle_read_intr hp hr]
        rw [hrun]
        rcases ih (h := { h with reads := es }) hp hw ho hc with ⟨hn, hst⟩ | ⟨chunks, h', hs, hf⟩
        · refine .inl ⟨hn, fun hlt => ?_⟩
          simpa [RecvEvent.moves] using hst (by simpa using hlt)
        · refine .inr ⟨chunks, h', hs, hf.chunk, hf.all, hf.conn, ?_, ?_, hf.rest⟩
          · exact hr ▸ hf.reads.trans (List.suffix_cons _ _)
          · simpa [hr, RecvEvent.moves] using hf.moves
      | deliver n =>
        by_cases hnil : p.pending = []
        · -- the end of the output
          have hread := Host.handle_read_deliver (T := T) hp hw hr outputBufSize
          refine .inr ⟨[], { h with reads := es, pipeEnd := some { p with pending := [] } }, ?_, ?_⟩
          · simp [streamLoop, WorkCall.doRead, hread, hnil]
          · refine ⟨by simp, by simp [hnil], .refl _, hr ▸ List.suffix_cons _ _, ?_, by simp⟩
            simp only [hr, List.countP_cons]
            split <;> omega
        · obtain ⟨c, htake, hne, hbuf, hstep⟩ :=
            run_streamLoop_chunk (T := T) rounds pid hp hw ho hc hr hnil
          have hpos := List.length_pos_iff.mpr hne
          have hsplit : c.length + (p.pending.drop c.length).length = p.pending.length := by
            rw [← List.length_append.symm.trans (congrArg List.length
              (List.take_append_drop c.length p.pending)), ← htake]
          rcases hstep with ⟨hn, hst⟩ | ⟨conn, hsent, hstep⟩
          · refine .inl ⟨hn, fun _ => .inr ?_⟩
            rw [length_frame, headerSize] at hst
            omega
          · have hmoves := hsent.moves
            rw [length_frame, headerSize] at hmoves
            rw [hstep]
            rcases ih (h := h.afterChunk p c es conn) rfl hw ho (hsent.reliable hc) with
              ⟨hn, hst⟩ | ⟨chunks, h', hs, hf⟩
            · refine .inl ⟨hn, fun hlt => ?_⟩
              have := hst (by simpa [Host.afterChunk] using hlt)
              simp only [Host.afterChunk] at this
              simp only [List.countP_cons, RecvEvent.moves, if_true]
              omega
            · refine .inr ⟨c :: chunks, h', hs, ?_, ?_, hsent.trans hf.conn,
                hr ▸ hf.reads.trans (List.suffix_cons _ _), ?_, ?_⟩
              · intro d hd
                rcases List.mem_cons.mp hd with rfl | hd
                · exact ⟨hne, hbuf⟩
                · exact hf.chunk d hd
              · rw [List.flatten_cons, hf.all]
                nth_rewrite 1 [htake]
                exact List.take_append_drop _ _
              · have := hf.moves
                simp only [Host.afterChunk] at this
                simp only [hr, List.countP_cons, RecvEvent.moves, if_true]
                omega
              · rw [hf.rest]
                simp [Host.afterChunk]

/-! ### The child of a stage -/

/-- What a stage executes: the job, how it ends, its output, and the temp files behind it. -/
structure Launch where
  job : Job
  status : WaitStatus
  out : Bytes
  files : TmpPath → Option Bytes

namespace Host

/-- The gcc run of the compile stage. -/
def launchGcc (T : Tools) (h : Host) (cmd : GccCmd) : Launch :=
  let r := T.gcc (h.files cmd.src)
  { job := .gcc (h.files cmd.src) r.bin
    status := r.status
    out := r.out
    files := if r.bin.isSome then Function.update h.files cmd.out r.bin else h.files }

/-- The run of the binary; the child exits with 127 when there is none. -/
def launchBin (T : Tools) (h : Host) (path : TmpPath) : Launch :=
  match h.files path with
  | none       => { job := .none, status := .exited 127, out := [], files := h.files }
  | some image =>
    { job := .run image
      status := (T.run image).status
      out := (T.run image).out
      files := h.files }

/-- The process that the next successful `fork` makes. -/
def newProc (h : Host) (L : Launch) : Proc :=
  { pid := h.pid + h.procs.length + 1, job := L.job, status := L.status }

/-- The host after a stage was launched with its output going to `wr`. -/
def launched (h : Host) (wr : Fd) (L : Launch) : Host :=
  { h.emit wr L.out with files := L.files, procs := h.procs ++ [h.newProc L] }

lemma emit_nil (h : Host) (wr : Fd) : h.emit wr [] = h := by
  have hid : (fun p : PipeEnd => if p.wr = wr then { p with pending := p.pending ++ [] } else p) =
      id := by
    funext p
    simp
  rw [emit, hid, Option.map_id, id]

lemma child_execSh (h : Host) (pipefd : PipeRet) (cmd : GccCmd) :
    child T (childCode pipefd (.execSh cmd)) 1 h = h.launched pipefd.wr (h.launchGcc T cmd) := by
  cases hb : (T.gcc (h.files cmd.src)).bin <;>
    simp [child, childCode, emit, start, setFile, launched, launchGcc, newProc, hb]

lemma child_execBin (h : Host) (pipefd : PipeRet) (path : TmpPath) :
    child T (childCode pipefd (.execBin path)) 1 h =
      h.launched pipefd.wr (h.launchBin T path) := by
  cases hb : h.files path with
  | none =>
    simp [child, childCode, launched, launchBin, emit_nil, start, newProc, hb]
  | some image =>
    simp [child, childCode, emit, start, launched, launchBin, newProc, hb]

/-! ### Calls that touch little -/

lemma readFd_eq {h g : Host} {fd : Fd} {size : ℕ} {r : RecvRet}
    (hr : h.readFd fd size = some (r, g)) :
    ∃ reads stray pipeEnd, g = { h with reads := reads, stray := stray, pipeEnd := pipeEnd } := by
  simp only [readFd] at hr
  split at hr
  · split at hr
    · exact absurd hr (by simp)
    · simp only [Option.some.injEq, Prod.mk.injEq] at hr
      exact ⟨_, _, _, hr.2.symm⟩
  · split at hr
    · exact absurd hr (by simp)
    · simp only [Option.some.injEq, Prod.mk.injEq] at hr
      exact ⟨_, _, _, hr.2.symm⟩
    · split at hr
      · exact absurd hr (by simp)
      · simp only [Option.some.injEq, Prod.mk.injEq] at hr
        exact ⟨_, _, _, hr.2.symm⟩

/-- A call of `send_msg` leaves everything but the connection alone. -/
lemma handle_sendMsg_eq {h g : Host} {fd : Fd} {type : MsgType} {payload : Bytes} {r : ℤ}
    (hs : handle T (.sendMsg fd type payload) h = some (r, g)) :
    ∃ conn, g = { h with
      conn := conn
      sent := if r = 0 then h.sent ++ [(type, payload)] else h.sent } := by
  simp only [handle] at hs
  split at hs
  · obtain ⟨⟨r', conn⟩, -, hx⟩ := Option.map_eq_some_iff.mp hs
    simp only [Prod.mk.injEq] at hx
    obtain ⟨rfl, rfl⟩ := hx
    exact ⟨conn, rfl⟩
  · simp only [Option.some.injEq, Prod.mk.injEq] at hs
    obtain ⟨rfl, rfl⟩ := hs
    exact ⟨h.conn, by simp⟩

lemma handle_kill_eq {h g : Host} {pid : ℤ} (hk : handle T (.kill pid) h = some ((), g)) :
    ∃ kills, g = { h with kills := kills } ∨ g = { h.killed pid with kills := kills } := by
  simp only [handle] at hk
  split at hk
  · exact absurd hk (by simp)
  · simp only [Option.some.injEq, Prod.mk.injEq, true_and] at hk
    exact ⟨_, .inl hk.symm⟩
  · simp only [Option.some.injEq, Prod.mk.injEq, true_and] at hk
    exact ⟨_, .inr hk.symm⟩

/-- The host after the loop of `stream_and_wait`, whatever happened to the connection: only output
was sent, and the child may have been killed. -/
structure Streamed (pid : ℤ) (h h' : Host) : Prop where
  own : h'.pid = h.pid
  files : h'.files = h.files
  forks : h'.forks = h.forks
  waits : h'.waits = h.waits
  pipes : h'.pipes = h.pipes
  procs : h'.procs = h.procs ∨ h'.procs = (h.killed pid).procs
  sent : ∃ chunks : List Bytes, h'.sent = h.sent ++ chunks.map fun c => (msgOutput, c)

lemma Streamed.refl (pid : ℤ) (h : Host) : h.Streamed pid h :=
  ⟨rfl, rfl, rfl, rfl, rfl, .inl rfl, [], by simp⟩

lemma streamLoop_streamed {rounds : ℕ} {client_fd pipe_fd : Fd} {pid : ℤ} {h h' : Host}
    (hrun : (streamLoop rounds client_fd pipe_fd pid).run (handle T) h = some ((), h')) :
    h.Streamed pid h' := by
  induction rounds generalizing h with
  | zero => exact absurd hrun (by simp [streamLoop])
  | succ rounds ih =>
    simp only [streamLoop, WorkCall.doRead, Prog.perform_bind, Prog.run_call] at hrun
    obtain ⟨⟨r, g⟩, hr, hrun⟩ := Option.bind_eq_some_iff.mp hrun
    obtain ⟨reads, stray, pipeEnd, rfl⟩ := readFd_eq hr
    cases r with
    | intr =>
      obtain ⟨h₁, h₂, h₃, h₄, h₅, h₆, h₇⟩ := ih hrun
      exact ⟨h₁, h₂, h₃, h₄, h₅, h₆, h₇⟩
    | err =>
      simp only [Prog.pure_def, Prog.run_ret, Option.some.injEq, Prod.mk.injEq, true_and] at hrun
      exact hrun ▸ ⟨rfl, rfl, rfl, rfl, rfl, .inl rfl, [], by simp⟩
    | data bs =>
      cases bs with
      | nil =>
        simp only [Prog.pure_def, Prog.run_ret, Option.some.injEq, Prod.mk.injEq, true_and] at hrun
        exact hrun ▸ ⟨rfl, rfl, rfl, rfl, rfl, .inl rfl, [], by simp⟩
      | cons b bs =>
        simp only [WorkCall.doSendMsg, Prog.perform_bind, Prog.run_call] at hrun
        obtain ⟨⟨ret, g⟩, hs, hrun⟩ := Option.bind_eq_some_iff.mp hrun
        obtain ⟨conn, rfl⟩ := handle_sendMsg_eq hs
        by_cases hret : ret < 0
        · -- the client is gone: the child is killed
          simp only [hret, if_true, WorkCall.doKill, Prog.run_perform] at hrun
          have hne : ret ≠ 0 := hret.ne
          obtain ⟨kills, rfl | rfl⟩ := handle_kill_eq hrun
          · exact ⟨rfl, rfl, rfl, rfl, rfl, .inl rfl, [], by simp [hne]⟩
          · exact ⟨rfl, rfl, rfl, rfl, rfl, .inr rfl, [], by simp [killed, hne]⟩
        · simp only [hret, if_false] at hrun
          obtain ⟨h₁, h₂, h₃, h₄, h₅, h₆, chunks, h₇⟩ := ih hrun
          refine ⟨h₁, h₂, h₃, h₄, h₅, h₆, ?_⟩
          by_cases h0 : ret = 0
          · exact ⟨(b :: bs) :: chunks, by rw [h₇]; simp [h0]⟩
          · exact ⟨chunks, by rw [h₇]; simp [h0]⟩

/-! ### Waiting for the child -/

lemma waitFor_append {h : Host} {ps : List Proc} {q : Proc} (hp : h.procs = ps ++ [q])
    (hre : ∀ p ∈ ps, p.reaped = true) (hq : q.reaped = false) : h.waitFor q.pid = some q := by
  have hnone : ps.find? (fun p => !p.reaped && (q.pid = -1 || p.pid = q.pid)) = none := by
    rw [List.find?_eq_none]
    intro p hp
    simp [hre p hp]
  rw [waitFor, hp, List.find?_append, hnone]
  simp [hq]

lemma reap_append {h : Host} {ps : List Proc} {q : Proc} (hp : h.procs = ps ++ [q])
    (hre : ∀ p ∈ ps, p.reaped = true) :
    h.reap q.pid = { h with procs := ps ++ [{ q with reaped := true }] } := by
  have hps : ps.map (fun p => if p.pid = q.pid then { p with reaped := true } else p) = ps := by
    refine (List.map_congr_left fun p hp => ?_).trans ps.map_id
    have := hre p hp
    split <;> simp [← this]
  rw [reap, hp, List.map_append, hps]
  simp

lemma handle_waitpid {h : Host} {ps : List Proc} {q : Proc} {w : ℕ} {ws : List WaitEvent}
    (hw : h.waits = ⟨true, w⟩ :: ws) (hp : h.procs = ps ++ [q])
    (hre : ∀ p ∈ ps, p.reaped = true) (hq : q.reaped = false) :
    handle T (.waitpid q.pid) h = some (q.status.word, { h with
      procs := ps ++ [{ q with reaped := true }]
      waits := ws }) := by
  simp [handle, hw, waitFor_append hp hre hq, reap_append hp hre]

lemma killed_append {h : Host} {ps : List Proc} {q : Proc} (hp : h.procs = ps ++ [q])
    (hre : ∀ p ∈ ps, p.reaped = true) (hq : q.reaped = false) :
    (h.killed q.pid).procs = ps ++ [{ q with status := .signaled sigkill false }] := by
  have hps : ps.map (fun p => if !p.reaped && (q.pid = -1 || p.pid = q.pid) then
      { p with status := .signaled sigkill false } else p) = ps := by
    refine (List.map_congr_left fun p hp => ?_).trans ps.map_id
    simp [hre p hp]
  simp only [killed, hp, List.map_append, hps]
  simp [hq]

lemma closeFd_eq (h : Host) (fd : Fd) :
    ∃ connOpen pipeEnd, h.closeFd fd = { h with connOpen := connOpen, pipeEnd := pipeEnd } := by
  unfold closeFd
  split
  · exact ⟨_, _, rfl⟩
  · split
    · exact ⟨_, _, rfl⟩
    · split
      · exact ⟨_, _, rfl⟩
      · split
        · exact ⟨_, _, rfl⟩
        · exact ⟨_, _, rfl⟩

/-- `exec` makes the child of a stage become what `L` describes, as long as the files stay. -/
def Launches (T : Tools) (h : Host) (exec : ChildCall) (L : Launch) : Prop :=
  ∀ (g : Host) (pipefd : PipeRet), g.files = h.files →
    child T (childCode pipefd exec) 1 g = g.launched pipefd.wr L

lemma launches_execSh (h : Host) (cmd : GccCmd) :
    h.Launches T (.execSh cmd) (h.launchGcc T cmd) := by
  intro g pipefd hg
  rw [child_execSh, launchGcc, launchGcc, hg]

lemma launches_execBin (h : Host) (path : TmpPath) :
    h.Launches T (.execBin path) (h.launchBin T path) := by
  intro g pipefd hg
  rw [child_execBin, launchBin, launchBin, hg]

/-- The host after a stage whose process ended with `st`. -/
structure StageDone (L : Launch) (st : WaitStatus) (h h' : Host) : Prop where
  own : h'.pid = h.pid
  files : h'.files = L.files
  pipes : h'.pipes = h.pipes
  forks : h'.forks = h.forks.tail
  waits : h'.waits = h.waits.tail
  procs : h'.procs = h.procs ++ [{ h.newProc L with status := st, reaped := true }]
  sent : ∃ chunks : List Bytes, h'.sent = h.sent ++ chunks.map fun c => (msgOutput, c)

/-- A stage whose `fork` and `waitpid` succeed reports how its own process ended: as the program
makes it end, or by the signal of the handler itself. -/
lemma runStage_done {rounds : ℕ} {client_fd : Fd} {pipefd : PipeRet} {exec : ChildCall}
    {h h' : Host} {L : Launch} {e w : _} {fs : List Bool} {ws : List WaitEvent}
    (hL : h.Launches T exec L)
    (hf : h.forks = true :: fs) (hw : h.waits = ⟨true, w⟩ :: ws)
    (hre : ∀ p ∈ h.procs, p.reaped = true)
    (hrun : (runStage rounds client_fd pipefd exec).run (handle T) h = some (e, h')) :
    ∃ st, (st = L.status ∨ st = .signaled sigkill false) ∧ e = st.mapped ∧ h.StageDone L st h' := by
  have hfork : handle T (.fork (childCode pipefd exec)) h =
      some ((h.newProc L).pid, { h with forks := fs }.launched pipefd.wr L) := by
    simp only [handle, hf]
    rw [hL { h with forks := fs } pipefd rfl]
    rfl
  simp only [runStage, WorkCall.doFork, Prog.perform_bind, Prog.run_call, hfork, Option.bind_some,
    WorkCall.doClose, handle_close] at hrun
  obtain ⟨co, pe, hclose⟩ := closeFd_eq ({ h with forks := fs }.launched pipefd.wr L) pipefd.wr
  rw [hclose, streamAndWait, Prog.bind_assoc, Prog.run_bind] at hrun
  obtain ⟨⟨⟨⟩, g⟩, hs, hrun⟩ := Option.bind_eq_some_iff.mp hrun
  obtain ⟨h₁, h₂, h₃, h₄, h₅, h₆, chunks, h₇⟩ := streamLoop_streamed hs
  have hlast : (h.newProc L).reaped = false := rfl
  -- the process as it is when it is waited for
  obtain ⟨st, hst, hprocs⟩ : ∃ st, (st = L.status ∨ st = .signaled sigkill false) ∧
      g.procs = h.procs ++ [{ h.newProc L with status := st }] := by
    rcases h₆ with h₆ | h₆
    · exact ⟨L.status, .inl rfl, h₆⟩
    · exact ⟨_, .inr rfl, h₆.trans (killed_append rfl hre hlast)⟩
  have hwait := handle_waitpid (T := T) (h₄.trans hw) hprocs hre hlast
  simp only [WorkCall.doWaitpid, Prog.perform_bind, Prog.call_bind, Prog.run_call, hwait,
    Option.bind_some, Prog.pure_def, Prog.ret_bind, childExit_word, handle_close, Prog.run_ret,
    Option.some.injEq, Prod.mk.injEq] at hrun
  obtain ⟨rfl, rfl⟩ := hrun
  refine ⟨st, hst, rfl, ?_⟩
  obtain ⟨co', pe', hclose'⟩ := closeFd_eq { g with
    procs := h.procs ++ [{ h.newProc L with status := st, reaped := true }], waits := ws } pipefd.rd
  rw [hclose']
  refine ⟨h₁, h₂, h₅, ?_, ?_, rfl, chunks, h₇⟩
  · rw [hf]
    exact h₃
  · rw [hw]
    rfl

/-! ### The steps before the stages -/

/-- The host after the source file was written, up to `n` bytes of it. -/
def sourceWritten (h : Host) (data : Bytes) (n : ℕ) (fo : List Bool) (fw : List ℕ) : Host :=
  { h.setFile (.src h.pid) (some (data.take n)) with fopens := fo, fwrites := fw }

lemma run_compileAndStream (rounds : ℕ) (client_fd : Fd) (name data : Bytes) {h : Host} {n : ℕ}
    {fo : List Bool} {fw : List ℕ} (hfo : h.fopens = true :: fo) (hfw : h.fwrites = n :: fw)
    (hs : h.stream = none) :
    (compileAndStream rounds client_fd name data).run (handle T) h =
      (compileAndRun rounds client_fd (.src h.pid) (.bin h.pid)).run (handle T)
        (h.sourceWritten data n fo fw) := by
  -- the host after the `fopen`
  obtain ⟨h₁, hh₁⟩ : ∃ h₁ : Host, h₁ = { h.setFile (.src h.pid) (some []) with
    fopens := fo, stream := some (.src h.pid) } := ⟨_, rfl⟩
  have hopen : handle T (.fopen (.src h.pid)) h = some (some 1, h₁) := by
    simp [handle, hfo, hh₁]
  have hwrite : handle T (.fwrite data 1) h₁ = some ((data.take n).length,
      { h.sourceWritten data n fo fw with stream := some (.src h.pid) }) := by
    simp [handle, setFile, hfw, sourceWritten, hh₁]
  have hclose : { h.sourceWritten data n fo fw with stream := none } =
      h.sourceWritten data n fo fw := by
    simp [sourceWritten, setFile, hs]
  simp [compileAndStream, loadTaskStart, WorkCall.doLoad, LoadCall.doFetchAdd, WorkCall.doGetpid,
    WorkCall.doFopen, WorkCall.doFwrite, WorkCall.doFclose, hopen, hwrite, hclose]

/-- The host after a call of `pipe`. -/
def piped (h : Host) (es : List PipeEvent) : PipeEvent → Host
  | .ok       => { h with
      pipes := es
      nextFd := h.nextFd + 2
      pipeEnd := some ⟨h.cfd + h.nextFd + 1, h.cfd + h.nextFd + 1 + 1, true, []⟩ }
  | .fail _ _ => { h with pipes := es }

/-- What a call of `pipe` returns. -/
def pipeRet (h : Host) : PipeEvent → PipeRet
  | .ok         => ⟨0, h.cfd + h.nextFd + 1, h.cfd + h.nextFd + 1 + 1⟩
  | .fail rd wr => ⟨-1, rd, wr⟩

lemma handle_pipe {h : Host} {e : PipeEvent} {es : List PipeEvent} (hp : h.pipes = e :: es) :
    handle T .pipe h = some (h.pipeRet e, h.piped es e) := by
  cases e <;> simp [handle, hp, pipeRet, piped]

/-- A stage as a chain of steps. -/
lemma run_runStage (rounds : ℕ) (client_fd : Fd) (pipefd : PipeRet) (exec : ChildCall) (h : Host) :
    (runStage rounds client_fd pipefd exec).run (handle T) h =
      (handle T (.fork (childCode pipefd exec)) h).bind fun x =>
        ((streamLoop rounds client_fd pipefd.rd x.1).run (handle T) (x.2.closeFd pipefd.wr)).bind
          fun y => (handle T (.waitpid x.1) y.2).bind fun z =>
            some (childExit z.1, z.2.closeFd pipefd.rd) := by
  simp [runStage, streamAndWait, WorkCall.doFork, WorkCall.doClose, WorkCall.doWaitpid]

end Host
end P2PNode
