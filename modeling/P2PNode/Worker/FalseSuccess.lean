import P2PNode.Worker.Streaming

/-!
# When the worker reports success

`compile_and_stream` looks at the results of `fopen` and of the first `pipe` only. The outcomes of
the other calls decide whether an exit code 0 sent to the client is the one of the submitted
program.
-/

namespace P2PNode

open Effect

variable {T : Tools}

/-- How the calls of one task end that can fail: `fork` and `waitpid` by the order in which they are
called, `fwrite` by the number of bytes it can write. -/
structure Outcomes where
  fopen : Bool
  fwrite : ℕ
  pipe₁ : Bool
  pipe₂ : Bool
  fork₁ : Bool
  fork₂ : Bool
  wait₁ : Bool
  wait₂ : Bool

/-- A host on which the calls of one task end in this way; the temp files, the contents of
indeterminate variables and everything else are arbitrary. -/
structure Outcomes.Of (φ : Outcomes) (h : Host) : Prop where
  fopens : h.fopens = [φ.fopen]
  fwrites : h.fwrites = [φ.fwrite]
  pipes : h.pipes.map PipeEvent.isOk = [φ.pipe₁, φ.pipe₂]
  forks : h.forks = [φ.fork₁, φ.fork₂]
  waits : h.waits.map WaitEvent.ok = [φ.wait₁, φ.wait₂]
  stream : h.stream = none
  procs : h.procs = []
  sent : h.sent = []

/-- The client was told that the task ended with exit code 0. -/
def Host.ReportsSuccess (h : Host) : Prop := (msgTaskDone, donePayload 0) ∈ h.sent

/-- gcc was run on exactly these bytes and exited with 0, and the binary it wrote was then executed
and exited with 0. -/
def Host.Succeeded (h : Host) (data : Bytes) : Prop :=
  ∃ bin, [(Job.gcc (some data) (some bin), WaitStatus.exited 0), (.run bin, .exited 0)].Sublist
    (h.procs.map fun p => (p.job, p.status))

/-- Every success that is reported is one. -/
def Outcomes.NoFalseSuccess (φ : Outcomes) (name data : Bytes) : Prop :=
  ∀ (T : Tools) (h : Host) (rounds : ℕ) (h' : Host), φ.Of h →
    (compileAndStream rounds h.cfd name data).run (Host.handle T) h = some ((), h') →
    h'.ReportsSuccess → h'.Succeeded data

/-! ### The messages -/

lemma donePayload_zero {st : WaitStatus} (h : donePayload st.mapped = donePayload 0) :
    st = .exited 0 := by
  obtain ⟨h0, h1⟩ := st.mapped_mem
  have hmod : (st.mapped % 2 ^ 32).toNat < 2 ^ 32 := by omega
  have := congrArg ofBe h
  rw [donePayload, donePayload, ofBe_be32 hmod, ofBe_be32 (by decide)] at this
  exact WaitStatus.mapped_eq_zero.mp (by omega)

/-- A success is not reported among the outputs, so it is the final message. -/
lemma Host.reportsSuccess_of_sent {h : Host} (chunks : List Bytes) {st : WaitStatus} {r : ℤ}
    (hs : h.sent = if r = 0 then chunks.map (fun c => (msgOutput, c)) ++
      [(msgTaskDone, donePayload st.mapped)] else chunks.map fun c => (msgOutput, c))
    (hr : h.ReportsSuccess) : st = .exited 0 := by
  have hout : (msgTaskDone, donePayload 0) ∉ chunks.map fun c => (msgOutput, c) := by
    simp [msgTaskDone, msgOutput]
  rw [ReportsSuccess, hs] at hr
  split at hr
  · rcases List.mem_append.mp hr with hr | hr
    · exact absurd hr hout
    · simp only [List.mem_singleton, Prod.mk.injEq, true_and] at hr
      exact donePayload_zero hr.symm
  · exact absurd hr hout

/-! ### Successful calls -/

/-- The run stage: the report is about its own process, which executed the file there was. -/
lemma runBinary_reports {rounds : ℕ} {client_fd : Fd} {src bin : TmpPath} {h h' : Host} {w : ℕ}
    {fs : List Bool} {ws : List WaitEvent} {chunks : List Bytes} (hf : h.forks = true :: fs)
    (hw : h.waits = ⟨true, w⟩ :: ws) (hre : ∀ p ∈ h.procs, p.reaped = true)
    (hs : h.sent = chunks.map fun c => (msgOutput, c))
    (hrun : (runBinary rounds client_fd src bin).run (Host.handle T) h = some ((), h'))
    (hrep : h'.ReportsSuccess) :
    ∃ q, h'.procs = h.procs ++ [q] ∧ q.job = (h.launchBin T bin).job ∧ q.status = .exited 0 := by
  cases hp : h.pipes with
  | nil =>
    have hnone : Host.handle T .pipe h = none := by simp [Host.handle, hp]
    simp [runBinary, WorkCall.doPipe, hnone] at hrun
  | cons e es =>
    obtain ⟨g, hg⟩ : ∃ g, g = h.piped es e := ⟨_, rfl⟩
    have hpipe := Host.handle_pipe (T := T) hp
    rw [← hg] at hpipe
    have hL : g.Launches T (.execBin bin) (h.launchBin T bin) := by
      have : g.launchBin T bin = h.launchBin T bin := by
        rw [hg]
        cases e <;> rfl
      exact this ▸ g.launches_execBin bin
    have hkeep : g.forks = h.forks ∧ g.waits = h.waits ∧ g.procs = h.procs ∧ g.sent = h.sent := by
      rw [hg]
      cases e <;> exact ⟨rfl, rfl, rfl, rfl⟩
    obtain ⟨hf', hw', hp', hs'⟩ := hkeep
    simp only [runBinary, WorkCall.doPipe, Prog.perform_bind, Prog.run_call, hpipe,
      Option.bind_some, Prog.run_bind] at hrun
    obtain ⟨⟨exit, k⟩, hstage, hrun⟩ := Option.bind_eq_some_iff.mp hrun
    obtain ⟨st, -, rfl, hdone⟩ := Host.runStage_done hL (hf'.trans hf) (hw'.trans hw)
      (hp' ▸ hre) hstage
    simp only [WorkCall.doSendMsg, Prog.run_perform] at hrun
    obtain ⟨⟨r, m⟩, hsend, hrun⟩ := Option.bind_eq_some_iff.mp hrun
    obtain ⟨conn, rfl⟩ := Host.handle_sendMsg_eq hsend
    obtain ⟨outs, houts⟩ := hdone.sent
    have hprocs : h'.procs = k.procs ∧ h'.sent =
        if r = 0 then k.sent ++ [(msgTaskDone, donePayload st.mapped)] else k.sent := by
      simp [WorkCall.doUnlink, WorkCall.doLoad, loadTaskDone, LoadCall.doFetchSub] at hrun
      rw [← hrun]
      exact ⟨rfl, rfl⟩
    obtain ⟨hprocs, hsent⟩ := hprocs
    have hst : st = .exited 0 := by
      refine Host.reportsSuccess_of_sent (chunks ++ outs) (r := r) ?_ hrep
      rw [hsent, houts, hs', hs, List.map_append, List.append_assoc]
    exact ⟨_, hprocs.trans (hdone.procs.trans (by rw [hp'])), rfl, hst⟩

/-- Both stages with successful calls: a reported success is one of the source file there was. -/
lemma compileAndRun_reports {rounds : ℕ} {client_fd : Fd} {src bin : TmpPath} {h h' : Host}
    {w₁ w₂ : ℕ} {es : List PipeEvent} {data : Bytes} (hp : h.pipes = .ok :: es)
    (hf : h.forks = [true, true]) (hw : h.waits = [⟨true, w₁⟩, ⟨true, w₂⟩]) (hps : h.procs = [])
    (hs : h.sent = []) (hsrc : h.files src = some data)
    (hrun : (compileAndRun rounds client_fd src bin).run (Host.handle T) h = some ((), h'))
    (hrep : h'.ReportsSuccess) : h'.Succeeded data := by
  obtain ⟨g, hg⟩ : ∃ g, g = h.piped es .ok := ⟨_, rfl⟩
  have hpipe := Host.handle_pipe (T := T) hp
  rw [← hg] at hpipe
  have hret : (h.pipeRet .ok).ret = 0 := rfl
  simp only [compileAndRun, WorkCall.doPipe, Prog.perform_bind, Prog.run_call, hpipe,
    Option.bind_some, hret, if_true, Prog.run_bind] at hrun
  obtain ⟨⟨exit, k⟩, hstage, hrun⟩ := Option.bind_eq_some_iff.mp hrun
  have hgf : g.forks = [true, true] := by rw [hg]; exact hf
  have hgw : g.waits = [⟨true, w₁⟩, ⟨true, w₂⟩] := by rw [hg]; exact hw
  have hgp : g.procs = [] := by rw [hg]; exact hps
  have hgs : g.sent = [] := by rw [hg]; exact hs
  have hgsrc : g.files src = some data := by rw [hg]; exact hsrc
  obtain ⟨st, hst, rfl, hdone⟩ := Host.runStage_done (g.launches_execSh ⟨bin, src⟩) hgf hgw
    (by simp [hgp]) hstage
  obtain ⟨outs, houts⟩ := hdone.sent
  rw [hgs, List.nil_append] at houts
  by_cases he : st.mapped = 0
  · -- gcc exited with 0, so it wrote the binary that is executed now
    simp only [he, ne_eq, not_true_eq_false, if_false] at hrun
    have hst0 := WaitStatus.mapped_eq_zero.mp he
    have hgcc : (T.gcc (some data)).status = .exited 0 := by
      rcases hst with hst | hst
      · rw [← hst0, hst, Host.launchGcc, hgsrc]
      · exact absurd (hst.symm.trans hst0) (by simp)
    obtain ⟨image, himage⟩ := Option.isSome_iff_exists.mp ((T.gcc (some data)).wrote hgcc)
    have hbin : k.files bin = some image := by
      rw [hdone.files, Host.launchGcc, hgsrc]
      simp [himage]
    have hkp := hdone.procs
    rw [hgp, List.nil_append] at hkp
    obtain ⟨q, hq, hjob, hqst⟩ := runBinary_reports (hdone.forks.trans (by rw [hgf]; rfl))
      (hdone.waits.trans (by rw [hgw]; rfl)) (by simp [hkp]) houts hrun hrep
    refine ⟨image, ?_⟩
    rw [hq, hkp, hst0]
    simp [hqst, hjob, Host.newProc, Host.launchGcc, Host.launchBin, hgsrc, hbin, himage]
  · -- the exit code of the failed compilation is reported
    simp only [ne_eq, he, not_false_eq_true, if_true, WorkCall.doSendMsg, Prog.perform_bind,
      Prog.run_call] at hrun
    obtain ⟨⟨r, m⟩, hsend, hrun⟩ := Option.bind_eq_some_iff.mp hrun
    obtain ⟨conn, rfl⟩ := Host.handle_sendMsg_eq hsend
    have hsent : h'.sent =
        if r = 0 then k.sent ++ [(msgTaskDone, donePayload st.mapped)] else k.sent := by
      simp [WorkCall.doUnlink, WorkCall.doLoad, loadTaskDone, LoadCall.doFetchSub] at hrun
      rw [← hrun]
      rfl
    rw [houts] at hsent
    exact absurd (Host.reportsSuccess_of_sent outs hsent hrep ▸ rfl) he

/-- The outcomes under which the worker does not report a false success: no source file is opened,
or all of it is written and the first `pipe`, both `fork`s and both `waitpid`s succeed. -/
def Outcomes.Sound (φ : Outcomes) (data : Bytes) : Prop :=
  φ.fopen = false ∨ (data.length ≤ φ.fwrite ∧ φ.pipe₁ = true ∧ φ.fork₁ = true ∧ φ.wait₁ = true ∧
    φ.fork₂ = true ∧ φ.wait₂ = true)

lemma PipeEvent.isOk_iff {e : PipeEvent} : e.isOk = true ↔ e = .ok := by
  cases e <;> simp [isOk]

/-- Without a source file nothing is sent. -/
lemma Outcomes.noFalseSuccess_of_fopen {φ : Outcomes} (hopen : φ.fopen = false)
    (name data : Bytes) : φ.NoFalseSuccess name data := by
  intro T h rounds h' hof hrun hrep
  have hfail : Host.handle T (.fopen (.src h.pid)) h = some (none, { h with fopens := [] }) := by
    simp [Host.handle, hof.fopens, hopen]
  simp [compileAndStream, loadTaskStart, loadTaskDone, WorkCall.doLoad, LoadCall.doFetchAdd,
    LoadCall.doFetchSub, WorkCall.doGetpid, WorkCall.doFopen, hfail] at hrun
  rw [Host.ReportsSuccess, ← hrun] at hrep
  simp [hof.sent] at hrep

lemma Outcomes.Sound.noFalseSuccess {φ : Outcomes} {data : Bytes} (hφ : φ.Sound data)
    (name : Bytes) : φ.NoFalseSuccess name data := by
  by_cases hopen : φ.fopen = false
  · exact noFalseSuccess_of_fopen hopen name data
  obtain ⟨hwrite, hpipe, hfork₁, hwait₁, hfork₂, hwait₂⟩ := hφ.resolve_left hopen
  intro T h rounds h' hof hrun hrep
  have hfo : h.fopens = [true] := by simpa [hopen] using hof.fopens
  have hf : h.forks = [true, true] := by simpa [hfork₁, hfork₂] using hof.forks
  obtain ⟨es, hps⟩ : ∃ es, h.pipes = .ok :: es := by
    have := hof.pipes
    rw [hpipe] at this
    obtain ⟨e, es, hps, he, -⟩ := List.map_eq_cons_iff.mp this
    exact ⟨es, hps.trans (by rw [PipeEvent.isOk_iff.mp he])⟩
  obtain ⟨w₁, w₂, hws⟩ : ∃ w₁ w₂, h.waits = [⟨true, w₁⟩, ⟨true, w₂⟩] := by
    have := hof.waits
    rw [hwait₁, hwait₂] at this
    obtain ⟨⟨a₁, w₁⟩, ws, hws, rfl, hrest⟩ := List.map_eq_cons_iff.mp this
    obtain ⟨⟨a₂, w₂⟩, rfl, rfl⟩ := List.map_eq_singleton_iff.mp hrest
    exact ⟨w₁, w₂, hws⟩
  rw [Host.run_compileAndStream rounds h.cfd name data hfo hof.fwrites hof.stream] at hrun
  refine compileAndRun_reports (h := h.sourceWritten data φ.fwrite [] []) hps hf hws hof.procs
    hof.sent ?_ hrun hrep
  simp [Host.sourceWritten, Host.setFile, List.take_of_length_le hwrite]

/-! ### Failing calls

With leftovers in the temp files and a 0 left in the indeterminate status word, every failure that
is not looked at ends in a report of success. -/

namespace Host

/-- What does not change about a process when it is reaped. -/
def view (h : Host) : List (ℤ × Job × WaitStatus) := h.procs.map fun p => (p.pid, p.job, p.status)

/-- A process that may be collected when the handler waits for `pid` has ended with 0. -/
def EndsZero (h : Host) (pid : ℤ) : Prop :=
  ∀ x ∈ h.view, pid = -1 ∨ x.1 = pid → x.2.2 = .exited 0

lemma handle_waitpid_zero (h : Host) {w : Bool} (ws : List WaitEvent) (pid : ℤ)
    (hw : h.waits = ⟨w, 0⟩ :: ws) (hz : w = true → h.EndsZero pid) :
    ∃ word procs, handle T (.waitpid pid) h = some (word, { h with procs := procs, waits := ws }) ∧
      childExit word = 0 ∧ { h with procs := procs }.view = h.view := by
  cases hfind : h.waitFor pid with
  | none =>
    exact ⟨0, h.procs, by cases w <;> simp [handle, hw, hfind], rfl, rfl⟩
  | some q =>
    cases w with
    | false => exact ⟨0, h.procs, by simp [handle, hw], rfl, rfl⟩
    | true =>
      refine ⟨q.status.word, (h.reap q.pid).procs, by simp [handle, hw, hfind, reap], ?_, ?_⟩
      · have hmem := List.mem_of_find?_eq_some hfind
        have hq := List.find?_some hfind
        simp only [Bool.and_eq_true, Bool.or_eq_true, decide_eq_true_eq] at hq
        have hst : q.status = .exited 0 := hz rfl _ (List.mem_map_of_mem hmem) hq.2
        rw [childExit_word, hst]
        rfl
      · simp only [view, reap, List.map_map]
        refine List.map_congr_left fun p _ => ?_
        simp only [Function.comp]
        split <;> rfl

/-- A host ready for a silent stage: one read of the pipe, or of another descriptor, is enough. -/
structure Ready (h : Host) : Prop where
  noPipe : h.pipeEnd = none
  reads : ∃ es, h.reads = .deliver 0 :: es
  stray : ∃ rs, h.stray = .err :: rs

/-- The pipe descriptors of an event are not the connection. -/
def PipeApart (h : Host) : PipeEvent → Prop
  | .ok         => True
  | .fail rd wr => rd ≠ h.cfd ∧ wr ≠ h.cfd

/-- The host after a silent stage. -/
structure SilentStage (f : Bool) (L : Launch) (e : PipeEvent) (h h' : Host) : Prop where
  cfd : h'.cfd = h.cfd
  own : h'.pid = h.pid
  connOpen : h'.connOpen = h.connOpen
  conn : h'.conn = h.conn
  sent : h'.sent = h.sent
  pipes : h'.pipes = h.pipes
  noPipe : h'.pipeEnd = none
  files : h'.files = if f then L.files else h.files
  forks : h'.forks = h.forks.tail
  waits : h'.waits = h.waits.tail
  view : h'.view = h.view ++ if f then [((h.newProc L).pid, L.job, L.status)] else []
  reads : h'.reads = if e.isOk then h.reads.tail else h.reads
  stray : h'.stray = if e.isOk then h.stray else h.stray.tail

/-- The host after a `fork` of a stage, and what `fork` returned. -/
def afterFork (h : Host) (f : Bool) (fs : List Bool) (wr : Fd) (L : Launch) : ℤ × Host :=
  if f then ((h.newProc L).pid, { h with forks := fs }.launched wr L)
  else (-1, { h with forks := fs })

lemma handle_fork (h : Host) {pipefd : PipeRet} {exec : ChildCall} {L : Launch} (f : Bool)
    (fs : List Bool) (hL : h.Launches T exec L) (hf : h.forks = f :: fs) :
    handle T (.fork (childCode pipefd exec)) h = some (h.afterFork f fs pipefd.wr L) := by
  cases f with
  | false => simp [handle, hf, afterFork]
  | true =>
    simp only [handle, hf]
    rw [hL { h with forks := fs } pipefd rfl]
    rfl

lemma afterFork_eq {h : Host} {f : Bool} {fs : List Bool} {wr : Fd} {L : Launch}
    (hout : L.out = []) : h.afterFork f fs wr L = (if f then (h.newProc L).pid else -1, { h with
      forks := fs
      files := if f then L.files else h.files
      procs := h.procs ++ if f then [h.newProc L] else [] }) := by
  cases f with
  | false => simp [afterFork]
  | true =>
    simp only [afterFork, launched, hout, emit_nil, if_true]
    rfl

lemma view_afterFork {h : Host} {f : Bool} {fs : List Bool} {wr : Fd} {L : Launch}
    (hout : L.out = []) : (h.afterFork f fs wr L).2.view =
      h.view ++ if f then [((h.newProc L).pid, L.job, L.status)] else [] := by
  rw [afterFork_eq hout]
  cases f <;> simp [view, newProc]

/-- The read end gives nothing more, or cannot be read. -/
lemma run_streamLoop_silent (rounds : ℕ) (client_fd fd : Fd) (pid : ℤ) {h : Host}
    {es : List RecvEvent} {rs : List RecvRet} (hr : h.reads = .deliver 0 :: es)
    (hs : h.stray = .err :: rs) :
    (∀ wr, h.pipeEnd = some ⟨fd, wr, false, []⟩ →
      (streamLoop (rounds + 1) client_fd fd pid).run (handle T) h =
        some ((), { h with reads := es })) ∧
    (h.pipeEnd = none →
      (streamLoop (rounds + 1) client_fd fd pid).run (handle T) h =
        some ((), { h with stray := rs })) := by
  constructor
  · intro wr hp
    have hread : handle T (.read fd outputBufSize) h = some (.data [], { h with reads := es }) := by
      simp [handle, readFd, hp, hr, Option.filter]
    simp [streamLoop, WorkCall.doRead, hread]
  · intro hp
    have hread : handle T (.read fd outputBufSize) h = some (.err, { h with stray := rs }) := by
      simp [handle, readFd, hp, hs]
    simp [streamLoop, WorkCall.doRead, hread]

/-- A stage without output reports 0 whenever what it waits for has ended with 0, or the wait
fails. -/
lemma run_runStage_silent (rounds : ℕ) {exec : ChildCall} {h : Host} {L : Launch} {e : PipeEvent}
    (es : List PipeEvent) {f w : Bool} (fs : List Bool) (ws : List WaitEvent)
    (hL : h.Launches T exec L) (hout : L.out = []) (hr : h.Ready) (ha : h.PipeApart e)
    (hf : h.forks = f :: fs) (hw : h.waits = ⟨w, 0⟩ :: ws)
    (hz : w = true → (h.afterFork f fs 0 L).2.EndsZero (h.afterFork f fs 0 L).1) :
    ∃ h', (runStage (rounds + 1) h.cfd (h.pipeRet e) exec).run (handle T) (h.piped es e) =
        some (0, h') ∧ (h.piped es e).SilentStage f L e h' := by
  obtain ⟨hnp, ⟨rest, hreads⟩, ⟨srest, hstray⟩⟩ := hr
  obtain ⟨P, hP⟩ : ∃ P, P = h.procs ++ if f then [h.newProc L] else [] := ⟨_, rfl⟩
  obtain ⟨F, hF⟩ : ∃ F, F = if f then L.files else h.files := ⟨_, rfl⟩
  obtain ⟨pid, hpid⟩ : ∃ pid, pid = if f then (h.newProc L).pid else -1 := ⟨_, rfl⟩
  rw [afterFork_eq hout, ← hP, ← hF, ← hpid] at hz
  have hview : P.map (fun p => (p.pid, p.job, p.status)) =
      h.view ++ if f then [((h.newProc L).pid, L.job, L.status)] else [] := by
    rw [hP]
    cases f <;> simp [view, newProc]
  cases e with
  | ok =>
    obtain ⟨rd, hrd⟩ : ∃ rd : ℤ, rd = h.cfd + h.nextFd + 1 := ⟨_, rfl⟩
    have hne : rd ≠ h.cfd ∧ rd + 1 ≠ h.cfd ∧ rd ≠ rd + 1 := by omega
    -- after the fork and the closing of the write end
    obtain ⟨g, hg⟩ : ∃ g : Host, g = { h with
      pipes := es, nextFd := h.nextFd + 2, forks := fs, files := F, procs := P
      pipeEnd := some ⟨rd, rd + 1, false, []⟩ } := ⟨_, rfl⟩
    have hfork : handle T (.fork (childCode (h.pipeRet .ok) exec)) (h.piped es .ok) =
        some (pid, { g with pipeEnd := some ⟨rd, rd + 1, true, []⟩ }) := by
      rw [handle_fork (h.piped es .ok) f fs (fun k pd hk => hL k pd hk) hf,
        afterFork_eq hout, hg, hP, hF, hpid]
      simp only [piped, newProc, ← hrd]
    have hgr : g.reads = .deliver 0 :: rest := by rw [hg]; exact hreads
    have hgs : g.stray = .err :: srest := by rw [hg]; exact hstray
    have hstream := (run_streamLoop_silent (T := T) rounds h.cfd rd pid hgr hgs).1 (rd + 1)
      (by rw [hg])
    obtain ⟨word, procs, hwait, hword, hv⟩ := handle_waitpid_zero (T := T)
      { g with reads := rest } ws pid (by rw [hg]; exact hw) (by
        intro hwt
        rw [hg]
        exact hz hwt)
    refine ⟨{ g with reads := rest, procs := procs, waits := ws, pipeEnd := none }, ?_, ?_⟩
    · have hclose :
          Host.closeFd { g with pipeEnd := some ⟨rd, rd + 1, true, []⟩ } (rd + 1) = g := by
        simp [closeFd, hg, hne]
      have hclose' : Host.closeFd { g with reads := rest, procs := procs, waits := ws } rd =
          { g with reads := rest, procs := procs, waits := ws, pipeEnd := none } := by
        simp [closeFd, hg, hne]
      rw [run_runStage, hfork, Option.bind_some]
      simp only [pipeRet, ← hrd, hclose, hstream, Option.bind_some, hwait, hword, hclose']
    · rw [hg]
      refine ⟨rfl, rfl, rfl, rfl, rfl, rfl, rfl, hF, ?_, ?_, ?_, ?_, rfl⟩
      · simp [piped, hf]
      · simp [piped, hw]
      · rw [hg] at hv
        exact hv.trans hview
      · simp [PipeEvent.isOk, piped, hreads]
  | fail rd wr =>
    obtain ⟨hrd, hwr⟩ := ha
    obtain ⟨g, hg⟩ : ∃ g : Host, g = { h with
      pipes := es, forks := fs, files := F, procs := P } := ⟨_, rfl⟩
    have hfork : handle T (.fork (childCode (h.pipeRet (.fail rd wr)) exec))
        (h.piped es (.fail rd wr)) = some (pid, g) := by
      rw [handle_fork (h.piped es (.fail rd wr)) f fs
        (fun k pd hk => hL k pd hk) hf, afterFork_eq hout, hg, hP, hF, hpid]
      simp only [piped, newProc]
    have hgr : g.reads = .deliver 0 :: rest := by rw [hg]; exact hreads
    have hgs : g.stray = .err :: srest := by rw [hg]; exact hstray
    have hgn : g.pipeEnd = none := by rw [hg]; exact hnp
    have hstream := (run_streamLoop_silent (T := T) rounds h.cfd rd pid hgr hgs).2 hgn
    obtain ⟨word, procs, hwait, hword, hv⟩ := handle_waitpid_zero (T := T)
      { g with stray := srest } ws pid (by rw [hg]; exact hw) (by
        intro hwt
        rw [hg]
        exact hz hwt)
    refine ⟨{ g with stray := srest, procs := procs, waits := ws }, ?_, ?_⟩
    · have hgc : g.cfd = h.cfd := by rw [hg]
      have hclose : Host.closeFd g wr = g := by
        simp [closeFd, hgn, hgc, hwr]
      have hclose' : Host.closeFd { g with stray := srest, procs := procs, waits := ws } rd =
          { g with stray := srest, procs := procs, waits := ws } := by
        simp [closeFd, hgn, hgc, hrd]
      rw [run_runStage, hfork, Option.bind_some]
      simp only [pipeRet, hclose, hstream, Option.bind_some, hwait, hword, hclose']
    · rw [hg]
      refine ⟨rfl, rfl, rfl, rfl, rfl, rfl, hnp, hF, ?_, ?_, ?_, rfl, ?_⟩
      · simp [piped, hf]
      · simp [piped, hw]
      · rw [hg] at hv
        exact hv.trans hview
      · simp [PipeEvent.isOk, piped, hstray]

/-- The connection takes the final message. -/
def TakesDone (h : Host) : Prop :=
  h.connOpen = true ∧ ∃ conn, h.conn.transmit h.cfd msgTaskDone (donePayload 0) = some (0, conn)

/-- The run stage without output reports success whenever what it waits for has ended with 0, or
the wait fails. -/
lemma run_runBinary_silent (rounds : ℕ) (src bin : TmpPath) {h : Host} {e : PipeEvent}
    (es : List PipeEvent) {f w : Bool} (fs : List Bool) (ws : List WaitEvent)
    (hp : h.pipes = e :: es) (hout : (h.launchBin T bin).out = []) (hr : h.Ready)
    (ha : h.PipeApart e) (hd : h.TakesDone) (hf : h.forks = f :: fs) (hw : h.waits = ⟨w, 0⟩ :: ws)
    (hz : w = true → (h.afterFork f fs 0 (h.launchBin T bin)).2.EndsZero
      (h.afterFork f fs 0 (h.launchBin T bin)).1) :
    ∃ h', (runBinary (rounds + 1) h.cfd src bin).run (handle T) h = some ((), h') ∧
      h'.ReportsSuccess ∧ h'.view = h.view ++ if f then
        [((h.newProc (h.launchBin T bin)).pid, (h.launchBin T bin).job, (h.launchBin T bin).status)]
      else [] := by
  obtain ⟨g, hstage, hg⟩ := run_runStage_silent (T := T) rounds es fs ws
    (h.launches_execBin bin) hout hr ha hf hw hz
  obtain ⟨ho, conn, hconn⟩ := hd
  have hgc : g.cfd = h.cfd := hg.cfd.trans (by cases e <;> rfl)
  have hsend : handle T (.sendMsg h.cfd msgTaskDone (donePayload 0)) g = some (0, { g with
      conn := conn, sent := g.sent ++ [(msgTaskDone, donePayload 0)] }) := by
    have hgo : g.connOpen = true := hg.connOpen.trans (by cases e <;> exact ho)
    have hgn : g.conn = h.conn := hg.conn.trans (by cases e <;> rfl)
    rw [← hgc, handle_sendMsg hgo, transmit, hgn, hgc, hconn]
    rfl
  refine ⟨(({ g with conn := conn, sent := g.sent ++ [(msgTaskDone, donePayload 0)] } :
    Host).setFile src none).setFile bin none, ?_, ?_, ?_⟩
  · simp [runBinary, WorkCall.doPipe, handle_pipe hp, hstage, WorkCall.doSendMsg, hsend,
      WorkCall.doUnlink, WorkCall.doLoad, loadTaskDone, LoadCall.doFetchSub]
  · simp [ReportsSuccess, setFile]
  · have hv : (h.piped es e).view = h.view := by cases e <;> rfl
    have hn : ((h.piped es e).newProc (h.launchBin T bin)).pid =
        (h.newProc (h.launchBin T bin)).pid := by cases e <;> rfl
    have := hg.view
    rw [hv, hn] at this
    exact this

end Host

/-- gcc and every binary print nothing and exit with the given codes. -/
def silentTools (g r : UInt8) : Tools where
  gcc _ := { out := [], status := .exited g, bin := some [1], wrote := fun _ => rfl }
  run _ := { out := [], status := .exited r }

/-- A host with a leftover in every temp file. -/
def leftoverHost (φ : Outcomes) : Host where
  pid := 1
  cfd := 4
  fopens := [φ.fopen]
  fwrites := [φ.fwrite]
  pipes := [if φ.pipe₁ then .ok else .fail 90 91, if φ.pipe₂ then .ok else .fail 90 91]
  forks := [φ.fork₁, φ.fork₂]
  waits := [⟨φ.wait₁, 0⟩, ⟨φ.wait₂, 0⟩]
  kills := []
  reads := [.deliver 0, .deliver 0]
  stray := [.err, .err]
  conn := { sched := List.replicate 12 (.accept 0) }
  inb := { sched := [], pending := [] }
  files _ := some [1]

lemma leftoverHost_of (φ : Outcomes) : φ.Of (leftoverHost φ) := by
  refine ⟨rfl, rfl, ?_, rfl, rfl, rfl, rfl, rfl⟩
  cases h₁ : φ.pipe₁ <;> cases h₂ : φ.pipe₂ <;> simp [leftoverHost, h₁, h₂, PipeEvent.isOk]

/-- The leftover host when the source was written. -/
lemma run_leftoverHost (T : Tools) {φ : Outcomes} (hopen : φ.fopen = true) (name data : Bytes) :
    ∃ g, g = (leftoverHost φ).sourceWritten data φ.fwrite [] [] ∧
      (compileAndStream 1 4 name data).run (Host.handle T) (leftoverHost φ) =
        (compileAndRun 1 4 (.src 1) (.bin 1)).run (Host.handle T) g ∧
      g.Ready ∧ g.TakesDone ∧ g.files (.src 1) = some (data.take φ.fwrite) ∧
      g.files (.bin 1) = some [1] ∧ g.procs = [] ∧ g.cfd = 4 := by
  refine ⟨_, rfl, ?_, ⟨rfl, ⟨_, rfl⟩, ⟨_, rfl⟩⟩, ⟨rfl, ?_⟩, ?_, ?_, rfl, rfl⟩
  · exact Host.run_compileAndStream 1 4 name data (by simp [leftoverHost, hopen]) rfl rfl
  · obtain ⟨conn, hconn⟩ : ∃ conn, (leftoverHost φ).conn.transmit 4 msgTaskDone (donePayload 0) =
        some (0, conn) := by
      have hc : (leftoverHost φ).conn.Reliable := by simp [Outbound.Reliable, leftoverHost]
      rcases Outbound.transmit_cases hc 4 msgTaskDone (donePayload 0) with ⟨-, h⟩ | ⟨conn, h, -⟩
      · have hm : (leftoverHost φ).conn.sched.countP SendEvent.moves = 12 := rfl
        rw [hm, length_frame, donePayload, length_be32] at h
        exact absurd h (by decide)
      · exact ⟨conn, h⟩
    exact ⟨conn, hconn⟩
  · simp [Host.sourceWritten, Host.setFile, leftoverHost]
  · simp [Host.sourceWritten, Host.setFile, leftoverHost]

/-- Without the compile stage the leftover is executed. -/
lemma leftover_noPipe {φ : Outcomes} (hopen : φ.fopen = true) (hp : φ.pipe₁ = false)
    (name data : Bytes) :
    ∃ h', (compileAndStream 1 4 name data).run (Host.handle (silentTools 0 0)) (leftoverHost φ) =
        some ((), h') ∧ h'.ReportsSuccess ∧
      h'.view.map Prod.snd = if φ.fork₁ then [(Job.run [1], .exited 0)] else [] := by
  obtain ⟨g, hg, hrun, hready, hdone, -, hbin, hprocs, hcfd⟩ :=
    run_leftoverHost (silentTools 0 0) hopen name data
  have hL : g.launchBin (silentTools 0 0) (.bin 1) = ⟨.run [1], .exited 0, [], g.files⟩ := by
    simp [Host.launchBin, hbin, silentTools]
  obtain ⟨e, he⟩ : ∃ e, e = if φ.pipe₂ then PipeEvent.ok else .fail 90 91 := ⟨_, rfl⟩
  have hpipes : g.pipes = [.fail 90 91, e] := by
    rw [hg, he]
    simp [Host.sourceWritten, Host.setFile, leftoverHost, hp]
  have hrun' : (compileAndRun 1 4 (.src 1) (.bin 1)).run (Host.handle (silentTools 0 0)) g =
      (runBinary 1 4 (.src 1) (.bin 1)).run (Host.handle (silentTools 0 0))
        { g with pipes := [e] } := by
    have := Host.handle_pipe (T := silentTools 0 0) hpipes
    simp [compileAndRun, WorkCall.doPipe, this, Host.pipeRet, Host.piped]
  have happ : Host.PipeApart { g with pipes := [e] } e := by
    rw [he]
    cases φ.pipe₂ <;> simp [Host.PipeApart, hcfd]
  have hL' : Host.launchBin (silentTools 0 0) { g with pipes := [e] } (.bin 1) =
      ⟨.run [1], .exited 0, [], g.files⟩ := hL
  have hv : Host.view { g with pipes := [e] } = [] := by simp [Host.view, hprocs]
  obtain ⟨h', hfin, hrep, hview⟩ := Host.run_runBinary_silent (T := silentTools 0 0)
    (h := { g with pipes := [e] }) (f := φ.fork₁) (w := φ.wait₁) 0 (.src 1) (.bin 1) []
    [φ.fork₂] [⟨φ.wait₂, 0⟩] rfl (by rw [hL'])
    ⟨hready.noPipe, hready.reads, hready.stray⟩ happ ⟨hdone.1, hdone.2⟩ (by rw [hg]; rfl)
    (by rw [hg]; rfl) (by
      intro _ x hx _
      rw [Host.view_afterFork (by rw [hL']), hL', hv] at hx
      cases hf : φ.fork₁
      · simp [hf] at hx
      · simp only [hf, if_true, List.nil_append, List.mem_singleton] at hx
        rw [hx])
  refine ⟨h', ?_, hrep, ?_⟩
  · rw [hrun, hrun', ← hcfd]
    exact hfin
  · rw [hview, hL', hv]
    cases φ.fork₁ <;> rfl

/-- With the compile stage, gcc and the leftover or the new binary are run as far as the `fork`s
allow. -/
lemma leftover_pipe {φ : Outcomes} (hopen : φ.fopen = true) (hp : φ.pipe₁ = true) {g r : UInt8}
    (hz₁ : φ.wait₁ = true → φ.fork₁ = true → g = 0)
    (hz₂ : φ.wait₂ = true → if φ.fork₂ then r = 0 else φ.fork₁ = true → g = 0) (name data : Bytes) :
    ∃ h', (compileAndStream 1 4 name data).run (Host.handle (silentTools g r)) (leftoverHost φ) =
        some ((), h') ∧ h'.ReportsSuccess ∧
      h'.view.map Prod.snd =
        (if φ.fork₁ then [(Job.gcc (some (data.take φ.fwrite)) (some [1]), .exited g)] else []) ++
        if φ.fork₂ then [(Job.run [1], .exited r)] else [] := by
  obtain ⟨h, hh, hrun, hready, hdone, hsrc, hbin, hprocs, hcfd⟩ :=
    run_leftoverHost (silentTools g r) hopen name data
  obtain ⟨e, he⟩ : ∃ e, e = if φ.pipe₂ then PipeEvent.ok else .fail 90 91 := ⟨_, rfl⟩
  have hpipes : h.pipes = [.ok, e] := by
    rw [hh, he]
    simp [Host.sourceWritten, Host.setFile, leftoverHost, hp]
  have hL₁ : h.launchGcc (silentTools g r) ⟨.bin 1, .src 1⟩ =
      ⟨.gcc (some (data.take φ.fwrite)) (some [1]), .exited g, [],
        Function.update h.files (.bin 1) (some [1])⟩ := by
    simp [Host.launchGcc, hsrc, silentTools]
  have hv : h.view = [] := by simp [Host.view, hprocs]
  -- the compile stage
  obtain ⟨k, hstage, hk⟩ := Host.run_runStage_silent (T := silentTools g r) (e := .ok)
    (f := φ.fork₁) (w := φ.wait₁) 0 [e] [φ.fork₂] [⟨φ.wait₂, 0⟩]
    (h.launches_execSh ⟨.bin 1, .src 1⟩) (by rw [hL₁]) hready trivial (by rw [hh]; rfl)
    (by rw [hh]; rfl) (by
      intro hw x hx _
      rw [Host.view_afterFork (by rw [hL₁]), hL₁, hv] at hx
      cases hf : φ.fork₁
      · simp [hf] at hx
      · simp only [hf, if_true, List.nil_append, List.mem_singleton] at hx
        rw [hx, hz₁ hw hf])
  rw [hL₁] at hk
  have hkbin : k.files (.bin 1) = some [1] := by
    rw [hk.files]
    cases φ.fork₁
    · exact hbin
    · simp
  have hkcfd : k.cfd = h.cfd := hk.cfd
  have hkview : k.view = if φ.fork₁ then
      [((h.newProc ⟨.gcc (some (data.take φ.fwrite)) (some [1]), .exited g, [], h.files⟩).pid,
        Job.gcc (some (data.take φ.fwrite)) (some [1]), .exited g)] else [] := by
    rw [hk.view]
    exact congrArg (· ++ _) hv
  have hL₂ : k.launchBin (silentTools g r) (.bin 1) = ⟨.run [1], .exited r, [], k.files⟩ := by
    simp [Host.launchBin, hkbin, silentTools]
  -- the run stage
  obtain ⟨h', hfin, hrep, hview⟩ := Host.run_runBinary_silent (T := silentTools g r) (h := k)
    (f := φ.fork₂) (w := φ.wait₂) (e := e) 0 (.src 1) (.bin 1) [] [] [] hk.pipes (by rw [hL₂])
    ⟨hk.noPipe, by rw [hk.reads, hh]; exact ⟨_, rfl⟩, by rw [hk.stray, hh]; exact ⟨_, rfl⟩⟩
    (by rw [he]; cases φ.pipe₂ <;> simp [Host.PipeApart, hkcfd, hcfd])
    ⟨hk.connOpen.trans hdone.1, by rw [hk.conn, hkcfd]; exact hdone.2⟩
    (by rw [hk.forks, hh]; rfl) (by rw [hk.waits, hh]; rfl) (by
      intro hw x hx hpid
      have hz := hz₂ hw
      rw [Host.view_afterFork (by rw [hL₂]), hL₂, hkview] at hx
      rw [hL₂, Host.afterFork_eq rfl] at hpid
      cases hf₂ : φ.fork₂ with
      | false =>
        simp only [hf₂, Bool.false_eq_true, if_false, List.append_nil] at hx hz
        cases hf₁ : φ.fork₁ with
        | false => simp [hf₁] at hx
        | true =>
          simp only [hf₁, if_true, List.mem_singleton] at hx
          rw [hx, hz hf₁]
      | true =>
        simp only [hf₂, if_true] at hx hz hpid
        rcases List.mem_append.mp hx with hx | hx
        · -- the compiler is another process than the one that is waited for
          cases hf₁ : φ.fork₁ with
          | false => simp [hf₁] at hx
          | true =>
            simp only [hf₁, if_true, List.mem_singleton] at hx
            have hlen : k.procs.length = 1 := by
              have := congrArg List.length hkview
              simpa [Host.view, hf₁] using this
            have hown : k.pid = h.pid := hk.own
            simp only [hx, Host.newProc, hlen, hown, hprocs, List.length_nil] at hpid
            omega
        · simp only [List.mem_singleton] at hx
          rw [hx, hz])
  refine ⟨h', ?_, hrep, ?_⟩
  · have hret : (h.pipeRet .ok).ret = 0 := rfl
    have hcr : (compileAndRun 1 4 (.src 1) (.bin 1)).run (Host.handle (silentTools g r)) h =
        (runBinary 1 4 (.src 1) (.bin 1)).run (Host.handle (silentTools g r)) k := by
      rw [hcfd] at hstage
      simp [compileAndRun, WorkCall.doPipe, Host.handle_pipe hpipes, hret, hstage]
    rw [hrun, hcr, ← hcfd, ← hkcfd]
    exact hfin
  · rw [hview, hL₂, hkview]
    cases φ.fork₁ <;> cases φ.fork₂ <;> rfl

lemma Host.Succeeded.of_view {h : Host} {data : Bytes} (hs : h.Succeeded data) :
    ∃ bin, [(Job.gcc (some data) (some bin), WaitStatus.exited 0), (.run bin, .exited 0)].Sublist
      (h.view.map Prod.snd) := by
  obtain ⟨bin, hbin⟩ := hs
  refine ⟨bin, ?_⟩
  rwa [Host.view, List.map_map]

/-- Every other outcome allows a false success. -/
lemma Outcomes.not_noFalseSuccess {φ : Outcomes} {data : Bytes} (hφ : ¬ φ.Sound data)
    (name : Bytes) : ¬ φ.NoFalseSuccess name data := by
  intro hno
  have hopen : φ.fopen = true := by
    by_contra h
    exact hφ (.inl (by simpa using h))
  have hof := leftoverHost_of φ
  cases hp : φ.pipe₁ with
  | false =>
    obtain ⟨h', hrun, hrep, hview⟩ := leftover_noPipe hopen hp name data
    obtain ⟨bin, hsub⟩ := (hno _ _ 1 h' hof hrun hrep).of_view
    rw [hview] at hsub
    have := hsub.length_le
    revert this
    cases φ.fork₁ <;> simp
  | true =>
    -- the codes that make the report a false one
    obtain ⟨g, r, hz₁, hz₂, hbad⟩ : ∃ g r : UInt8,
        (φ.wait₁ = true → φ.fork₁ = true → g = 0) ∧
        (φ.wait₂ = true → if φ.fork₂ then r = 0 else φ.fork₁ = true → g = 0) ∧
        ¬ (φ.fork₁ = true ∧ φ.fork₂ = true ∧ g = 0 ∧ r = 0 ∧ data.length ≤ φ.fwrite) := by
      cases hw₂ : φ.wait₂ with
      | false => exact ⟨0, 1, by simp, by simp, by simp⟩
      | true =>
        cases hw₁ : φ.wait₁ with
        | true =>
          refine ⟨0, 0, by simp, by simp, fun ⟨hf₁, hf₂, _, _, hd⟩ => hφ (.inr ?_)⟩
          exact ⟨hd, hp, hf₁, hw₁, hf₂, hw₂⟩
        | false =>
          cases hf₂ : φ.fork₂ with
          | true => exact ⟨1, 0, by simp, by simp, by simp⟩
          | false => exact ⟨0, 0, by simp, by simp, by simp⟩
    obtain ⟨h', hrun, hrep, hview⟩ := leftover_pipe hopen hp hz₁ hz₂ name data
    obtain ⟨bin, hsub⟩ := (hno _ _ 1 h' hof hrun hrep).of_view
    rw [hview] at hsub
    cases hf₁ : φ.fork₁ with
    | false =>
      have := hsub.length_le
      revert this
      cases φ.fork₂ <;> simp [hf₁]
    | true =>
      cases hf₂ : φ.fork₂ with
      | false =>
        have := hsub.length_le
        simp [hf₁, hf₂] at this
      | true =>
        have heq := hsub.eq_of_length (by simp [hf₁, hf₂])
        simp only [hf₁, hf₂, if_true, List.cons_append, List.nil_append, List.cons.injEq,
          Prod.mk.injEq, Job.gcc.injEq, Option.some.injEq, WaitStatus.exited.injEq] at heq
        obtain ⟨⟨⟨hdata, -⟩, hg⟩, ⟨-, hr⟩, -⟩ := heq
        refine hbad ⟨hf₁, hf₂, hg.symm, hr.symm, ?_⟩
        have := congrArg List.length hdata
        rw [List.length_take] at this
        omega

/-- **No false success, exactly.** For the given outcomes of the system calls, a reported success is
always one of the submitted bytes if and only if no source file could be opened, or all of it was
written and the first `pipe`, both `fork`s and both `waitpid`s succeeded. -/
theorem no_false_success_iff (φ : Outcomes) (name data : Bytes) :
    φ.NoFalseSuccess name data ↔ φ.fopen = false ∨ (data.length ≤ φ.fwrite ∧ φ.pipe₁ = true ∧
      φ.fork₁ = true ∧ φ.wait₁ = true ∧ φ.fork₂ = true ∧ φ.wait₂ = true) := by
  refine ⟨fun hno => ?_, fun hφ => Outcomes.Sound.noFalseSuccess hφ name⟩
  by_contra hφ
  exact Outcomes.not_noFalseSuccess hφ name hno

/-- The `fork` of the run stage fails and the status word is still 0: success is reported, and
nothing was executed. -/
theorem false_success_without_run :
    ∃ h', (compileAndStream 1 4 [97, 46, 99] [120]).run (Host.handle (silentTools 0 0))
        (leftoverHost ⟨true, 1, true, true, true, false, true, true⟩) = some ((), h') ∧
      h'.ReportsSuccess ∧ ¬ h'.Succeeded [120] := by
  obtain ⟨h', hrun, hrep, hview⟩ := leftover_pipe (g := 0) (r := 0)
    (φ := ⟨true, 1, true, true, true, false, true, true⟩) rfl rfl (by simp) (by simp)
    [97, 46, 99] [120]
  refine ⟨h', hrun, hrep, fun hs => ?_⟩
  obtain ⟨bin, hsub⟩ := hs.of_view
  rw [hview] at hsub
  have := hsub.length_le
  simp at this

end P2PNode
