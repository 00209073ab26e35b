import P2PNode.Worker.Streaming

/-!
# What the worker sends for a task

When no call fails, the frames of a task are the output of gcc, then the output of the binary if
gcc exited with 0, and one final message with the exit code of the last of the two.
-/

namespace P2PNode

open Effect

variable {T : Tools}

namespace Host

/-- The host after a stage whose whole output was sent in the given chunks. -/
structure StageSent (L : Launch) (chunks : List Bytes) (h h' : Host) : Prop where
  done : h.StageDone L L.status h'
  chunk : ∀ c ∈ chunks, c ≠ [] ∧ c.length ≤ outputBufSize
  all : chunks.flatten = L.out
  conn : h.conn.Sent (outputFrames chunks) h'.conn
  moves : h.reads.countP RecvEvent.moves ≤ h'.reads.countP RecvEvent.moves + L.out.length + 1
  reads : h'.reads <:+ h.reads
  cfd : h'.cfd = h.cfd
  connOpen : h'.connOpen = true

/-- The schedules are too short for a stage with `n` bytes of output. -/
def StageStarved (h : Host) (rounds n : ℕ) : Prop :=
  h.reads.length < rounds → h.reads.countP RecvEvent.moves ≤ n ∨
    h.conn.sched.countP SendEvent.moves < 9 * n

lemma run_runStage_sent (rounds : ℕ) {h : Host} {exec : ChildCall} {L : Launch} {w : ℕ}
    (es : List PipeEvent) {fs : List Bool} {ws : List WaitEvent} (hL : h.Launches T exec L)
    (hf : h.forks = true :: fs) (hw : h.waits = ⟨true, w⟩ :: ws)
    (hre : ∀ p ∈ h.procs, p.reaped = true) (ho : h.connOpen = true) (hc : h.conn.Reliable) :
    ((runStage rounds h.cfd (h.pipeRet .ok) exec).run (handle T) (h.piped es .ok) = none ∧
        h.StageStarved rounds L.out.length) ∨
      ∃ chunks h', (runStage rounds h.cfd (h.pipeRet .ok) exec).run (handle T) (h.piped es .ok) =
        some (L.status.mapped, h') ∧ (h.piped es .ok).StageSent L chunks h' := by
  obtain ⟨rd, hrd⟩ : ∃ rd : ℤ, rd = h.cfd + h.nextFd + 1 := ⟨_, rfl⟩
  have hne : rd ≠ h.cfd ∧ rd + 1 ≠ h.cfd ∧ rd ≠ rd + 1 := by omega
  obtain ⟨q, hq⟩ : ∃ q, q = h.newProc L := ⟨_, rfl⟩
  -- the host when the streaming starts
  obtain ⟨g, hg⟩ : ∃ g : Host, g = { h with
    pipes := es, nextFd := h.nextFd + 2, forks := fs, files := L.files, procs := h.procs ++ [q]
    pipeEnd := some ⟨rd, rd + 1, false, L.out⟩ } := ⟨_, rfl⟩
  have hfork : handle T (.fork (childCode (h.pipeRet .ok) exec)) (h.piped es .ok) =
      some (q.pid, { g with pipeEnd := some ⟨rd, rd + 1, true, L.out⟩ }) := by
    have hpf : (h.piped es .ok).forks = true :: fs := hf
    simp only [handle, hpf]
    rw [hL { h.piped es .ok with forks := fs } (h.pipeRet .ok) rfl, hg, hq]
    simp [launched, emit, piped, newProc, pipeRet, hrd]
  have hclose : Host.closeFd { g with pipeEnd := some ⟨rd, rd + 1, true, L.out⟩ } (rd + 1) = g := by
    simp [closeFd, hg, hne]
  have hgc : g.cfd = h.cfd := by rw [hg]
  have hpe : g.pipeEnd = some ⟨rd, rd + 1, false, L.out⟩ := by rw [hg]
  have hstream := run_streamLoop (T := T) rounds q.pid hpe rfl (by rw [hg]; exact ho)
    (by rw [hg]; exact hc)
  rw [hgc] at hstream
  rw [run_runStage, hfork, Option.bind_some]
  simp only [pipeRet, ← hrd, hclose]
  rcases hstream with ⟨hs, hst⟩ | ⟨chunks, k, hs, hk⟩
  · refine .inl ⟨by rw [hs]; rfl, ?_⟩
    rw [hg] at hst
    exact hst
  · have hkp : k.procs = h.procs ++ [q] := by rw [hk.rest, hg]
    have hkw : k.waits = ⟨true, w⟩ :: ws := by rw [hk.rest, hg]; exact hw
    have hwait := handle_waitpid (T := T) hkw hkp hre (by rw [hq]; rfl)
    have hqs : q.status = L.status := by rw [hq]; rfl
    obtain ⟨m, hm⟩ : ∃ m : Host, m = { k with
      procs := h.procs ++ [{ q with reaped := true }], waits := ws } := ⟨_, rfl⟩
    have hclose' : m.closeFd rd = { m with pipeEnd := none } := by
      have hmc : m.cfd = h.cfd := by rw [hm, hk.rest, hg]
      have hmp : m.pipeEnd = some ⟨rd, rd + 1, false, []⟩ := by rw [hm, hk.rest]
      simp [closeFd, hmc, hmp, hne]
    rw [← hm] at hwait
    refine .inr ⟨chunks, { m with pipeEnd := none }, ?_, ?_⟩
    · simp only [hs, Option.bind_some, hwait, childExit_word, hqs, hclose']
    · have hrest := hk.rest
      rw [hg] at hrest
      have hchunks := hk.conn
      have hmoves := hk.moves
      have hreads := hk.reads
      rw [hg] at hchunks hmoves hreads
      refine ⟨⟨?_, ?_, ?_, ?_, ?_, ?_, chunks, ?_⟩, hk.chunk, hk.all, ?_, ?_, ?_, ?_, ?_⟩
      · rw [hm, hrest]
        rfl
      · rw [hm, hrest]
      · rw [hm, hrest]
        rfl
      · rw [hm, hrest]
        simp [piped, hf]
      · rw [hm]
        simp [piped, hw]
      · rw [hm, hq]
        rfl
      · rw [hm, hrest]
        rfl
      · rw [hm]
        exact hchunks
      · rw [hm]
        exact hmoves
      · rw [hm]
        exact hreads
      · rw [hm, hrest]
        rfl
      · rw [hm, hrest]
        exact ho

end Host

/-- The frames of a task: its output in chunks and the final message. -/
def taskFrames (chunks : List Bytes) (exit : ℤ) : Bytes :=
  outputFrames chunks ++ frame msgTaskDone (donePayload exit)

@[simp] lemma length_donePayload (exit : ℤ) : (donePayload exit).length = 4 := length_be32 _

lemma length_outputFrames {chunks : List Bytes} (hc : ∀ c ∈ chunks, c ≠ []) :
    (outputFrames chunks).length ≤ 9 * chunks.flatten.length := by
  induction chunks with
  | nil => exact Nat.le_refl 0
  | cons c cs ih =>
    have hpos := List.length_pos_iff.mpr (hc c (List.mem_cons_self ..))
    have := ih fun d hd => hc d (List.mem_cons_of_mem _ hd)
    simp only [outputFrames, List.flatMap_cons, List.length_append, length_frame, headerSize,
      List.flatten_cons] at this ⊢
    omega

lemma outputFrames_append (cs ds : List Bytes) :
    outputFrames (cs ++ ds) = outputFrames cs ++ outputFrames ds := List.flatMap_append

namespace Host

/-- The host after everything for a task was sent: the output in chunks, and the exit code. -/
structure TaskSent (out : Bytes) (exit : ℤ) (chunks : List Bytes) (h h' : Host) : Prop where
  chunk : ∀ c ∈ chunks, c ≠ [] ∧ c.length ≤ outputBufSize
  all : chunks.flatten = out
  conn : h.conn.Sent (taskFrames chunks exit) h'.conn

/-- The schedules are too short for a task with `n` bytes of output. -/
def TaskStarved (h : Host) (rounds n : ℕ) : Prop :=
  h.reads.length < rounds → h.reads.countP RecvEvent.moves < n + 2 ∨
    h.conn.sched.countP SendEvent.moves < 9 * n + 12

/-- The final message, behind output that was sent already. -/
lemma send_done {h k : Host} {chunks : List Bytes} (hc : ∀ c ∈ chunks, c ≠ [])
    (hs : h.conn.Sent (outputFrames chunks) k.conn) (hr : h.conn.Reliable)
    (ho : k.connOpen = true) (exit : ℤ) :
    (handle T (.sendMsg k.cfd msgTaskDone (donePayload exit)) k = none ∧
        h.conn.sched.countP SendEvent.moves < 9 * chunks.flatten.length + 12) ∨
      ∃ k', handle T (.sendMsg k.cfd msgTaskDone (donePayload exit)) k = some (0, k') ∧
        h.conn.Sent (taskFrames chunks exit) k'.conn := by
  rw [handle_sendMsg ho, transmit]
  rcases k.conn.transmit_cases (hs.reliable hr) k.cfd msgTaskDone (donePayload exit) with
    ⟨ht, hst⟩ | ⟨conn, ht, hsent⟩
  · refine .inl ⟨by rw [ht]; rfl, ?_⟩
    have := hs.moves
    have := length_outputFrames hc
    simp only [length_frame, length_donePayload, headerSize] at hst
    omega
  · exact .inr ⟨_, by rw [ht]; rfl, hs.trans hsent⟩

/-- The run stage and the final message, behind compiler output that was sent already. -/
lemma run_runBinary_sent (rounds : ℕ) (src bin : TmpPath) {h : Host} {w : ℕ} {es : List PipeEvent}
    {fs : List Bool} {ws : List WaitEvent} (hp : h.pipes = .ok :: es) (hf : h.forks = true :: fs)
    (hw : h.waits = ⟨true, w⟩ :: ws) (hre : ∀ p ∈ h.procs, p.reaped = true)
    (ho : h.connOpen = true) (hc : h.conn.Reliable) :
    ((runBinary rounds h.cfd src bin).run (handle T) h = none ∧
        (h.reads.length < rounds → h.reads.countP RecvEvent.moves ≤ (h.launchBin T bin).out.length ∨
          h.conn.sched.countP SendEvent.moves < 9 * (h.launchBin T bin).out.length + 12)) ∨
      ∃ chunks h', (runBinary rounds h.cfd src bin).run (handle T) h = some ((), h') ∧
        h.TaskSent (h.launchBin T bin).out (h.launchBin T bin).status.mapped chunks h' := by
  rcases run_runStage_sent (T := T) rounds es (h.launches_execBin bin) hf hw hre ho hc with
    ⟨hs, hst⟩ | ⟨chunks, k, hs, hk⟩
  · refine .inl ⟨?_, fun hlt => (hst hlt).imp_right fun hlt => by omega⟩
    simp [runBinary, WorkCall.doPipe, handle_pipe hp, hs]
  · have hkc : k.cfd = h.cfd := hk.cfd
    have hsent : h.conn.Sent (outputFrames chunks) k.conn := hk.conn
    have hdone := send_done (T := T) (fun c hmem => (hk.chunk c hmem).1) hsent hc hk.connOpen
      (h.launchBin T bin).status.mapped
    rw [hkc, hk.all] at hdone
    rcases hdone with ⟨hd, hst⟩ | ⟨k', hd, hconn⟩
    · refine .inl ⟨?_, fun _ => .inr hst⟩
      simp [runBinary, WorkCall.doPipe, handle_pipe hp, hs, WorkCall.doSendMsg, hd]
    · refine .inr ⟨chunks, (k'.setFile src none).setFile bin none, ?_, hk.chunk, hk.all, hconn⟩
      simp [runBinary, WorkCall.doPipe, handle_pipe hp, hs, WorkCall.doSendMsg, hd,
        WorkCall.doUnlink, WorkCall.doLoad, loadTaskDone, LoadCall.doFetchSub]

end Host

/-! ### A whole task -/

/-- The run of the binary that gcc wrote. -/
def Tools.runOf (T : Tools) (c : GccRun) : BinRun :=
  match c.bin with
  | none       => { out := [], status := .exited 127 }
  | some image => T.run image

/-- What the client is to see of a source file. -/
def Tools.output (T : Tools) (data : Bytes) : Bytes :=
  let c := T.gcc (some data)
  if c.status.mapped ≠ 0 then c.out else c.out ++ (T.runOf c).out

/-- The exit code the client is to get for a source file. -/
def Tools.exit (T : Tools) (data : Bytes) : ℤ :=
  let c := T.gcc (some data)
  if c.status.mapped ≠ 0 then c.status.mapped else (T.runOf c).status.mapped

lemma Tools.exit_mem (T : Tools) (data : Bytes) : 0 ≤ T.exit data ∧ T.exit data < 256 := by
  simp only [exit]
  split
  · exact WaitStatus.mapped_mem _
  · exact WaitStatus.mapped_mem _

namespace Host

/-- A host on which no call of a task with this file fails. -/
structure Smooth (h : Host) (data : Bytes) : Prop where
  fopens : ∃ es, h.fopens = true :: es
  fwrites : ∃ n es, h.fwrites = n :: es ∧ data.length ≤ n
  pipes : ∃ es, h.pipes = .ok :: .ok :: es
  forks : ∃ es, h.forks = true :: true :: es
  waits : ∃ w₁ w₂ es, h.waits = ⟨true, w₁⟩ :: ⟨true, w₂⟩ :: es
  stream : h.stream = none
  reaped : ∀ p ∈ h.procs, p.reaped = true
  connOpen : h.connOpen = true
  conn : h.conn.Reliable

section Compiled

variable {rounds : ℕ} {src bin : TmpPath} {data : Bytes} {g k : Host} {es : List PipeEvent}
  {chunks : List Bytes}

/-- Everything for a task is sent, unless one of the schedules ends first. -/
def SendsTask (T : Tools) (rounds : ℕ) (p : WorkProg Unit) (data : Bytes) (h : Host) : Prop :=
  (p.run (handle T) h = none ∧ h.TaskStarved rounds (T.output data).length) ∨
    ∃ chunks h', p.run (handle T) h = some ((), h') ∧
      h.TaskSent (T.output data) (T.exit data) chunks h'

/-- gcc failed: its exit code is the last message. -/
lemma sendsTask_failed (hsrc : g.files src = some data) (hp : g.pipes = .ok :: es)
    (hs : (runStage rounds g.cfd (g.pipeRet .ok) (.execSh ⟨bin, src⟩)).run (handle T)
      (g.piped es .ok) = some ((g.launchGcc T ⟨bin, src⟩).status.mapped, k))
    (hk : (g.piped es .ok).StageSent (g.launchGcc T ⟨bin, src⟩) chunks k) (hc : g.conn.Reliable)
    (he : (T.gcc (some data)).status.mapped ≠ 0) :
    g.SendsTask T rounds (compileAndRun rounds g.cfd src bin) data := by
  have hret : (g.pipeRet .ok).ret = 0 := rfl
  have hst : (g.launchGcc T ⟨bin, src⟩).status = (T.gcc (some data)).status := by
    rw [launchGcc, hsrc]
  have hout : T.output data = (T.gcc (some data)).out := by simp [Tools.output, he]
  have hexit : T.exit data = (T.gcc (some data)).status.mapped := by simp [Tools.exit, he]
  have hall : chunks.flatten = T.output data := by
    rw [hk.all, hout, launchGcc, hsrc]
  have hne : ∀ c ∈ chunks, c ≠ [] := fun c hc => (hk.chunk c hc).1
  have hsent : g.conn.Sent (outputFrames chunks) k.conn := hk.conn
  have hkc : k.cfd = g.cfd := hk.cfd
  have hdone := send_done (T := T) hne hsent hc hk.connOpen (T.exit data)
  rw [hkc, hall] at hdone
  rw [hst] at hs
  rcases hdone with ⟨hd, hst⟩ | ⟨k', hd, hconn⟩
  · refine .inl ⟨?_, fun _ => .inr hst⟩
    rw [hexit] at hd
    simp [compileAndRun, WorkCall.doPipe, handle_pipe hp, hret, hs, he, WorkCall.doSendMsg, hd]
  · refine .inr ⟨chunks, k'.setFile src none, ?_, hk.chunk, hall, hconn⟩
    rw [hexit] at hd
    simp [compileAndRun, WorkCall.doPipe, handle_pipe hp, hret, hs, he, WorkCall.doSendMsg, hd,
      WorkCall.doUnlink, WorkCall.doLoad, loadTaskDone, LoadCall.doFetchSub]

/-- The binary that gcc wrote is the one that is run. -/
lemma launchBin_of_gcc (hsrc : g.files src = some data)
    (hk : (g.piped es .ok).StageSent (g.launchGcc T ⟨bin, src⟩) chunks k)
    (he : (T.gcc (some data)).status.mapped = 0) :
    (k.launchBin T bin).out = (T.runOf (T.gcc (some data))).out ∧
      (k.launchBin T bin).status = (T.runOf (T.gcc (some data))).status := by
  have hwrote := (T.gcc (some data)).wrote (WaitStatus.mapped_eq_zero.mp he)
  obtain ⟨image, himage⟩ := Option.isSome_iff_exists.mp hwrote
  have hbin : k.files bin = some image := by
    rw [hk.done.files, launchGcc, hsrc]
    simp [himage]
  simp [launchBin, hbin, Tools.runOf, himage]

/-- gcc exited with 0: its binary is run. -/
lemma sendsTask_passed {fs : List Bool} {w₁ w₂ : ℕ} {ws : List WaitEvent}
    (hsrc : g.files src = some data) (hp : g.pipes = .ok :: .ok :: es)
    (hf : g.forks = true :: true :: fs) (hw : g.waits = ⟨true, w₁⟩ :: ⟨true, w₂⟩ :: ws)
    (hre : ∀ p ∈ g.procs, p.reaped = true)
    (hs : (runStage rounds g.cfd (g.pipeRet .ok) (.execSh ⟨bin, src⟩)).run (handle T)
      (g.piped (.ok :: es) .ok) = some ((g.launchGcc T ⟨bin, src⟩).status.mapped, k))
    (hk : (g.piped (.ok :: es) .ok).StageSent (g.launchGcc T ⟨bin, src⟩) chunks k)
    (hc : g.conn.Reliable) (he : (T.gcc (some data)).status.mapped = 0) :
    g.SendsTask T rounds (compileAndRun rounds g.cfd src bin) data := by
  obtain ⟨c, hcdef⟩ : ∃ c, c = T.gcc (some data) := ⟨_, rfl⟩
  have hret : (g.pipeRet .ok).ret = 0 := rfl
  have hst : (g.launchGcc T ⟨bin, src⟩).status = c.status := by rw [launchGcc, hsrc, hcdef]
  have hlout : (g.launchGcc T ⟨bin, src⟩).out = c.out := by rw [launchGcc, hsrc, hcdef]
  have hrun := launchBin_of_gcc hsrc hk he
  rw [← hcdef] at he hrun
  have hout : T.output data = c.out ++ (T.runOf c).out := by simp [Tools.output, ← hcdef, he]
  have hexit : T.exit data = (T.runOf c).status.mapped := by simp [Tools.exit, ← hcdef, he]
  have hkc : k.cfd = g.cfd := hk.cfd
  have hstep : (compileAndRun rounds g.cfd src bin).run (handle T) g =
      (runBinary rounds k.cfd src bin).run (handle T) k := by
    rw [hst] at hs
    simp [compileAndRun, WorkCall.doPipe, handle_pipe hp, hret, hs, he, hkc]
  have hkp : k.pipes = .ok :: es := hk.done.pipes.trans rfl
  have hkf : k.forks = true :: fs := by rw [hk.done.forks]; simp [piped, hf]
  have hkw : k.waits = ⟨true, w₂⟩ :: ws := by rw [hk.done.waits]; simp [piped, hw]
  have hkre : ∀ p ∈ k.procs, p.reaped = true := by
    rw [hk.done.procs]
    intro p hp
    rcases List.mem_append.mp hp with hp | hp
    · exact hre p hp
    · rw [List.mem_singleton.mp hp]
  have hsent : g.conn.Sent (outputFrames chunks) k.conn := hk.conn
  have hkall : chunks.flatten = c.out := hk.all.trans hlout
  rw [SendsTask, hstep]
  rcases run_runBinary_sent (T := T) rounds src bin hkp hkf hkw hkre hk.connOpen
    (hsent.reliable hc) with ⟨hr, hst⟩ | ⟨chunks', h', hr, hk'⟩
  · refine .inl ⟨hr, fun hlt => ?_⟩
    have hreads : k.reads.length ≤ g.reads.length := hk.reads.length_le
    have hmoves : g.reads.countP RecvEvent.moves ≤
        k.reads.countP RecvEvent.moves + c.out.length + 1 := hlout ▸ hk.moves
    have hcm := hsent.moves
    have hcl := length_outputFrames fun c hc => (hk.chunk c hc).1
    rw [hkall] at hcl
    rw [hrun.1] at hst
    rw [hout, List.length_append]
    exact (hst (hreads.trans_lt hlt)).imp (fun h => by omega) fun h => by omega
  · refine .inr ⟨chunks ++ chunks', h', hr, ?_, ?_, ?_⟩
    · intro d hd
      exact (List.mem_append.mp hd).elim (hk.chunk d) (hk'.chunk d)
    · rw [List.flatten_append, hkall, hk'.all, hout, hrun.1]
    · have hconn := hsent.trans hk'.conn
      rw [hrun.2, ← hexit] at hconn
      rw [taskFrames, outputFrames_append, List.append_assoc]
      exact hconn

/-- Both stages, behind a source file that is written. -/
lemma sendsTask_compileAndRun (rounds : ℕ) {fs : List Bool} {w₁ w₂ : ℕ} {ws : List WaitEvent}
    (hsrc : g.files src = some data) (hp : g.pipes = .ok :: .ok :: es)
    (hf : g.forks = true :: true :: fs) (hw : g.waits = ⟨true, w₁⟩ :: ⟨true, w₂⟩ :: ws)
    (hre : ∀ p ∈ g.procs, p.reaped = true) (ho : g.connOpen = true) (hc : g.conn.Reliable) :
    g.SendsTask T rounds (compileAndRun rounds g.cfd src bin) data := by
  have hret : (g.pipeRet .ok).ret = 0 := rfl
  have hlen : (g.launchGcc T ⟨bin, src⟩).out.length ≤ (T.output data).length := by
    rw [launchGcc, hsrc]
    simp only [Tools.output]
    split <;> simp
  rcases run_runStage_sent (T := T) rounds (.ok :: es) (g.launches_execSh ⟨bin, src⟩) hf hw hre ho
    hc with ⟨hs, hst⟩ | ⟨chunks, k, hs, hk⟩
  · refine .inl ⟨?_, fun hlt => ?_⟩
    · simp [compileAndRun, WorkCall.doPipe, handle_pipe hp, hret, hs]
    · exact (hst hlt).imp (fun h => by omega) fun h => by omega
  · by_cases he : (T.gcc (some data)).status.mapped = 0
    · exact sendsTask_passed hsrc hp hf hw hre hs hk hc he
    · exact sendsTask_failed hsrc hp hs hk hc he

end Compiled

/-- The frames of a task are its output and its exit code, unless one of the schedules ends
first. -/
theorem run_compileAndStream_sent (T : Tools) (rounds : ℕ) (name data : Bytes) {h : Host}
    (hs : h.Smooth data) :
    ((compileAndStream rounds h.cfd name data).run (handle T) h = none ∧
        h.TaskStarved rounds (T.output data).length) ∨
      ∃ chunks h', (compileAndStream rounds h.cfd name data).run (handle T) h = some ((), h') ∧
        h.TaskSent (T.output data) (T.exit data) chunks h' := by
  obtain ⟨⟨fo, hfo⟩, ⟨n, fw, hfw, hn⟩, ⟨es, hes⟩, ⟨fs, hfs⟩, ⟨w₁, w₂, ws, hws⟩, hst, hre, ho,
    hc⟩ := hs
  rw [run_compileAndStream rounds h.cfd name data hfo hfw hst]
  have hsrc : (h.sourceWritten data n fo fw).files (.src h.pid) = some data := by
    simp [sourceWritten, setFile, List.take_of_length_le hn]
  have hsends : (h.sourceWritten data n fo fw).SendsTask T rounds
      (compileAndRun rounds h.cfd (.src h.pid) (.bin h.pid)) data :=
    sendsTask_compileAndRun rounds hsrc hes hfs hws hre ho hc
  rcases hsends with hnone | ⟨chunks, h', hrun, hsent⟩
  · exact .inl hnone
  · exact .inr ⟨chunks, h', hrun, hsent.chunk, hsent.all, hsent.conn⟩

end Host
end P2PNode
