import P2PNode.Lib.Always
import P2PNode.Worker.Decoder

/-!
# What a thread of the worker holds

The threads of the worker as an automaton over their connection: its descriptor, its argument block
and its payload, and the ends of a pipe that are still to be closed. The automaton takes no answer
with which the code goes wrong: `malloc` and `pthread_create` succeed, and so does the second `pipe`
of a handler, that of the run stage.
-/

namespace P2PNode

open Effect

instance (out : MsgOut) : Decidable out.WellFormed :=
  decidable_of_iff (out.len ≤ maxPayload ∧ (out.payload = none → out.len = 0) ∧
      ∀ b ∈ out.payload, b.bytes.length = out.len + 1)
    ⟨fun ⟨h₁, h₂, h₃⟩ => ⟨h₁, h₂, h₃⟩, fun h => ⟨h.le, h.null, h.block⟩⟩

/-- What `recv_msg` can return: -1 without a payload, or 0 with a well-formed message. -/
def SoundRecv (got : ℤ × MsgOut) : Prop :=
  (got.1 = -1 ∧ got.2.payload = none) ∨ (got.1 = 0 ∧ got.2.WellFormed)

instance (got : ℤ × MsgOut) : Decidable (SoundRecv got) := by
  unfold SoundRecv
  infer_instance

/-- `recv_msg` returns nothing else. -/
lemma soundRecv_of_run {r r' : Receiver} {rounds : ℕ} {fd : Fd} {out out' : MsgOut} {ret : ℤ}
    (hnull : out.payload = none)
    (h : (recvMsg rounds fd out).run Receiver.handle r = some ((ret, out'), r')) :
    SoundRecv (ret, out') := by
  obtain ⟨hres, hdone⟩ := Receiver.recvResult_of_run h
  by_cases hf : FrontFrame r.pending
  · have hacc := hdone.accepted hf out
    rw [hres] at hacc
    rw [Receiver.recvResult_of_front hf] at hres
    exact .inr ⟨(congrArg Prod.fst hres).symm, hacc.wellFormed hf⟩
  · have hnot := Receiver.recvResult_of_not_front hf r.heap.next out
    rw [hres] at hnot
    exact .inl ⟨hnot.1, hnot.2 hnull⟩

/-! ### The automaton of a task -/

/-- A task inside `compile_and_stream`: how many pipes it made, and the ends still to be closed. -/
inductive TaskHold where
  | at (pipes : ℕ) (ends : List Fd)
  | bad

namespace TaskHold

/-- After a `pipe`; the second one must succeed. -/
def pipe (pipes : ℕ) (ends : List Fd) (p : PipeRet) : Option TaskHold :=
  if p.ret = 0 then some (if ends = [] then .at (pipes + 1) [p.wr, p.rd] else .bad)
  else if pipes = 0 then some (.at 1 ends) else none

/-- After the close of a pipe end. -/
def close (pipes : ℕ) (ends : List Fd) (fd : Fd) : TaskHold :=
  match ends with
  | [] => .bad
  | e :: es => if fd = e then .at pipes es else .bad

def next (cfd : Fd) : Kernel WorkCall WorkCall.Ret TaskHold
  | .at n ends, .pipe, p => pipe n ends p
  | .at n ends, .close fd, _ => some (close n ends fd)
  | .at n ends, .read fd _, _ => some (if fd ∈ ends then .at n ends else .bad)
  | .at n ends, .sendMsg fd _ _, _ => some (if fd = cfd then .at n ends else .bad)
  | .at _ _, .recvMsg _, _ => some .bad
  | .at _ _, .malloc _, _ => some .bad
  | .at _ _, .free _, _ => some .bad
  | .at _ _, .accept _, _ => some .bad
  | .at _ _, .pthreadCreate _, _ => some .bad
  | q, _, _ => some q

def Good (q : TaskHold) : Prop := q ≠ .bad

section Always

variable {α : Type} {cfd : Fd} {n : ℕ} {ends : List Fd} {post : α → TaskHold → Prop}

/-- A call that the state does not depend on. -/
lemma always_other {c : WorkCall} {k : c.Ret → WorkProg α}
    (hc : ∀ r, next cfd (.at n ends) c r = some (.at n ends))
    (hk : ∀ r, (k r).Always (next cfd) Good post (.at n ends)) :
    (Prog.perform c >>= k).Always (next cfd) Good post (.at n ends) := by
  refine ⟨nofun, fun r q hq => ?_⟩
  rw [hc r] at hq
  cases hq
  exact hk r

lemma always_sendMsg {type : MsgType} {payload : Bytes} {k : ℤ → WorkProg α}
    (hk : ∀ ret, (k ret).Always (next cfd) Good post (.at n ends)) :
    (WorkCall.doSendMsg cfd type payload >>= k).Always (next cfd) Good post (.at n ends) :=
  always_other (fun _ => congrArg some (if_pos rfl)) hk

lemma always_close {fd : Fd} {k : Unit → WorkProg α}
    (hk : (k ()).Always (next cfd) Good post (.at n ends)) :
    (WorkCall.doClose fd >>= k).Always (next cfd) Good post (.at n (fd :: ends)) := by
  refine ⟨nofun, fun _ q hq => ?_⟩
  simp only [next, close, if_true, Option.some.injEq] at hq
  subst hq
  exact hk

lemma always_read {fd : Fd} {size : ℕ} {k : RecvRet → WorkProg α} (hfd : fd ∈ ends)
    (hk : ∀ got, (k got).Always (next cfd) Good post (.at n ends)) :
    (WorkCall.doRead fd size >>= k).Always (next cfd) Good post (.at n ends) :=
  always_other (fun _ => congrArg some (if_pos hfd)) hk

lemma always_pipe {k : PipeRet → WorkProg α}
    (hok : ∀ p, p.ret = 0 → (k p).Always (next cfd) Good post (.at (n + 1) [p.wr, p.rd]))
    (hfail : n = 0 → ∀ p, p.ret ≠ 0 → (k p).Always (next cfd) Good post (.at 1 [])) :
    (WorkCall.doPipe >>= k).Always (next cfd) Good post (.at n []) := by
  refine ⟨nofun, fun (p : PipeRet) q hq => ?_⟩
  simp only [next, pipe, if_true] at hq
  split at hq
  · rename_i hp
    cases hq
    exact hok p hp
  · rename_i hp
    split at hq
    · rename_i hn
      cases hq
      exact hfail hn p hp
    · cases hq

/-- The last call of a task. -/
lemma always_ending :
    (WorkCall.doLoad loadTaskDone).Always (next cfd) Good (fun _ q => ∃ n, q = .at n [])
      (.at n []) :=
  always_other (fun _ => rfl) fun _ => ⟨nofun, n, rfl⟩

lemma always_streamLoop (rounds : ℕ) (pid : ℤ) (rd : Fd) :
    (streamLoop rounds cfd rd pid).Always (next cfd) Good (fun _ q => q = .at n [rd])
      (.at n [rd]) := by
  induction rounds with
  | zero => exact nofun
  | succ rounds ih =>
    apply always_read (List.mem_singleton.2 rfl)
    intro got
    cases got with
    | intr => exact ih
    | err => exact ⟨nofun, rfl⟩
    | data buf =>
      cases buf with
      | nil => exact ⟨nofun, rfl⟩
      | cons b bs =>
        apply always_sendMsg
        intro ret
        split
        · exact always_other (fun _ => rfl) fun _ => ⟨nofun, rfl⟩
        · exact ih

/-- A stage closes both ends of its pipe. -/
lemma always_runStage (rounds : ℕ) (p : PipeRet) (exec : ChildCall) :
    (runStage rounds cfd p exec).Always (next cfd) Good (fun _ q => q = .at n [])
      (.at n [p.wr, p.rd]) := by
  apply always_other (fun _ => rfl)
  intro pid
  apply always_close
  apply Prog.Always.bind
  apply Prog.Always.bind
  apply (always_streamLoop rounds pid p.rd).mono
  rintro _ q rfl
  apply always_other (fun _ => rfl)
  intro status
  refine ⟨nofun, ?_⟩
  apply always_close
  exact ⟨nofun, rfl⟩

lemma always_runBinary (rounds : ℕ) (src bin : TmpPath) (hn : n ≠ 0) :
    (runBinary rounds cfd src bin).Always (next cfd) Good (fun _ q => ∃ n, q = .at n [])
      (.at n []) := by
  apply always_pipe
  · intro p _
    apply Prog.Always.bind
    apply (always_runStage rounds p (.execBin bin)).mono
    rintro exit q rfl
    apply always_sendMsg
    intro _
    apply always_other (fun _ => rfl)
    intro _
    apply always_other (fun _ => rfl)
    intro _
    exact always_ending
  · exact fun h => absurd h hn

lemma always_compileAndRun (rounds : ℕ) (src bin : TmpPath) :
    (compileAndRun rounds cfd src bin).Always (next cfd) Good (fun _ q => ∃ n, q = .at n [])
      (.at 0 []) := by
  apply always_pipe
  · intro p hp
    rw [if_pos hp]
    apply Prog.Always.bind
    apply (always_runStage rounds p (.execSh ⟨bin, src⟩)).mono
    rintro exit q rfl
    split
    · apply always_sendMsg
      intro _
      apply always_other (fun _ => rfl)
      intro _
      exact always_ending
    · exact always_runBinary rounds src bin (Nat.succ_ne_zero _)
  · intro _ p hp
    rw [if_neg hp]
    exact always_runBinary rounds src bin Nat.one_ne_zero

end Always
end TaskHold

/-! ### The automaton of a thread -/

inductive Custody where
  /-- The accept loop before its first call, with its argument. -/
  | starting (arg : Ptr)
  /-- Nothing is held. -/
  | idle
  /-- The connection was accepted. -/
  | admitted (cfd : Fd)
  /-- The connection and its argument block. -/
  | allocated (cfd : Fd) (p : Ptr)
  /-- The handler has freed its argument block. -/
  | receiving (cfd : Fd)
  /-- Behind `recv_msg`: the payload that is to be freed, and what the task holds. -/
  | working (cfd : Fd) (payload : Option Ptr) (pipes : ℕ) (ends : List Fd)
  | bad

namespace Custody

/-- A task inside the handler. -/
def ofTask (cfd : Fd) (payload : Option Ptr) : TaskHold → Custody
  | .at n ends => .working cfd payload n ends
  | .bad => .bad

/-- The calls of the worker. -/
def work : Kernel WorkCall WorkCall.Ret Custody
  | .starting arg, .free p, _ => some (if p = some arg then .idle else .bad)
  | .idle, .accept _, .conn cfd => some (.admitted cfd)
  | .idle, .accept _, _ => some .idle
  | .admitted cfd, .load _, _ => some (.admitted cfd)
  | .admitted cfd, .close fd, _ => some (if fd = cfd then .idle else .bad)
  | .admitted cfd, .malloc _, p => p.map (.allocated cfd)
  | .allocated cfd p, .pthreadCreate ca, ret =>
    if ret = (0 : ℤ) then some (if ca = ⟨p, cfd⟩ then .idle else .bad) else none
  | .allocated cfd p, .free p', _ => some (if p' = some p then .receiving cfd else .bad)
  | .working cfd payload n ends, .free none, _ => some (.working cfd payload n ends)
  | .working cfd payload n ends, .free (some p), _ =>
    some (if payload = some p then .working cfd none n ends else .bad)
  | .working cfd none _ [], .close fd, _ => some (if fd = cfd then .idle else .bad)
  | .working cfd payload n ends, c, r =>
    (TaskHold.next cfd (.at n ends) c r).map (ofTask cfd payload)
  | _, _, _ => some .bad

def next : Kernel MemCall MemCall.Ret Custody
  | q, .work c, r => work q c r
  | .receiving cfd, .recvMsg fd, got =>
    if SoundRecv got then
      some (if fd = cfd then .working cfd (got.2.payload.map Block.addr) 0 [] else .bad)
    else none
  | .allocated cfd p, .storeArgs p', _ => some (if p' = p then .allocated cfd p else .bad)
  | .allocated cfd p, .loadArgs p', _ => some (if p' = p then .allocated cfd p else .bad)
  | .working cfd payload n ends, .load p _ _, _ =>
    some (if payload = some p then .working cfd payload n ends else .bad)
  | .working cfd payload n ends, .store _ _, _ => some (.working cfd payload n ends)
  | .working cfd payload n ends, .enter _ _ _ _, _ => some (.working cfd payload n ends)
  | _, _, _ => some .bad

def Good (q : Custody) : Prop := q ≠ .bad

section Always

variable {α : Type} {cfd : Fd} {payload : Option Ptr} {n : ℕ} {ends : List Fd}
  {post : α → Custody → Prop}

/-- A call with one possible next state. -/
lemma always_perform {c : MemCall} {k : c.Ret → MemProg α} {q q' : Custody} (hq : Good q)
    (hc : ∀ r, next q c r = some q') (hk : ∀ r, (k r).Always next Good post q') :
    (Prog.perform c >>= k).Always next Good post q := by
  refine ⟨hq, fun r t ht => ?_⟩
  rw [hc r] at ht
  cases ht
  exact hk r

/-- A call of the worker that the state does not depend on. -/
lemma always_other {c : WorkCall} {k : c.Ret → MemProg α}
    (hc : ∀ r, work (.working cfd payload n ends) c r = some (.working cfd payload n ends))
    (hk : ∀ r, (k r).Always next Good post (.working cfd payload n ends)) :
    (MemCall.doWork (Prog.perform c) >>= k).Always next Good post (.working cfd payload n ends) :=
  always_perform (c := .work c) nofun hc hk

/-- During the task the payload is held, and every call but `free` is one of the task. -/
lemma work_of_task {ptr : Ptr} {c : WorkCall} (hc : ∀ p, c ≠ .free p) (r : c.Ret) :
    work (.working cfd (some ptr) n ends) c r =
      (TaskHold.next cfd (.at n ends) c r).map (ofTask cfd (some ptr)) := by
  cases c
  case free p => exact absurd rfl (hc p)
  all_goals rfl

/-- The part of a task behind the writing of the source file. -/
lemma always_compileAndRun (rounds : ℕ) (src bin : TmpPath) (ptr : Ptr) :
    (MemCall.doWork (compileAndRun rounds cfd src bin)).Always next Good
      (fun _ q => ∃ n, q = .working cfd (some ptr) n []) (.working cfd (some ptr) 0 []) := by
  have htask : (compileAndRun rounds cfd src bin).Always (TaskHold.next cfd) TaskHold.Good
      (fun _ q => ∃ n, q = .at n []) (.at 0 []) := TaskHold.always_compileAndRun rounds src bin
  have h := htask.embed_inv next Good (ofTask cfd (some ptr)) (f := MemCall.work)
    (g := fun _ r => r) ?_ ?_
  · apply h.mono
    rintro _ q ⟨t, rfl, n, rfl⟩
    exact ⟨n, rfl⟩
  · intro t c r q hq
    cases t with
    | bad => exact ⟨.bad, rfl, fun hbad => absurd rfl hbad⟩
    | «at» n ends =>
      by_cases hc : ∃ p, c = .free p
      · obtain ⟨p, rfl⟩ := hc
        exact ⟨.bad, rfl, fun hbad => absurd rfl hbad⟩
      · obtain ⟨t, ht, rfl⟩ := Option.map_eq_some_iff.1
          ((work_of_task (fun p hp => hc ⟨p, hp⟩) r).symm.trans hq)
        exact ⟨t, ht, fun _ => rfl⟩
  · intro t ht
    cases t with
    | bad => exact absurd rfl ht
    | «at» n ends => exact nofun

/-- A read of the payload. -/
lemma always_load {ptr : Ptr} {off len : ℕ} {k : Bytes → MemProg α}
    (hk : ∀ bytes, (k bytes).Always next Good post (.working cfd (some ptr) n ends)) :
    (MemCall.doLoad ptr off len >>= k).Always next Good post (.working cfd (some ptr) n ends) :=
  always_perform (c := .load ptr off len) nofun (fun _ => congrArg some (if_pos rfl)) hk

lemma always_store {off : ℕ} {bytes : Bytes} {k : Unit → MemProg α}
    (hk : (k ()).Always next Good post (.working cfd payload n ends)) :
    (MemCall.doStore off bytes >>= k).Always next Good post (.working cfd payload n ends) :=
  always_perform (c := .store off bytes) nofun (fun _ => rfl) fun _ => hk

lemma always_compileAndStreamMem (rounds : ℕ) (ptr : Ptr) (off len : ℕ) :
    (compileAndStreamMem rounds cfd ptr off len).Always next Good
      (fun _ q => ∃ n, q = .working cfd (some ptr) n []) (.working cfd (some ptr) 0 []) := by
  refine always_perform (c := .enter cfd ptr off len) nofun (fun _ => rfl) ?_
  intro _
  refine always_perform (c := .work (.load (.fetchAdd .activeTasks))) nofun (fun _ => rfl) ?_
  intro _
  refine always_perform (c := .work (.load (.fetchAdd .totalTasks))) nofun (fun _ => rfl) ?_
  intro _
  apply always_other (fun _ => rfl)
  intro pid
  apply always_other (fun _ => rfl)
  intro pid'
  apply always_other (fun _ => rfl)
  intro file
  cases file with
  | none =>
    refine always_perform (c := .work (.load (.fetchSub .activeTasks))) nofun (fun _ => rfl) ?_
    intro _
    exact ⟨nofun, 0, rfl⟩
  | some f =>
    apply always_load
    intro data
    apply always_other (fun _ => rfl)
    intro _
    apply always_other (fun _ => rfl)
    intro _
    exact always_compileAndRun rounds _ _ ptr

lemma always_decodeTaskFileMem (ptr : Ptr) (plen : ℕ) :
    (decodeTaskFileMem ptr plen).Always next Good
      (fun _ q => q = .working cfd (some ptr) 0 []) (.working cfd (some ptr) 0 []) := by
  rw [decodeTaskFileMem]
  split
  · exact ⟨by simp [Good], rfl⟩
  apply always_load
  intro _
  simp only
  split
  · exact ⟨by simp [Good], rfl⟩
  apply always_load
  intro _
  apply always_store
  apply always_store
  apply always_load
  intro _
  split
  · exact ⟨by simp [Good], rfl⟩
  · exact ⟨by simp [Good], rfl⟩

/-- The case gives back the payload that is still to be freed. -/
lemma always_taskFileCaseMem (rounds : ℕ) {out : MsgOut} (hout : out.WellFormed) :
    (taskFileCaseMem rounds cfd out).Always next Good
      (fun res q => ∃ n, q = .working cfd res n [])
      (.working cfd (out.payload.map Block.addr) 0 []) := by
  rw [taskFileCaseMem]
  cases hb : out.payload with
  | none =>
    have h6 : out.len < 6 := by
      rw [hout.null hb]
      exact Nat.succ_pos 5
    simp only [if_pos h6]
    exact ⟨by simp [Good], 0, rfl⟩
  | some b =>
    apply Prog.Always.bind
    apply (always_decodeTaskFileMem b.addr out.len).mono
    rintro res q rfl
    cases res with
    | none => exact ⟨by simp [Good], 0, rfl⟩
    | some x =>
      apply Prog.Always.bind
      apply (always_compileAndStreamMem rounds b.addr x.1 x.2).mono
      rintro _ q ⟨n, rfl⟩
      refine always_perform (c := .work (.free (some b.addr))) (by simp [Good])
        (fun _ => congrArg some (if_pos rfl)) ?_
      intro _
      exact ⟨by simp [Good], n, rfl⟩

/-- The last two calls of a handler. -/
lemma always_leave :
    (MemCall.doWork (WorkCall.doFree payload) >>= fun _ =>
      MemCall.doWork (WorkCall.doClose cfd)).Always next Good (fun _ q => q = .idle)
      (.working cfd payload n []) := by
  have hfree (r : Unit) : next (.working cfd payload n []) (.work (.free payload)) r =
      some (.working cfd none n []) := by
    cases payload with
    | none => rfl
    | some p => exact congrArg some (if_pos rfl)
  refine always_perform (c := .work (.free payload)) nofun hfree ?_
  · intro _
    refine always_perform (c := .work (.close cfd)) nofun (fun _ => congrArg some (if_pos rfl)) ?_
    intro _
    exact ⟨nofun, rfl⟩

/-- What `recv_msg` can return. -/
lemma always_recvMsg {k : ℤ × MsgOut → MemProg α}
    (hk : ∀ got, SoundRecv got →
      (k got).Always next Good post (.working cfd (got.2.payload.map Block.addr) 0 [])) :
    (MemCall.doRecvMsg cfd >>= k).Always next Good post (.receiving cfd) := by
  refine ⟨nofun, fun got q hq => ?_⟩
  simp only [next, if_true] at hq
  split at hq
  · rename_i hs
    cases hq
    exact hk got hs
  · cases hq

/-- A handler releases all that it was given. -/
theorem always_handleConnectionMem (rounds : ℕ) (ca : ConnArgs) :
    (handleConnectionMem rounds ca).Always next Good (fun _ q => q = .idle)
      (.allocated ca.client_fd ca.addr) := by
  refine always_perform (c := .loadArgs ca.addr) nofun (fun _ => congrArg some (if_pos rfl)) ?_
  intro _
  refine always_perform (c := .work (.free (some ca.addr))) nofun
    (fun _ => congrArg some (if_pos rfl)) ?_
  intro _
  apply always_recvMsg
  rintro ⟨ret, out⟩ hs
  by_cases hret : ret < 0
  · obtain ⟨-, hnone⟩ | ⟨h0, -⟩ := hs
    · simp only at hnone
      simp only [if_pos hret, hnone, Option.map_none]
      refine always_perform (c := .work (.close ca.client_fd)) nofun
        (fun _ => congrArg some (if_pos rfl)) ?_
      intro _
      exact ⟨nofun, rfl⟩
    · exact absurd hret (not_lt.2 (le_of_eq h0.symm))
  · obtain ⟨h1, -⟩ | ⟨-, hout⟩ := hs
    · exact absurd (lt_of_eq_of_lt h1 (by decide)) hret
    · simp only [if_neg hret]
      split
      · apply Prog.Always.bind
        apply (always_taskFileCaseMem rounds hout).mono
        rintro payload q ⟨n, rfl⟩
        exact always_leave
      · exact always_leave

/-- The accept loop holds nothing between its rounds. -/
theorem always_acceptFromMem (rounds : ℕ) (server_fd : Fd) :
    (acceptFromMem rounds server_fd).Always next Good (fun _ q => q = .idle) .idle := by
  induction rounds with
  | zero => exact nofun
  | succ rounds ih =>
    refine ⟨nofun, fun (got : AcceptRet) q hq => ?_⟩
    cases got with
    | intr =>
      cases hq
      exact ih
    | err =>
      cases hq
      exact ⟨nofun, rfl⟩
    | conn cfd =>
      cases hq
      refine always_perform (c := .work (.load (.atomicLoad .activeTasks))) nofun (fun _ => rfl) ?_
      intro (active : ℕ)
      show (if maxConcurrentTasks ≤ active then _ else _ : MemProg Unit).Always _ _ _ _
      split
      · refine always_perform (c := .work (.close cfd)) nofun
          (fun _ => congrArg some (if_pos rfl)) ?_
        intro _
        exact ih
      · refine ⟨nofun, fun (ptr : Option Ptr) q hq => ?_⟩
        obtain ⟨p, rfl, rfl⟩ := Option.map_eq_some_iff.1 hq
        refine always_perform (c := .storeArgs p) nofun (fun _ => congrArg some (if_pos rfl)) ?_
        intro _
        refine ⟨nofun, fun (ret : ℤ) q hq => ?_⟩
        simp only [next, work, if_true] at hq
        split at hq
        · cases hq
          exact ih
        · cases hq

theorem always_acceptLoopMem (rounds : ℕ) (arg : Ptr) (server_fd : Fd) :
    (acceptLoopMem rounds arg server_fd).Always next Good (fun _ q => q = .idle)
      (.starting arg) := by
  refine always_perform (c := .work (.free (some arg))) nofun
    (fun _ => congrArg some (if_pos rfl)) ?_
  intro _
  exact always_acceptFromMem rounds server_fd

end Always

/-! ### What a thread does next -/

/-- The calls that touch neither a descriptor nor a block. -/
def Quiet : WorkCall → Prop
  | .load _ => True
  | .getpid => True
  | .fopen _ => True
  | .fwrite _ _ => True
  | .fclose _ => True
  | .unlink _ => True
  | .fork _ => True
  | .kill _ => True
  | .waitpid _ => True
  | _ => False

inductive Step : Custody → (c : MemCall) → c.Ret → Custody → Prop where
  | freeArg (arg : Ptr) (r : Unit) : Step (.starting arg) (.work (.free (some arg))) r .idle
  | accept (server_fd cfd : Fd) : Step .idle (.work (.accept server_fd)) (.conn cfd) (.admitted cfd)
  | noConn (server_fd : Fd) (got : AcceptRet) (h : ∀ cfd, got ≠ .conn cfd) :
    Step .idle (.work (.accept server_fd)) got .idle
  | check (cfd : Fd) (c : LoadCall) (r : c.Ret) :
    Step (.admitted cfd) (.work (.load c)) r (.admitted cfd)
  | refuse (cfd : Fd) (r : Unit) : Step (.admitted cfd) (.work (.close cfd)) r .idle
  | allocate (cfd : Fd) (size : ℕ) (p : Ptr) :
    Step (.admitted cfd) (.work (.malloc size)) (some p) (.allocated cfd p)
  | storeArgs (cfd : Fd) (p : Ptr) (r : Unit) :
    Step (.allocated cfd p) (.storeArgs p) r (.allocated cfd p)
  | create (cfd : Fd) (p : Ptr) :
    Step (.allocated cfd p) (.work (.pthreadCreate ⟨p, cfd⟩)) (0 : ℤ) .idle
  | loadArgs (cfd : Fd) (p : Ptr) (r : Unit) :
    Step (.allocated cfd p) (.loadArgs p) r (.allocated cfd p)
  | freeArgs (cfd : Fd) (p : Ptr) (r : Unit) :
    Step (.allocated cfd p) (.work (.free (some p))) r (.receiving cfd)
  | recv (cfd : Fd) (got : ℤ × MsgOut) (h : SoundRecv got) :
    Step (.receiving cfd) (.recvMsg cfd) got (.working cfd (got.2.payload.map Block.addr) 0 [])
  | load (cfd : Fd) (p : Ptr) (n : ℕ) (ends : List Fd) (off len : ℕ) (bytes : Bytes) :
    Step (.working cfd (some p) n ends) (.load p off len) bytes (.working cfd (some p) n ends)
  | store (cfd : Fd) (payload : Option Ptr) (n : ℕ) (ends : List Fd) (off : ℕ) (bytes : Bytes)
      (r : Unit) :
    Step (.working cfd payload n ends) (.store off bytes) r (.working cfd payload n ends)
  | enter (cfd : Fd) (payload : Option Ptr) (n : ℕ) (ends : List Fd) (cfd' : Fd) (p : Ptr)
      (off len : ℕ) (r : Unit) :
    Step (.working cfd payload n ends) (.enter cfd' p off len) r (.working cfd payload n ends)
  | quiet (cfd : Fd) (payload : Option Ptr) (n : ℕ) (ends : List Fd) (c : WorkCall) (r : c.Ret)
      (hc : Quiet c) :
    Step (.working cfd payload n ends) (.work c) r (.working cfd payload n ends)
  | send (cfd : Fd) (payload : Option Ptr) (n : ℕ) (ends : List Fd) (type : MsgType)
      (bytes : Bytes) (ret : ℤ) :
    Step (.working cfd payload n ends) (.work (.sendMsg cfd type bytes)) ret
      (.working cfd payload n ends)
  | read (cfd : Fd) (payload : Option Ptr) (n : ℕ) (ends : List Fd) (fd : Fd) (size : ℕ)
      (got : RecvRet) (hfd : fd ∈ ends) :
    Step (.working cfd payload n ends) (.work (.read fd size)) got (.working cfd payload n ends)
  | pipe (cfd : Fd) (payload : Option Ptr) (n : ℕ) (p : PipeRet) (hp : p.ret = 0) :
    Step (.working cfd payload n []) (.work .pipe) p (.working cfd payload (n + 1) [p.wr, p.rd])
  | noPipe (cfd : Fd) (payload : Option Ptr) (ends : List Fd) (p : PipeRet) (hp : p.ret ≠ 0) :
    Step (.working cfd payload 0 ends) (.work .pipe) p (.working cfd payload 1 ends)
  | closeEnd (cfd : Fd) (payload : Option Ptr) (n : ℕ) (fd : Fd) (ends : List Fd) (r : Unit) :
    Step (.working cfd payload n (fd :: ends)) (.work (.close fd)) r (.working cfd payload n ends)
  | freeNull (cfd : Fd) (payload : Option Ptr) (n : ℕ) (ends : List Fd) (r : Unit) :
    Step (.working cfd payload n ends) (.work (.free none)) r (.working cfd payload n ends)
  | freePayload (cfd : Fd) (p : Ptr) (n : ℕ) (ends : List Fd) (r : Unit) :
    Step (.working cfd (some p) n ends) (.work (.free (some p))) r (.working cfd none n ends)
  | close (cfd : Fd) (n : ℕ) (r : Unit) :
    Step (.working cfd none n []) (.work (.close cfd)) r .idle

lemma ofTask_ite {c : Prop} [Decidable c] {cfd : Fd} {payload : Option Ptr} {t : TaskHold}
    {q : Custody} (h : ofTask cfd payload (if c then t else .bad) = q) (hg : Good q) :
    c ∧ ofTask cfd payload t = q := by
  rw [apply_ite (ofTask cfd payload)] at h
  exact eq_of_ite_ne h hg

/-- The calls of a task. -/
lemma step_of_task {cfd : Fd} {payload : Option Ptr} {n : ℕ} {ends : List Fd} {c : WorkCall}
    {r : c.Ret} {q : Custody}
    (h : (TaskHold.next cfd (.at n ends) c r).map (ofTask cfd payload) = some q) (hg : Good q) :
    Step (.working cfd payload n ends) (.work c) r q := by
  obtain ⟨t, ht, hq⟩ := Option.map_eq_some_iff.1 h
  -- the other calls leave the task as it is
  have hquiet (hn : TaskHold.next cfd (.at n ends) c r = some (.at n ends)) (hc : Quiet c) :
      Step (.working cfd payload n ends) (.work c) r q := by
    obtain rfl := Option.some.inj (hn.symm.trans ht)
    subst hq
    exact .quiet _ _ _ _ _ _ hc
  -- a task makes none of these
  have hbad (hn : TaskHold.next cfd (.at n ends) c r = some .bad) :
      Step (.working cfd payload n ends) (.work c) r q := by
    obtain rfl := Option.some.inj (hn.symm.trans ht)
    exact absurd hq.symm hg
  cases c with
  | pipe =>
    obtain ⟨p, rfl⟩ : ∃ p : PipeRet, p = r := ⟨_, rfl⟩
    simp only [TaskHold.next, TaskHold.pipe] at ht
    split at ht
    · rename_i hp
      obtain rfl := Option.some.inj ht
      obtain ⟨rfl, rfl⟩ := ofTask_ite hq hg
      exact .pipe _ _ _ _ hp
    · rename_i hp
      split at ht
      · rename_i hn
        obtain rfl := Option.some.inj ht
        subst hn hq
        exact .noPipe _ _ _ _ hp
      · cases ht
  | close fd =>
    obtain rfl := Option.some.inj ht
    cases ends with
    | nil => exact absurd hq.symm hg
    | cons e es =>
      obtain ⟨rfl, rfl⟩ := ofTask_ite hq hg
      exact .closeEnd _ _ _ _ _ _
  | read fd size =>
    obtain rfl := Option.some.inj ht
    obtain ⟨hfd, rfl⟩ := ofTask_ite hq hg
    exact .read _ _ _ _ _ _ _ hfd
  | sendMsg fd type bytes =>
    obtain rfl := Option.some.inj ht
    obtain ⟨rfl, rfl⟩ := ofTask_ite hq hg
    exact .send _ _ _ _ _ _ _
  | recvMsg fd => exact hbad rfl
  | malloc size => exact hbad rfl
  | free p => exact hbad rfl
  | accept fd => exact hbad rfl
  | pthreadCreate ca => exact hbad rfl
  | segfault => exact r.elim
  | load c => exact hquiet rfl trivial
  | getpid => exact hquiet rfl trivial
  | fopen path => exact hquiet rfl trivial
  | fwrite data f => exact hquiet rfl trivial
  | fclose f => exact hquiet rfl trivial
  | unlink path => exact hquiet rfl trivial
  | fork child => exact hquiet rfl trivial
  | kill pid => exact hquiet rfl trivial
  | waitpid pid => exact hquiet rfl trivial

lemma step_of_work {q q' : Custody} {c : WorkCall} {r : c.Ret} (h : work q c r = some q')
    (hg : Good q') : Step q (.work c) r q' := by
  unfold work at h
  split at h
  · obtain ⟨rfl, rfl⟩ := eq_of_ite_ne (Option.some.inj h) hg
    exact .freeArg _ _
  · cases h
    exact .accept _ _
  · rename_i hno
    cases h
    exact .noConn _ _ hno
  · cases h
    exact .check _ _ _
  · obtain ⟨rfl, rfl⟩ := eq_of_ite_ne (Option.some.inj h) hg
    exact .refuse _ _
  · obtain ⟨p, rfl, rfl⟩ := Option.map_eq_some_iff.1 h
    exact .allocate _ _ _
  · split at h
    · rename_i hret
      obtain ⟨rfl, rfl⟩ := eq_of_ite_ne (Option.some.inj h) hg
      subst hret
      exact .create _ _
    · cases h
  · obtain ⟨rfl, rfl⟩ := eq_of_ite_ne (Option.some.inj h) hg
    exact .freeArgs _ _ _
  · cases h
    exact .freeNull _ _ _ _ _
  · obtain ⟨rfl, rfl⟩ := eq_of_ite_ne (Option.some.inj h) hg
    exact .freePayload _ _ _ _ _
  · obtain ⟨rfl, rfl⟩ := eq_of_ite_ne (Option.some.inj h) hg
    exact .close _ _ _
  · exact step_of_task h hg
  · cases h
    exact absurd rfl hg

/-- What a thread can do next. -/
theorem step_of_next {q q' : Custody} {c : MemCall} {r : c.Ret} (h : next q c r = some q')
    (hg : Good q') : Step q c r q' := by
  unfold next at h
  split at h
  · exact step_of_work h hg
  · split at h
    · rename_i hs
      obtain ⟨rfl, rfl⟩ := eq_of_ite_ne (Option.some.inj h) hg
      exact .recv _ _ hs
    · cases h
  · obtain ⟨rfl, rfl⟩ := eq_of_ite_ne (Option.some.inj h) hg
    exact .storeArgs _ _ _
  · obtain ⟨rfl, rfl⟩ := eq_of_ite_ne (Option.some.inj h) hg
    exact .loadArgs _ _ _
  · obtain ⟨rfl, rfl⟩ := eq_of_ite_ne (Option.some.inj h) hg
    exact .load _ _ _ _ _ _ _
  · cases h
    exact .store _ _ _ _ _ _ _
  · cases h
    exact .enter _ _ _ _ _ _ _ _ _
  · cases h
    exact absurd rfl hg

end Custody
end P2PNode
