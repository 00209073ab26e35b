import P2PNode.Worker.Worker

/-!
# The worker at the level of its memory accesses (`worker.c`)

`accept_loop` and `handle_connection` once more, with the accesses to the blocks on the heap and to
the array `filename` as calls of their own. Without the accesses they are the programs of the
worker.
-/

namespace P2PNode

open Effect

/-! ### The calls -/

inductive MemCall where
  | work (c : WorkCall)
  /-- `recv_msg`, which may allocate a payload. -/
  | recvMsg (fd : Fd)
  /-- The fields of `conn_args_t` are written. -/
  | storeArgs (p : Ptr)
  /-- The fields of `conn_args_t` are read. -/
  | loadArgs (p : Ptr)
  /-- `len` bytes of the payload are read, from `off` on. -/
  | load (p : Ptr) (off len : ℕ)
  /-- The bytes are written to `filename`, from `off` on. -/
  | store (off : ℕ) (bytes : Bytes)
  /-- `compile_and_stream` is entered with `len` bytes of the payload, from `off` on. -/
  | enter (cfd : Fd) (p : Ptr) (off len : ℕ)
  deriving DecidableEq

@[reducible] def MemCall.Ret : MemCall → Type
  | .work c        => c.Ret
  | .recvMsg _     => ℤ × MsgOut
  | .storeArgs _   => Unit
  | .loadArgs _    => Unit
  | .load _ _ _    => Bytes
  | .store _ _     => Unit
  | .enter _ _ _ _ => Unit

abbrev MemProg := Prog MemCall MemCall.Ret

namespace MemCall

def doWork {α : Type} (p : WorkProg α) : MemProg α := p.embed MemCall.work fun _ r => r
def doRecvMsg (fd : Fd) : MemProg (ℤ × MsgOut) := Prog.perform (MemCall.recvMsg fd)
def doStoreArgs (p : Ptr) : MemProg Unit := Prog.perform (MemCall.storeArgs p)
def doLoadArgs (p : Ptr) : MemProg Unit := Prog.perform (MemCall.loadArgs p)
def doLoad (p : Ptr) (off len : ℕ) : MemProg Bytes := Prog.perform (MemCall.load p off len)
def doStore (off : ℕ) (bytes : Bytes) : MemProg Unit := Prog.perform (MemCall.store off bytes)
def doEnter (cfd : Fd) (p : Ptr) (off len : ℕ) : MemProg Unit :=
  Prog.perform (MemCall.enter cfd p off len)

end MemCall

open MemCall

/-! ### `compile_and_stream` -/

/-- The data is `payload[off..off+len-1]`; `fwrite` reads it. -/
def compileAndStreamMem (rounds : ℕ) (client_fd : Fd) (payload : Ptr) (off len : ℕ) :
    MemProg Unit := do
  doEnter client_fd payload off len
  doWork (WorkCall.doLoad loadTaskStart)
  let src_path := TmpPath.src (← doWork WorkCall.doGetpid)
  let bin_path := TmpPath.bin (← doWork WorkCall.doGetpid)
  match ← doWork (WorkCall.doFopen src_path) with
  | none => doWork (WorkCall.doLoad loadTaskDone)
  | some f =>
    let data ← doLoad payload off len
    let _ ← doWork (WorkCall.doFwrite data f)
    doWork (WorkCall.doFclose f)
    doWork (compileAndRun rounds client_fd src_path bin_path)

/-! ### `handle_connection` -/

/-- The guards and copies of the `MSG_TASK_FILE` case for a payload that is not `NULL`: the offset
and the length of the file data. -/
def decodeTaskFileMem (payload : Ptr) (plen : ℕ) : MemProg (Option (ℕ × ℕ)) :=
  if plen < 6 then return none
  else do
    let fn_len := ofBe (← doLoad payload 0 2)
    if maxFilenameLen ≤ fn_len ∨ plen < 2 + fn_len + 4 then return none
    else
      doStore 0 (← doLoad payload 2 fn_len)
      doStore fn_len [0]
      let file_len := ofBe (← doLoad payload (2 + fn_len) 4)
      if maxFileSize < file_len ∨ plen < 2 + fn_len + 4 + file_len then return none
      else return some (2 + fn_len + 4, file_len)

/-- The `MSG_TASK_FILE` case; returns what `payload` points to behind it. -/
def taskFileCaseMem (rounds : ℕ) (cfd : Fd) (out : MsgOut) : MemProg (Option Ptr) :=
  match out.payload with
  | none => if out.len < 6 then return none else doWork WorkCall.doSegfault
  | some payload => do
    match ← decodeTaskFileMem payload.addr out.len with
    | none => return some payload.addr
    | some (off, len) =>
      compileAndStreamMem rounds cfd payload.addr off len
      doWork (WorkCall.doFree (some payload.addr))
      return none

def handleConnectionMem (rounds : ℕ) (ca : ConnArgs) : MemProg Unit := do
  doLoadArgs ca.addr
  let cfd := ca.client_fd
  doWork (WorkCall.doFree (some ca.addr))
  let (ret, out) ← doRecvMsg cfd
  if ret < 0 then doWork (WorkCall.doClose cfd)
  else
    let payload ←
      if out.type = some msgTaskFile then taskFileCaseMem rounds cfd out
      else pure (out.payload.map Block.addr)
    doWork (WorkCall.doFree payload)
    doWork (WorkCall.doClose cfd)

/-! ### `accept_loop` -/

/-- The loop of `accept_loop`. -/
def acceptFromMem : ℕ → Fd → MemProg Unit
  | 0, _ => .spin
  | rounds + 1, server_fd => do
    match ← doWork (WorkCall.doAccept server_fd) with
    | .intr => acceptFromMem rounds server_fd
    | .err => return ()
    | .conn cfd =>
      if maxConcurrentTasks ≤ (← doWork (WorkCall.doLoad loadGetActiveTasks)) then
        doWork (WorkCall.doClose cfd)
        acceptFromMem rounds server_fd
      else
        match ← doWork (WorkCall.doMalloc connArgsSize) with
        | none => doWork WorkCall.doSegfault
        | some p =>
          doStoreArgs p
          let _ ← doWork (WorkCall.doPthreadCreate ⟨p, cfd⟩)
          acceptFromMem rounds server_fd

def acceptLoopMem (rounds : ℕ) (arg : Ptr) (server_fd : Fd) : MemProg Unit := do
  doWork (WorkCall.doFree (some arg))
  acceptFromMem rounds server_fd

/-! ### Without the accesses -/

namespace MemProg

variable {α β : Type}

/-- The program without its accesses, and the payload it has received last: a read gives the bytes
of that payload. -/
def erase : MemProg α → Option Block → WorkProg (α × Option Block)
  | .ret a, b                    => .ret (a, b)
  | .spin, _                     => .spin
  | .call (.work c) k, b         => .call c fun r => erase (k r) b
  | .call (.recvMsg fd) k, _     => .call (.recvMsg fd) fun r => erase (k r) r.2.payload
  | .call (.storeArgs _) k, b    => erase (k ()) b
  | .call (.loadArgs _) k, b     => erase (k ()) b
  | .call (.load _ off len) k, b =>
    erase (k ((((b.map Block.bytes).getD []).drop off).take len)) b
  | .call (.store _ _) k, b      => erase (k ()) b
  | .call (.enter _ _ _ _) k, b  => erase (k ()) b

lemma erase_bind (p : MemProg α) (f : α → MemProg β) (b : Option Block) :
    erase (p >>= f) b = erase p b >>= fun x => erase (f x.1) x.2 := by
  induction p generalizing b with
  | ret a => rfl
  | spin => rfl
  | call c k ih =>
    cases c with
    | work c => simp [erase, ih]
    | recvMsg fd => simp [erase, ih]
    | storeArgs p => simp [erase, ih]
    | loadArgs p => simp [erase, ih]
    | load p off len => simp [erase, ih]
    | store off bytes => simp [erase, ih]
    | enter cfd p off len => simp [erase, ih]

lemma erase_doWork (p : WorkProg α) (b : Option Block) :
    erase (doWork p) b = p >>= fun a => .ret (a, b) := by
  induction p with
  | ret a => rfl
  | spin => rfl
  | call c k ih =>
    simp only [doWork] at ih
    simp [doWork, erase, ih]

lemma erase_compileAndStreamMem (rounds : ℕ) (cfd : Fd) (name : Bytes) (b : Block) (off len : ℕ) :
    erase (compileAndStreamMem rounds cfd b.addr off len) (some b) =
      compileAndStream rounds cfd name ((b.bytes.drop off).take len) >>= fun a =>
        .ret (a, some b) := by
  rw [compileAndStreamMem, doEnter, Prog.perform_bind, erase]
  simp only [erase_bind, erase_doWork, compileAndStream, Prog.bind_assoc, Prog.ret_bind]
  congr 1
  funext _
  congr 1
  funext pid
  congr 1
  funext pid'
  congr 1
  funext file
  cases file with
  | none => rw [erase_doWork]
  | some f =>
    simp only [doLoad, Prog.perform_bind, erase, erase_bind, erase_doWork, Prog.bind_assoc,
      Prog.ret_bind, Option.map_some, Option.getD_some]

/-- The decoder with its accesses finds what the decoder on the bytes finds. -/
lemma erase_decodeTaskFileMem (b : Block) (plen : ℕ) :
    (erase (decodeTaskFileMem b.addr plen) (some b) = .ret (none, some b) ∧
        decodeTaskFile b.bytes plen = none) ∨
      ∃ off len name, erase (decodeTaskFileMem b.addr plen) (some b) =
          .ret (some (off, len), some b) ∧
        decodeTaskFile b.bytes plen = some (name, (b.bytes.drop off).take len) := by
  by_cases h6 : plen < 6
  · exact .inl ⟨by simp [decodeTaskFileMem, h6, erase], by simp [decodeTaskFile, h6]⟩
  obtain ⟨n, hn⟩ : ∃ n, n = ofBe (b.bytes.take 2) := ⟨_, rfl⟩
  by_cases hname : maxFilenameLen ≤ n ∨ plen < 2 + n + 4
  · refine .inl ⟨?_, ?_⟩
    · simp [decodeTaskFileMem, h6, doLoad, erase, ← hn, hname]
    · simp [decodeTaskFile, h6, ← hn, hname]
  obtain ⟨m, hm⟩ : ∃ m, m = ofBe ((b.bytes.drop (2 + n)).take 4) := ⟨_, rfl⟩
  by_cases hdata : maxFileSize < m ∨ plen < 2 + n + 4 + m
  · refine .inl ⟨?_, ?_⟩
    · simp [decodeTaskFileMem, h6, doLoad, doStore, erase, ← hn, hname, ← hm, hdata]
    · simp [decodeTaskFile, h6, ← hn, hname, ← hm, hdata]
  · refine .inr ⟨2 + n + 4, m, (b.bytes.drop 2).take n, ?_, ?_⟩
    · simp [decodeTaskFileMem, h6, doLoad, doStore, erase, ← hn, hname, ← hm, hdata]
    · simp [decodeTaskFile, h6, ← hn, hname, ← hm, hdata]

lemma erase_taskFileCaseMem (rounds : ℕ) (cfd : Fd) (out : MsgOut) :
    erase (taskFileCaseMem rounds cfd out) out.payload =
      taskFileCase (compileAndStream rounds) cfd out >>= fun a => .ret (a, out.payload) := by
  rw [taskFileCaseMem, taskFileCase]
  cases out.payload with
  | none =>
    by_cases h6 : out.len < 6
    · simp [h6, erase]
    · simp only [if_neg h6, erase_doWork]
  | some b =>
    simp only [erase_bind]
    rcases erase_decodeTaskFileMem b out.len with ⟨he, hd⟩ | ⟨off, len, name, he, hd⟩
    · simp [he, hd, erase]
    · simp [he, hd, erase_bind, erase_compileAndStreamMem rounds cfd name b off len, erase_doWork,
        erase]

/-- Without its accesses the handler is `handleConnection`. -/
theorem erase_handleConnectionMem (rounds : ℕ) (ca : ConnArgs) :
    (erase (handleConnectionMem rounds ca) none >>= fun x => .ret x.1) =
      handleConnection rounds ca := by
  simp only [handleConnectionMem, doLoadArgs, Prog.perform_bind, erase, erase_bind, erase_doWork,
    handleConnection, handleConnectionWith, Prog.bind_assoc, Prog.ret_bind, doRecvMsg]
  congr 1
  funext _
  simp only [Prog.call_bind, WorkCall.doRecvMsg, Prog.perform_bind]
  congr 1
  funext got
  obtain ⟨ret, out⟩ := got
  by_cases hret : ret < 0
  · simp [hret, erase_doWork, Prog.bind_ret]
  · by_cases htype : out.type = some msgTaskFile
    · simp [hret, htype, erase_bind, erase_taskFileCaseMem, erase_doWork, Prog.bind_ret]
    · simp [hret, htype, erase_bind, erase_doWork, Prog.bind_ret]

/-- Without its accesses the accept loop is `acceptLoop`. -/
theorem erase_acceptLoopMem (rounds : ℕ) (arg : Ptr) (server_fd : Fd) :
    (erase (acceptLoopMem rounds arg server_fd) none >>= fun x => .ret x.1) =
      acceptLoop rounds arg server_fd := by
  have hfrom : ∀ rounds, (erase (acceptFromMem rounds server_fd) none >>= fun x => .ret x.1) =
      acceptFrom rounds server_fd := by
    intro rounds
    induction rounds with
    | zero => rfl
    | succ rounds ih =>
      simp only [acceptFromMem, acceptFrom, erase_bind, erase_doWork, Prog.bind_assoc,
        Prog.ret_bind]
      congr 1
      funext got
      cases got with
      | intr => exact ih
      | err => rfl
      | conn cfd =>
        simp only [erase_bind, erase_doWork, Prog.bind_assoc, Prog.ret_bind]
        congr 1
        funext n
        by_cases hfull : maxConcurrentTasks ≤ n
        · simp [hfull, erase_bind, erase_doWork, ih]
        · simp only [if_neg hfull, erase_bind, erase_doWork, Prog.bind_assoc, Prog.ret_bind]
          congr 1
          funext ptr
          cases ptr with
          | none => simp [erase_doWork, Prog.bind_ret]
          | some p => simp [doStoreArgs, erase, erase_bind, erase_doWork, ih]
  simp only [acceptLoopMem, acceptLoop, erase_bind, erase_doWork, Prog.bind_assoc, Prog.ret_bind,
    hfrom]

end MemProg

end P2PNode
