import P2PNode.Node.Main

/-!
# Where the threads of the node process are

`main` and the announcer as automata over their calls: which part of the start `main` is in, which
command the loop carries out, and what it holds meanwhile.
-/

namespace P2PNode

open Effect

/-! ### The commands -/

/-- What a line asks for. -/
inductive Cmd where
  | nothing
  | peers
  | quit
  | usage
  | submit (path : Bytes)
  | unknown
  deriving DecidableEq

def Cmd.ofLine (line : Bytes) : Cmd :=
  if line = [] then .nothing
  else if line = cmdPeers then .peers
  else if line = cmdQuit ∨ line = cmdExit then .quit
  else if line.take cmdSubmit.length = cmdSubmit then
    if submitPath line = [] then .usage else .submit (submitPath line)
  else .unknown

/-- The body of the loop for a command. -/
def Cmd.exec : Cmd → ReplProg Bool
  | .nothing     => return true
  | .peers       => do
    ReplCall.doPeerListPrint
    return true
  | .quit        => do
    ReplCall.doStopRunning
    return false
  | .usage       => do
    ReplCall.doPrintf .usage
    return true
  | .submit path => do
    submitFile path
    return true
  | .unknown     => do
    ReplCall.doPrintf .unknown
    return true

lemma execLine_eq (line : Bytes) : execLine line = (Cmd.ofLine line).exec := by
  rw [execLine, Cmd.ofLine]
  split
  · rfl
  · split
    · rfl
    · split
      · rfl
      · split
        · split
          · rfl
          · rfl
        · rfl

/-! ### The command loop -/

/-- Where the loop is: `line` with the command that is to be carried out, and for a submission the
path, the file, the block and the data that it has come by. -/
inductive LoopPhase where
  | top
  | checked
  | asking
  | line (cmd : Cmd)
  | opened (path : Bytes) (f : File)
  | sized (path : Bytes) (f : File) (n : ℕ)
  | alloced (path : Bytes) (f : File) (p : Ptr) (n : ℕ)
  | freeing (f : File) (p : Ptr)
  | closing (f : File)
  | holding (path : Bytes) (f : File) (p : Ptr) (data : Bytes)
  | ready (path : Bytes) (p : Ptr) (data : Bytes)
  | announced (path : Bytes) (p : Ptr) (data : Bytes)
  | ran (p : Ptr) (rc : ℤ)
  | told (p : Ptr)
  | ended
  | bad

namespace LoopPhase

@[simp] def onRunning (go : Bool) : LoopPhase → LoopPhase
  | .top           => if go then .checked else .ended
  | .line .nothing => if go then .checked else .ended
  | _              => .bad

@[simp] def onStop : LoopPhase → LoopPhase
  | .line .quit => .ended
  | _           => .bad

@[simp] def onPrintf (l : ReplLine) : LoopPhase → LoopPhase
  | .checked             => if l = .prompt then .asking else .bad
  | .line .usage         => if l = .usage then .top else .bad
  | .line .unknown       => if l = .unknown then .top else .bad
  | .ready path p data   => if l = .output then .announced path p data else .bad
  | .ran p rc            => if l = .exitCode rc then .told p else .bad
  | _                    => .bad

@[simp] def onFgets (r : Option Bytes) : LoopPhase → LoopPhase
  | .asking => r.elim .ended fun raw => .line (.ofLine (stripNewline raw))
  | _       => .bad

@[simp] def onPeers : LoopPhase → LoopPhase
  | .line .peers => .top
  | _            => .bad

@[simp] def onFopen (path : Bytes) (r : Option File) : LoopPhase → LoopPhase
  | .line (.submit path') => if path = path' then r.elim .top (.opened path) else .bad
  | _                     => .bad

@[simp] def onFileSize (f : File) (sz : ℤ) : LoopPhase → LoopPhase
  | .opened path f' =>
    if f = f' then
      if sz ≤ 0 ∨ (maxFileSize : ℤ) < sz then .closing f else .sized path f sz.toNat
    else .bad
  | _               => .bad

@[simp] def onMalloc (n : ℕ) (r : Option Ptr) : LoopPhase → LoopPhase
  | .sized path f n' => if n = n' then r.elim (.closing f) fun p => .alloced path f p n else .bad
  | _                => .bad

@[simp] def onFread (f : File) (n : ℕ) (bs : Bytes) : LoopPhase → LoopPhase
  | .alloced path f' p n' =>
    if f = f' ∧ n = n' then
      if bs.length ≠ n then .freeing f p else .holding path f p bs
    else .bad
  | _                     => .bad

@[simp] def onFclose (f : File) : LoopPhase → LoopPhase
  | .closing f'             => if f = f' then .top else .bad
  | .holding path f' p data => if f = f' then .ready path p data else .bad
  | _                       => .bad

@[simp] def onFree (q : Option Ptr) : LoopPhase → LoopPhase
  | .freeing f p => if q = some p then .closing f else .bad
  | .told p      => if q = some p then .top else .bad
  | _            => .bad

@[simp] def onDispatch (task : Task) (rc : ℤ) : LoopPhase → LoopPhase
  | .announced path p data => if task = fillTask (basename path) data then .ran p rc else .bad
  | _                      => .bad

@[simp] def step (q : LoopPhase) : (c : ReplCall) → c.Ret → LoopPhase
  | .running, go      => q.onRunning go
  | .stopRunning, _   => q.onStop
  | .printf l, _      => q.onPrintf l
  | .fgets _, r       => q.onFgets r
  | .peerListPrint, _ => q.onPeers
  | .fopen path, r    => q.onFopen path r
  | .fileSize f, sz   => q.onFileSize f sz
  | .malloc n, r      => q.onMalloc n r
  | .fread f n, bs    => q.onFread f n bs
  | .fclose f, _      => q.onFclose f
  | .free p, _        => q.onFree p
  | .dispatch task, r => q.onDispatch task r

def auto : Kernel ReplCall ReplCall.Ret LoopPhase := fun q c r => some (q.step c r)

def Good : LoopPhase → Prop
  | .bad => False
  | _    => True

section Always

variable {α : Type} {post : α → LoopPhase → Prop}

lemma always_call {c : ReplCall} {k : c.Ret → ReplProg α} {q : LoopPhase} (hq : q.Good)
    (h : ∀ r, (k r).Always auto Good post (q.step c r)) :
    (Prog.call c k : ReplProg α).Always auto Good post q :=
  ⟨hq, fun r _ hq' => Option.some.inj hq' ▸ h r⟩

/-- The file is read and closed, and the block is held; or nothing is. -/
lemma always_readFileBlock (path : Bytes) :
    (readFileBlock path).Always auto Good
      (fun r q => q = r.elim .top fun x => .ready path x.1 x.2) (.line (.submit path)) := by
  simp only [readFileBlock, ReplCall.doFopen, ReplCall.doFileSize, ReplCall.doMalloc,
    ReplCall.doFread, ReplCall.doFree, ReplCall.doFclose, Prog.perform_bind, Prog.pure_def]
  refine always_call trivial fun r => ?_
  simp only [step, onFopen, if_true]
  cases r with
  | none => exact ⟨trivial, rfl⟩
  | some f =>
    refine always_call trivial fun sz => ?_
    by_cases hsz : sz ≤ 0 ∨ (maxFileSize : ℤ) < sz
    · simp only [step, onFileSize, Option.elim_some, if_true, if_pos hsz]
      refine always_call trivial fun _ => ?_
      simp only [step, onFclose, if_true]
      exact ⟨trivial, rfl⟩
    · simp only [step, onFileSize, Option.elim_some, if_true, if_neg hsz]
      refine always_call trivial fun r => ?_
      simp only [step, onMalloc, if_true]
      cases r with
      | none =>
        refine always_call trivial fun _ => ?_
        simp only [step, onFclose, Option.elim_none, if_true]
        exact ⟨trivial, rfl⟩
      | some p =>
        refine always_call trivial fun bs => ?_
        by_cases hlen : bs.length ≠ sz.toNat
        · simp only [step, onFread, Option.elim_some, and_self, if_true, if_pos hlen]
          refine always_call trivial fun _ => ?_
          simp only [step, onFree, if_true]
          refine always_call trivial fun _ => ?_
          simp only [step, onFclose, if_true]
          exact ⟨trivial, rfl⟩
        · simp only [step, onFread, Option.elim_some, and_self, if_true, if_neg hlen]
          refine always_call trivial fun _ => ?_
          simp only [step, onFclose, if_true]
          exact ⟨trivial, rfl⟩

lemma always_submitFile (path : Bytes) :
    (submitFile path).Always auto Good (fun _ q => q = .top) (.line (.submit path)) := by
  refine Prog.Always.bind ((always_readFileBlock path).mono ?_)
  rintro r _ rfl
  cases r with
  | none => exact ⟨trivial, rfl⟩
  | some x =>
    simp only [Option.elim_some, ReplCall.doPrintf, ReplCall.doDispatch, ReplCall.doFree,
      Prog.perform_bind]
    refine always_call trivial fun _ => always_call trivial fun rc => ?_
    simp only [step, onPrintf, onDispatch, if_true]
    refine always_call trivial fun _ => ?_
    simp only [step, onPrintf, if_true]
    refine always_call trivial fun _ => ?_
    simp only [step, onFree, if_true]
    exact ⟨trivial, rfl⟩

/-- The loop goes on from its top, or from a line that asks for nothing. -/
lemma always_exec (cmd : Cmd) :
    cmd.exec.Always auto Good
      (fun go q => if go then q = .top ∨ q = .line .nothing else q = .ended) (.line cmd) := by
  cases cmd with
  | nothing => exact ⟨trivial, .inr rfl⟩
  | peers => exact always_call trivial fun _ => ⟨trivial, .inl rfl⟩
  | quit => exact always_call trivial fun _ => ⟨trivial, rfl⟩
  | usage => exact always_call trivial fun _ => ⟨trivial, .inl rfl⟩
  | submit path =>
    refine Prog.Always.bind ((always_submitFile path).mono ?_)
    rintro _ _ rfl
    exact ⟨trivial, .inl rfl⟩
  | unknown => exact always_call trivial fun _ => ⟨trivial, .inl rfl⟩

lemma always_runRepl (rounds : ℕ) {q : LoopPhase} (hq : q = .top ∨ q = .line .nothing) :
    (runRepl rounds).Always auto Good (fun _ q => q = .ended) q := by
  have hgood : q.Good := by
    rcases hq with rfl | rfl
    · trivial
    · trivial
  induction rounds generalizing q with
  | zero => exact hgood
  | succ rounds ih =>
    simp only [runRepl, ReplCall.doRunning, ReplCall.doPrintf, ReplCall.doFgets, Prog.perform_bind]
    refine always_call hgood fun go => ?_
    have hstep : q.step .running go = if go then .checked else .ended := by
      rcases hq with rfl | rfl
      · rfl
      · rfl
    rw [hstep]
    cases go with
    | false => exact ⟨trivial, rfl⟩
    | true =>
      refine always_call trivial fun _ => always_call trivial fun r => ?_
      cases r with
      | none => exact ⟨trivial, rfl⟩
      | some raw =>
        simp only [execLine_eq]
        refine Prog.Always.bind ((always_exec _).mono ?_)
        intro go q' hq'
        cases go with
        | false => exact ⟨hq' ▸ trivial, hq'⟩
        | true =>
          refine ih hq' ?_
          rcases hq' with rfl | rfl
          · trivial
          · trivial

end Always

end LoopPhase

/-! ### The start -/

/-- Where the start of `main` is; `made` and `datagram` with the socket that is set up. -/
inductive BootPhase where
  | begun
  | handled
  | inited
  | alloced
  | made (fd : Fd)
  | bound (fd : Fd)
  | failed (fd : Fd)
  | dying
  | listening (fd : Fd)
  | accepting
  | datagram (fd : Fd)
  | threads
  | dead

namespace BootPhase

@[simp] def onSocket (kind : SockKind) (fd : Fd) : BootPhase → Option BootPhase
  | .alloced   => if kind = .stream then some (if fd < 0 then .dying else .made fd) else none
  | .accepting => if kind = .dgram then some (if fd < 0 then .dying else .datagram fd) else none
  | _          => none

@[simp] def onSetsockopt : BootPhase → Option BootPhase
  | .made fd     => some (.made fd)
  | .datagram fd => some (.datagram fd)
  | _            => none

@[simp] def onBind (port : ℕ) (fd : Fd) (n : ℕ) (r : ℤ) : BootPhase → Option BootPhase
  | .made fd' =>
    if fd = fd' ∧ n = port then some (if r < 0 then .failed fd else .bound fd) else none
  | _         => none

@[simp] def onClose (fd : Fd) : BootPhase → Option BootPhase
  | .failed fd' => if fd = fd' then some .dying else none
  | _           => none

@[simp] def onSock (port : ℕ) (q : BootPhase) : (c : SockCall) → c.Ret → Option BootPhase
  | .socket kind, fd    => q.onSocket kind fd
  | .setsockopt _ _, _  => q.onSetsockopt
  | .bind fd n, r       => q.onBind port fd n r
  | .close fd, _        => q.onClose fd
  | _, _                => none

@[simp] def onListen (fd : Fd) (r : ℤ) : BootPhase → Option BootPhase
  | .bound fd' => if fd = fd' then some (if r < 0 then .failed fd else .listening fd) else none
  | _          => none

@[simp] def onStart (port : ℕ) : NodeThread → BootPhase → Option BootPhase
  | .acceptLoop fd, .listening fd' => if fd = fd' then some .accepting else none
  | .announcer fd n, .datagram fd' => if fd = fd' ∧ n = port then some .threads else none
  | .listener _, .threads          => some .threads
  | .reaper, .threads              => some .threads
  | .loadResponder, .threads       => some .threads
  | _, _                           => none

def onExit : BootPhase → Option BootPhase
  | .begun => some .dead
  | .dying => some .dead
  | _      => none

end BootPhase

/-! ### `main` and the announcer -/

/-- Where a thread is; `bye` and `helloReady` with the packet that is sent next, an announcer with
its port. -/
inductive MainPhase where
  | boot (q : BootPhase)
  | repl (q : LoopPhase)
  | bye (data : Bytes)
  | said
  | gone
  | hello (n : ℕ)
  | helloReady (n : ℕ) (data : Bytes)
  | bad

namespace MainPhase

@[simp] def ofBoot (q : Option BootPhase) : MainPhase := q.elim .bad .boot

@[simp] def bootStep (port : ℕ) (q : BootPhase) : (c : MainCall) → c.Ret → MainPhase
  | .signals, _      => match q with
    | .begun => .boot .handled
    | _      => .bad
  | .peerListInit, _ => match q with
    | .handled => .boot .inited
    | _        => .bad
  | .mallocFd, ok    => match q with
    | .inited => .boot (if ok then .alloced else .dying)
    | _       => .bad
  | .segfault, _     => ofBoot q.onExit
  | .sock c, r       => ofBoot (q.onSock port c r)
  | .listen fd _, r  => ofBoot (q.onListen fd r)
  | .start t, _      => ofBoot (q.onStart port t)
  | .sleep _, _      => match q with
    | .threads => .repl .top
    | _        => .bad
  | .exit _, _       => ofBoot q.onExit
  | _, _             => .bad

@[simp] def bcastStep (port : ℕ) : MainPhase → (c : BcastCall) → c.Ret → MainPhase
  | .repl .ended, .gethostname, (name : Bytes) => .bye (broadcastPacket msgBye port name)
  | .bye d, .sendto _ _ data, _                => if data = d then .said else .bad
  | .said, .exit, _                            => .gone
  | .hello n, .gethostname, (name : Bytes)     => .helloReady n (broadcastPacket msgHello n name)
  | .helloReady n d, .sendto _ _ data, _       => if data = d then .hello n else .bad
  | .hello n, .sleep _, _                      => .hello n
  | _, _, _                                    => .bad

@[simp] def step (port : ℕ) : MainPhase → (c : MainCall) → c.Ret → MainPhase
  | .boot q, c, r        => bootStep port q c r
  | .repl q, .repl c, r  => .repl (q.step c r)
  | q, .bcast c, r       => q.bcastStep port c r
  | _, _, _              => .bad

def auto (port : ℕ) : Kernel MainCall MainCall.Ret MainPhase := fun q c r => some (q.step port c r)

def Good : MainPhase → Prop
  | .repl q => q.Good
  | .bad    => False
  | _       => True

def Fin : MainPhase → Prop
  | .gone => True
  | _     => False

section Always

variable {α : Type} {port : ℕ} {post : α → MainPhase → Prop}

lemma always_call {c : MainCall} {k : c.Ret → MainProg α} {q : MainPhase} (hq : q.Good)
    (h : ∀ r, (k r).Always (auto port) Good post (q.step port c r)) :
    (Prog.call c k : MainProg α).Always (auto port) Good post q :=
  ⟨hq, fun r _ hq' => Option.some.inj hq' ▸ h r⟩

/-- A program that ends the process. -/
lemma always_doExit (code : ℤ) {q : BootPhase} (hq : q.onExit = some .dead) :
    (MainCall.doExit code : MainProg α).Always (auto port) Good post (.boot q) := by
  refine always_call trivial fun _ => ?_
  simp only [step, bootStep, hq]
  trivial

lemma always_doSegfault {q : BootPhase} (hq : q.onExit = some .dead) :
    (MainCall.doSegfault : MainProg α).Always (auto port) Good post (.boot q) := by
  refine always_call trivial fun _ => ?_
  simp only [step, bootStep, hq]
  trivial

lemma always_makeTcpServer :
    (makeTcpServer port).Always (auto port) Good
      (fun fd q => q = .boot (if fd < 0 then .dying else .listening fd)) (.boot .alloced) := by
  simp only [makeTcpServer, MainCall.doSock, MainCall.doListen, SockCall.doSocket,
    SockCall.doSetsockopt, SockCall.doBind, SockCall.doClose, Prog.embed_perform, Prog.call_bind,
    Prog.ret_bind, Prog.perform_bind, Prog.pure_def]
  refine always_call trivial fun fd => ?_
  by_cases hfd : fd < 0
  · simp only [step, bootStep, BootPhase.onSock, BootPhase.onSocket, if_true, if_pos hfd]
    exact ⟨trivial, rfl⟩
  · simp only [step, bootStep, BootPhase.onSock, BootPhase.onSocket, if_true, if_neg hfd]
    refine always_call trivial fun _ => always_call trivial fun _ => always_call trivial fun r => ?_
    simp only [step, bootStep, BootPhase.onSock, BootPhase.onSetsockopt, BootPhase.onBind, ofBoot,
      and_self, Option.elim_some, if_true]
    by_cases hr : r < 0
    · simp only [if_pos hr]
      refine always_call trivial fun _ => ?_
      simp only [step, bootStep, BootPhase.onSock, BootPhase.onClose, ofBoot, Option.elim_some,
        if_true]
      exact ⟨trivial, rfl⟩
    · simp only [if_neg hr]
      refine always_call trivial fun r => ?_
      simp only [step, bootStep, BootPhase.onListen, ofBoot, Option.elim_some, if_true]
      by_cases hr : r < 0
      · simp only [if_pos hr]
        refine always_call trivial fun _ => ?_
        simp only [step, bootStep, BootPhase.onSock, BootPhase.onClose, ofBoot, Option.elim_some,
          if_true]
        exact ⟨trivial, rfl⟩
      · simp only [if_neg hr]
        exact ⟨trivial, congrArg boot (if_neg hfd).symm⟩

lemma always_workerStart :
    (workerStart port).Always (auto port) Good (fun _ q => q = .boot .accepting)
      (.boot .inited) := by
  simp only [workerStart, MainCall.doMallocFd, Prog.perform_bind]
  refine always_call trivial fun ok => ?_
  cases ok with
  | false => exact always_doSegfault rfl
  | true =>
    simp only [if_true]
    refine Prog.Always.bind (always_makeTcpServer.mono ?_)
    rintro fd _ rfl
    by_cases hfd : fd < 0
    · simp only [if_pos hfd]
      exact always_doExit exitFailure rfl
    · simp only [if_neg hfd]
      refine always_call trivial fun _ => ?_
      simp only [step, bootStep, BootPhase.onStart, ofBoot, Option.elim_some, if_true]
      exact ⟨trivial, rfl⟩

lemma always_makeUdpBroadcastSocket :
    (MainCall.doSock (makeUdpBroadcastSocket 0)).Always (auto port) Good
      (fun fd q => q = .boot (if fd < 0 then .dying else .datagram fd)) (.boot .accepting) := by
  simp only [makeUdpBroadcastSocket, MainCall.doSock, SockCall.doSocket, SockCall.doSetsockopt,
    Prog.perform_bind, Prog.embed_call, lt_irrefl, if_false, Prog.pure_def]
  refine always_call trivial fun fd => ?_
  by_cases hfd : fd < 0
  · simp only [step, bootStep, BootPhase.onSock, BootPhase.onSocket, if_true, if_pos hfd]
    exact ⟨trivial, rfl⟩
  · simp only [step, bootStep, BootPhase.onSock, BootPhase.onSocket, if_true, if_neg hfd]
    refine always_call trivial fun _ => always_call trivial fun _ => always_call trivial fun _ => ?_
    exact ⟨trivial, congrArg boot (if_neg hfd).symm⟩

lemma always_discoveryStart (local_ip : Bytes) :
    (discoveryStart port local_ip).Always (auto port) Good
      (fun fd q => ¬ fd < 0 ∧ q = .boot .threads) (.boot .accepting) := by
  refine Prog.Always.bind (always_makeUdpBroadcastSocket.mono ?_)
  rintro fd _ rfl
  by_cases hfd : fd < 0
  · simp only [if_pos hfd]
    exact always_doExit exitFailure rfl
  · simp only [if_neg hfd]
    refine always_call trivial fun _ => ?_
    simp only [step, bootStep, BootPhase.onStart, ofBoot, Option.elim_some, and_self, if_true]
    refine always_call trivial fun _ => always_call trivial fun _ => ⟨trivial, hfd, rfl⟩

lemma always_runRepl (rounds : ℕ) :
    (MainCall.doRepl (runRepl rounds)).Always (auto port) Good (fun _ q => q = .repl .ended)
      (.repl .top) := by
  have h := Prog.Always.embed (auto port) Good MainPhase.repl
    (f := MainCall.repl) (g := fun _ r => r) (LoopPhase.always_runRepl rounds (.inl rfl)) ?_ ?_
  · refine h.mono ?_
    rintro _ _ ⟨q, rfl, rfl⟩
    rfl
  · intro q c r q' hq'
    exact ⟨q.step c r, rfl, (Option.some.inj hq').symm⟩
  · exact fun q hq => hq

lemma always_mainEnd {bcast_fd : Fd} (hfd : ¬ bcast_fd < 0) :
    (MainCall.doBcast (mainEnd bcast_fd port)).Always (auto port) Good (fun _ q => q.Fin)
      (.repl .ended) := by
  simp only [mainEnd, sendBroadcast, if_neg hfd, MainCall.doBcast, BcastCall.doGethostname,
    BcastCall.doSendto, BcastCall.doExit, Prog.perform_bind, Prog.call_bind, Prog.embed_call]
  refine always_call trivial fun name => always_call trivial fun _ => ?_
  simp only [step, bcastStep, if_true]
  exact always_call trivial fun _ => ⟨trivial, trivial⟩

lemma always_announcerThread (bcast_fd : Fd) (n rounds : ℕ) :
    (MainCall.doBcast (announcerThread bcast_fd n rounds)).Always (auto port) Good
      (fun _ q => q.Fin) (.hello n) := by
  induction rounds with
  | zero => trivial
  | succ rounds ih =>
    by_cases hfd : bcast_fd < 0
    · simp only [announcerThread, sendBroadcast, if_pos hfd]
      exact always_call trivial fun _ => ih
    · simp only [announcerThread, sendBroadcast, if_neg hfd]
      refine always_call trivial fun name => always_call trivial fun _ => ?_
      simp only [step, bcastStep, if_true]
      exact always_call trivial fun _ => ih

end Always

/-- Where `main` starts. -/
lemma always_nodeMain (ret : ℤ) (ifap : List IfAddr) (rounds : ℕ) {args : List Bytes} {port : ℕ}
    (hport : ∀ x, parseArgs defaultWorkerPort none args = .ok x → x.1 = port) :
    (nodeMain ret ifap rounds args).Always (auto port) Good (fun _ q => q.Fin)
      (.boot .begun) := by
  rw [nodeMain]
  split
  · exact always_doExit exitFailure rfl
  · rename_i port' iface hargs
    obtain rfl : port' = port := hport _ hargs
    simp only [MainCall.doSignals, MainCall.doPeerListInit, MainCall.doStart, MainCall.doSleep,
      Prog.perform_bind]
    refine always_call trivial fun _ => always_call trivial fun _ => ?_
    refine Prog.Always.bind (always_workerStart.mono ?_)
    rintro _ _ rfl
    refine Prog.Always.bind ((always_discoveryStart _).mono ?_)
    rintro bcast_fd _ ⟨hfd, rfl⟩
    refine always_call trivial fun _ => always_call trivial fun _ => ?_
    refine Prog.Always.bind ((always_runRepl rounds).mono ?_)
    rintro _ _ rfl
    exact always_mainEnd hfd

end MainPhase
end P2PNode
