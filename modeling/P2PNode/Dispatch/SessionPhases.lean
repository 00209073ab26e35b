import P2PNode.Dispatch.Session

/-!
# What the two parties of a session do

Each of the two programs as an automaton over its calls: what it has sent and received so far, and
what it is about to do. The programs obey them whatever the connection does.
-/

namespace P2PNode

open Effect

/-! ### The dispatcher -/

/-- Where the dispatcher is; `reading` with the messages that it has handled. -/
inductive DispSide where
  | sending (q : MsgPhase)
  | reading (ms : List WireMsg) (q : MsgPhase)
  | printed (ms : List WireMsg)
  | ending (rc : ℤ)
  | closed (rc : ℤ)
  | done
  | bad

namespace DispSide

/-- What `receive_output` does behind a message that it does not print. -/
def afterMsg (ms : List WireMsg) (got : Bytes) : DispSide :=
  match unframe got with
  | none         => .ending (-1)
  | some (m, []) =>
    if m.type = msgOutput then .bad
    else if m.type = msgTaskDone then .ending (returnedExit (some m))
    else .reading (ms ++ [m]) (.receiving [])
  | _            => .bad

def onMalloc (ok : Bool) : DispSide → DispSide
  | .sending q => if ok then .sending q else .ending (-1)
  | _          => .bad

def onFree : DispSide → DispSide
  | .sending (.sending [])        => .reading [] (.receiving [])
  | .sending .unsent              => .ending (-1)
  | .printed ms                   => .reading ms (.receiving [])
  | .reading ms (.receiving got)  => afterMsg ms got
  | .reading _ .unreceived        => .ending (-1)
  | _                             => .bad

def onPrint (data : Bytes) : DispSide → DispSide
  | .reading ms (.receiving got) =>
    match unframe got with
    | some (m, []) => if m.type = msgOutput ∧ data = m.payload then .printed (ms ++ [m]) else .bad
    | _            => .bad
  | _ => .bad

def onClose : DispSide → DispSide
  | .ending rc => .closed rc
  | _        => .bad

def onDisp (fd : Fd) (q : DispSide) : (c : DispCall) → c.Ret → DispSide
  | .malloc _, p            => q.onMalloc p.isSome
  | .free _, _              => q.onFree
  | .sock (.close fd'), _   => if fd' = fd then q.onClose else .bad
  | _, _                    => .bad

def onNet (fd : Fd) : DispSide → (c : NetCall) → c.Ret → Option DispSide
  | .sending q, c, r    => (MsgPhase.auto fd q c r).map .sending
  | .reading ms q, c, r => (MsgPhase.auto fd q c r).map (.reading ms)
  | _, _, _             => some .bad

def auto (fd : Fd) : DispSide → (c : SessCall) → c.Ret → Option DispSide
  | q, .net .dispatcher c, r    => q.onNet fd c r
  | q, .disp c, r               => some (q.onDisp fd c r)
  | q, .print data, _           => some (q.onPrint data)
  | .closed rc, .printExit rc', _ => some (if rc' = rc then .done else .bad)
  | _, _, _                     => some .bad

def Good : DispSide → Prop
  | .sending q   => q.Sends
  | .reading _ q => q.Receives
  | .bad         => False
  | _            => True

/-! ### The dispatcher obeys its automaton -/

variable {fd : Fd}

lemma always_onNet (φ : MsgPhase → DispSide) {I : MsgPhase → Prop}
    (hφ : ∀ q c r, (φ q).onNet fd c r = (MsgPhase.auto fd q c r).map φ)
    (hgood : ∀ q, I q → Good (φ q)) {α : Type} {p : NetProg α} {post : α → MsgPhase → Prop}
    {q : MsgPhase} (h : p.Always (MsgPhase.auto fd) I post q) :
    (P2PNode.onNet .dispatcher p).Always (auto fd) Good (fun a t => ∃ q, t = φ q ∧ post a q)
      (φ q) := by
  refine h.embed (auto fd) Good φ ?_ hgood
  intro q c r t' hr
  simp only [auto, hφ] at hr
  obtain ⟨t, ht, rfl⟩ := Option.map_eq_some_iff.1 hr
  exact ⟨t, ht, rfl⟩

/-- A step of a program whose next call is one of the dispatcher. -/
lemma always_disp {c : DispCall} {k : c.Ret → SessProg ℤ} {post : ℤ → DispSide → Prop}
    {q : DispSide} (hq : q.Good)
    (h : ∀ r, (k r).Always (auto fd) Good post (q.onDisp fd c r)) :
    (Prog.call (SessCall.disp c) k : SessProg ℤ).Always (auto fd) Good post q :=
  ⟨hq, fun r _ hq' => Option.some.inj hq' ▸ h r⟩

/-- The rest of a session: the connection is closed. -/
lemma always_close (rc : ℤ) (n : ℕ) :
    ((DispCall.doClose fd >>= fun _ => return rc).expand (dispCall n)).Always (auto fd) Good
      (fun rc q => q = .closed rc) (.ending rc) := by
  refine always_disp trivial fun _ => ?_
  simp only [onDisp, if_true]
  exact ⟨trivial, rfl⟩

lemma always_receiveOutput (n rounds : ℕ) (ms : List WireMsg) :
    ((receiveOutput rounds fd).expand (dispCall n)).Always (auto fd) Good
      (fun rc q => q = .ending rc) (.reading ms (.receiving [])) := by
  induction rounds generalizing ms with
  | zero => trivial
  | succ rounds ih =>
    rw [receiveOutput, Prog.expand_bind]
    apply Prog.Always.bind
    rw [DispCall.doRecvMsg, Prog.expand_perform]
    apply (always_onNet (.reading ms) (fun _ _ _ => rfl) (fun _ h => h)
      (MsgPhase.always_recvMsg n)).mono
    rintro ⟨ret, out⟩ q ⟨q, rfl, ⟨hret, got, rfl, m, hun, hcar⟩ | ⟨hret, hnone, hq⟩⟩
    · simp only at hret hcar
      subst hret
      simp only [lt_irrefl, if_false, hcar.type, Option.some.injEq]
      split
      · rename_i htype
        refine ⟨trivial, fun _ q hq => ?_⟩
        simp only [auto, onPrint, hun, htype, hcar.bytes, and_self, if_true] at hq
        cases hq
        exact always_disp trivial fun _ => ih _
      · split
        · rename_i hout hdone
          refine always_disp trivial fun _ => ?_
          simp only [onDisp, onFree, afterMsg, hun, if_neg hout, if_pos hdone]
          exact ⟨trivial, by rw [doneExitCode_of_carries hcar]⟩
        · rename_i hout hdone
          refine always_disp trivial fun _ => ?_
          simp only [onDisp, onFree, afterMsg, hun, if_neg hout, if_neg hdone]
          exact ih _
    · simp only at hret
      subst hret
      simp only [if_pos (by decide : (-1 : ℤ) < 0)]
      rcases hq with rfl | ⟨got, rfl, hun⟩
      · exact always_disp trivial fun _ => ⟨trivial, rfl⟩
      · refine always_disp trivial fun _ => ?_
        simp only [onDisp, onFree, afterMsg, hun]
        exact ⟨trivial, rfl⟩

/-- The frame of the task. -/
def taskFrame (task : Task) : Bytes :=
  frame msgTaskFile ((taskFilePayload task).take (taskFileTotal task))

lemma always_sendTaskFile (n : ℕ) (task : Task) :
    ((sendTaskFile fd task).expand (dispCall n)).Always (auto fd) Good
      (fun r q => (r = 0 ∧ q = .reading [] (.receiving [])) ∨ (r = -1 ∧ q = .ending (-1)))
      (.sending (.sending (taskFrame task))) := by
  rw [sendTaskFile, Prog.expand_bind]
  refine always_disp trivial fun p => ?_
  cases p with
  | none => exact ⟨trivial, .inr ⟨rfl, rfl⟩⟩
  | some p =>
    refine Prog.Always.bind ⟨trivial, ?_⟩
    simp only [Prog.expand_bind]
    apply Prog.Always.bind
    rw [DispCall.doSendMsg, Prog.expand_perform]
    apply (always_onNet .sending (fun _ _ _ => rfl) (fun _ h => h)
      (MsgPhase.always_sendMsg n msgTaskFile _)).mono
    rintro r q ⟨q, rfl, ⟨rfl, rfl⟩ | ⟨rfl, rfl⟩⟩
    · exact always_disp trivial fun _ => ⟨trivial, .inl ⟨rfl, rfl⟩⟩
    · exact always_disp trivial fun _ => ⟨trivial, .inr ⟨rfl, rfl⟩⟩

lemma always_runTask (n rounds : ℕ) (task : Task) :
    ((runTask rounds fd task).expand (dispCall n)).Always (auto fd) Good
      (fun rc q => q = .closed rc) (.sending (.sending (taskFrame task))) := by
  rw [runTask, Prog.expand_bind]
  apply Prog.Always.bind
  apply (always_sendTaskFile n task).mono
  rintro r q (⟨rfl, rfl⟩ | ⟨rfl, rfl⟩)
  · simp only [lt_irrefl, if_false, Prog.expand_bind]
    apply Prog.Always.bind
    apply (always_receiveOutput n rounds []).mono
    rintro rc q rfl
    exact always_close rc n
  · exact always_close (-1) n

lemma always_dispatcher (S : Session) (rounds : ℕ) :
    (S.dispatcher rounds).Always (auto S.fd) Good (fun _ q => q = .done)
      (.sending (.sending (taskFrame S.task))) := by
  apply Prog.Always.bind
  apply (always_runTask rounds rounds S.task).mono
  rintro rc q rfl
  refine ⟨trivial, fun _ q hq => ?_⟩
  simp only [auto, if_true] at hq
  cases hq
  exact ⟨trivial, rfl⟩

end DispSide

/-! ### The worker -/

/-- A message of the worker: output of a child, or the exit code at the end. -/
inductive WorkMsg where
  | output (chunk : Bytes)
  | done (exit : ℤ)
  deriving DecidableEq

def WorkMsg.type : WorkMsg → MsgType
  | .output _ => msgOutput
  | .done _   => msgTaskDone

def WorkMsg.payload : WorkMsg → Bytes
  | .output chunk => chunk
  | .done exit    => donePayload exit

def WorkMsg.frame (m : WorkMsg) : Bytes := P2PNode.frame m.type m.payload

def WorkMsg.isDone : WorkMsg → Bool
  | .output _ => false
  | .done _   => true

/-- Where the worker is, with the chunks of output that it has sent. In `sending` a message is to be
sent, or is being sent; in `lost` a `send` has failed, in the message with the exit code if `final`.
-/
inductive WorkSide where
  | reading (q : MsgPhase)
  | working (cs : List Bytes)
  | sending (cs : List Bytes) (m : WorkMsg) (todo : Bytes)
  | lost (final : Bool)
  | ended
  | closed
  | bad

namespace WorkSide

/-- Where the worker is in sending a message. -/
def ofPhase (cs : List Bytes) (m : WorkMsg) : MsgPhase → WorkSide
  | .sending []   =>
    match m with
    | .output chunk => .working (cs ++ [chunk])
    | .done _       => .ended
  | .sending todo => .sending cs m todo
  | .unsent       => .lost m.isDone
  | _             => .bad

/-- Where the worker is in trying to send a message when nothing can be sent any more. -/
def ofUnsent (final : Bool) : MsgPhase → WorkSide
  | .unsent => .lost final
  | _       => .bad

/-- A call between two messages, after the chunks `cs`; most calls change nothing. -/
def between (cfd : Fd) (cs : List Bytes) (q : WorkSide) : (c : WorkCall) → c.Ret → Option WorkSide
  | .read _ size, r =>
    if size = outputBufSize then
      match r with
      | .data [] => some (.working cs)
      | .data (b :: bs) =>
        if (b :: bs).length ≤ size then
          some (.sending cs (.output (b :: bs)) (WorkMsg.output (b :: bs)).frame)
        else none
      | _ => some (.working cs)
    else some .bad
  | .waitpid _, status =>
    some (.sending cs (.done (childExit status)) (WorkMsg.done (childExit status)).frame)
  | .pipe, pipefd => if pipefd.rd ≠ cfd ∧ pipefd.wr ≠ cfd then some q else none
  | .close fd, _ => some (if fd = cfd then .closed else q)
  | _, _ => some q

/-- A call when nothing can be sent any more. -/
def whenLost (cfd : Fd) (final : Bool) : (c : WorkCall) → c.Ret → Option WorkSide
  | .read _ size, r =>
    if final = true ∨ size ≠ outputBufSize then some .bad
    else
      match r with
      | .data bs => if bs.length ≤ size then some (.lost final) else none
      | _        => some (.lost final)
  | .waitpid _, _ => some (if final = true then .bad else .lost final)
  | .pipe, pipefd => if pipefd.rd ≠ cfd ∧ pipefd.wr ≠ cfd then some (.lost final) else none
  | .close fd, _ => some (if fd = cfd then .closed else .lost final)
  | _, _ => some (.lost final)

/-- A call after the message with the exit code. -/
def whenEnded (cfd : Fd) : (c : WorkCall) → c.Ret → Option WorkSide
  | .read _ _, _  => some .bad
  | .waitpid _, _ => some .bad
  | .close fd, _  => some (if fd = cfd then .closed else .ended)
  | _, _          => some .ended

/-- A call of a worker that has received no message. -/
def whenRefused (cfd : Fd) (q : WorkSide) : (c : WorkCall) → c.Ret → Option WorkSide
  | .free _, _   => some q
  | .close fd, _ => some (if fd = cfd then .closed else .bad)
  | _, _         => some .bad

def onWork (cfd : Fd) : WorkSide → (c : WorkCall) → c.Ret → Option WorkSide
  | .reading q, c, r =>
    match q with
    | .receiving got =>
      if (unframe got).isSome then between cfd [] (.working []) c r
      else whenRefused cfd (.reading q) c r
    | .unreceived => whenRefused cfd (.reading q) c r
    | _           => some .bad
  | .working cs, c, r => between cfd cs (.working cs) c r
  | .sending cs m todo, c, r =>
    -- a message that the worker does not begin to send is dropped
    if todo = m.frame ∧ m.isDone = true then between cfd cs (.sending cs m todo) c r
    else some .bad
  | .lost final, c, r => whenLost cfd final c r
  | .ended, c, r => whenEnded cfd c r
  | _, _, _ => some .bad

def onNet (cfd : Fd) : WorkSide → (c : NetCall) → c.Ret → Option WorkSide
  | .reading q, c, r         => (MsgPhase.auto cfd q c r).map .reading
  | .sending cs m todo, c, r => (MsgPhase.auto cfd (.sending todo) c r).map (ofPhase cs m)
  | .lost final, c, r        => (MsgPhase.auto cfd .unsent c r).map (ofUnsent final)
  | _, _, _                  => some .bad

def auto (cfd : Fd) : WorkSide → (c : SessCall) → c.Ret → Option WorkSide
  | q, .net .worker c, r => q.onNet cfd c r
  | q, .work c, r        => q.onWork cfd c r
  | _, _, _              => some .bad

def Good : WorkSide → Prop
  | .reading q => q.Receives
  | .bad       => False
  | _          => True

/-! ### The worker obeys its automaton -/

variable {cfd : Fd}

/-- The worker is not in the middle of a message; it makes its other calls. -/
def Acts : WorkSide → Prop
  | .reading (.receiving got) => (unframe got).isSome
  | .working _ => True
  | .sending _ m todo => m.isDone = true ∧ todo = m.frame
  | .lost _ => True
  | .ended => True
  | _ => False

/-- The worker can go on with its children. -/
def Runs (q : WorkSide) : Prop := Acts q ∧ q ≠ .ended ∧ q ≠ .lost true

lemma runs_of_whole {got : Bytes} (h : (unframe got).isSome) : Runs (.reading (.receiving got)) :=
  ⟨h, nofun, nofun⟩

/-- The worker is about to send the message, or can send nothing any more. -/
def Offers (m : WorkMsg) : WorkSide → Prop
  | .sending _ m' todo => m' = m ∧ todo = m.frame
  | .lost final => final = false
  | _ => False

lemma Acts.good {q : WorkSide} (h : Acts q) : q.Good := by
  cases q with
  | reading q =>
    cases q with
    | receiving got => trivial
    | _ => exact h.elim
  | closed => trivial
  | bad => exact h.elim
  | _ => trivial

lemma Offers.good {m : WorkMsg} {q : WorkSide} (h : Offers m q) : q.Good := by
  cases q with
  | sending cs m' todo => trivial
  | lost final => trivial
  | _ => exact h.elim

lemma Offers.runs {exit : ℤ} {q : WorkSide} (h : Offers (.done exit) q) : Runs q := by
  cases q with
  | sending cs m todo =>
    obtain ⟨rfl, rfl⟩ := h
    exact ⟨⟨rfl, rfl⟩, nofun, nofun⟩
  | lost final =>
    cases h
    exact ⟨trivial, nofun, nofun⟩
  | _ => exact h.elim

/-- The call leaves the connection and what is said on it alone. -/
def Neutral : WorkCall → Prop
  | .load _     => True
  | .free _     => True
  | .getpid     => True
  | .fopen _    => True
  | .fwrite _ _ => True
  | .fclose _   => True
  | .unlink _   => True
  | .fork _     => True
  | .kill _     => True
  | _           => False

/-- A message that was received whole is left behind. -/
def settle : WorkSide → WorkSide
  | .reading _ => .working []
  | q          => q

lemma Acts.settle {q : WorkSide} (h : Acts q) : Acts q.settle := by
  cases q with
  | reading q => trivial
  | _ => exact h

lemma Runs.settle {q : WorkSide} (h : Runs q) : Runs q.settle := by
  refine ⟨h.1.settle, ?_, ?_⟩
  · cases q with
    | reading q => exact nofun
    | _ => exact h.2.1
  · cases q with
    | reading q => exact nofun
    | _ => exact h.2.2

lemma Offers.settle {m : WorkMsg} {q : WorkSide} (h : Offers m q) : Offers m q.settle := by
  cases q with
  | reading q => exact h.elim
  | _ => exact h

section Neutral

variable {c : WorkCall} (hc : Neutral c) (r : c.Ret)
include hc

lemma between_neutral (cs : List Bytes) (q : WorkSide) : between cfd cs q c r = some q := by
  cases c with
  | load | free | getpid | fopen | fwrite | fclose | unlink | fork | kill => rfl
  | _ => exact hc.elim

lemma whenLost_neutral (final : Bool) : whenLost cfd final c r = some (.lost final) := by
  cases c with
  | load | free | getpid | fopen | fwrite | fclose | unlink | fork | kill => rfl
  | _ => exact hc.elim

lemma whenEnded_neutral : whenEnded cfd c r = some .ended := by
  cases c with
  | load | free | getpid | fopen | fwrite | fclose | unlink | fork | kill => rfl
  | _ => exact hc.elim

/-- A neutral call is made as it is. -/
lemma workCall_neutral (n : ℕ) : workCall n c = .call (.work c) .ret := by
  cases c with
  | load | free | getpid | fopen | fwrite | fclose | unlink | fork | kill => rfl
  | _ => exact hc.elim

end Neutral

/-- What a call does: there are three kinds of places. -/
lemma onWork_cases (cfd : Fd) {q : WorkSide} (h : Acts q) :
    (∃ cs, ∀ c r, q.onWork cfd c r = between cfd cs q.settle c r) ∨
      (∃ final, q = .lost final ∧ ∀ c r, q.onWork cfd c r = whenLost cfd final c r) ∨
      q = .ended ∧ ∀ c r, q.onWork cfd c r = whenEnded cfd c r := by
  cases q with
  | reading q =>
    cases q with
    | receiving got =>
      have hun : (unframe got).isSome = true := h
      refine .inl ⟨[], fun c r => ?_⟩
      simp only [onWork, if_pos hun]
      rfl
    | _ => exact h.elim
  | working cs => exact .inl ⟨cs, fun _ _ => rfl⟩
  | sending cs m todo =>
    refine .inl ⟨cs, fun c r => ?_⟩
    simp only [onWork, if_pos (And.intro h.2 h.1)]
    rfl
  | lost final => exact .inr (.inl ⟨final, rfl, fun _ _ => rfl⟩)
  | ended => exact .inr (.inr ⟨rfl, fun _ _ => rfl⟩)
  | closed => exact h.elim
  | bad => exact h.elim

lemma onWork_neutral {q : WorkSide} (h : Acts q) {c : WorkCall} (hc : Neutral c) (r : c.Ret) :
    q.onWork cfd c r = some q.settle := by
  rcases onWork_cases cfd h with ⟨cs, heq⟩ | ⟨final, rfl, heq⟩ | ⟨rfl, heq⟩
  · rw [heq, between_neutral hc]
  · rw [heq, whenLost_neutral hc]
    rfl
  · rw [heq, whenEnded_neutral hc]
    rfl

/-- The worker closes a descriptor. -/
lemma onWork_close {q : WorkSide} (h : Acts q) (fd : Fd) :
    q.onWork cfd (.close fd) () = some (if fd = cfd then .closed else q.settle) := by
  rcases onWork_cases cfd h with ⟨cs, heq⟩ | ⟨final, rfl, heq⟩ | ⟨rfl, heq⟩
  · rw [heq]
    rfl
  · rfl
  · rfl

lemma onWork_pipe {q q' : WorkSide} (h : Runs q) {pipefd : PipeRet}
    (hq : q.onWork cfd .pipe pipefd = some q') :
    q' = q.settle ∧ pipefd.rd ≠ cfd ∧ pipefd.wr ≠ cfd := by
  have hif {q q' : WorkSide}
      (hq : (if pipefd.rd ≠ cfd ∧ pipefd.wr ≠ cfd then some q else none) = some q') :
      q' = q ∧ pipefd.rd ≠ cfd ∧ pipefd.wr ≠ cfd := by
    split at hq
    · cases hq
      exact ⟨rfl, ‹_›⟩
    · cases hq
  rcases onWork_cases cfd h.1 with ⟨cs, heq⟩ | ⟨final, rfl, -⟩ | ⟨rfl, -⟩
  · rw [heq] at hq
    exact hif hq
  · exact hif hq
  · exact absurd rfl h.2.1

lemma onWork_waitpid {q q' : WorkSide} (h : Runs q) {pid : ℤ} {status : ℕ}
    (hq : q.onWork cfd (.waitpid pid) status = some q') :
    Offers (.done (childExit status)) q' := by
  rcases onWork_cases cfd h.1 with ⟨cs, heq⟩ | ⟨final, rfl, -⟩ | ⟨rfl, -⟩
  · rw [heq] at hq
    cases hq
    exact ⟨rfl, rfl⟩
  · cases final with
    | false =>
      cases hq
      rfl
    | true => exact absurd rfl h.2.2
  · exact absurd rfl h.2.1

/-- What the worker does behind a `read`. -/
def ReadTo (q' : WorkSide) : RecvRet → Prop
  | .data (b :: bs) => Offers (.output (b :: bs)) q'
  | _               => Runs q'

lemma onWork_read {q q' : WorkSide} (h : Runs q) {fd : Fd} {r : RecvRet}
    (hq : q.onWork cfd (.read fd outputBufSize) r = some q') : ReadTo q' r := by
  have hworking (cs : List Bytes) : Runs (.working cs) := ⟨trivial, nofun, nofun⟩
  have hlost : Runs (.lost false) := ⟨trivial, nofun, nofun⟩
  rcases onWork_cases cfd h.1 with ⟨cs, heq⟩ | ⟨final, rfl, -⟩ | ⟨rfl, -⟩
  · rw [heq] at hq
    simp only [between, if_true] at hq
    cases r with
    | intr =>
      cases hq
      exact hworking cs
    | err =>
      cases hq
      exact hworking cs
    | data bs =>
      cases bs with
      | nil =>
        cases hq
        exact hworking cs
      | cons b bs =>
        simp only at hq
        split at hq
        · cases hq
          exact ⟨rfl, rfl⟩
        · cases hq
  · cases final with
    | false =>
      simp only [onWork, whenLost] at hq
      cases r with
      | intr =>
        cases hq
        exact hlost
      | err =>
        cases hq
        exact hlost
      | data bs =>
        simp only [Bool.false_eq_true, ne_eq, not_true_eq_false, or_self, if_false] at hq
        split at hq
        · cases hq
          cases bs with
          | nil => exact hlost
          | cons b bs => rfl
        · cases hq
    | true => exact absurd rfl h.2.2
  · exact absurd rfl h.2.1

/-! ### Messages of the worker -/

lemma ofPhase_frame (cs : List Bytes) (m : WorkMsg) :
    ofPhase cs m (.sending m.frame) = .sending cs m m.frame := rfl

lemma good_ofPhase {cs : List Bytes} {m : WorkMsg} {q : MsgPhase} (h : q.Sends) :
    Good (ofPhase cs m q) := by
  cases q with
  | sending todo =>
    cases todo with
    | nil =>
      cases m with
      | _ => trivial
    | cons b todo => trivial
  | unsent => trivial
  | _ => exact h.elim

lemma onNet_ofPhase {cs : List Bytes} {m : WorkMsg} {q : MsgPhase} {q' : WorkSide} (hq : q.Sends)
    {c : NetCall} {r : c.Ret} (h : (ofPhase cs m q).onNet cfd c r = some q') :
    ∃ t, MsgPhase.auto cfd q c r = some t ∧ (t.Sends → q' = ofPhase cs m t) := by
  cases q with
  | sending todo =>
    cases todo with
    | nil => exact ⟨.bad, MsgPhase.auto_sent c r, False.elim⟩
    | cons b todo =>
      obtain ⟨t, ht, rfl⟩ := Option.map_eq_some_iff.1 h
      exact ⟨t, ht, fun _ => rfl⟩
  | unsent =>
    obtain ⟨t, ht, rfl⟩ := Option.map_eq_some_iff.1 h
    refine ⟨t, ht, fun hsends => ?_⟩
    rcases MsgPhase.auto_unsent ht with rfl | rfl
    · rfl
    · exact hsends.elim
  | _ => exact hq.elim

/-- Sending the message that is offered. -/
lemma always_send (n : ℕ) {m : WorkMsg} {q : WorkSide} (h : Offers m q) :
    (P2PNode.onNet .worker
      (sendMsg n cfd m.type (some m.payload) m.payload.length)).Always (auto cfd) Good
        (fun r q' => (r = 0 ∨ r = -1) ∧ ((∃ cs, q' = ofPhase cs m (.sending [])) ∨
          q' = .lost m.isDone ∨ q' = .lost false)) q := by
  cases q with
  | sending cs m' todo =>
    obtain ⟨rfl, rfl⟩ := h
    rw [← ofPhase_frame]
    apply ((@MsgPhase.always_sendMsg cfd n m'.type m'.payload).embed_within (auto cfd) Good
      (ofPhase cs m') ?_ ?_).mono
    · rintro r q' ⟨q, rfl, ⟨rfl, rfl⟩ | ⟨rfl, rfl⟩⟩
      · exact ⟨.inl rfl, .inl ⟨cs, rfl⟩⟩
      · exact ⟨.inr rfl, .inr (.inl rfl)⟩
    · intro q c r q' hsends hr
      exact onNet_ofPhase hsends hr
    · exact fun q => good_ofPhase
  | lost final =>
    cases h
    apply ((@MsgPhase.always_sendMsg_unsent cfd n m.type (some m.payload) _).embed_within
      (auto cfd) Good (ofUnsent false) ?_ ?_).mono
    · rintro r q' ⟨q, rfl, rfl, rfl⟩
      exact ⟨.inr rfl, .inr (.inr rfl)⟩
    · intro q c r q' hunsent hr
      subst hunsent
      obtain ⟨t, ht, rfl⟩ := Option.map_eq_some_iff.1 hr
      exact ⟨t, ht, fun _ => rfl⟩
    · rintro q rfl
      trivial
  | _ => exact h.elim

lemma always_sendOutput (n : ℕ) {chunk : Bytes} {q : WorkSide} (h : Offers (.output chunk) q) :
    (workCall n (.sendMsg cfd msgOutput chunk)).Always (auto cfd) Good
      (fun r q' => (r = 0 ∨ r = -1) ∧ Runs q') q := by
  apply (always_send n h).mono
  rintro r q' ⟨hr, ⟨cs, rfl⟩ | rfl | rfl⟩
  · exact ⟨hr, trivial, nofun, nofun⟩
  · exact ⟨hr, trivial, nofun, nofun⟩
  · exact ⟨hr, trivial, nofun, nofun⟩

lemma always_sendDone (n : ℕ) {exit : ℤ} {q : WorkSide} (h : Offers (.done exit) q) :
    (workCall n (.sendMsg cfd msgTaskDone (donePayload exit))).Always (auto cfd) Good
      (fun _ q' => Acts q') q := by
  apply (always_send n h).mono
  rintro r q' ⟨-, ⟨cs, rfl⟩ | rfl | rfl⟩
  · trivial
  · trivial
  · trivial

/-! ### The stages -/

section Stages

variable {α : Type} {post : α → WorkSide → Prop} {q : WorkSide}

lemma always_neutral {c : WorkCall} (hc : Neutral c) {k : c.Ret → SessProg α} (h : Acts q)
    (hk : ∀ r, (k r).Always (auto cfd) Good post q.settle) :
    (Prog.call (SessCall.work c) k : SessProg α).Always (auto cfd) Good post q := by
  refine ⟨h.good, fun r q' hq => ?_⟩
  rw [auto, onWork_neutral h hc] at hq
  cases hq
  exact hk r

lemma always_close {fd : Fd} (hfd : fd ≠ cfd) {k : Unit → SessProg α} (h : Acts q)
    (hk : (k ()).Always (auto cfd) Good post q.settle) :
    (Prog.call (SessCall.work (.close fd)) k : SessProg α).Always (auto cfd) Good post q := by
  refine ⟨h.good, fun r q' hq => ?_⟩
  rw [auto, onWork_close h, if_neg hfd] at hq
  cases hq
  exact hk

end Stages

lemma always_streamLoop (n rounds : ℕ) (pipe_fd : Fd) (pid : ℤ) {q : WorkSide} (h : Runs q) :
    ((streamLoop rounds cfd pipe_fd pid).expand (workCall n)).Always (auto cfd) Good
      (fun _ q' => Runs q') q := by
  induction rounds generalizing q with
  | zero => exact h.1.good
  | succ rounds ih =>
    refine ⟨h.1.good, fun r q' hq => ?_⟩
    have hto := onWork_read h hq
    cases r with
    | intr => exact ih hto
    | err => exact ⟨hto.1.good, hto⟩
    | data bs =>
      cases bs with
      | nil => exact ⟨hto.1.good, hto⟩
      | cons b bs =>
        simp only [Prog.bind, Prog.expand_bind]
        apply Prog.Always.bind
        rw [WorkCall.doSendMsg, Prog.expand_perform]
        apply (always_sendOutput n hto).mono
        rintro r q (⟨rfl | rfl, hruns⟩)
        · exact ih hruns
        · refine always_neutral (c := .kill pid) trivial hruns.1 fun _ => ?_
          exact ⟨hruns.1.settle.good, hruns.settle⟩

lemma always_streamAndWait (n rounds : ℕ) (pipe_fd : Fd) (pid : ℤ) {q : WorkSide} (h : Runs q) :
    ((streamAndWait rounds cfd pipe_fd pid).expand (workCall n)).Always (auto cfd) Good
      (fun exit q' => Offers (.done exit) q') q := by
  rw [streamAndWait, Prog.expand_bind]
  apply Prog.Always.bind
  apply (always_streamLoop n rounds pipe_fd pid h).mono
  intro _ q hruns
  refine ⟨hruns.1.good, fun status q' hq => ?_⟩
  have hoffers := onWork_waitpid hruns hq
  exact ⟨hoffers.good, hoffers⟩

lemma always_runStage (n rounds : ℕ) {pipefd : PipeRet} (hrd : pipefd.rd ≠ cfd)
    (hwr : pipefd.wr ≠ cfd) (exec : ChildCall) {q : WorkSide} (h : Runs q) :
    ((runStage rounds cfd pipefd exec).expand (workCall n)).Always (auto cfd) Good
      (fun exit q' => Offers (.done exit) q') q := by
  refine always_neutral (c := .fork _) trivial h.1 fun pid => ?_
  refine always_close hwr h.1.settle ?_
  simp only [Prog.bind, Prog.expand_bind]
  apply Prog.Always.bind
  apply (always_streamAndWait n rounds pipefd.rd pid h.settle.settle).mono
  intro exit q hoffers
  refine always_close hrd hoffers.runs.1 ?_
  exact ⟨hoffers.settle.good, hoffers.settle⟩

/-- A program of neutral calls. -/
lemma always_only (n : ℕ) {P : WorkSide → Prop} (hacts : ∀ q, P q → Acts q)
    (hsettle : ∀ q, P q → P q.settle) {α : Type} {p : WorkProg α} (hp : p.Only Neutral)
    {q : WorkSide} (h : P q) :
    (p.expand (workCall n)).Always (auto cfd) Good (fun _ q' => P q') q := by
  induction p generalizing q with
  | ret a => exact ⟨(hacts q h).good, h⟩
  | call c k ih =>
    rw [Prog.expand_call, workCall_neutral hp.1]
    exact always_neutral hp.1 (hacts q h) fun r => ih r (hp.2 r) (hsettle q h)
  | spin => exact (hacts q h).good

lemma always_runBinary (n rounds : ℕ) (src_path bin_path : TmpPath) {q : WorkSide} (h : Runs q) :
    ((runBinary rounds cfd src_path bin_path).expand (workCall n)).Always (auto cfd) Good
      (fun _ q' => Acts q') q := by
  refine ⟨h.1.good, fun pipefd q' hq => ?_⟩
  obtain ⟨rfl, hrd, hwr⟩ := onWork_pipe h hq
  simp only [Prog.bind, Prog.expand_bind]
  apply Prog.Always.bind
  apply (always_runStage n rounds hrd hwr _ h.settle).mono
  intro exit q hoffers
  apply Prog.Always.bind
  rw [WorkCall.doSendMsg, Prog.expand_perform]
  apply (always_sendDone n hoffers).mono
  intro _ q hacts
  have honly : (do
      WorkCall.doUnlink src_path
      WorkCall.doUnlink bin_path
      WorkCall.doLoad loadTaskDone : WorkProg Unit).Only Neutral :=
    ⟨trivial, fun _ => ⟨trivial, fun _ => ⟨trivial, fun _ => trivial⟩⟩⟩
  simpa using always_only n (fun _ h => h) (fun _ h => h.settle) honly hacts

lemma always_compileAndRun (n rounds : ℕ) (src_path bin_path : TmpPath) {q : WorkSide}
    (h : Runs q) :
    ((compileAndRun rounds cfd src_path bin_path).expand (workCall n)).Always (auto cfd) Good
      (fun _ q' => Acts q') q := by
  refine ⟨h.1.good, fun pipefd q' hq => ?_⟩
  obtain ⟨rfl, hrd, hwr⟩ := onWork_pipe h hq
  simp only [Prog.bind]
  split
  · rw [Prog.expand_bind]
    apply Prog.Always.bind
    apply (always_runStage n rounds hrd hwr _ h.settle).mono
    intro exit q hoffers
    split
    · rw [Prog.expand_bind]
      apply Prog.Always.bind
      rw [WorkCall.doSendMsg, Prog.expand_perform]
      apply (always_sendDone n hoffers).mono
      intro _ q hacts
      have honly : (do
          WorkCall.doUnlink src_path
          WorkCall.doLoad loadTaskDone : WorkProg Unit).Only Neutral :=
        ⟨trivial, fun _ => ⟨trivial, fun _ => trivial⟩⟩
      exact always_only n (fun _ h => h) (fun _ h => h.settle) honly hacts
    · exact always_runBinary n rounds src_path bin_path hoffers.runs
  · exact always_runBinary n rounds src_path bin_path h.settle

lemma always_compileAndStream (n rounds : ℕ) (name data : Bytes) {q : WorkSide} (h : Runs q) :
    ((compileAndStream rounds cfd name data).expand (workCall n)).Always (auto cfd) Good
      (fun _ q' => Acts q') q := by
  refine always_neutral (c := .load _) trivial h.1 fun _ => ?_
  refine always_neutral (c := .load _) trivial h.1.settle fun _ => ?_
  refine always_neutral (c := .getpid) trivial h.1.settle.settle fun _ => ?_
  refine always_neutral (c := .getpid) trivial h.1.settle.settle.settle fun _ => ?_
  refine always_neutral (c := .fopen _) trivial h.1.settle.settle.settle.settle fun f => ?_
  have hruns := h.settle.settle.settle.settle.settle
  cases f with
  | none =>
    have honly : (WorkCall.doLoad loadTaskDone : WorkProg Unit).Only Neutral :=
      ⟨trivial, fun _ => trivial⟩
    exact always_only n (fun _ h => h) (fun _ h => h.settle) honly hruns.1
  | some f =>
    refine always_neutral (c := .fwrite _ _) trivial hruns.1 fun _ => ?_
    refine always_neutral (c := .fclose _) trivial hruns.1.settle fun _ => ?_
    exact always_compileAndRun n rounds _ _ hruns.settle.settle

/-- The end of `handle_connection`. -/
lemma always_hangUp (n : ℕ) (payload : Option Ptr) {q : WorkSide} (h : Acts q) :
    ((do
      WorkCall.doFree payload
      WorkCall.doClose cfd : WorkProg Unit).expand (workCall n)).Always (auto cfd) Good
        (fun _ q' => q' = .closed) q := by
  refine always_neutral (c := .free _) trivial h fun _ => ?_
  refine ⟨h.settle.good, fun _ q' hq => ?_⟩
  rw [auto, onWork_close h.settle, if_pos rfl] at hq
  cases hq
  exact ⟨trivial, rfl⟩

lemma always_taskFileCase (n rounds : ℕ) {out : MsgOut} {m : WireMsg} (hout : out.Carries m)
    {q : WorkSide} (h : Runs q) :
    ((taskFileCase (compileAndStream rounds) cfd out).expand (workCall n)).Always (auto cfd) Good
      (fun _ q' => Acts q') q := by
  rw [taskFileCase]
  cases hp : out.payload with
  | none =>
    -- an empty message has no block
    have hnil : m.payload = [] := by
      by_contra hne
      have hblock := hout.payload
      rw [hp, if_neg hne] at hblock
      cases hblock
    have hlen : out.len < 6 := by
      rw [hout.len, hnil]
      decide
    simp only [if_pos hlen]
    exact ⟨h.1.good, h.1⟩
  | some payload =>
    simp only
    cases decodeTaskFile payload.bytes out.len with
    | none => exact ⟨h.1.good, h.1⟩
    | some x =>
      simp only [Prog.expand_bind]
      apply Prog.Always.bind
      apply (always_compileAndStream n rounds x.1 x.2 h).mono
      intro _ q hacts
      refine always_neutral (c := .free _) trivial hacts fun _ => ?_
      exact ⟨hacts.settle.good, hacts.settle⟩

lemma always_worker (S : Session) (rounds : ℕ) :
    (S.worker rounds).Always (auto S.ca.client_fd) Good (fun _ q => q = .closed)
      (.reading (.receiving [])) := by
  refine ⟨trivial, fun _ q hq => ?_⟩
  cases hq
  simp only [Prog.bind, Prog.expand_bind]
  apply Prog.Always.bind
  rw [WorkCall.doRecvMsg, Prog.expand_perform]
  apply ((@MsgPhase.always_recvMsg S.ca.client_fd rounds).embed (auto S.ca.client_fd) Good
    .reading ?_ fun _ h => h).mono
  · rintro ⟨ret, out⟩ q ⟨q, rfl, ⟨hret, got, rfl, m, hun, hout⟩ | ⟨hret, -, hq⟩⟩
    · simp only at hret hout
      subst hret
      have hruns : Runs (.reading (.receiving got)) := runs_of_whole (by rw [hun]; rfl)
      simp only [lt_irrefl, if_false]
      split
      · rw [Prog.expand_bind]
        apply Prog.Always.bind
        apply (always_taskFileCase rounds rounds hout hruns).mono
        intro payload q hacts
        exact always_hangUp rounds payload hacts
      · exact always_hangUp rounds _ hruns.1
    · simp only at hret
      subst hret
      simp only [if_pos (by decide : (-1 : ℤ) < 0)]
      refine ⟨?_, fun _ q' hq' => ?_⟩
      · rcases hq with rfl | ⟨got, rfl, -⟩
        · trivial
        · trivial
      · have hclosed : q' = .closed := by
          rcases hq with rfl | ⟨got, rfl, hun⟩
          · cases hq'
            exact if_pos rfl
          · simp only [auto, onWork, hun] at hq'
            cases hq'
            exact if_pos rfl
        subst hclosed
        exact ⟨trivial, rfl⟩
  · intro q c r t' hr
    obtain ⟨t, ht, rfl⟩ := Option.map_eq_some_iff.1 hr
    exact ⟨t, ht, rfl⟩

end WorkSide
end P2PNode
