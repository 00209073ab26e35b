import P2PNode.Web.Fanout

/-!
# Where the tasks of the bridge are

Each task of the event loop as an automaton over its calls: where a broadcast is, and how much of
its backlog a dashboard still has to be sent.
-/

namespace P2PNode

open Effect

/-! ### Where the tasks are -/

/-- Where a task that broadcasts is. -/
inductive CastPhase where
  | idle
  | got (text : PyStr)
  | checking (msg : WsOut)
  | listing (msg : WsOut)
  | calling (msg : WsOut) (ds : List ℕ)
  | waiting (msg : WsOut)
  | bad

namespace CastPhase

@[simp] def onSuspend : CastPhase → CastPhase
  | .idle        => .idle
  | .waiting msg => .waiting msg
  | _            => .bad

@[simp] def onRead (bs : Bytes) : CastPhase → CastPhase
  | .idle => if bs = [] then .checking (.pipe (.done stdoutKind)) else .got (Utf8.decode bs)
  | _     => .bad

@[simp] def onAppend (text : PyStr) : CastPhase → CastPhase
  | .got text' => if text = text' then .checking (.pipe (.output stdoutKind text)) else .bad
  | _          => .bad

@[simp] def onNode : CastPhase → CastPhase
  | .idle => .checking .exited
  | _     => .bad

@[simp] def onAny (b : Bool) : CastPhase → CastPhase
  | .checking msg => if b then .listing msg else .idle
  | _             => .bad

@[simp] def onList (ds : List ℕ) : CastPhase → CastPhase
  | .listing msg => .calling msg ds
  | _            => .bad

@[simp] def onGather (ds : List ℕ) (msg : WsOut) : CastPhase → CastPhase
  | .calling msg' ds' => if ds = ds' ∧ msg = msg' then .waiting msg else .bad
  | _                 => .bad

@[simp] def onGathered : CastPhase → CastPhase
  | .waiting _ => .idle
  | _          => .bad

/-- One of the two tasks reads, the other one waits for the node. -/
@[simp] def step (reads : Bool) (q : CastPhase) : (c : FanCall) → c.Ret → CastPhase
  | .suspend, _        => q.onSuspend
  | .read _, bs        => if reads then q.onRead bs else .bad
  | .logAppend text, _ => if reads then q.onAppend text else .bad
  | .waitNode, _       => if reads then .bad else q.onNode
  | .anyClient, b      => q.onAny b
  | .listClients, ds   => q.onList ds
  | .gather ds msg, _  => q.onGather ds msg
  | .gathered, _       => q.onGathered
  | _, _               => .bad

def Good : CastPhase → Prop
  | .bad => False
  | _    => True

end CastPhase

/-- Where a `ws_handler` is; `backlog` with what is still to be sent of it. -/
inductive HandPhase where
  | fresh
  | added
  | backlog (todo : List PyStr)
  | lost
  | gone
  | bad

namespace HandPhase

@[simp] def onSuspend : HandPhase → HandPhase
  | .backlog todo => .backlog todo
  | .lost         => .lost
  | .gone         => .gone
  | _             => .bad

@[simp] def onAdd : HandPhase → HandPhase
  | .fresh => .added
  | _      => .bad

@[simp] def onSlice (lines : List PyStr) : HandPhase → HandPhase
  | .added => .backlog lines
  | _      => .bad

@[simp] def onSend (msg : WsOut) (ok : Bool) : HandPhase → HandPhase
  | .backlog []              => if msg.line? = none then .backlog [] else .bad
  | .backlog (line :: lines) =>
    if msg = .pipe (.output stdoutKind line) then if ok then .backlog lines else .lost else .bad
  | _                        => .bad

/-- A call of the loop. -/
@[simp] def onLoop : HandPhase → HandPhase
  | .backlog [] => .backlog []
  | _           => .bad

@[simp] def onDiscard : HandPhase → HandPhase
  | .backlog [] => .gone
  | _           => .bad

@[simp] def step (d : ℕ) (q : HandPhase) : (c : FanCall) → c.Ret → HandPhase
  | .suspend, _       => q.onSuspend
  | .add d', _        => if d' = d then q.onAdd else .bad
  | .logSlice n, ls   => if n = backlogSize then q.onSlice ls else .bad
  | .send d' msg, ok  => if d' = d then q.onSend msg ok else .bad
  | .recvFrame d', _  => if d' = d then q.onLoop else .bad
  | .nodeAlive, _     => q.onLoop
  | .bridge _, _      => q.onLoop
  | .discard d', _    => if d' = d then q.onDiscard else .bad
  | _, _              => .bad

def Good : HandPhase → Prop
  | .bad => False
  | _    => True

end HandPhase

inductive FanPhase where
  | cast (reads : Bool) (q : CastPhase)
  | server
  | hand (d : ℕ) (q : HandPhase)
  | bad

namespace FanPhase

@[simp] def step : FanPhase → (c : FanCall) → c.Ret → FanPhase
  | .cast reads q, c, r     => .cast reads (q.step reads c r)
  | .hand d q, c, r         => .hand d (q.step d c r)
  | .server, .suspend, _    => .server
  | .server, .accept, _     => .server
  | _, _, _                 => .bad

def auto : Kernel FanCall FanCall.Ret FanPhase := fun q c r => some (q.step c r)

def Good : FanPhase → Prop
  | .cast _ q => q.Good
  | .server   => True
  | .hand _ q => q.Good
  | .bad      => False

/-- Where a handler ends. -/
def Fin : FanPhase → Prop
  | .hand _ q => q = .lost ∨ q = .gone
  | _         => True

/-! ### The tasks obey -/

section Always

variable {α : Type} {post : α → FanPhase → Prop}

lemma always_call {c : FanCall} {k : c.Ret → FanProg α} {q : FanPhase} (hq : q.Good)
    (h : ∀ r, (k r).Always auto Good post (q.step c r)) :
    (Prog.call c k : FanProg α).Always auto Good post q :=
  ⟨hq, fun r _ hq' => Option.some.inj hq' ▸ h r⟩

lemma always_broadcast (reads : Bool) (msg : WsOut) :
    (broadcast msg).Always auto Good (fun _ q => q = .cast reads .idle)
      (.cast reads (.checking msg)) := by
  refine always_call trivial fun b => ?_
  cases b with
  | false => exact ⟨trivial, rfl⟩
  | true =>
    refine always_call trivial fun ds => always_call trivial fun _ => ?_
    simp only [step, CastPhase.step, CastPhase.onAny, CastPhase.onList, CastPhase.onGather,
      and_self, if_true]
    exact always_call trivial fun _ => always_call trivial fun _ => ⟨trivial, rfl⟩

lemma good_onRead (bs : Bytes) : (CastPhase.idle.onRead bs).Good := by
  rw [CastPhase.onRead]
  split
  · trivial
  · trivial

lemma always_pipeOutput (rounds : ℕ) :
    ((pipeOutput stdoutKind rounds).expand pipeCall).Always auto Good
      (fun _ q => q = .cast true .idle) (.cast true .idle) := by
  induction rounds with
  | zero => trivial
  | succ rounds ih =>
    rw [pipeOutput, Prog.expand_bind, PipeCall.doRead, Prog.expand_perform]
    apply Prog.Always.bind
    refine always_call trivial fun _ => always_call trivial fun bs => ⟨?_, ?_⟩
    · exact good_onRead bs
    simp only [step, CastPhase.step, CastPhase.onSuspend, CastPhase.onRead, if_true]
    split
    · rw [PipeCall.doBroadcast, Prog.expand_perform]
      exact always_broadcast true _
    · rw [Prog.expand_bind, PipeCall.doLogAppend, Prog.expand_perform]
      apply Prog.Always.bind
      refine always_call trivial fun _ => ?_
      simp only [step, CastPhase.step, CastPhase.onAppend, if_true]
      refine ⟨trivial, ?_⟩
      rw [Prog.expand_bind, PipeCall.doBroadcast, Prog.expand_perform]
      apply Prog.Always.bind
      apply (always_broadcast true _).mono
      rintro _ _ rfl
      exact ih

lemma always_pipeTask (rounds : ℕ) :
    (pipeTask rounds).Always auto Good (fun _ q => q.Fin) (.cast true .idle) := by
  refine Prog.Always.bind ((always_pipeOutput rounds).mono ?_)
  rintro _ _ rfl
  exact always_call trivial fun _ => ⟨trivial, trivial⟩

lemma always_spawnTask :
    spawnTask.Always auto Good (fun _ q => q.Fin) (.cast false .idle) := by
  simp only [spawnTask, FanCall.doSuspend, FanCall.doWaitNode, Prog.perform_bind]
  refine always_call trivial fun _ => always_call trivial fun _ => ?_
  refine Prog.Always.bind ((always_broadcast false .exited).mono ?_)
  rintro _ _ rfl
  exact always_call trivial fun _ => ⟨trivial, trivial⟩

lemma always_serveLoop (rounds : ℕ) :
    (serveLoop rounds).Always auto Good (fun _ q => q.Fin) .server := by
  induction rounds with
  | zero => trivial
  | succ rounds ih => exact always_call trivial fun _ => always_call trivial fun _ => ih

/-- A message that is not output, in the loop. -/
lemma always_reply (d : ℕ) {msg : WsOut} (hmsg : msg.line? = none) {k : Bool → FanProg α}
    (h : ∀ ok, (k ok).Always auto Good post (.hand d (.backlog []))) :
    (awaitSend d msg >>= k).Always auto Good post (.hand d (.backlog [])) := by
  refine always_call trivial fun ok => ?_
  simp only [step, HandPhase.step, HandPhase.onSend, if_true, if_pos hmsg]
  exact always_call trivial fun _ => h ok

lemma always_attempt (d : ℕ) (p : BridgeProg Unit) :
    (p.attempt (handlerCall d)).Always auto Good (fun _ q => q = .hand d (.backlog []))
      (.hand d (.backlog [])) := by
  induction p with
  | ret a => exact ⟨trivial, rfl⟩
  | call c k ih =>
    rw [Prog.attempt]
    cases c with
    | sendError =>
      refine Prog.Always.bind (always_reply d rfl fun ok => ?_)
      cases ok with
      | false => exact ⟨trivial, trivial, rfl⟩
      | true => exact ⟨trivial, ih ()⟩
    | writeStdin data =>
      refine always_call trivial fun ok => ?_
      exact always_call trivial fun _ => ih ok
    | _ => exact always_call trivial fun r => ih r
  | spin => trivial

lemma always_wsFrame (base : PurePath) (d : ℕ) (frame : WsFrame) :
    (wsFrame base d frame).Always auto Good (fun _ q => q = .hand d (.backlog []))
      (.hand d (.backlog [])) := by
  cases frame with
  | msg m => exact always_attempt d _
  | status =>
    refine always_call trivial fun alive => always_reply d rfl fun ok => ?_
    cases ok with
    | false => exact ⟨trivial, rfl⟩
    | true => exact ⟨trivial, rfl⟩
  | _ => exact ⟨trivial, rfl⟩

lemma always_discard (d : ℕ) :
    (FanCall.doDiscard d).Always auto Good (fun _ q => q = .hand d .gone)
      (.hand d (.backlog [])) := by
  refine always_call trivial fun _ => ?_
  simp only [step, HandPhase.step, HandPhase.onDiscard, if_true]
  exact ⟨trivial, rfl⟩

lemma always_wsLoop (base : PurePath) (d : ℕ) (rounds : ℕ) :
    (wsLoop base d rounds).Always auto Good (fun _ q => q = .hand d .gone)
      (.hand d (.backlog [])) := by
  induction rounds with
  | zero => trivial
  | succ rounds ih =>
    simp only [wsLoop, FanCall.doSuspend, FanCall.doRecvFrame, Prog.perform_bind]
    refine always_call trivial fun _ => always_call trivial fun r => ?_
    simp only [step, HandPhase.step, HandPhase.onSuspend, HandPhase.onLoop, if_true]
    cases r with
    | none => exact always_discard d
    | some frame =>
      refine Prog.Always.bind ((always_wsFrame base d frame).mono ?_)
      rintro next _ rfl
      cases next with
      | none => exact always_discard d
      | some u => exact ih

lemma always_sendBacklog (d : ℕ) (lines : List PyStr) :
    (sendBacklog d lines).Always auto Good
      (fun ok q => (ok = true ∧ q = .hand d (.backlog [])) ∨ (ok = false ∧ q = .hand d .lost))
      (.hand d (.backlog lines)) := by
  induction lines with
  | nil => exact ⟨trivial, .inl ⟨rfl, rfl⟩⟩
  | cons line lines ih =>
    refine always_call trivial fun ok => ?_
    simp only [step, HandPhase.step, HandPhase.onSend, if_true]
    cases ok with
    | false => exact always_call trivial fun _ => ⟨trivial, .inr ⟨rfl, rfl⟩⟩
    | true => exact always_call trivial fun _ => ih

lemma always_wsHandler (base : PurePath) (rounds d : ℕ) :
    (wsHandler base rounds d).Always auto Good (fun _ q => q.Fin) (.hand d .fresh) := by
  simp only [wsHandler, FanCall.doAdd, FanCall.doLogSlice, Prog.perform_bind]
  refine always_call trivial fun _ => ?_
  simp only [step, HandPhase.step, HandPhase.onAdd, if_true]
  refine always_call trivial fun lines => ?_
  simp only [step, HandPhase.step, HandPhase.onSlice, if_true]
  refine Prog.Always.bind ((always_sendBacklog d lines).mono ?_)
  rintro ok q (⟨rfl, rfl⟩ | ⟨rfl, rfl⟩)
  · refine Prog.Always.bind ((always_wsLoop base d rounds).mono ?_)
    rintro _ _ rfl
    exact always_call trivial fun _ => ⟨trivial, .inr rfl⟩
  · exact ⟨trivial, .inl rfl⟩

end Always

end FanPhase
end P2PNode
