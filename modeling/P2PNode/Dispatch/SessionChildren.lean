import P2PNode.Dispatch.Session
import P2PNode.Worker.Phases

/-!
# The children of a session

The worker of a session waits only for the child that its last `fork` has made: where no `fork`
fails, the exit code that it makes of a status word is that of the child.
-/

namespace P2PNode

open Effect

/-- Where a party is with its child: the dispatcher has none; the worker has none, or its last
`fork` has returned `pid` and it has not waited since. -/
inductive ChildPhase where
  | dispatcher
  | idle
  | forked (pid : ℤ)
  | bad

namespace ChildPhase

/-- The child as the process has it. -/
def child : ChildPhase → Option ℤ
  | .forked pid => some pid
  | _           => none

def next : ChildPhase → (c : WorkCall) → c.Ret → ChildPhase
  | .dispatcher, _, _             => .bad
  | _, .fork _, (pid : ℤ)         => .forked pid
  | .forked pid, .waitpid pid', _ => if pid' = pid then .idle else .bad
  | _, .waitpid _, _              => .bad
  | q, _, _                       => q

def auto : Kernel SessCall SessCall.Ret ChildPhase
  | q, .work c, r => some (q.next c r)
  | q, _, _       => some q

def Good (q : ChildPhase) : Prop := q ≠ .bad

/-- The other calls leave the child alone. -/
lemma next_other {q : ChildPhase} {c : WorkCall} {r : c.Ret} (hgood : (q.next c r).Good)
    (hfork : ∀ code, c ≠ .fork code) (hwait : ∀ pid, c ≠ .waitpid pid) : q.next c r = q := by
  cases q with
  | dispatcher => exact absurd rfl hgood
  | _ =>
    cases c with
    | fork code => exact absurd rfl (hfork code)
    | waitpid pid => exact absurd rfl (hwait pid)
    | _ => rfl

/-! ### The threads -/

/-- What the phase of a handler says about its child. -/
def ofPhase : Phase → ChildPhase
  | .forked _ _ _ pid    => .forked pid
  | .streaming _ _ _ pid => .forked pid
  | .chunk _ _ _ pid _   => .forked pid
  | .lost _ _ _ pid      => .forked pid
  | .drained _ _ _ pid   => .forked pid
  | _                    => .idle

lemma good_ofPhase (q : Phase) : (ofPhase q).Good := by
  cases q with
  | _ => exact nofun

lemma next_ofPhase {q q' : Phase} {c : WorkCall} {r : c.Ret} (h : Phase.Step q c r q') :
    (ofPhase q).next c r = ofPhase q' := by
  cases h with
  | wait st t p pid status => exact if_pos rfl
  | pipe st t p => exact Stage.afterPipe_cases st t p rfl fun _ => rfl
  | check n => exact Phase.afterCheck_cases n (fun _ => rfl) rfl
  | closeRd st t p status r =>
    exact Stage.after_cases st t (childExit status) (fun _ _ => rfl) fun _ => rfl
  | read st t p pid size got => exact Phase.afterRead_cases st t p pid got rfl rfl fun _ => rfl
  | output st t p pid buf ret =>
    split
    · rfl
    · rfl
  | _ => rfl

/-- The calls on the connection have nothing to do with the child. -/
lemma always_net {p : Party} {α : Type} (prog : NetProg α) {post : α → ChildPhase → Prop}
    {q : ChildPhase} (hq : q.Good) (hpost : ∀ a, post a q) :
    (onNet p prog).Always auto Good post q := by
  refine Prog.Always.of_only (P := fun c => ∃ n, c = SessCall.net p n)
    (Prog.only_embed _ _ (fun c => ⟨c, rfl⟩) _) ?_ hq hpost
  rintro _ ⟨n, rfl⟩ r q' hq'
  cases hq'
  rfl

/-- A call of a handler, carried out in a session. -/
lemma always_workCall (n : ℕ) (q : Phase) (c : WorkCall)
    (hgood : ∀ r q', Phase.auto q c r = some q' → q'.Good) :
    (workCall n c).Always auto Good (fun r t => ∃ q', Phase.auto q c r = some q' ∧ t = ofPhase q')
      (ofPhase q) := by
  have hstep (r : c.Ret) : (ofPhase q).next c r = ofPhase (q.next c r) :=
    next_ofPhase (Phase.step_of_next rfl (hgood r _ rfl))
  have hsame (hfork : ∀ code, c ≠ .fork code) (hwait : ∀ pid, c ≠ .waitpid pid) (r : c.Ret) :
      ofPhase q = ofPhase (q.next c r) := by
    have hnext : ((ofPhase q).next c r).Good := hstep r ▸ good_ofPhase _
    rw [← hstep r, next_other hnext hfork hwait]
  cases c with
  | sendMsg fd type payload =>
    exact always_net _ (good_ofPhase q) fun r => ⟨_, rfl, hsame nofun nofun r⟩
  | recvMsg fd => exact always_net _ (good_ofPhase q) fun r => ⟨_, rfl, hsame nofun nofun r⟩
  | segfault =>
    refine ⟨good_ofPhase q, fun _ t ht => ?_⟩
    cases ht
    exact good_ofPhase q
  | _ =>
    refine ⟨good_ofPhase q, fun r t ht => ?_⟩
    cases ht
    rw [hstep r]
    exact ⟨good_ofPhase _, _, rfl, rfl⟩

lemma always_worker (S : Session) (rounds : ℕ) :
    (S.worker rounds).Always auto Good (fun _ _ => True) .idle :=
  ((Phase.always_handleConnection rounds S.ca).expand auto Good ofPhase
    (fun q c _ hgood => always_workCall rounds q c hgood) fun q _ => good_ofPhase q).mono
      fun _ _ _ => trivial

/-- The dispatcher has no children. -/
lemma always_dispatcher (S : Session) (rounds : ℕ) :
    (S.dispatcher rounds).Always auto Good (fun _ _ => True) .dispatcher := by
  refine Prog.Always.of_only (P := fun c => ∀ w, c ≠ SessCall.work w) ?_ ?_ nofun fun _ => trivial
  · refine (Prog.only_expand _ (fun c => ?_) _).bind fun rc => Prog.only_perform fun _ => nofun
    cases c with
    | sendMsg fd type payload => exact Prog.only_embed _ _ (fun _ _ => nofun) _
    | recvMsg fd => exact Prog.only_embed _ _ (fun _ _ => nofun) _
    | _ => exact ⟨fun _ => nofun, fun _ => trivial⟩
  · intro c hc r q' hq'
    cases c with
    | work c => exact absurd rfl (hc c)
    | _ =>
      cases hq'
      rfl

/-! ### Every run -/

/-- What is true of the child. -/
structure Own (q : ChildPhase) (w : SessWorld) : Prop where
  child : w.child = q.child
  status : w.made = w.status

variable {S : Session} {w w' : SessWorld} {q q' : ChildPhase}

lemma Own.congr (h : q.Own w) (hchild : w'.child = w.child) (hmade : w'.made = w.made)
    (hstatus : w'.status = w.status) : q.Own w' :=
  ⟨hchild.trans h.child, hmade.trans (h.status.trans hstatus.symm)⟩

lemma own_net (h : q.Own w) {p : Party} {c : NetCall} {r : c.Ret}
    (hw : S.net w p c r = some w') : q.Own w' := by
  obtain ⟨up, down, rfl⟩ := Session.net_cases hw
  exact h.congr rfl rfl rfl

lemma own_disp (h : q.Own w) {c : DispCall} {r : c.Ret} (hw : S.disp w c r = some w') :
    q.Own w' := by
  rcases Session.disp_cases hw with rfl | rfl
  · exact h
  · exact h.congr rfl rfl rfl

lemma own_other (h : q.Own w) {c : WorkCall} {r : c.Ret} (hfork : ∀ code, c ≠ .fork code)
    (hwait : ∀ pid, c ≠ .waitpid pid) (hw : S.work w c r = some w') (hgood : (q.next c r).Good) :
    (q.next c r).Own w' := by
  rw [next_other hgood hfork hwait]
  rcases Session.work_cases hfork hwait hw with rfl | ⟨bs, rfl⟩ | rfl
  · exact h
  · exact h.congr rfl rfl rfl
  · exact h.congr rfl rfl rfl

lemma own_work (h : q.Own w) {i : ℕ} {c : WorkCall} {r : c.Ret}
    (hok : Session.Forks w (.call i (.work c) r)) (hw : S.work w c r = some w')
    (hgood : (q.next c r).Good) : (q.next c r).Own w' := by
  cases c with
  | fork code =>
    cases hw
    cases q with
    | dispatcher => exact absurd rfl hgood
    | _ => exact ⟨if_pos hok, h.status⟩
  | waitpid pid =>
    cases hw
    cases q with
    | forked pid' =>
      simp only [next] at hgood ⊢
      split at hgood
      · rename_i hpid
        subst hpid
        have hchild : w.child = some pid := h.child
        rw [if_pos rfl]
        refine ⟨?_, ?_⟩
        · simp only [SessWorld.waitpid, if_pos hchild]
          rfl
        · simp only [SessWorld.waitpid, if_pos hchild]
      · exact absurd rfl hgood
    | _ => exact absurd rfl hgood
  | _ => exact own_other h (by simp) (by simp) hw hgood

lemma own_print (h : q.Own w) {data : Bytes} {n : ℕ} (hw : w.print data n = some w') :
    q.Own w' := by
  rw [SessWorld.print] at hw
  split at hw
  · cases hw
    exact h.congr rfl rfl rfl
  · cases hw

/-- A call of the worker. -/
lemma own_call (h : q.Own w) {i : ℕ} {c : SessCall} {r : c.Ret}
    (hok : Session.Forks w (.call i c r)) (hw : S.call w i c r = some w')
    (hq : auto q c r = some q') (hgood : q'.Good) : q'.Own w' := by
  cases c with
  | work c =>
    cases hq
    exact own_work h hok hw hgood
  | net p c =>
    cases hq
    exact own_net h hw
  | disp c =>
    cases hq
    exact own_disp h hw
  | print data =>
    cases hq
    exact own_print h hw
  | segfault =>
    cases hq
    cases hw
    exact h
  | printExit rc =>
    cases hq
    cases hw
    exact h.congr rfl rfl rfl

/-- A call of the dispatcher. -/
lemma dispatcher_call (h : q.Own w) {i : ℕ} {c : SessCall} {r : c.Ret}
    (hw : S.call w i c r = some w') (hq : auto .dispatcher c r = some q') (hgood : q'.Good) :
    q' = .dispatcher ∧ q.Own w' := by
  cases c with
  | work c =>
    cases hq
    exact absurd rfl hgood
  | net p c =>
    cases hq
    exact ⟨rfl, own_net h hw⟩
  | disp c =>
    cases hq
    exact ⟨rfl, own_disp h hw⟩
  | print data =>
    cases hq
    exact ⟨rfl, own_print h hw⟩
  | segfault =>
    cases hq
    cases hw
    exact ⟨rfl, h⟩
  | printExit rc =>
    cases hq
    cases hw
    exact ⟨rfl, h.congr rfl rfl rfl⟩

lemma exists_auto (q : ChildPhase) (c : SessCall) (r : c.Ret) : ∃ q', auto q c r = some q' := by
  cases c with
  | _ => exact ⟨_, rfl⟩

def outline (S : Session) : Conc.Outline S.sys Session.Forks ChildPhase where
  auto := auto
  good := Good
  fin := fun _ => True
  fresh := fun _ _ => .bad
  inv := fun qs w => ∃ q, qs = [.dispatcher, q] ∧ q.Own w
  spawned := nofun
  call := by
    rintro _ w i p c r w' ⟨q, rfl, hown⟩ hi - hok hw
    obtain ⟨q', hq'⟩ := exists_auto p c r
    refine ⟨q', hq', fun hgood => ?_⟩
    match i with
    | 0 =>
      obtain rfl : ChildPhase.dispatcher = p := by simpa using hi
      obtain ⟨rfl, hown'⟩ := dispatcher_call (i := 0) hown hw hq' hgood
      exact ⟨q, rfl, hown'⟩
    | 1 =>
      obtain rfl : q = p := by simpa using hi
      exact ⟨q', rfl, own_call (i := 1) hown hok hw hq' hgood⟩
    | i + 2 => simp at hi
  env := fun {_ _ e _} _ _ _ => e.elim

end ChildPhase
end P2PNode
