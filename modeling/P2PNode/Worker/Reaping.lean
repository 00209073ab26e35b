import Mathlib.Data.List.Nodup
import P2PNode.Worker.Phases

/-!
# The children of the handlers

Which child each `waitpid` of a handler collects, and whose status it reports, in every run of the
worker. All handlers are threads of one process, so that a child of one of them is a child for
all.
-/

namespace P2PNode

open Effect

/-- A child of the worker that was not waited for: the number of its fork, its pid, the handler that
forked it, and its status word when it has ended. -/
structure Child where
  num : ℕ
  pid : ℤ
  owner : ℕ
  status : Option ℕ := none
  deriving DecidableEq

/-- The child after the child `num` has ended. -/
def Child.ended (num word : ℕ) (c : Child) : Child :=
  if c.num = num then { c with status := some word } else c

@[simp] lemma Child.ended_num (num word : ℕ) (c : Child) : (c.ended num word).num = c.num := by
  rw [ended]
  split
  · rfl
  · rfl

@[simp] lemma Child.ended_pid (num word : ℕ) (c : Child) : (c.ended num word).pid = c.pid := by
  rw [ended]
  split
  · rfl
  · rfl

@[simp] lemma Child.ended_owner (num word : ℕ) (c : Child) :
    (c.ended num word).owner = c.owner := by
  rw [ended]
  split
  · rfl
  · rfl

/-- A `waitpid` of a handler: the child that it forked for the stage and the child it collected. -/
structure Wait where
  own : Option ℕ
  collected : Option ℕ
  deriving DecidableEq

/-- An exit code sent to a client: the child that the handler forked for the stage, the child it
collected, and the payload. -/
structure Report where
  own : Option ℕ
  collected : Option ℕ
  payload : Bytes
  deriving DecidableEq

/-- Whether a child is to become the shell that runs the compiler. -/
def ChildCall.isShell : ChildCall → Bool
  | .execSh _ => true
  | _         => false

/-- The children of the worker. `latest` is the child that each handler forked for its stage (none
when `fork` failed) and `compiling` whether this was to be the compiler, `got` the one that its last
`waitpid` collected, `exitWord` the status words of the children that have ended, and `offered` the
child that a `waitpid` for any child finds. -/
structure ProcWorld where
  children : List Child := []
  forks : ℕ := 0
  latest : ℕ → Option ℕ := fun _ => none
  compiling : ℕ → Bool := fun _ => false
  got : ℕ → Option ℕ := fun _ => none
  exitWord : ℕ → Option ℕ := fun _ => none
  offered : Option ℕ := none
  waits : List Wait := []
  reports : List Report := []

/-- What happens without a call: a child ends, or is the next that a `waitpid` for any child
finds. -/
inductive ProcEvent where
  | exit (num : ℕ) (word : ℕ)
  | offer (num : ℕ)

namespace ProcWorld

/-- The children that a `waitpid` waits for. -/
def waitable (w : ProcWorld) (pid : ℤ) : List Child :=
  w.children.filter fun c => pid = -1 ∨ c.pid = pid

/-- The one of them that it finds. -/
def target (w : ProcWorld) (pid : ℤ) : Option Child :=
  (w.waitable pid).find? fun c => pid = -1 → w.offered = some c.num

/-- `fork` fails. -/
def noFork (w : ProcWorld) (i : ℕ) (code : List ChildCall) : ProcWorld :=
  { w with
    latest := Function.update w.latest i none
    compiling := Function.update w.compiling i (code.any ChildCall.isShell) }

/-- `fork` makes a child. -/
def fork (w : ProcWorld) (i : ℕ) (code : List ChildCall) (pid : ℤ) : ProcWorld :=
  { w with
    children := w.children ++ [{ num := w.forks, pid := pid, owner := i }]
    forks := w.forks + 1
    latest := Function.update w.latest i (some w.forks)
    compiling := Function.update w.compiling i (code.any ChildCall.isShell) }

/-- `waitpid` fails. -/
def noChild (w : ProcWorld) (i : ℕ) : ProcWorld :=
  { w with
    got := Function.update w.got i none
    waits := w.waits ++ [⟨w.latest i, none⟩] }

/-- `waitpid` collects a child. -/
def collect (w : ProcWorld) (i : ℕ) (c : Child) : ProcWorld :=
  { w with
    children := w.children.erase c
    got := Function.update w.got i (some c.num)
    waits := w.waits ++ [⟨w.latest i, some c.num⟩] }

/-- `fork` returns -1 or a pid that no child has. `waitpid` fails when there is no child to wait
for, and the status word is then any; otherwise it blocks until the child has ended; with -1 it
waits for any child. Every other call can have any result. -/
def call (w : ProcWorld) (i : ℕ) : (c : WorkCall) → c.Ret → Option ProcWorld
  | .fork code, (pid : ℤ) =>
    if pid = -1 then some (w.noFork i code)
    else if 0 < pid ∧ pid ∉ w.children.map Child.pid then some (w.fork i code pid)
    else none
  | .waitpid pid, (word : ℕ) =>
    if w.waitable pid = [] then some (w.noChild i)
    else
      (w.target pid).bind fun c => if c.status = some word then some (w.collect i c) else none
  | .sendMsg _ type payload, _ =>
    if type = msgTaskDone then
      some { w with reports := w.reports ++ [⟨w.latest i, w.got i, payload⟩] }
    else some w
  | _, _ => some w

def env (w : ProcWorld) : ProcEvent → Option ProcWorld
  | .exit num word =>
    if ∃ c ∈ w.children, c.num = num ∧ c.status = none then
      some { w with
        children := w.children.map (Child.ended num word)
        exitWord := Function.update w.exitWord num (some word) }
    else none
  | .offer num => some { w with offered := some num }

/-- The worker. -/
abbrev sys (rounds : ℕ) : Conc WorkCall WorkCall.Ret ProcWorld ProcEvent :=
  Phase.workers rounds call env

/-- The worker before its first step. -/
abbrev start (rounds : ℕ) (arg : Ptr) (server_fd : Fd) : Conf WorkCall WorkCall.Ret ProcWorld :=
  Phase.workersStart rounds arg server_fd {}

/-- A handler whose `fork` failed waits only while there is no child, and only in place of the
compiler, where the word that it finds then is taken for success. -/
def NoStrayWait (w : ProcWorld) : Move WorkCall WorkCall.Ret ProcEvent → Prop
  | .call i (.waitpid pid) (word : ℕ) =>
    pid = -1 → w.children = [] ∧ w.compiling i = true ∧ childExit word = 0
  | _ => True

instance (w : ProcWorld) (m : Move WorkCall WorkCall.Ret ProcEvent) :
    Decidable (NoStrayWait w m) := by
  unfold NoStrayWait
  split
  · infer_instance
  · infer_instance

/-- The report of an exit code is that of the child that the handler forked for the stage and
collected; there is none for a stage whose `fork` failed. -/
def Reported (w : ProcWorld) (x : Report) : Prop :=
  ∃ n word, x.own = some n ∧ x.collected = some n ∧ w.exitWord n = some word ∧
    x.payload = donePayload (childExit word)

/-- Every `waitpid` has collected the child that its handler forked for the stage, or none, and
every reported exit code is the status of that child. -/
structure Paired (w : ProcWorld) : Prop where
  waits : ∀ x ∈ w.waits, ∀ n, x.collected = some n → x.own = some n
  reports : ∀ x ∈ w.reports, w.Reported x

/-! ### The invariant -/

/-- `pid` is what the last `fork` of the handler returned, in this stage. -/
def Mine (w : ProcWorld) (i : ℕ) (st : Stage) (pid : ℤ) : Prop :=
  (pid = -1 ∧ w.latest i = none ∧ (w.compiling i = true → st = .compile)) ∨
    ∃ c ∈ w.children, c.pid = pid ∧ c.owner = i ∧ w.latest i = some c.num

/-- The handler has waited for its own child, whose status is mapped to `code`. -/
def Taken (w : ProcWorld) (i : ℕ) (code : ℤ) : Prop :=
  ∃ n word, w.latest i = some n ∧ w.got i = some n ∧ w.exitWord n = some word ∧
    childExit word = code

/-- What the phase of a handler says about its child. -/
def Own (w : ProcWorld) (i : ℕ) : Phase → Prop
  | .forked st _ _ pid => w.Mine i st pid
  | .streaming st _ _ pid => w.Mine i st pid
  | .chunk st _ _ pid _ => w.Mine i st pid
  | .lost st _ _ pid => w.Mine i st pid
  | .drained st _ _ pid => w.Mine i st pid
  | .collected st _ _ status => w.Taken i (childExit status) ∨ st = .compile ∧ childExit status = 0
  | .reporting _ _ exit => w.Taken i exit
  | _ => True

structure Inv (qs : List Phase) (w : ProcWorld) : Prop where
  own : ∀ i q, qs[i]? = some q → w.Own i q
  num_lt : ∀ c ∈ w.children, c.num < w.forks
  pid_pos : ∀ c ∈ w.children, 0 < c.pid
  nums : (w.children.map Child.num).Nodup
  pids : (w.children.map Child.pid).Nodup
  status : ∀ c ∈ w.children, w.exitWord c.num = c.status
  unborn : ∀ n, w.forks ≤ n → w.exitWord n = none
  paired : w.Paired

section Step

variable {qs : List Phase} {w w' : ProcWorld} {i : ℕ} {q q' : Phase} {c : WorkCall} {r : c.Ret}

/-- A change that leaves a handler its child and what it collected. -/
lemma Own.congr {j : ℕ} {p : Phase} (h : w.Own j p) (hl : w'.latest j = w.latest j)
    (hk : w'.compiling j = w.compiling j) (hg : w'.got j = w.got j)
    (hc : ∀ c ∈ w.children, c.owner = j →
      ∃ c' ∈ w'.children, c'.pid = c.pid ∧ c'.owner = j ∧ c'.num = c.num)
    (he : ∀ n word, w.exitWord n = some word → w'.exitWord n = some word) : w'.Own j p := by
  have hmine : ∀ st pid, w.Mine j st pid → w'.Mine j st pid := by
    rintro st pid (⟨hp, hn, hst⟩ | ⟨c, hmem, hp, ho, hn⟩)
    · exact .inl ⟨hp, hl.trans hn, fun h => hst (hk ▸ h)⟩
    · obtain ⟨c', hmem', hp', ho', hn'⟩ := hc c hmem ho
      exact .inr ⟨c', hmem', hp'.trans hp, ho', by rw [hl, hn, hn']⟩
  have htaken : ∀ code, w.Taken j code → w'.Taken j code := by
    rintro code ⟨n, word, hn, hgn, hw, hcode⟩
    exact ⟨n, word, hl.trans hn, hg.trans hgn, he n word hw, hcode⟩
  cases p with
  | forked => exact hmine _ _ h
  | streaming => exact hmine _ _ h
  | chunk => exact hmine _ _ h
  | lost => exact hmine _ _ h
  | drained => exact hmine _ _ h
  | collected => exact h.imp (htaken _) id
  | reporting => exact htaken _ h
  | _ => trivial

/-- The phases after a call that left the others their children. -/
lemma own_call (h : Inv qs w) (hq : qs[i]? = some q) (hi : w'.Own i q')
    (hne : ∀ j p, j ≠ i → w.Own j p → w'.Own j p) :
    ∀ j p, (qs.set i q' ++ Phase.born c r)[j]? = some p → w'.Own j p := by
  apply Phase.forall_call hq hi
  · intro j p hj hold
    exact hne j p hj (h.own j p hold)
  · intro _ _
    trivial

/-- A call that leaves the children as they are. -/
lemma Inv.keep (h : Inv qs w) (hq : qs[i]? = some q) (hi : w.Own i q → w.Own i q') :
    Inv (qs.set i q' ++ Phase.born c r) w :=
  { h with own := own_call h hq (hi (h.own i q hq)) fun _ _ _ hp => hp }

lemma Inv.noFork (h : Inv qs w) (hq : qs[i]? = some q) {st : Stage} {t : TaskCtx} {p : PipeRet} :
    Inv (qs.set i (.forked st t p (-1)) ++ Phase.born c r)
      (w.noFork i (childCode p (t.exec st))) where
  own := by
    refine own_call h hq (.inl ⟨rfl, Function.update_self .., ?_⟩) fun j p hj hp => ?_
    · intro hcompiling
      simp only [ProcWorld.noFork, Function.update_self] at hcompiling
      cases st with
      | compile => rfl
      | run => cases hcompiling
    · exact hp.congr (Function.update_of_ne hj ..) (Function.update_of_ne hj ..) rfl
        (fun c hc ho => ⟨c, hc, rfl, ho, rfl⟩) fun _ _ he => he
  num_lt := h.num_lt
  pid_pos := h.pid_pos
  nums := h.nums
  pids := h.pids
  status := h.status
  unborn := h.unborn
  paired := ⟨h.paired.waits, h.paired.reports⟩

lemma Inv.fork (h : Inv qs w) (hq : qs[i]? = some q) {st : Stage} {t : TaskCtx} {p : PipeRet}
    {pid : ℤ} (hpos : 0 < pid) (hfresh : pid ∉ w.children.map Child.pid) (code : List ChildCall) :
    Inv (qs.set i (.forked st t p pid) ++ Phase.born c r) (w.fork i code pid) where
  own := by
    refine own_call h hq ?_ fun j p hj hp => ?_
    · refine .inr ⟨_, List.mem_append_right _ (List.mem_singleton_self _), rfl, rfl, ?_⟩
      exact Function.update_self ..
    · exact hp.congr (Function.update_of_ne hj ..) (Function.update_of_ne hj ..) rfl
        (fun c hc ho => ⟨c, List.mem_append_left _ hc, rfl, ho, rfl⟩) fun _ _ he => he
  num_lt := by
    intro c hc
    rcases List.mem_append.1 hc with hc | hc
    · exact (h.num_lt c hc).trans (Nat.lt_succ_self _)
    · rw [List.mem_singleton.1 hc]
      exact Nat.lt_succ_self _
  pid_pos := by
    intro c hc
    rcases List.mem_append.1 hc with hc | hc
    · exact h.pid_pos c hc
    · rw [List.mem_singleton.1 hc]
      exact hpos
  nums := by
    have hnew : w.forks ∉ w.children.map Child.num := by
      intro hmem
      obtain ⟨c, hc, he⟩ := List.mem_map.1 hmem
      exact (h.num_lt c hc).ne he
    rw [ProcWorld.fork, List.map_append]
    exact h.nums.append (List.nodup_singleton _) (List.disjoint_singleton.2 hnew)
  pids := by
    rw [ProcWorld.fork, List.map_append]
    exact h.pids.append (List.nodup_singleton _) (List.disjoint_singleton.2 hfresh)
  status := by
    intro c hc
    rcases List.mem_append.1 hc with hc | hc
    · exact h.status c hc
    · rw [List.mem_singleton.1 hc]
      exact h.unborn _ le_rfl
  unborn := fun n hn => h.unborn n ((Nat.le_succ _).trans hn)
  paired := ⟨h.paired.waits, h.paired.reports⟩

/-- A handler without a child waits while there is none, and takes this for success. -/
lemma Inv.noChild (h : Inv qs w) (hq : qs[i]? = some q) {t : TaskCtx} {p : PipeRet} {status : ℕ}
    (hexit : childExit status = 0) :
    Inv (qs.set i (.collected .compile t p status) ++ Phase.born c r) (w.noChild i) where
  own := by
    refine own_call h hq (.inr ⟨rfl, hexit⟩) fun j p hj hp => ?_
    exact hp.congr rfl rfl (Function.update_of_ne hj ..) (fun c hc ho => ⟨c, hc, rfl, ho, rfl⟩)
      fun _ _ he => he
  num_lt := h.num_lt
  pid_pos := h.pid_pos
  nums := h.nums
  pids := h.pids
  status := h.status
  unborn := h.unborn
  paired := by
    refine ⟨fun x hx n hn => ?_, h.paired.reports⟩
    rcases List.mem_append.1 hx with hx | hx
    · exact h.paired.waits x hx n hn
    · rw [List.mem_singleton.1 hx] at hn
      cases hn

/-- A handler collects its own child. -/
lemma Inv.collect (h : Inv qs w) (hq : qs[i]? = some q) {st : Stage} {t : TaskCtx} {p : PipeRet}
    {status : ℕ} {x : Child} (hx : x ∈ w.children) (ho : x.owner = i)
    (hl : w.latest i = some x.num) (hs : x.status = some status) :
    Inv (qs.set i (.collected st t p status) ++ Phase.born c r) (w.collect i x) where
  own := by
    refine own_call h hq (.inl ⟨x.num, status, hl, Function.update_self .., ?_, rfl⟩)
      fun j p hj hp => ?_
    · exact (h.status x hx).trans hs
    · refine hp.congr rfl rfl (Function.update_of_ne hj ..) (fun c hc hoc => ?_) fun _ _ he => he
      have hne : c ≠ x := by
        rintro rfl
        exact hj (hoc.symm.trans ho)
      exact ⟨c, (List.mem_erase_of_ne hne).2 hc, rfl, hoc, rfl⟩
  num_lt := fun c hc => h.num_lt c (List.mem_of_mem_erase hc)
  pid_pos := fun c hc => h.pid_pos c (List.mem_of_mem_erase hc)
  nums := h.nums.sublist (List.erase_sublist.map _)
  pids := h.pids.sublist (List.erase_sublist.map _)
  status := fun c hc => h.status c (List.mem_of_mem_erase hc)
  unborn := h.unborn
  paired := by
    refine ⟨fun y hy n hn => ?_, h.paired.reports⟩
    rcases List.mem_append.1 hy with hy | hy
    · exact h.paired.waits y hy n hn
    · rw [List.mem_singleton.1 hy] at hn ⊢
      rw [← hn]
      exact hl

/-- An exit code is reported. -/
lemma Inv.report (h : Inv qs w) (hq : qs[i]? = some q) (hq' : w.Own i q') {exit : ℤ}
    (ht : w.Taken i exit) : Inv (qs.set i q' ++ Phase.born c r)
      { w with reports := w.reports ++ [⟨w.latest i, w.got i, donePayload exit⟩] } where
  own := own_call h hq
    (hq'.congr rfl rfl rfl (fun c hc ho => ⟨c, hc, rfl, ho, rfl⟩) fun _ _ he => he)
    fun j p _ hp => hp.congr rfl rfl rfl (fun c hc ho => ⟨c, hc, rfl, ho, rfl⟩) fun _ _ he => he
  num_lt := h.num_lt
  pid_pos := h.pid_pos
  nums := h.nums
  pids := h.pids
  status := h.status
  unborn := h.unborn
  paired := by
    refine ⟨h.paired.waits, fun x hx => ?_⟩
    rcases List.mem_append.1 hx with hx | hx
    · exact h.paired.reports x hx
    · rw [List.mem_singleton.1 hx]
      obtain ⟨n, word, hown, hgot, hw, hcode⟩ := ht
      exact ⟨n, word, hown, hgot, hw, by rw [hcode]⟩

/-- A pid belongs to one child. -/
lemma Inv.waitable_eq (h : Inv qs w) {x : Child} (hx : x ∈ w.children) :
    w.waitable x.pid = [x] := by
  have hne : x.pid ≠ -1 := by
    have := h.pid_pos x hx
    omega
  have hmem : ∀ y, y ∈ w.waitable x.pid ↔ y = x := by
    intro y
    simp only [waitable, List.mem_filter, hne, false_or, decide_eq_true_eq]
    constructor
    · rintro ⟨hy, hp⟩
      exact List.inj_on_of_nodup_map h.pids hy hx hp
    · rintro rfl
      exact ⟨hx, rfl⟩
  have hnodup : (w.waitable x.pid).Nodup := h.pids.of_map.filter _
  exact List.perm_singleton.1 ((List.perm_ext_iff_of_nodup hnodup (List.nodup_singleton x)).2
    fun y => (hmem y).trans List.mem_singleton.symm)

lemma Inv.wait (h : Inv qs w) (hq : qs[i]? = some q) {st : Stage} {t : TaskCtx} {p : PipeRet}
    {pid : ℤ} {status : ℕ} (hm : w.Mine i st pid)
    (hok : NoStrayWait w (.call i (.waitpid pid) status))
    (hw : ProcWorld.call w i (.waitpid pid) status = some w') :
    Inv (qs.set i (.collected st t p status) ++ Phase.born c r) w' := by
  simp only [ProcWorld.call] at hw
  rcases hm with ⟨rfl, -, hst⟩ | ⟨x, hx, rfl, ho, hl⟩
  · -- `fork` failed: there is no child to wait for
    obtain ⟨hnone, hcompiling, hexit⟩ := hok rfl
    rw [waitable, hnone, List.filter_nil, if_pos rfl] at hw
    cases hw
    obtain rfl := hst hcompiling
    exact h.noChild hq hexit
  · have hne : x.pid ≠ -1 := by
      have := h.pid_pos x hx
      omega
    have htarget : w.target x.pid = some x := by
      simp [target, h.waitable_eq hx, hne]
    rw [h.waitable_eq hx, if_neg (List.cons_ne_nil _ _), htarget, Option.bind_some] at hw
    split at hw
    · rename_i hs
      cases hw
      exact h.collect hq hx ho hl hs
    · cases hw

lemma own_afterCheck (n : ℕ) : w.Own i (Phase.afterCheck n) :=
  Phase.afterCheck_cases n (fun _ => trivial) trivial

lemma own_afterPipe (st : Stage) (t : TaskCtx) (p : PipeRet) : w.Own i (st.afterPipe t p) :=
  Stage.afterPipe_cases st t p trivial fun _ => trivial

lemma own_after {st : Stage} {t : TaskCtx} {code : ℤ}
    (h : w.Taken i code ∨ st = .compile ∧ code = 0) : w.Own i (st.after t code) :=
  Stage.after_cases st t code (fun _ _ => trivial) fun hcode => h.resolve_right hcode

lemma Mine.afterRead {st : Stage} {t : TaskCtx} {p : PipeRet} {pid : ℤ} (h : w.Mine i st pid)
    (got : RecvRet) : w.Own i (Phase.afterRead st t p pid got) :=
  Phase.afterRead_cases st t p pid got h h fun _ => h

/-- Every call keeps the invariant. -/
lemma Inv.call (h : Inv qs w) (hq : qs[i]? = some q) (hstep : Phase.Step q c r q')
    (hok : NoStrayWait w (.call i c r)) (hw : ProcWorld.call w i c r = some w') :
    Inv (qs.set i q' ++ Phase.born c r) w' := by
  have hown := h.own i q hq
  cases hstep with
  | fork st t p pid =>
    simp only [ProcWorld.call] at hw
    split at hw
    · rename_i hp
      cases hw
      subst hp
      exact h.noFork hq
    · split at hw
      · rename_i hp
        cases hw
        exact h.fork hq hp.1 hp.2 _
      · cases hw
  | wait st t p pid status => exact h.wait hq hown hok hw
  | report st t exit ret =>
    cases hw
    have hcleaning : w.Own i (.cleaning st t) := trivial
    exact h.report hq hcleaning hown
  | pipe st t p =>
    cases hw
    exact h.keep hq fun _ => own_afterPipe ..
  | check n =>
    cases hw
    exact h.keep hq fun _ => own_afterCheck n
  | closeRd st t p status r =>
    cases hw
    exact h.keep hq own_after
  | read st t p pid size got =>
    cases hw
    exact h.keep hq fun hm => Mine.afterRead hm got
  | output st t p pid buf ret =>
    cases hw
    exact h.keep hq fun hm => by
      split
      · exact hm
      · exact hm
  | _ =>
    cases hw
    exact h.keep hq fun hm => hm

/-! ### The children by themselves -/

/-- A child ends. -/
lemma Inv.exit (h : Inv qs w) {num word : ℕ}
    (hex : ∃ c ∈ w.children, c.num = num ∧ c.status = none) :
    Inv qs { w with
      children := w.children.map (Child.ended num word)
      exitWord := Function.update w.exitWord num (some word) } := by
  obtain ⟨x, hx, hnum, hs⟩ := hex
  have hnone : w.exitWord num = none := by
    rw [← hnum, h.status x hx, hs]
  have hlt : num < w.forks := hnum ▸ h.num_lt x hx
  have hkept : ∀ n word', w.exitWord n = some word' →
      Function.update w.exitWord num (some word) n = some word' := by
    intro n word' hn
    have hne : n ≠ num := by
      rintro rfl
      rw [hnone] at hn
      cases hn
    rw [Function.update_of_ne hne, hn]
  refine ⟨fun j p hp => (h.own j p hp).congr rfl rfl rfl (fun c hc ho => ?_) hkept, fun c hc => ?_,
    fun c hc => ?_, ?_, ?_, fun c hc => ?_, fun n hn => ?_, ⟨h.paired.waits, fun y hy => ?_⟩⟩
  · exact ⟨_, List.mem_map_of_mem hc, by simp, by simpa using ho, by simp⟩
  · obtain ⟨d, hd, rfl⟩ := List.mem_map.1 hc
    simpa using h.num_lt d hd
  · obtain ⟨d, hd, rfl⟩ := List.mem_map.1 hc
    simpa using h.pid_pos d hd
  · simpa [Function.comp_def] using h.nums
  · simpa [Function.comp_def] using h.pids
  · obtain ⟨d, hd, rfl⟩ := List.mem_map.1 hc
    by_cases hn : d.num = num
    · simp [Child.ended, hn]
    · rw [Child.ended, if_neg hn]
      exact (Function.update_of_ne hn ..).trans (h.status d hd)
  · have hne : n ≠ num := (hlt.trans_le hn).ne'
    exact (Function.update_of_ne hne ..).trans (h.unborn n hn)
  · obtain ⟨n, word', hown, hcollected, hw', hp⟩ := h.paired.reports y hy
    exact ⟨n, word', hown, hcollected, hkept n word' hw', hp⟩

lemma Inv.env {e : ProcEvent} (h : Inv qs w) (hw : ProcWorld.env w e = some w') : Inv qs w' := by
  cases e with
  | offer num =>
    cases hw
    exact ⟨fun j p hp => (h.own j p hp).congr rfl rfl rfl (fun c hc ho => ⟨c, hc, rfl, ho, rfl⟩)
      fun _ _ he => he, h.num_lt, h.pid_pos, h.nums, h.pids, h.status, h.unborn,
      ⟨h.paired.waits, h.paired.reports⟩⟩
  | exit num word =>
    simp only [ProcWorld.env] at hw
    split at hw
    · rename_i hex
      cases hw
      exact h.exit hex
    · cases hw

end Step

/-- The outline of the children. -/
def outline (rounds : ℕ) : Conc.Outline (sys rounds) NoStrayWait Phase :=
  Phase.outline rounds call env _ Inv (fun h hq hs hok hw => h.call hq hs hok hw)
    fun h _ hw => h.env hw

lemma inv_start : Inv [.acceptor] {} where
  own := by
    intro i q hq
    cases i with
    | zero =>
      cases hq
      trivial
    | succ i => cases hq
  num_lt := nofun
  pid_pos := nofun
  nums := List.nodup_nil
  pids := List.nodup_nil
  status := nofun
  unborn := fun _ _ => rfl
  paired := ⟨nofun, nofun⟩

end ProcWorld

/-- In every run in which a handler whose `fork` failed waits only while the worker has no child,
and only in place of the compiler and for a word that is taken for success, each `waitpid` collects
only the child that its handler forked for the stage, and each exit code that is reported is the
status of the child that the handler forked for the stage. -/
theorem own_child_reaped (rounds : ℕ) (arg : Ptr) (server_fd : Fd)
    {s : Conf WorkCall WorkCall.Ret ProcWorld}
    (hr : Conc.Reach (ProcWorld.sys rounds) ProcWorld.NoStrayWait
      (ProcWorld.start rounds arg server_fd) s) : s.world.Paired := by
  obtain ⟨qs, -, hinv⟩ := (ProcWorld.outline rounds).reach
    (Phase.holds_start arg server_fd ProcWorld.inv_start) hr
  exact ProcWorld.Inv.paired hinv

/-- The worker accepts the connections of the handlers 1 and 2, and the first of them has read the
output of gcc. -/
def compiledMoves : List (Move WorkCall WorkCall.Ret ProcEvent) :=
  .call 0 (.free (some 1)) () :: Phase.admitMoves 1 ++ Phase.admitMoves 2 ++
    Phase.raiseMoves 1 7 ++ Phase.pipeMoves 1 7 ⟨0, 20, 21⟩ ++
    Phase.forkMoves 1 ⟨0, 20, 21⟩ (.execSh ⟨.bin 7, .src 7⟩) 50

/-- The second handler has made the pipe of its compiler. -/
def pipedMoves : List (Move WorkCall WorkCall.Ret ProcEvent) :=
  Phase.raiseMoves 2 8 ++ Phase.pipeMoves 2 8 ⟨0, 22, 23⟩

/-- The compilers of two handlers end in turn, and each handler reports the exit code of its own. -/
theorem own_child_reaped_one : ∃ s, Conc.Reach (ProcWorld.sys 3) ProcWorld.NoStrayWait
    (ProcWorld.start 3 1 3) s ∧
      s.world.reports = [⟨some 0, some 0, [0, 0, 0, 3]⟩, ⟨some 1, some 1, [0, 0, 0, 1]⟩] ∧
      s.world.Paired := by
  have hplay : (((ProcWorld.sys 3).play ProcWorld.NoStrayWait
      (compiledMoves ++ pipedMoves ++
        Phase.forkMoves 2 ⟨0, 22, 23⟩ (.execSh ⟨.bin 7, .src 7⟩) 51 ++
        .env (.exit 1 256) :: .env (.exit 0 768) :: Phase.reportMoves 1 50 20 3 ++
        Phase.reportMoves 2 51 22 1)
      (ProcWorld.start 3 1 3)).map fun s => s.world.reports) =
        some [⟨some 0, some 0, [0, 0, 0, 3]⟩, ⟨some 1, some 1, [0, 0, 0, 1]⟩] := by
    decide +kernel
  obtain ⟨s, hr, hreports⟩ := Conc.exists_reach_of_play _ hplay
  exact ⟨s, hr, hreports, own_child_reaped 3 1 3 hr⟩

/-- The second handler, whose `fork` failed, collects the child of the first and reports its exit
code. -/
theorem other_child_reaped : ∃ s, Conc.Reach (ProcWorld.sys 3) Conc.anyMove
    (ProcWorld.start 3 1 3) s ∧ s.world.waits = [⟨none, some 0⟩] ∧
      s.world.reports = [⟨none, some 0, [0, 0, 0, 3]⟩] ∧ ¬ s.world.Paired := by
  have hplay : (((ProcWorld.sys 3).play Conc.anyMove
      (compiledMoves ++ pipedMoves ++
        Phase.forkMoves 2 ⟨0, 22, 23⟩ (.execSh ⟨.bin 7, .src 7⟩) (-1) ++
        .env (.exit 0 768) :: .env (.offer 0) :: Phase.reportMoves 2 (-1) 22 3)
      (ProcWorld.start 3 1 3)).map fun s => (s.world.waits, s.world.reports)) =
        some ([⟨none, some 0⟩], [⟨none, some 0, [0, 0, 0, 3]⟩]) := by
    decide +kernel
  obtain ⟨s, hr, hw⟩ := Conc.exists_reach_of_play _ hplay
  obtain ⟨hwaits, hreports⟩ := Prod.mk.inj hw
  refine ⟨s, hr, hwaits, hreports, fun hp => ?_⟩
  have := hp.waits ⟨none, some 0⟩ (hwaits ▸ List.mem_singleton_self _) 0 rfl
  cases this

end P2PNode
