import P2PNode.Worker.Phases

/-!
# The descriptors of the children

The descriptor tables of the worker and of its child processes in every run: `fork` copies the
table, exec keeps it (the worker sets no descriptor close-on-exec).
-/

namespace P2PNode

open Effect

/-- What a descriptor refers to: the connection `k`, an end of the pipe `k` that the handler `i`
made, or something else. -/
inductive FileObj where
  | conn (k : ℕ)
  | pipeRd (i k : ℕ)
  | pipeWr (i k : ℕ)
  | other
  deriving DecidableEq

abbrev FdTable := List (Fd × FileObj)

/-- What the descriptors of a table refer to. -/
def FdTable.objs (t : FdTable) : List FileObj := t.map Prod.snd

def FdTable.close (t : FdTable) (fd : Fd) : FdTable := t.filter fun e => e.1 ≠ fd

def FdTable.dup2 (t : FdTable) (fd target : Fd) : FdTable :=
  match t.lookup fd with
  | some obj => t.close target ++ [(target, obj)]
  | none => t

/-- A child of the worker or a process that descends from it: the handler that forked the child, the
number of that fork, the calls left before the exec, and the descriptors. -/
structure FdProc where
  owner : ℕ
  root : ℕ
  code : List ChildCall
  execed : Bool := false
  table : FdTable

/-- The descriptor tables of the worker and of its children. `serves` is the connection of each
handler, `stage` the pipe that each handler made for its stage, with the fork of the stage. -/
structure FdWorld where
  table : FdTable := [(0, .other), (1, .other), (2, .other), (3, .other)]
  conns : ℕ := 0
  pipes : ℕ := 0
  forks : ℕ := 0
  threads : ℕ := 1
  serves : ℕ → Option ℕ := fun _ => none
  stage : ℕ → Option (ℕ × Option ℕ) := fun _ => none
  procs : List FdProc := []

/-- What the process `n` does: the next call before its exec, with an exec that fails, or, as the
program it became, a `close`, `dup2`, `open` or `fork`; or it ends. -/
inductive FdEvent where
  | step (n : ℕ)
  | execFails (n : ℕ)
  | close (n : ℕ) (fd : Fd)
  | dup2 (n : ℕ) (fd target : Fd)
  | opens (n : ℕ) (fd : Fd)
  | fork (n : ℕ)
  | exit (n : ℕ)

namespace FdProc

/-- The process after its next call before the exec; `none` when it has ended. -/
def step (x : FdProc) : Option FdProc :=
  match x.code with
  | .close fd :: code => some { x with code := code, table := x.table.close fd }
  | .dup2 fd target :: code => some { x with code := code, table := x.table.dup2 fd target }
  | .execSh _ :: _ => some { x with code := [], execed := true }
  | .execBin _ :: _ => some { x with code := [], execed := true }
  | .exit _ :: _ => none
  | [] => some x

/-- The process after an exec that fails. -/
def execFails (x : FdProc) : Option FdProc :=
  match x.code with
  | .execSh _ :: code => some { x with code := code }
  | .execBin _ :: code => some { x with code := code }
  | _ => none

end FdProc

namespace FdWorld

/-- A process holds the write end of a pipe. -/
def HasWriter (w : FdWorld) (i k : ℕ) : Prop :=
  .pipeWr i k ∈ w.table.objs ∨ ∃ x ∈ w.procs, .pipeWr i k ∈ x.table.objs

instance (w : FdWorld) (i k : ℕ) : Decidable (w.HasWriter i k) :=
  inferInstanceAs (Decidable (_ ∨ _))

/-- `accept` and `pipe` return descriptors that are not in use, `fork` -1 or a pid, and a `read` of
a pipe the end of the file only when no process holds the write end. Every other call can have any
result. -/
def call (w : FdWorld) (i : ℕ) : (c : WorkCall) → c.Ret → Option FdWorld
  | .accept _, .conn cfd =>
    if w.table.lookup cfd = none then
      some { w with table := w.table ++ [(cfd, .conn w.conns)], conns := w.conns + 1 }
    else none
  | .pthreadCreate ca, (ret : ℤ) =>
    if ret = 0 then
      some { w with
        threads := w.threads + 1
        serves := Function.update w.serves w.threads
          (match w.table.lookup ca.client_fd with
            | some (.conn k) => some k
            | _ => none) }
    else some w
  | .pipe, p =>
    if p.ret = 0 then
      if w.table.lookup p.rd = none ∧ w.table.lookup p.wr = none ∧ p.rd ≠ p.wr then
        some { w with
          table := w.table ++ [(p.rd, .pipeRd i w.pipes), (p.wr, .pipeWr i w.pipes)]
          pipes := w.pipes + 1
          stage := Function.update w.stage i (some (w.pipes, none)) }
      else none
    else some { w with stage := Function.update w.stage i none }
  | .fork code, (pid : ℤ) =>
    if pid = -1 then some w
    else if 0 < pid then
      some { w with
        forks := w.forks + 1
        stage := Function.update w.stage i ((w.stage i).map fun s => (s.1, some w.forks))
        procs := w.procs ++ [{ owner := i, root := w.forks, code := code, table := w.table }] }
    else none
  | .close fd, _ => some { w with table := w.table.close fd }
  | .read fd _, .data [] =>
    match w.table.lookup fd with
    | some (.pipeRd j k) => if w.HasWriter j k then none else some w
    | _ => some w
  | _, _ => some w

/-- Replace the process `n`. -/
def setProc (w : FdWorld) (n : ℕ) (x : Option FdProc) : FdWorld :=
  { w with procs := w.procs.take n ++ x.toList ++ w.procs.drop (n + 1) }

def env (w : FdWorld) : FdEvent → Option FdWorld
  | .step n => w.procs[n]?.map fun x => w.setProc n x.step
  | .execFails n => (w.procs[n]?.bind FdProc.execFails).map fun x => w.setProc n (some x)
  | .close n fd =>
    (w.procs[n]?.filter FdProc.execed).map fun x =>
      w.setProc n (some { x with table := x.table.close fd })
  | .dup2 n fd target =>
    (w.procs[n]?.filter FdProc.execed).map fun x =>
      w.setProc n (some { x with table := x.table.dup2 fd target })
  | .opens n fd =>
    (w.procs[n]?.filter FdProc.execed).map fun x =>
      w.setProc n (some { x with table := x.table.close fd ++ [(fd, .other)] })
  | .fork n =>
    (w.procs[n]?.filter FdProc.execed).map fun x => { w with procs := w.procs ++ [x] }
  | .exit n => w.procs[n]?.map fun _ => w.setProc n none

/-- The worker. -/
abbrev sys (rounds : ℕ) : Conc WorkCall WorkCall.Ret FdWorld FdEvent :=
  Phase.workers rounds call env

/-- The worker before its first step. -/
abbrev start (rounds : ℕ) (arg : Ptr) (server_fd : Fd) : Conf WorkCall WorkCall.Ret FdWorld :=
  Phase.workersStart rounds arg server_fd {}

/-- What belongs to the handler `i`, or to no handler. -/
def Belongs (w : FdWorld) (i : ℕ) : FileObj → Prop
  | .conn k => w.serves i = some k
  | .pipeRd j _ => j = i
  | .pipeWr j _ => j = i
  | .other => True

instance (w : FdWorld) (i : ℕ) (obj : FileObj) : Decidable (w.Belongs i obj) := by
  unfold Belongs
  split <;> infer_instance

/-- At the fork of a handler the worker holds no connection of another client and no end of another
handler's pipe. -/
def ForksAlone (w : FdWorld) : Move WorkCall WorkCall.Ret FdEvent → Prop
  | .call i (.fork _) _ => ∀ obj ∈ w.table.objs, w.Belongs i obj
  | _ => True

instance (w : FdWorld) (m : Move WorkCall WorkCall.Ret FdEvent) : Decidable (ForksAlone w m) := by
  unfold ForksAlone
  split <;> infer_instance

/-- After its exec a child holds no connection of another client and no end of another handler's
pipe. -/
def Isolated (w : FdWorld) : Prop :=
  ∀ x ∈ w.procs, x.execed → ∀ obj ∈ x.table.objs, w.Belongs x.owner obj

instance (w : FdWorld) : Decidable w.Isolated := inferInstanceAs (Decidable (∀ _ ∈ _, _))

/-- The pipe of the handler's stage has no writer as soon as the child of the stage and the
processes that descend from it have closed it. -/
def EofPrompt (w : FdWorld) (i : ℕ) : Prop :=
  ∀ k child, w.stage i = some (k, child) →
    (∀ x ∈ w.procs, child = some x.root → .pipeWr i k ∉ x.table.objs) → ¬ w.HasWriter i k

/-! ### The invariant -/

end FdWorld

/-- The descriptor of the write end that a handler still has to close. -/
def Phase.writeEnd : Phase → Option Fd
  | .piped _ _ p => some p.wr
  | .forked _ _ p _ => some p.wr
  | _ => none

namespace FdWorld

structure Inv (qs : List Phase) (w : FdWorld) : Prop where
  threads_eq : w.threads = qs.length
  stage_lt : ∀ i k child, w.stage i = some (k, child) → k < w.pipes
  unforked : ∀ i st t p, qs[i]? = some (.piped st t p) → ∀ k child, w.stage i = some (k, child) →
    child = none
  writer : ∀ fd i k, (fd, .pipeWr i k) ∈ w.table → ∃ q child, qs[i]? = some q ∧
    q.writeEnd = some fd ∧ w.stage i = some (k, child)
  owner_lt : ∀ x ∈ w.procs, x.owner < w.threads
  belongs : ∀ x ∈ w.procs, ∀ obj ∈ x.table.objs, w.Belongs x.owner obj
  holder : ∀ x ∈ w.procs, ∀ k, .pipeWr x.owner k ∈ x.table.objs → k < w.pipes ∧
    ∀ child, w.stage x.owner = some (k, child) → child = some x.root

section Step

variable {qs : List Phase} {w w' : FdWorld} {i : ℕ} {q q' : Phase} {c : WorkCall} {r : c.Ret}

lemma mem_objs {t : FdTable} {obj : FileObj} : obj ∈ t.objs ↔ ∃ fd, (fd, obj) ∈ t := by
  simp [FdTable.objs]

/-- The write end of a thread, where its phase is known. -/
lemma Inv.writer_at (h : Inv qs w) (hq : qs[i]? = some q) {fd : Fd} {k : ℕ}
    (hmem : (fd, .pipeWr i k) ∈ w.table) :
    q.writeEnd = some fd ∧ ∃ child, w.stage i = some (k, child) := by
  obtain ⟨p, child, hp, hfd, hst⟩ := h.writer fd i k hmem
  obtain rfl : q = p := Option.some.inj (hq.symm.trans hp)
  exact ⟨hfd, child, hst⟩

lemma Inv.writer_none (h : Inv qs w) (hq : qs[i]? = some q) (hn : q.writeEnd = none) (fd : Fd)
    (k : ℕ) : (fd, .pipeWr i k) ∉ w.table := by
  intro hmem
  obtain ⟨hfd, -⟩ := h.writer_at hq hmem
  rw [hn] at hfd
  cases hfd

lemma Inv.unforked_call (h : Inv qs w) (hq : qs[i]? = some q)
    (hstage : ∀ j, j ≠ i → w'.stage j = w.stage j)
    (hi : ∀ st t p, q' = .piped st t p → ∀ k child, w'.stage i = some (k, child) → child = none) :
    ∀ j st t p, (qs.set i q' ++ Phase.born c r)[j]? = some (.piped st t p) →
      ∀ k child, w'.stage j = some (k, child) → child = none := by
  intro j st t p hp
  rcases Phase.getElem?_call hq hp with ⟨rfl, hp'⟩ | ⟨hj, hold⟩ | ⟨-, hnew⟩
  · exact hi st t p hp'.symm
  · rw [hstage j hj]
    exact h.unforked j st t p hold
  · obtain ⟨cfd, hcfd⟩ := Phase.mem_born hnew
    cases hcfd

lemma Inv.writer_call (h : Inv qs w) (hq : qs[i]? = some q)
    (hstage : ∀ j, j ≠ i → w'.stage j = w.stage j)
    (htable : ∀ fd j k, j ≠ i → (fd, .pipeWr j k) ∈ w'.table → (fd, .pipeWr j k) ∈ w.table)
    (hi : ∀ fd k, (fd, .pipeWr i k) ∈ w'.table →
      q'.writeEnd = some fd ∧ ∃ child, w'.stage i = some (k, child)) :
    ∀ fd j k, (fd, .pipeWr j k) ∈ w'.table → ∃ p child,
      (qs.set i q' ++ Phase.born c r)[j]? = some p ∧ p.writeEnd = some fd ∧
        w'.stage j = some (k, child) := by
  intro fd j k hmem
  by_cases hj : j = i
  · subst hj
    obtain ⟨hfd, child, hst⟩ := hi fd k hmem
    exact ⟨q', child, Phase.getElem?_call_self hq, hfd, hst⟩
  · obtain ⟨p, child, hp, hfd, hst⟩ := h.writer fd j k (htable fd j k hj hmem)
    exact ⟨p, child, Phase.getElem?_call_ne hj hp, hfd, by rw [hstage j hj, hst]⟩

lemma not_piped (hn : q'.writeEnd = none) : ∀ st t p, q' = .piped st t p →
    ∀ k child, w.stage i = some (k, child) → child = none := by
  rintro st t p rfl
  cases hn

lemma forked_not_piped {st : Stage} {t : TaskCtx} {p : PipeRet} {pid : ℤ} :
    ∀ st' t' p', Phase.forked st t p pid = .piped st' t' p' →
      ∀ k child, w.stage i = some (k, child) → child = none :=
  fun _ _ _ he => Phase.noConfusion he

lemma length_call (hb : Phase.born c r = []) (h : Inv qs w) :
    w.threads = (qs.set i q' ++ Phase.born c r).length := by
  rw [hb, List.append_nil, List.length_set, h.threads_eq]

/-- A call that changes the table of the worker at most by new connections and by closing
descriptors. -/
lemma Inv.table (h : Inv qs w) (hq : qs[i]? = some q) (hb : Phase.born c r = [])
    (hn' : q'.writeEnd = none) {table : FdTable} {conns : ℕ}
    (htable : ∀ fd j k, (fd, .pipeWr j k) ∈ table → (fd, .pipeWr j k) ∈ w.table)
    (hi : ∀ fd k, (fd, .pipeWr i k) ∉ table) :
    Inv (qs.set i q' ++ Phase.born c r) { w with table := table, conns := conns } where
  threads_eq := (length_call hb h : w.threads = _)
  stage_lt := h.stage_lt
  unforked := h.unforked_call hq (fun _ _ => rfl) (not_piped hn')
  writer := h.writer_call hq (fun _ _ => rfl) (fun fd j k _ => htable fd j k)
    fun fd k hmem => absurd hmem (hi fd k)
  owner_lt := h.owner_lt
  belongs := h.belongs
  holder := h.holder

lemma mem_close {t : FdTable} {fd fd' : Fd} {obj : FileObj} :
    (fd', obj) ∈ t.close fd ↔ (fd', obj) ∈ t ∧ fd' ≠ fd := by
  simp [FdTable.close]

/-- A call that leaves all tables as they are. -/
lemma Inv.keep (h : Inv qs w) (hq : qs[i]? = some q) (hb : Phase.born c r = [])
    (hn : q.writeEnd = none) (hn' : q'.writeEnd = none) :
    Inv (qs.set i q' ++ Phase.born c r) w :=
  h.table hq hb hn' (fun _ _ _ hmem => hmem) (h.writer_none hq hn)

lemma Inv.close (h : Inv qs w) (hq : qs[i]? = some q) (hb : Phase.born c r = [])
    (hn' : q'.writeEnd = none) {fd : Fd} (hn : q.writeEnd = none ∨ q.writeEnd = some fd) :
    Inv (qs.set i q' ++ Phase.born c r) { w with table := w.table.close fd } := by
  refine h.table hq hb hn' (fun _ _ _ hmem => (mem_close.1 hmem).1) fun fd' k hmem => ?_
  obtain ⟨hold, hne⟩ := mem_close.1 hmem
  rcases hn with hn | hn
  · exact h.writer_none hq hn fd' k hold
  · obtain ⟨hfd, -⟩ := h.writer_at hq hold
    exact hne (Option.some.inj (hfd.symm.trans hn))

/-- What belongs to the handlers of the children stays theirs when a handler is created. -/
lemma Belongs.congr {j : ℕ} {obj : FileObj} (h : w.Belongs j obj) (hs : w'.serves j = w.serves j) :
    w'.Belongs j obj := by
  cases obj with
  | conn k => exact hs.trans h
  | pipeRd => exact h
  | pipeWr => exact h
  | other => trivial

lemma Inv.create (h : Inv qs w) (hq : qs[i]? = some q) (hn : q.writeEnd = none)
    (hn' : q'.writeEnd = none) {cfd : Fd} (hb : Phase.born c r = [.waiting cfd])
    (conn : Option ℕ) :
    Inv (qs.set i q' ++ Phase.born c r)
      { w with
        threads := w.threads + 1
        serves := Function.update w.serves w.threads conn } where
  threads_eq := by simp [hb, h.threads_eq]
  stage_lt := h.stage_lt
  unforked := h.unforked_call hq (fun _ _ => rfl) (not_piped hn')
  writer := h.writer_call hq (fun _ _ => rfl) (fun _ _ _ _ hmem => hmem)
    fun fd k hmem => absurd hmem (h.writer_none hq hn fd k)
  owner_lt := fun x hx => (h.owner_lt x hx).trans (Nat.lt_succ_self _)
  belongs := fun x hx obj hobj =>
    (h.belongs x hx obj hobj).congr (Function.update_of_ne (h.owner_lt x hx).ne ..)
  holder := h.holder

/-- The pipe of a stage is made, or the call fails. -/
lemma Inv.pipe (h : Inv qs w) (hq : qs[i]? = some q) (hb : Phase.born c r = [])
    (hn : q.writeEnd = none) {p : PipeRet} (hwr : q'.writeEnd = some p.wr) :
    Inv (qs.set i q' ++ Phase.born c r)
      { w with
        table := w.table ++ [(p.rd, .pipeRd i w.pipes), (p.wr, .pipeWr i w.pipes)]
        pipes := w.pipes + 1
        stage := Function.update w.stage i (some (w.pipes, none)) } where
  threads_eq := (length_call hb h : w.threads = _)
  stage_lt := by
    intro j k child hst
    by_cases hj : j = i
    · subst hj
      have hst : Function.update w.stage j (some (w.pipes, none)) j = some (k, child) := hst
      rw [Function.update_self] at hst
      cases hst
      exact Nat.lt_succ_self _
    · have hst : Function.update w.stage i (some (w.pipes, none)) j = some (k, child) := hst
      rw [Function.update_of_ne hj] at hst
      exact (h.stage_lt j k child hst).trans (Nat.lt_succ_self _)
  unforked := by
    apply h.unforked_call hq (fun j hj => Function.update_of_ne hj ..)
    intro _ _ _ _ k child hst
    have hst : Function.update w.stage i (some (w.pipes, none)) i = some (k, child) := hst
    rw [Function.update_self] at hst
    cases hst
    rfl
  writer := by
    refine h.writer_call hq (fun j hj => Function.update_of_ne hj ..) ?_ ?_
    · intro fd j k hj hmem
      rcases List.mem_append.1 hmem with hmem | hmem
      · exact hmem
      · have : fd = p.wr ∧ j = i ∧ k = w.pipes := by simpa using hmem
        exact absurd this.2.1 hj
    · intro fd k hmem
      rcases List.mem_append.1 hmem with hmem | hmem
      · exact absurd hmem (h.writer_none hq hn fd k)
      · obtain ⟨rfl, rfl⟩ : fd = p.wr ∧ k = w.pipes := by simpa using hmem
        exact ⟨hwr, none, Function.update_self ..⟩
  owner_lt := h.owner_lt
  belongs := h.belongs
  holder := by
    intro x hx k hk
    obtain ⟨hlt, hroot⟩ := h.holder x hx k hk
    refine ⟨hlt.trans (Nat.lt_succ_self _), fun child hst => ?_⟩
    have hst : Function.update w.stage i (some (w.pipes, none)) x.owner = some (k, child) := hst
    by_cases hj : x.owner = i
    · rw [hj, Function.update_self] at hst
      cases hst
      exact absurd hlt (lt_irrefl _)
    · rw [Function.update_of_ne hj] at hst
      exact hroot child hst

lemma Inv.pipe_fail (h : Inv qs w) (hq : qs[i]? = some q) (hb : Phase.born c r = [])
    (hn : q.writeEnd = none) :
    Inv (qs.set i q' ++ Phase.born c r)
      { w with stage := Function.update w.stage i none } where
  threads_eq := (length_call hb h : w.threads = _)
  stage_lt := by
    intro j k child hst
    have hst : Function.update w.stage i none j = some (k, child) := hst
    by_cases hj : j = i
    · rw [hj, Function.update_self] at hst
      cases hst
    · rw [Function.update_of_ne hj] at hst
      exact h.stage_lt j k child hst
  unforked := by
    refine h.unforked_call hq (fun j hj => Function.update_of_ne hj ..) ?_
    intro _ _ _ _ k child hst
    have hst : Function.update w.stage i none i = some (k, child) := hst
    rw [Function.update_self] at hst
    cases hst
  writer := h.writer_call hq (fun j hj => Function.update_of_ne hj ..) (fun _ _ _ _ hmem => hmem)
    fun fd k hmem => absurd hmem (h.writer_none hq hn fd k)
  owner_lt := h.owner_lt
  belongs := h.belongs
  holder := by
    intro x hx k hk
    obtain ⟨hlt, hroot⟩ := h.holder x hx k hk
    refine ⟨hlt, fun child hst => ?_⟩
    have hst : Function.update w.stage i none x.owner = some (k, child) := hst
    by_cases hj : x.owner = i
    · rw [hj, Function.update_self] at hst
      cases hst
    · rw [Function.update_of_ne hj] at hst
      exact hroot child hst

/-- A failed `fork` leaves the write end to be closed. -/
lemma Inv.fork_fail (h : Inv qs w) {st : Stage} {t : TaskCtx} {p : PipeRet} {pid : ℤ}
    (hq : qs[i]? = some (.piped st t p)) (hb : Phase.born c r = []) :
    Inv (qs.set i (.forked st t p pid) ++ Phase.born c r) w where
  threads_eq := length_call hb h
  stage_lt := h.stage_lt
  unforked := h.unforked_call hq (fun _ _ => rfl) forked_not_piped
  writer := h.writer_call hq (fun _ _ => rfl) (fun _ _ _ _ hmem => hmem)
    fun _ _ hmem => h.writer_at hq hmem
  owner_lt := h.owner_lt
  belongs := h.belongs
  holder := h.holder

lemma Inv.fork (h : Inv qs w) {st : Stage} {t : TaskCtx} {p : PipeRet} {pid : ℤ}
    (hq : qs[i]? = some (.piped st t p)) (hb : Phase.born c r = []) (code : List ChildCall)
    (hok : ∀ obj ∈ w.table.objs, w.Belongs i obj) :
    Inv (qs.set i (.forked st t p pid) ++ Phase.born c r)
      { w with
        forks := w.forks + 1
        stage := Function.update w.stage i ((w.stage i).map fun s => (s.1, some w.forks))
        procs := w.procs ++
          [{ owner := i, root := w.forks, code := code, table := w.table }] } := by
  obtain ⟨stage, hstage⟩ : ∃ stage, stage =
    Function.update w.stage i ((w.stage i).map fun s => (s.1, some w.forks)) := ⟨_, rfl⟩
  rw [← hstage]
  have hne : ∀ j, j ≠ i → stage j = w.stage j := by
    intro j hj
    rw [hstage, Function.update_of_ne hj]
  have hi : ∀ k child, stage i = some (k, child) ↔
      (∃ child, w.stage i = some (k, child)) ∧ child = some w.forks := by
    intro k child
    rw [hstage, Function.update_self, Option.map_eq_some_iff]
    constructor
    · rintro ⟨⟨k', child'⟩, hst, he⟩
      cases he
      exact ⟨⟨child', hst⟩, rfl⟩
    · rintro ⟨⟨child', hst⟩, rfl⟩
      exact ⟨_, hst, rfl⟩
  refine ⟨(length_call hb h : w.threads = _), ?_, h.unforked_call hq hne forked_not_piped, ?_, ?_,
    ?_, ?_⟩
  · intro j k child hst
    by_cases hj : j = i
    · subst hj
      obtain ⟨⟨child', hst'⟩, -⟩ := (hi k child).1 hst
      exact h.stage_lt j k child' hst'
    · exact h.stage_lt j k child ((hne j hj).symm.trans hst)
  · refine h.writer_call hq hne (fun _ _ _ _ hmem => hmem) fun fd k hmem => ?_
    obtain ⟨hfd, child, hst⟩ := h.writer_at hq hmem
    exact ⟨hfd, some w.forks, (hi k _).2 ⟨⟨child, hst⟩, rfl⟩⟩
  · intro x hx
    rcases List.mem_append.1 hx with hx | hx
    · exact h.owner_lt x hx
    · rw [List.mem_singleton.1 hx]
      show i < w.threads
      rw [h.threads_eq]
      exact (List.getElem?_eq_some_iff.1 hq).1
  · intro x hx obj hobj
    rcases List.mem_append.1 hx with hx | hx
    · exact h.belongs x hx obj hobj
    · rw [List.mem_singleton.1 hx] at hobj ⊢
      exact hok obj hobj
  · intro x hx k hk
    rcases List.mem_append.1 hx with hx | hx
    · obtain ⟨hlt, hroot⟩ := h.holder x hx k hk
      refine ⟨hlt, fun child hst => ?_⟩
      by_cases hj : x.owner = i
      · -- the handler has not forked in this stage yet
        have hst : stage x.owner = some (k, child) := hst
        rw [hj] at hst
        obtain ⟨⟨child', hst'⟩, -⟩ := (hi k child).1 hst
        have hnone := h.unforked i st t p hq k child' hst'
        have := hroot child' (by rw [hj, hst'])
        rw [hnone] at this
        cases this
      · exact hroot child ((hne _ hj).symm.trans hst)
    · rw [List.mem_singleton.1 hx] at hk ⊢
      obtain ⟨fd, hmem⟩ := mem_objs.1 hk
      obtain ⟨-, child, -, -, hst⟩ := h.writer fd i k hmem
      exact ⟨h.stage_lt i k child hst, fun child' hst' => ((hi k child').1 hst').2⟩

lemma writeEnd_afterCheck (n : ℕ) : (Phase.afterCheck n).writeEnd = none :=
  Phase.afterCheck_cases n (fun _ => rfl) rfl

lemma writeEnd_after (st : Stage) (t : TaskCtx) (exit : ℤ) : (st.after t exit).writeEnd = none :=
  Stage.after_cases st t exit (fun _ _ => rfl) fun _ => rfl

lemma writeEnd_afterRead (st : Stage) (t : TaskCtx) (p : PipeRet) (pid : ℤ) (got : RecvRet) :
    (Phase.afterRead st t p pid got).writeEnd = none :=
  Phase.afterRead_cases st t p pid got rfl rfl fun _ => rfl

/-- A `read` changes no table. -/
lemma read_eq {fd : Fd} {size : ℕ} {got : RecvRet}
    (hw : FdWorld.call w i (.read fd size) got = some w') : w' = w := by
  cases got with
  | data buf =>
    cases buf with
    | nil =>
      simp only [FdWorld.call] at hw
      split at hw
      · split at hw
        · cases hw
        · exact (Option.some.inj hw).symm
      · exact (Option.some.inj hw).symm
    | cons b bs => exact (Option.some.inj hw).symm
  | intr => exact (Option.some.inj hw).symm
  | err => exact (Option.some.inj hw).symm

/-- Every call keeps the invariant. -/
lemma Inv.call (h : Inv qs w) (hq : qs[i]? = some q) (hstep : Phase.Step q c r q')
    (hok : ForksAlone w (.call i c r)) (hw : FdWorld.call w i c r = some w') :
    Inv (qs.set i q' ++ Phase.born c r) w' := by
  cases hstep with
  | accept fd got =>
    cases got with
    | conn cfd =>
      simp only [FdWorld.call] at hw
      split at hw
      · cases hw
        have hold : ∀ fd j k, (fd, .pipeWr j k) ∈ w.table ++ [(cfd, .conn w.conns)] →
            (fd, .pipeWr j k) ∈ w.table := by
          intro fd j k hmem
          simpa using hmem
        refine h.table hq rfl rfl hold fun fd k hmem => ?_
        exact h.writer_none hq rfl fd k (hold fd i k hmem)
      · cases hw
    | _ =>
      cases hw
      exact h.keep hq rfl rfl rfl
  | create ca ret =>
    simp only [FdWorld.call] at hw
    split at hw
    · rename_i hret
      cases hw
      have hb : Phase.born (.pthreadCreate ca) ret = [.waiting ca.client_fd] := if_pos hret
      exact h.create hq rfl rfl hb _
    · rename_i hret
      cases hw
      exact h.keep hq (by simp [Phase.born, hret]) rfl rfl
  | pipe st t p =>
    simp only [FdWorld.call] at hw
    split at hw
    · rename_i hret
      split at hw
      · cases hw
        have hq' : st.afterPipe t p = .piped st t p :=
          Stage.afterPipe_cases st t p rfl fun h => absurd hret h
        rw [hq']
        exact h.pipe hq rfl rfl rfl
      · cases hw
    · cases hw
      exact h.pipe_fail hq rfl rfl
  | fork st t p pid =>
    simp only [FdWorld.call] at hw
    split at hw
    · cases hw
      exact h.fork_fail hq rfl
    · split at hw
      · cases hw
        exact h.fork hq rfl _ hok
      · cases hw
  | check n =>
    cases hw
    exact h.keep hq rfl rfl (writeEnd_afterCheck n)
  | read st t p pid size got =>
    rw [read_eq hw]
    exact h.keep hq rfl rfl (writeEnd_afterRead ..)
  | output st t p pid buf ret =>
    cases hw
    apply h.keep hq rfl rfl
    split
    · rfl
    · rfl
  | refuse fd r =>
    cases hw
    exact h.close hq rfl rfl (.inl rfl)
  | closeWr st t p pid r =>
    cases hw
    exact h.close hq rfl rfl (.inr rfl)
  | closeRd st t p status r =>
    cases hw
    exact h.close hq rfl (writeEnd_after ..) (.inl rfl)
  | close cfd r =>
    cases hw
    exact h.close hq rfl rfl (.inl rfl)
  | _ =>
    cases hw
    exact h.keep hq rfl rfl rfl

/-! ### The processes by themselves -/

/-- What a process does adds nothing to what it holds of the worker's. -/
lemma Inv.procs (h : Inv qs w) {procs : List FdProc}
    (hp : ∀ y ∈ procs, ∃ x ∈ w.procs, y.owner = x.owner ∧ y.root = x.root ∧
      ∀ obj ∈ y.table.objs, obj = .other ∨ obj ∈ x.table.objs) :
    Inv qs { w with procs := procs } where
  threads_eq := h.threads_eq
  stage_lt := h.stage_lt
  unforked := h.unforked
  writer := h.writer
  owner_lt := by
    intro y hy
    obtain ⟨x, hx, ho, -⟩ := hp y hy
    rw [ho]
    exact h.owner_lt x hx
  belongs := by
    intro y hy obj hobj
    obtain ⟨x, hx, ho, -, hobjs⟩ := hp y hy
    rw [ho]
    rcases hobjs obj hobj with rfl | hobj
    · trivial
    · exact h.belongs x hx obj hobj
  holder := by
    intro y hy k hk
    obtain ⟨x, hx, ho, hr, hobjs⟩ := hp y hy
    rw [ho] at hk ⊢
    rw [hr]
    rcases hobjs _ hk with hk | hk
    · cases hk
    · exact h.holder x hx k hk

lemma objs_close {t : FdTable} {fd : Fd} {obj : FileObj} (h : obj ∈ (t.close fd).objs) :
    obj ∈ t.objs := by
  obtain ⟨fd', hmem⟩ := mem_objs.1 h
  exact mem_objs.2 ⟨fd', (mem_close.1 hmem).1⟩

lemma objs_dup2 {t : FdTable} {fd target : Fd} {obj : FileObj}
    (h : obj ∈ (t.dup2 fd target).objs) : obj ∈ t.objs := by
  rw [FdTable.dup2] at h
  split at h
  · rename_i obj' hlookup
    rw [FdTable.objs, List.map_append, List.mem_append] at h
    rcases h with h | h
    · exact objs_close h
    · rw [List.map_singleton, List.mem_singleton] at h
      subst h
      obtain ⟨l, l', ht, -⟩ := List.lookup_eq_some_iff.1 hlookup
      exact mem_objs.2 ⟨fd, by simp [ht]⟩
  · exact h

lemma Inv.setProc (h : Inv qs w) {n : ℕ} {x : FdProc} (hx : w.procs[n]? = some x)
    {y : Option FdProc} (hy : ∀ z, y = some z → z.owner = x.owner ∧ z.root = x.root ∧
      ∀ obj ∈ z.table.objs, obj = .other ∨ obj ∈ x.table.objs) : Inv qs (w.setProc n y) := by
  refine h.procs fun z hz => ?_
  simp only [List.mem_append, Option.mem_toList] at hz
  rcases hz with (hz | hz) | hz
  · exact ⟨z, List.mem_of_mem_take hz, rfl, rfl, fun _ => .inr⟩
  · exact ⟨x, List.mem_of_getElem? hx, hy z hz⟩
  · exact ⟨z, List.mem_of_mem_drop hz, rfl, rfl, fun _ => .inr⟩

lemma Inv.env {e : FdEvent} (h : Inv qs w) (hw : FdWorld.env w e = some w') : Inv qs w' := by
  cases e with
  | step n =>
    obtain ⟨x, hx, rfl⟩ := Option.map_eq_some_iff.1 hw
    refine h.setProc hx fun z hz => ?_
    rw [FdProc.step] at hz
    split at hz
    · cases hz
      exact ⟨rfl, rfl, fun _ hobj => .inr (objs_close hobj)⟩
    · cases hz
      exact ⟨rfl, rfl, fun _ hobj => .inr (objs_dup2 hobj)⟩
    · cases hz
      exact ⟨rfl, rfl, fun _ => .inr⟩
    · cases hz
      exact ⟨rfl, rfl, fun _ => .inr⟩
    · cases hz
    · cases hz
      exact ⟨rfl, rfl, fun _ => .inr⟩
  | execFails n =>
    obtain ⟨y, hy, rfl⟩ := Option.map_eq_some_iff.1 hw
    obtain ⟨x, hx, hy⟩ := Option.bind_eq_some_iff.1 hy
    refine h.setProc hx fun z hz => ?_
    cases hz
    rw [FdProc.execFails] at hy
    split at hy
    · cases hy
      exact ⟨rfl, rfl, fun _ => .inr⟩
    · cases hy
      exact ⟨rfl, rfl, fun _ => .inr⟩
    · cases hy
  | close n fd =>
    obtain ⟨x, hx, rfl⟩ := Option.map_eq_some_iff.1 hw
    refine h.setProc (Option.filter_eq_some_iff.1 hx).1 fun z hz => ?_
    cases hz
    exact ⟨rfl, rfl, fun _ hobj => .inr (objs_close hobj)⟩
  | dup2 n fd target =>
    obtain ⟨x, hx, rfl⟩ := Option.map_eq_some_iff.1 hw
    refine h.setProc (Option.filter_eq_some_iff.1 hx).1 fun z hz => ?_
    cases hz
    exact ⟨rfl, rfl, fun _ hobj => .inr (objs_dup2 hobj)⟩
  | opens n fd =>
    obtain ⟨x, hx, rfl⟩ := Option.map_eq_some_iff.1 hw
    refine h.setProc (Option.filter_eq_some_iff.1 hx).1 fun z hz => ?_
    cases hz
    refine ⟨rfl, rfl, fun obj hobj => ?_⟩
    rw [FdTable.objs, List.map_append, List.mem_append] at hobj
    rcases hobj with hobj | hobj
    · exact .inr (objs_close hobj)
    · exact .inl (List.mem_singleton.1 hobj)
  | fork n =>
    obtain ⟨x, hx, rfl⟩ := Option.map_eq_some_iff.1 hw
    have hmem := List.mem_of_getElem? (Option.filter_eq_some_iff.1 hx).1
    refine h.procs fun z hz => ?_
    rcases List.mem_append.1 hz with hz | hz
    · exact ⟨z, hz, rfl, rfl, fun _ => .inr⟩
    · rw [List.mem_singleton.1 hz]
      exact ⟨x, hmem, rfl, rfl, fun _ => .inr⟩
  | exit n =>
    obtain ⟨x, hx, rfl⟩ := Option.map_eq_some_iff.1 hw
    exact h.setProc hx nofun

/-- A handler that has closed the write end waits only for the processes of its stage. -/
lemma Inv.eofPrompt (h : Inv qs w) (hq : qs[i]? = some q) (hn : q.writeEnd = none) :
    w.EofPrompt i := by
  intro k child hst hclosed hwriter
  rcases hwriter with hk | ⟨x, hx, hk⟩
  · obtain ⟨fd, hmem⟩ := mem_objs.1 hk
    exact h.writer_none hq hn fd k hmem
  · have ho : i = x.owner := h.belongs x hx _ hk
    have hroot := (h.holder x hx k (ho ▸ hk)).2 child (ho ▸ hst)
    exact hclosed x hx hroot hk

end Step

/-- The outline of the descriptor tables. -/
def outline (rounds : ℕ) : Conc.Outline (sys rounds) ForksAlone Phase :=
  Phase.outline rounds call env _ Inv (fun h hq hs hok hw => h.call hq hs hok hw)
    fun h _ hw => h.env hw

lemma inv_start : Inv [.acceptor] {} where
  threads_eq := rfl
  stage_lt := by
    intro i k child hst
    cases hst
  unforked := by
    intro i st t p _ k child hst
    cases hst
  writer := by simp
  owner_lt := by
    intro x hx
    cases hx
  belongs := by
    intro x hx
    cases hx
  holder := by
    intro x hx
    cases hx

end FdWorld

/-- In every run in which each handler forks while the worker holds no connection of another client
and no end of another handler's pipe: no child holds one of them after its exec, and a handler that
reads its pipe waits for no other process than the child of its stage and those that descend from
it. -/
theorem children_isolated (rounds : ℕ) (arg : Ptr) (server_fd : Fd)
    {s : Conf WorkCall WorkCall.Ret FdWorld}
    (hr : Conc.Reach (FdWorld.sys rounds) FdWorld.ForksAlone
      (FdWorld.start rounds arg server_fd) s) :
    s.world.Isolated ∧ ∀ i fd size k, s.threads[i]? = some (.call (.read fd size) k) →
      s.world.EofPrompt i := by
  obtain ⟨qs, hts, hinv⟩ := (FdWorld.outline rounds).reach
    (Phase.holds_start arg server_fd FdWorld.inv_start) hr
  have hinv : FdWorld.Inv qs s.world := hinv
  refine ⟨fun x hx _ => hinv.belongs x hx, fun i fd size k hi => ?_⟩
  obtain ⟨q, hq, hA⟩ := Phase.of_thread hts hi
  have hgood := (hA.2 .err _ rfl).inv
  generalize hq' : q.next (.read fd size) .err = q' at hgood
  have hstep := Phase.step_of_next hq' hgood
  apply hinv.eofPrompt hq
  cases hstep
  rfl

/-- The handler `k` forks gcc, and the child makes its calls up to the exec. -/
def gccMoves (k n : ℕ) (p : PipeRet) : List (Move WorkCall WorkCall.Ret FdEvent) :=
  .call k (.fork (childCode p (.execSh ⟨.bin 7, .src 7⟩))) (50 : ℤ) ::
    List.replicate 5 (.env (.step n))

/-- The handler 1 waits for its gcc, reports that it failed, and closes its connection. -/
def servedMoves : List (Move WorkCall WorkCall.Ret FdEvent) :=
  [.call 1 (.close 21) (), .env (.exit 0), .call 1 (.read 20 outputBufSize) (.data [])] ++
    Phase.reportMoves 1 50 20 1 ++ Phase.leaveMoves 1

/-- Two clients: the second one connects while the gcc of the first runs, and its handler forks when
the first connection is closed. Its child holds its own connection and the write end of its own
pipe. -/
theorem children_isolated_one : ∃ s, Conc.Reach (FdWorld.sys 3) FdWorld.ForksAlone
    (FdWorld.start 3 1 3) s ∧
      (s.world.procs.map fun x => (x.execed, x.table.objs)) =
        [(true, [.other, .other, .conn 1, .pipeWr 2 1, .pipeWr 2 1])] ∧
      s.world.Isolated ∧ ∀ i fd size k, s.threads[i]? = some (.call (.read fd size) k) →
        s.world.EofPrompt i := by
  have hplay : (((FdWorld.sys 3).play FdWorld.ForksAlone
      (.call 0 (.free (some 1)) () :: Phase.admitMoves 1 ++ Phase.raiseMoves 1 7 ++
        Phase.pipeMoves 1 7 ⟨0, 20, 21⟩ ++ gccMoves 1 0 ⟨0, 20, 21⟩ ++ Phase.admitMoves 2 ++
        servedMoves ++ Phase.raiseMoves 2 8 ++ Phase.pipeMoves 2 8 ⟨0, 22, 23⟩ ++
        gccMoves 2 0 ⟨0, 22, 23⟩)
      (FdWorld.start 3 1 3)).map fun s => s.world.procs.map fun x => (x.execed, x.table.objs)) =
        some [(true, [.other, .other, .conn 1, .pipeWr 2 1, .pipeWr 2 1])] := by
    decide +kernel
  obtain ⟨s, hr, hprocs⟩ := Conc.exists_reach_of_play _ hplay
  exact ⟨s, hr, hprocs, children_isolated 3 1 3 hr⟩

/-- Two clients: after its exec the child of the first handler holds the connection of the second
client. -/
theorem child_holds_other_connection : ∃ s, Conc.Reach (FdWorld.sys 3) Conc.anyMove
    (FdWorld.start 3 1 3) s ∧ ¬ s.world.Isolated := by
  have hplay : (((FdWorld.sys 3).play Conc.anyMove
      (.call 0 (.free (some 1)) () :: Phase.admitMoves 1 ++ Phase.admitMoves 2 ++
        Phase.raiseMoves 1 7 ++ Phase.pipeMoves 1 7 ⟨0, 20, 21⟩ ++ gccMoves 1 0 ⟨0, 20, 21⟩)
      (FdWorld.start 3 1 3)).map fun s => decide s.world.Isolated) = some false := by
    decide +kernel
  obtain ⟨s, hr, hw⟩ := Conc.exists_reach_of_play _ hplay
  exact ⟨s, hr, of_decide_eq_false hw⟩

end P2PNode
