import P2PNode.Worker.TempFiles

/-!
# The isolation of the tasks

When no handler disturbs the temp files of another (`TmpWorld.Undisturbed`), every gcc reads the
request of its own handler and every handler executes what its own gcc made, in every run of the
worker. The temp paths are the same for all handlers, so that without the condition this fails.
-/

namespace P2PNode

open Effect

/-- The stage, the task and the pid of the child that a handler has forked and not waited for. -/
def Phase.child : Phase → Option (Stage × TaskCtx × ℤ)
  | .forked st t _ pid => some (st, t, pid)
  | .streaming st t _ pid => some (st, t, pid)
  | .chunk st t _ pid _ => some (st, t, pid)
  | .lost st t _ pid => some (st, t, pid)
  | .drained st t _ pid => some (st, t, pid)
  | _ => none

namespace TmpWorld

/-! ### What a phase says about the files -/

section Facts

variable (w : TmpWorld) (i : ℕ)

/-- The handler uses neither temp file. -/
def Out : Prop := i ∉ w.writers ∧ i ∉ w.runners

/-- The temp source is open: `b` is what of `data` is still in the buffer of the stream. -/
def Writing (f : FilePtr) (data : Bytes) : Prop :=
  i ∈ w.writers ∧ i ∉ w.runners ∧ (∀ g, g ≠ f → w.streams g = none) ∧
    ∃ ino c b, w.dir (.src w.pid) = some ino ∧ w.content ino = some (.text c) ∧
      w.streams f = some ⟨ino, c.length, b⟩ ∧ c ++ b = data

/-- The file `ino` has the source `data` and no stream is open. -/
def Holds (ino : ℕ) (data : Bytes) : Prop :=
  i ∈ w.writers ∧ i ∉ w.runners ∧ (∀ g, w.streams g = none) ∧ w.content ino = some (.text data)

/-- The temp source is written. -/
def Written (data : Bytes) : Prop := ∃ ino, w.dir (.src w.pid) = some ino ∧ w.Holds i ino data

/-- The temp binary is made from `data` by the handler's gcc. -/
def Built (data : Bytes) : Prop :=
  i ∉ w.writers ∧ i ∈ w.runners ∧
    ∃ ino, w.dir (.bin w.pid) = some ino ∧ w.content ino = some (.exe ⟨i, data⟩)

/-- The files in front of a stage. -/
def Input (data : Bytes) : Stage → Prop
  | .compile => w.Written i data
  | .run => w.Built i data

/-- The files behind a stage whose child ended with the status word. -/
def Output (data : Bytes) (word : ℕ) : Stage → Prop
  | .compile => if childExit word = 0 then w.Built i data else w.Out i
  | .run => w.Out i

/-- The files and the child of a stage. -/
def During (data : Bytes) : Stage → TmpState → Prop
  | st, .started => w.Input i data st
  | .compile, .opened ino => w.Holds i ino data
  | .compile, .compiling c => c = data ∧ w.Out i
  | .run, .running _ => w.Out i
  | st, .exited word => w.Output i data word st
  | _, _ => False

/-- The request and the temp paths of the task. -/
def Task (t : TaskCtx) : Prop :=
  w.request i = some t.data ∧ t.src = .src w.pid ∧ t.bin = .bin w.pid

/-- The child that the handler forked for the stage. -/
def Mine (st : Stage) (t : TaskCtx) (pid : ℤ) : Prop :=
  ∃ (n : ℕ) (x : TmpProc), w.stage i = some n ∧ w.procs[n]? = some x ∧ x.owner = i ∧ x.pid = pid ∧
    x.exec = t.exec st ∧ w.During i t.data st x.state

/-- The child that the handler waited for is its own. -/
def Got : Prop := w.ownerOf (w.got i) = some i

/-- What the phase of a handler says about the files and its child. -/
def Own : Phase → Prop
  | .waiting _ => w.request i = none ∧ w.Out i
  | .asked _ data => w.request i = some data ∧ w.Out i
  | .starting _ data => w.request i = some data ∧ w.Out i
  | .started _ data => w.request i = some data ∧ w.Out i
  | .named _ data pid => w.request i = some data ∧ w.Out i ∧ pid = w.pid
  | .ready t => w.Task i t ∧ w.Out i
  | .opened t f => w.Task i t ∧ w.Writing i f []
  | .written t f => w.Task i t ∧ w.Writing i f t.data
  | .before st t => w.Task i t ∧ w.Input i t.data st
  | .piped st t _ => w.Task i t ∧ w.Input i t.data st
  | .forked st t _ pid => w.Task i t ∧ w.Mine i st t pid
  | .streaming st t _ pid => w.Task i t ∧ w.Mine i st t pid
  | .chunk st t _ pid _ => w.Task i t ∧ w.Mine i st t pid
  | .lost st t _ pid => w.Task i t ∧ w.Mine i st t pid
  | .drained st t _ pid => w.Task i t ∧ w.Mine i st t pid
  | .collected st t _ word => w.Task i t ∧ w.Got i ∧ w.Output i t.data word st
  | .reporting _ t _ => w.Task i t ∧ w.Got i ∧ w.Out i
  | .cleaning _ t => w.Task i t ∧ w.Out i
  | .unlinking t => w.Task i t ∧ w.Out i
  | _ => True

end Facts

/-- The temp paths are entries of different files, and the numbers from `nextIno` on are free. -/
structure Files (dir : TmpPath → Option ℕ) (content : ℕ → Option FileData) (nextIno : ℕ) :
    Prop where
  known : ∀ path ino, dir path = some ino → ino < nextIno
  blank : ∀ ino, nextIno ≤ ino → content ino = none
  apart : ∀ path path' ino, dir path = some ino → dir path' = some ino → path = path'

structure Inv (qs : List Phase) (w : TmpWorld) : Prop where
  own : ∀ i q, qs[i]? = some q → w.Own i q
  bound : ∀ i, i ∈ w.writers ∨ i ∈ w.runners ∨ w.request i ≠ none → i < qs.length
  single : ∀ i ∈ w.writers, ∀ j ∈ w.writers, i = j
  idle : (∀ j, j ∉ w.writers) → ∀ f, w.streams f = none
  current : ∀ (n : ℕ) (x : TmpProc), w.procs[n]? = some x → x.state ≠ .reaped →
    w.stage x.owner = some n ∧ ∃ q, qs[x.owner]? = some q ∧ q.child.isSome
  pids : ∀ (n m : ℕ) (x y : TmpProc), w.procs[n]? = some x → w.procs[m]? = some y →
    x.state ≠ .reaped → y.state ≠ .reaped → x.pid = y.pid → n = m
  files : Files w.dir w.content w.nextIno
  isolated : w.TaskIsolated

/-! ### What the others leave as it is -/

/-- What a step does not change for the handler `j`. -/
structure Frame (w w' : TmpWorld) (j : ℕ) : Prop where
  pid : w'.pid = w.pid
  request : w'.request j = w.request j
  stage : w'.stage j = w.stage j
  got : w'.got j = w.got j
  procs : ∀ (n : ℕ) (x : TmpProc), w.procs[n]? = some x → x.owner = j → w'.procs[n]? = some x
  writers : j ∈ w'.writers ↔ j ∈ w.writers
  runners : j ∈ w'.runners ↔ j ∈ w.runners
  source : j ∈ w.writers → w'.streams = w.streams ∧
    w'.dir (.src w.pid) = w.dir (.src w.pid) ∧
    ∀ ino c, w.content ino = some (.text c) → w'.content ino = some (.text c)
  binary : j ∈ w.runners → w'.dir (.bin w.pid) = w.dir (.bin w.pid) ∧
    ∀ ino image, w.dir (.bin w.pid) = some ino → w.content ino = some (.exe image) →
      w'.content ino = some (.exe image)

namespace Frame

variable {w w' : TmpWorld} {j : ℕ}

lemma refl (w : TmpWorld) (j : ℕ) : Frame w w j where
  pid := rfl
  request := rfl
  stage := rfl
  got := rfl
  procs := fun _ _ hx _ => hx
  writers := Iff.rfl
  runners := Iff.rfl
  source := fun _ => ⟨rfl, rfl, fun _ _ hc => hc⟩
  binary := fun _ => ⟨rfl, fun _ _ _ hc => hc⟩

variable (h : Frame w w' j)

include h

lemma out (ho : w.Out j) : w'.Out j :=
  ⟨fun hm => ho.1 (h.writers.1 hm), fun hm => ho.2 (h.runners.1 hm)⟩

lemma writing {f : FilePtr} {data : Bytes} (hw : w.Writing j f data) : w'.Writing j f data := by
  obtain ⟨hin, hout, hrest, ino, c, b, hdir, hc, hf, hdata⟩ := hw
  obtain ⟨hstreams, hsrc, htext⟩ := h.source hin
  refine ⟨h.writers.2 hin, fun hm => hout (h.runners.1 hm), ?_, ino, c, b, ?_, htext ino c hc, ?_,
    hdata⟩
  · rwa [hstreams]
  · rwa [h.pid, hsrc]
  · rwa [hstreams]

lemma holds {ino : ℕ} {data : Bytes} (hw : w.Holds j ino data) : w'.Holds j ino data := by
  obtain ⟨hin, hout, hnone, hc⟩ := hw
  obtain ⟨hstreams, -, htext⟩ := h.source hin
  refine ⟨h.writers.2 hin, fun hm => hout (h.runners.1 hm), ?_, htext ino data hc⟩
  rwa [hstreams]

lemma written {data : Bytes} (hw : w.Written j data) : w'.Written j data := by
  obtain ⟨ino, hdir, hholds⟩ := hw
  obtain ⟨-, hsrc, -⟩ := h.source hholds.1
  refine ⟨ino, ?_, h.holds hholds⟩
  rwa [h.pid, hsrc]

lemma built {data : Bytes} (hw : w.Built j data) : w'.Built j data := by
  obtain ⟨hout, hin, ino, hdir, hc⟩ := hw
  obtain ⟨hbin, hexe⟩ := h.binary hin
  refine ⟨fun hm => hout (h.writers.1 hm), h.runners.2 hin, ino, ?_, hexe ino _ hdir hc⟩
  rwa [h.pid, hbin]

lemma input {data : Bytes} {st : Stage} (hw : w.Input j data st) : w'.Input j data st := by
  cases st with
  | compile => exact h.written hw
  | run => exact h.built hw

lemma output {data : Bytes} {word : ℕ} {st : Stage} (hw : w.Output j data word st) :
    w'.Output j data word st := by
  cases st with
  | compile =>
    simp only [Output] at hw ⊢
    split
    · rename_i hzero
      rw [if_pos hzero] at hw
      exact h.built hw
    · rename_i hzero
      rw [if_neg hzero] at hw
      exact h.out hw
  | run => exact h.out hw

lemma during {data : Bytes} {st : Stage} {state : TmpState} (hw : w.During j data st state) :
    w'.During j data st state := by
  cases state with
  | started => exact h.input hw
  | exited word => exact h.output hw
  | opened ino =>
    cases st with
    | compile => exact h.holds hw
    | run => exact hw.elim
  | compiling c =>
    cases st with
    | compile => exact ⟨hw.1, h.out hw.2⟩
    | run => exact hw.elim
  | running image =>
    cases st with
    | compile => exact hw.elim
    | run => exact h.out hw
  | reaped =>
    cases st with
    | compile => exact hw.elim
    | run => exact hw.elim

lemma task {t : TaskCtx} (ht : w.Task j t) : w'.Task j t := by
  obtain ⟨hreq, hsrc, hbin⟩ := ht
  refine ⟨?_, ?_, ?_⟩
  · rw [h.request, hreq]
  · rw [h.pid, hsrc]
  · rw [h.pid, hbin]

lemma mine {st : Stage} {t : TaskCtx} {pid : ℤ} (hm : w.Mine j st t pid) :
    w'.Mine j st t pid := by
  obtain ⟨n, x, hst, hx, howner, hpid, hexec, hduring⟩ := hm
  refine ⟨n, x, ?_, h.procs n x hx howner, howner, hpid, hexec, h.during hduring⟩
  rw [h.stage, hst]

lemma owner {n : Option ℕ} (hn : w.ownerOf n = some j) : w'.ownerOf n = some j := by
  obtain ⟨k, rfl, hk⟩ := Option.bind_eq_some_iff.1 hn
  obtain ⟨x, hx, howner⟩ := Option.map_eq_some_iff.1 hk
  rw [ownerOf, Option.bind_some, h.procs k x hx howner, Option.map_some, howner]

lemma hasGot (hg : w.Got j) : w'.Got j := by
  rw [Got, h.got]
  exact h.owner hg

/-- What a phase says stays true. -/
lemma own {q : Phase} (ho : w.Own j q) : w'.Own j q := by
  have hreq {data : Bytes} (hr : w.request j = some data) : w'.request j = some data := by
    rw [h.request, hr]
  cases q with
  | waiting => exact ⟨h.request.trans ho.1, h.out ho.2⟩
  | asked => exact ⟨hreq ho.1, h.out ho.2⟩
  | starting => exact ⟨hreq ho.1, h.out ho.2⟩
  | started => exact ⟨hreq ho.1, h.out ho.2⟩
  | named => exact ⟨hreq ho.1, h.out ho.2.1, ho.2.2.trans h.pid.symm⟩
  | ready => exact ⟨h.task ho.1, h.out ho.2⟩
  | opened => exact ⟨h.task ho.1, h.writing ho.2⟩
  | written => exact ⟨h.task ho.1, h.writing ho.2⟩
  | before => exact ⟨h.task ho.1, h.input ho.2⟩
  | piped => exact ⟨h.task ho.1, h.input ho.2⟩
  | forked => exact ⟨h.task ho.1, h.mine ho.2⟩
  | streaming => exact ⟨h.task ho.1, h.mine ho.2⟩
  | chunk => exact ⟨h.task ho.1, h.mine ho.2⟩
  | lost => exact ⟨h.task ho.1, h.mine ho.2⟩
  | drained => exact ⟨h.task ho.1, h.mine ho.2⟩
  | collected => exact ⟨h.task ho.1, h.hasGot ho.2.1, h.output ho.2.2⟩
  | reporting => exact ⟨h.task ho.1, h.hasGot ho.2.1, h.out ho.2.2⟩
  | cleaning => exact ⟨h.task ho.1, h.out ho.2⟩
  | unlinking => exact ⟨h.task ho.1, h.out ho.2⟩
  | _ => trivial

end Frame

/-! ### The calls keep the invariant -/

section Step

variable {qs : List Phase} {w w' : TmpWorld} {i : ℕ} {q q' : Phase} {c : WorkCall} {r : c.Ret}

lemma own_busy {st : Stage} {t : TaskCtx} {pid : ℤ} (hq : q.child = some (st, t, pid)) :
    w.Own i q ↔ w.Task i t ∧ w.Mine i st t pid := by
  cases q with
  | forked =>
    cases hq
    rfl
  | streaming =>
    cases hq
    rfl
  | chunk =>
    cases hq
    rfl
  | lost =>
    cases hq
    rfl
  | drained =>
    cases hq
    rfl
  | _ => cases hq

/-- A handler that is just being created has used nothing. -/
lemma Inv.own_new (h : Inv qs w) (cfd : Fd) : w.Own qs.length (.waiting cfd) := by
  refine ⟨?_, fun hm => ?_, fun hm => ?_⟩
  · by_contra hreq
    exact lt_irrefl _ (h.bound _ (.inr (.inr hreq)))
  · exact lt_irrefl _ (h.bound _ (.inl hm))
  · exact lt_irrefl _ (h.bound _ (.inr (.inl hm)))

lemma Inv.own_call (h : Inv qs w) (hq : qs[i]? = some q) (hown : w'.Own i q')
    (hf : ∀ j, j ≠ i → Frame w w' j) :
    ∀ j p, (qs.set i q' ++ Phase.born c r)[j]? = some p → w'.Own j p := by
  apply Phase.forall_call hq hown
  · intro j p hj hold
    exact (hf j hj).own (h.own j p hold)
  · intro hj cfd
    exact (hf _ hj).own (h.own_new cfd)

lemma Inv.bound_call (h : Inv qs w) (hq : qs[i]? = some q) (hf : ∀ j, j ≠ i → Frame w w' j) :
    ∀ j, j ∈ w'.writers ∨ j ∈ w'.runners ∨ w'.request j ≠ none →
      j < (qs.set i q' ++ Phase.born c r).length := by
  intro j hj
  have hlt : j < qs.length := by
    by_cases hji : j = i
    · rw [hji]
      exact (List.getElem?_eq_some_iff.1 hq).1
    · apply h.bound j
      rwa [(hf j hji).writers, (hf j hji).runners, (hf j hji).request] at hj
  rw [List.length_append, List.length_set]
  exact Nat.lt_add_right _ hlt

/-- A call that leaves the children as they are, and to the others their files. -/
lemma Inv.of_call (h : Inv qs w) (hq : qs[i]? = some q) (hown : w'.Own i q')
    (hf : ∀ j, j ≠ i → Frame w w' j) (hprocs : w'.procs = w.procs) (hstage : w'.stage = w.stage)
    (hbusy : q.child.isSome → q'.child.isSome)
    (hsingle : ∀ j ∈ w'.writers, ∀ k ∈ w'.writers, j = k)
    (hidle : (∀ j, j ∉ w'.writers) → ∀ f, w'.streams f = none)
    (hfiles : Files w'.dir w'.content w'.nextIno) (hiso : w'.TaskIsolated) :
    Inv (qs.set i q' ++ Phase.born c r) w' where
  own := h.own_call hq hown hf
  bound := h.bound_call hq hf
  single := hsingle
  idle := hidle
  current := by
    intro n x hx hx'
    rw [hprocs] at hx
    obtain ⟨hst, p, hp, hchild⟩ := h.current n x hx hx'
    refine ⟨by rw [hstage, hst], ?_⟩
    by_cases hj : x.owner = i
    · refine ⟨q', ?_, hbusy ?_⟩
      · rw [hj]
        exact Phase.getElem?_call_self hq
      · rw [hj] at hp
        rwa [Option.some.inj (hq.symm.trans hp)]
    · exact ⟨p, Phase.getElem?_call_ne hj hp, hchild⟩
  pids := by
    rw [hprocs]
    exact h.pids
  files := hfiles
  isolated := hiso

/-- A call that leaves everything as it is. -/
lemma Inv.keep (h : Inv qs w) (hq : qs[i]? = some q) (hown : w.Own i q')
    (hbusy : q.child.isSome → q'.child.isSome) : Inv (qs.set i q' ++ Phase.born c r) w :=
  h.of_call hq hown (fun j _ => .refl w j) rfl rfl hbusy h.single h.idle h.files h.isolated

/-! ### The temp source -/

/-- The request is received. -/
lemma Inv.receive (h : Inv qs w) {cfd : Fd} (hq : qs[i]? = some (.waiting cfd))
    {data : Option Bytes}
    (hown : Own { w with request := Function.update w.request i data } i q') :
    Inv (qs.set i q' ++ Phase.born c r) { w with request := Function.update w.request i data } := by
  obtain ⟨hnone, hout⟩ : w.Own i (.waiting cfd) := h.own i _ hq
  have hreq {j : ℕ} {d : Bytes} (hj : w.request j = some d) :
      Function.update w.request i data j = some d := by
    have hne : j ≠ i := by
      rintro rfl
      rw [hnone] at hj
      cases hj
    rw [Function.update_of_ne hne, hj]
  apply h.of_call hq hown ?_ rfl rfl nofun h.single h.idle h.files ?_
  · intro j hj
    exact { Frame.refl w j with request := Function.update_of_ne hj .. }
  · exact ⟨fun x hx => hreq (h.isolated.reads x hx),
      fun x hx => ⟨(h.isolated.execs x hx).1, hreq (h.isolated.execs x hx).2⟩, h.isolated.sent⟩

lemma Files.not_fileAt (h : Files w.dir w.content w.nextIno) {path path' : TmpPath}
    (hne : path' ≠ path) : w.dir path' ≠ some (w.fileAt path) := by
  intro hdir
  rw [fileAt] at hdir
  cases hpath : w.dir path with
  | none =>
    rw [hpath, Option.getD_none] at hdir
    exact lt_irrefl _ (h.known _ _ hdir)
  | some ino =>
    rw [hpath, Option.getD_some] at hdir
    exact hne (h.apart _ _ _ hdir hpath)

/-- A path gets an entry of the file `ino`, which is no other path's. -/
lemma Files.enter {dir : TmpPath → Option ℕ} {content : ℕ → Option FileData} {nextIno : ℕ}
    (h : Files dir content nextIno) (path : TmpPath) (ino : ℕ) (x : FileData)
    (hne : ∀ path', path' ≠ path → dir path' ≠ some ino) :
    Files (Function.update dir path (some ino)) (Function.update content ino (some x))
      (max nextIno (ino + 1)) where
  known := by
    intro path' ino' hdir
    by_cases hp : path' = path
    · rw [hp, Function.update_self] at hdir
      obtain rfl := Option.some.inj hdir
      exact lt_max_of_lt_right (Nat.lt_succ_self _)
    · rw [Function.update_of_ne hp] at hdir
      exact lt_max_of_lt_left (h.known path' ino' hdir)
  blank := by
    intro ino' hle
    obtain ⟨hle, hlt⟩ := max_le_iff.1 hle
    rw [Function.update_of_ne (Nat.ne_of_gt hlt), h.blank ino' hle]
  apart := by
    intro path₁ path₂ ino' h₁ h₂
    by_cases hp₁ : path₁ = path
    · by_cases hp₂ : path₂ = path
      · rw [hp₁, hp₂]
      · rw [hp₁, Function.update_self] at h₁
        rw [Function.update_of_ne hp₂, ← Option.some.inj h₁] at h₂
        exact absurd h₂ (hne path₂ hp₂)
    · by_cases hp₂ : path₂ = path
      · rw [hp₂, Function.update_self] at h₂
        rw [Function.update_of_ne hp₁, ← Option.some.inj h₂] at h₁
        exact absurd h₁ (hne path₁ hp₁)
      · rw [Function.update_of_ne hp₁] at h₁
        rw [Function.update_of_ne hp₂] at h₂
        exact h.apart path₁ path₂ ino' h₁ h₂

/-- The source is opened. -/
lemma Inv.openFile (h : Inv qs w) {t : TaskCtx} (hq : qs[i]? = some (.ready t)) {f : FilePtr}
    (hok : ∀ j ∈ w.writers, j = i) :
    Inv (qs.set i (.opened t f) ++ Phase.born c r) (w.openFile i t.src f) := by
  obtain ⟨htask, hout⟩ : w.Own i (.ready t) := h.own i _ hq
  obtain ⟨-, hsrc, -⟩ := id htask
  have hnone : ∀ j, j ∉ w.writers := fun j hm => hout.1 (hok j hm ▸ hm)
  have hwriting : (w.openFile i t.src f).Writing i f [] := by
    refine ⟨List.mem_cons_self, hout.2, fun g hg => ?_, w.fileAt t.src, [], [], ?_, ?_, ?_, rfl⟩
    · exact (Function.update_of_ne hg ..).trans (h.idle hnone g)
    · show Function.update w.dir t.src _ (.src w.pid) = _
      rw [hsrc]
      exact Function.update_self ..
    · exact Function.update_self ..
    · exact Function.update_self ..
  have hopened : (w.openFile i t.src f).Own i (.opened t f) := ⟨htask, hwriting⟩
  refine h.of_call hq hopened ?_ rfl rfl nofun ?_ ?_ ?_
    ⟨h.isolated.reads, h.isolated.execs, h.isolated.sent⟩
  · intro j hj
    have hbin : TmpPath.bin w.pid ≠ t.src := by
      rw [hsrc]
      exact nofun
    refine ⟨rfl, rfl, rfl, rfl, fun _ _ hx _ => hx, ?_, Iff.rfl, fun hm => absurd hm (hnone j),
      fun _ => ⟨Function.update_of_ne hbin .., fun ino image hdir hc => ?_⟩⟩
    · exact List.mem_cons.trans (or_iff_right hj)
    · have hne : ino ≠ w.fileAt t.src := by
        rintro rfl
        exact h.files.not_fileAt hbin hdir
      exact (Function.update_of_ne hne ..).trans hc
  · intro j hj k hk
    rcases List.mem_cons.1 hj with rfl | hj
    · rcases List.mem_cons.1 hk with rfl | hk
      · rfl
      · exact absurd hk (hnone k)
    · exact absurd hj (hnone j)
  · intro hm
    exact absurd List.mem_cons_self (hm i)
  · exact h.files.enter _ _ _ fun path' hp => h.files.not_fileAt hp

/-- Nobody but the writer of the source is affected by what its stream does. -/
lemma Inv.frame_stream (h : Inv qs w) (hi : i ∈ w.writers) {content : ℕ → Option FileData}
    (hexe : ∀ ino image, w.content ino = some (.exe image) → content ino = some (.exe image))
    (streams : FilePtr → Option Stream) :
    ∀ j, j ≠ i → Frame w { w with content := content, streams := streams } j := by
  intro j hj
  have hnot : j ∉ w.writers := fun hm => hj (h.single j hm i hi)
  exact ⟨rfl, rfl, rfl, rfl, fun _ _ hx _ => hx, Iff.rfl, Iff.rfl, fun hm => absurd hm hnot,
    fun _ => ⟨rfl, fun ino image _ hc => hexe ino image hc⟩⟩

lemma flushed_text {s : Stream} {x : Bytes} (hx : w.content s.ino = some (.text x)) (k : ℕ) :
    w.flushed s k =
      Function.update w.content s.ino (some (.text (writeAt x s.pos (s.buf.take k)))) := by
  rw [flushed, hx]

/-- Only sources are written. -/
lemma flushed_eq {s : Stream} {k ino : ℕ} (h : ∀ x, w.content ino ≠ some (.text x)) :
    w.flushed s k ino = w.content ino := by
  cases hs : w.content s.ino with
  | none => rw [flushed, hs]
  | some x =>
    cases x with
    | exe => rw [flushed, hs]
    | text x =>
      have hne : ino ≠ s.ino := by
        rintro rfl
        exact h x hs
      rw [flushed_text hs, Function.update_of_ne hne]

lemma flushed_exe {s : Stream} {k ino : ℕ} {image : Image}
    (hc : w.content ino = some (.exe image)) : w.flushed s k ino = some (.exe image) := by
  have hne : ∀ x, w.content ino ≠ some (.text x) := by
    intro x hx
    rw [hc] at hx
    cases hx
  rw [flushed_eq hne, hc]

lemma Files.flushed (h : Files w.dir w.content w.nextIno) (s : Stream) (k : ℕ) :
    Files w.dir (w.flushed s k) w.nextIno where
  known := h.known
  blank := by
    intro ino hle
    have hnone := h.blank ino hle
    have hne : ∀ x, w.content ino ≠ some (.text x) := by
      intro x hx
      rw [hnone] at hx
      cases hx
    rw [flushed_eq hne, hnone]
  apart := h.apart

/-- Writing behind the end. -/
lemma writeAt_length (x b : Bytes) : writeAt x x.length b = x ++ b := by
  rw [writeAt]
  split
  · rename_i hb
    rw [hb, List.append_nil]
  · simp

/-- The file of the request goes to the stream. -/
lemma Inv.fwrite (h : Inv qs w) {t : TaskCtx} {f : FilePtr} {s : Stream}
    (hq : qs[i]? = some (.opened t f)) (hs : w.streams f = some s) :
    Inv (qs.set i (.written t f) ++ Phase.born c r) { w with
      streams := Function.update w.streams f (some { s with buf := s.buf ++ t.data }) } := by
  obtain ⟨htask, hin, hout, hrest, ino, x, b, hdir, hc, hf, hnil⟩ : w.Own i (.opened t f) :=
    h.own i _ hq
  obtain rfl := Option.some.inj (hf.symm.trans hs)
  obtain ⟨rfl, rfl⟩ := List.append_eq_nil_iff.1 hnil
  have hown : Own { w with
      streams := Function.update w.streams f (some ⟨ino, 0, [] ++ t.data⟩) } i (.written t f) := by
    refine ⟨htask, hin, hout, fun g hg => ?_, ino, [], t.data, hdir, hc, ?_, rfl⟩
    · exact (Function.update_of_ne hg ..).trans (hrest g hg)
    · exact Function.update_self ..
  exact h.of_call hq hown (h.frame_stream hin (fun _ _ hc => hc) _) rfl rfl nofun h.single
    (fun hm => absurd hin (hm i)) h.files ⟨h.isolated.reads, h.isolated.execs, h.isolated.sent⟩

/-- The stream is closed. -/
lemma Inv.fclose (h : Inv qs w) {t : TaskCtx} {f : FilePtr} {s : Stream}
    (hq : qs[i]? = some (.written t f)) (hs : w.streams f = some s) :
    Inv (qs.set i (.before .compile t) ++ Phase.born c r) { w with
      content := w.flushed s s.buf.length
      streams := Function.update w.streams f none } := by
  obtain ⟨htask, hin, hout, hrest, ino, x, b, hdir, hc, hf, hdata⟩ : w.Own i (.written t f) :=
    h.own i _ hq
  obtain rfl := Option.some.inj (hf.symm.trans hs)
  have hflush := flushed_text (s := ⟨ino, x.length, b⟩) hc b.length
  rw [List.take_length, writeAt_length, hdata] at hflush
  have hown : Own { w with
      content := w.flushed ⟨ino, x.length, b⟩ b.length
      streams := Function.update w.streams f none } i (.before .compile t) := by
    refine ⟨htask, ino, hdir, hin, hout, fun g => ?_, ?_⟩
    · by_cases hg : g = f
      · rw [hg]
        exact Function.update_self ..
      · exact (Function.update_of_ne hg ..).trans (hrest g hg)
    · show w.flushed _ _ ino = _
      rw [hflush]
      exact Function.update_self ..
  exact h.of_call hq hown (h.frame_stream hin (fun _ _ hc => flushed_exe hc) _) rfl rfl nofun
    h.single (fun hm => absurd hin (hm i)) (h.files.flushed _ _)
    ⟨h.isolated.reads, h.isolated.execs, h.isolated.sent⟩

lemma Files.remove {dir : TmpPath → Option ℕ} {content : ℕ → Option FileData} {nextIno : ℕ}
    (h : Files dir content nextIno) (path : TmpPath) :
    Files (Function.update dir path none) content nextIno := by
  have hold {path' : TmpPath} {ino : ℕ} (hdir : Function.update dir path none path' = some ino) :
      dir path' = some ino := by
    by_cases hp : path' = path
    · rw [hp, Function.update_self] at hdir
      cases hdir
    · rwa [Function.update_of_ne hp] at hdir
  exact ⟨fun path' ino hdir => h.known path' ino (hold hdir), h.blank,
    fun path₁ path₂ ino h₁ h₂ => h.apart path₁ path₂ ino (hold h₁) (hold h₂)⟩

/-- A temp path is removed that no other handler needs. -/
lemma Inv.unlink (h : Inv qs w) (hq : qs[i]? = some q) {path : TmpPath}
    (hown : Own { w with dir := Function.update w.dir path none } i q')
    (hbusy : q.child.isSome → q'.child.isSome)
    (hok : Undisturbed w (.call i (.unlink path) ())) :
    Inv (qs.set i q' ++ Phase.born c r) { w with dir := Function.update w.dir path none } := by
  refine h.of_call hq hown ?_ rfl rfl hbusy h.single h.idle (h.files.remove path)
    ⟨h.isolated.reads, h.isolated.execs, h.isolated.sent⟩
  intro j hj
  refine { Frame.refl w j with
    source := fun hm => ⟨rfl, Function.update_of_ne ?_ .., fun _ _ hc => hc⟩
    binary := fun hm => ⟨Function.update_of_ne ?_ .., fun _ _ _ hc => hc⟩ }
  · rintro rfl
    exact hj (hok j hm)
  · rintro rfl
    exact hj (hok j hm)

/-! ### Messages -/

/-- A message with what came from the handler's own child. -/
lemma Inv.send (h : Inv qs w) (hq : qs[i]? = some q) (hown : w.Own i q')
    (hbusy : q.child.isSome → q'.child.isSome) {n : Option ℕ} (hn : w.ownerOf n = some i) :
    Inv (qs.set i q' ++ Phase.born c r) { w with sent := w.sent ++ [(i, w.ownerOf n)] } := by
  have hf (j : ℕ) : Frame w { w with sent := w.sent ++ [(i, w.ownerOf n)] } j :=
    { Frame.refl w j with }
  refine h.of_call hq ((hf i).own hown) (fun j _ => hf j) rfl rfl hbusy h.single h.idle h.files
    ⟨h.isolated.reads, h.isolated.execs, fun x hx => ?_⟩
  rcases List.mem_append.1 hx with hx | hx
  · exact h.isolated.sent x hx
  · rw [List.mem_singleton.1 hx]
    exact hn

/-! ### The children -/

lemma execOf_childCode (p : PipeRet) (t : TaskCtx) (st : Stage) :
    execOf (childCode p (t.exec st)) = t.exec st := by
  cases st with
  | compile => rfl
  | run => rfl

/-- A pid that no child has. -/
lemma ne_of_byPid_none {pid : ℤ} (hp : w.byPid pid = none) {n : ℕ} {x : TmpProc}
    (hx : w.procs[n]? = some x) (hs : x.state ≠ .reaped) : x.pid ≠ pid := by
  intro hpid
  have := (List.findIdx?_eq_none_iff.1 hp) x (List.mem_of_getElem? hx)
  simp [hpid, hs] at this

/-- A child that a pid finds. -/
lemma of_byPid {pid : ℤ} {n : ℕ} (hp : w.byPid pid = some n) :
    ∃ x, w.procs[n]? = some x ∧ x.pid = pid ∧ x.state ≠ .reaped := by
  obtain ⟨hlt, hx, -⟩ := List.findIdx?_eq_some_iff_getElem.1 hp
  refine ⟨w.procs[n], List.getElem?_eq_getElem hlt, ?_⟩
  simpa using hx

lemma concat_cases {l : List TmpProc} {n : ℕ} {x y : TmpProc} (h : (l ++ [y])[n]? = some x) :
    l[n]? = some x ∨ (n = l.length ∧ x = y) := by
  rcases lt_trichotomy n l.length with hn | rfl | hn
  · rw [List.getElem?_append_left hn] at h
    exact .inl h
  · rw [List.getElem?_concat_length] at h
    exact .inr ⟨rfl, (Option.some.inj h).symm⟩
  · have hlt := (List.getElem?_eq_some_iff.1 h).1
    rw [List.length_append, List.length_singleton] at hlt
    omega

/-- A child is forked. -/
lemma Inv.fork (h : Inv qs w) {st : Stage} {t : TaskCtx} {p : PipeRet}
    (hq : qs[i]? = some (.piped st t p)) {pid : ℤ} (hfresh : w.byPid pid = none) :
    Inv (qs.set i (.forked st t p pid) ++ Phase.born c r) { w with
      procs := w.procs ++ [⟨i, pid, execOf (childCode p (t.exec st)), .started⟩]
      stage := Function.update w.stage i (some w.procs.length) } := by
  obtain ⟨htask, hinput⟩ : w.Own i (.piped st t p) := h.own i _ hq
  have hold {n : ℕ} {x y : TmpProc} (hx : w.procs[n]? = some x) :
      (w.procs ++ [y])[n]? = some x := by
    exact getElem?_append_of_some hx [y]
  -- the handler has no child yet
  have hnone {n : ℕ} {x : TmpProc} (hx : w.procs[n]? = some x) (hs : x.state ≠ .reaped) :
      x.owner ≠ i := by
    rintro rfl
    obtain ⟨-, q, hq', hchild⟩ := h.current n x hx hs
    cases hq.symm.trans hq'
    cases hchild
  have hown : Own { w with
      procs := w.procs ++ [⟨i, pid, execOf (childCode p (t.exec st)), .started⟩]
      stage := Function.update w.stage i (some w.procs.length) } i (.forked st t p pid) := by
    refine ⟨htask, w.procs.length, _, Function.update_self .., List.getElem?_concat_length, rfl,
      rfl, execOf_childCode p t st, ?_⟩
    cases st with
    | compile => exact hinput
    | run => exact hinput
  have hf : ∀ j, j ≠ i → Frame w { w with
      procs := w.procs ++ [⟨i, pid, execOf (childCode p (t.exec st)), .started⟩]
      stage := Function.update w.stage i (some w.procs.length) } j := by
    intro j hj
    exact { Frame.refl w j with
      stage := Function.update_of_ne hj ..
      procs := fun n x hx _ => hold hx }
  refine ⟨h.own_call hq hown hf, h.bound_call hq hf, h.single, h.idle, ?_, ?_, h.files,
    ⟨h.isolated.reads, h.isolated.execs, h.isolated.sent⟩⟩
  · intro n x hx hs
    rcases concat_cases hx with hx | ⟨rfl, rfl⟩
    · have howner := hnone hx hs
      obtain ⟨hst, q, hq', hchild⟩ := h.current n x hx hs
      exact ⟨(Function.update_of_ne howner ..).trans hst, q, Phase.getElem?_call_ne howner hq',
        hchild⟩
    · exact ⟨Function.update_self .., _, Phase.getElem?_call_self hq, rfl⟩
  · intro n m x y hx hy hsx hsy hpid
    rcases concat_cases hx with hx | ⟨rfl, rfl⟩
    · rcases concat_cases hy with hy | ⟨rfl, rfl⟩
      · exact h.pids n m x y hx hy hsx hsy hpid
      · exact absurd hpid (ne_of_byPid_none hfresh hx hsx)
    · rcases concat_cases hy with hy | ⟨rfl, rfl⟩
      · exact absurd hpid.symm (ne_of_byPid_none hfresh hy hsy)
      · rfl

/-- The child of a handler is found by its pid. -/
lemma Inv.byPid_eq (h : Inv qs w) {n m : ℕ} {x : TmpProc} (hx : w.procs[n]? = some x)
    (hs : x.state ≠ .reaped) (hm : w.byPid x.pid = some m) : m = n := by
  obtain ⟨y, hy, hpid, hsy⟩ := of_byPid hm
  exact h.pids m n y x hy hx hsy hs hpid

/-- A child in a new state; the children of the others are as before. -/
lemma set_ne {n m : ℕ} {x y z : TmpProc} (hx : w.procs[n]? = some x) (hy : w.procs[m]? = some y)
    (hne : y.owner ≠ x.owner) : (w.procs.set n z)[m]? = some y := by
  have hnm : n ≠ m := by
    rintro rfl
    exact hne (congrArg TmpProc.owner (Option.some.inj (hy.symm.trans hx)))
  rw [List.getElem?_set_ne hnm, hy]

lemma set_cases {l : List TmpProc} {n m : ℕ} {y z : TmpProc} (h : (l.set n z)[m]? = some y) :
    (m = n ∧ y = z) ∨ (m ≠ n ∧ l[m]? = some y) := by
  rw [List.getElem?_set] at h
  by_cases hnm : n = m
  · rw [if_pos hnm] at h
    split at h
    · exact .inl ⟨hnm.symm, (Option.some.inj h).symm⟩
    · cases h
  · rw [if_neg hnm] at h
    exact .inr ⟨Ne.symm hnm, h⟩

lemma During.ne_reaped {data : Bytes} {st : Stage} {state : TmpState}
    (h : w.During i data st state) : state ≠ .reaped := by
  rintro rfl
  cases st with
  | compile => exact h
  | run => exact h

/-- A handler waits for its child. -/
lemma Inv.wait (h : Inv qs w) {st : Stage} {t : TaskCtx} {p : PipeRet} {pid : ℤ}
    (hq : qs[i]? = some (.drained st t p pid)) {n word : ℕ} {x : TmpProc}
    (hn : w.byPid pid = some n) (hx : w.procs[n]? = some x) (hs : x.state = .exited word) :
    Inv (qs.set i (.collected st t p word) ++ Phase.born c r)
      { w.setState n x .reaped with got := Function.update w.got i (some n) } := by
  obtain ⟨htask, n', x', hst, hx', howner, rfl, -, hduring⟩ : w.Own i (.drained st t p pid) :=
    h.own i _ hq
  obtain rfl := h.byPid_eq hx' hduring.ne_reaped hn
  obtain rfl := Option.some.inj (hx.symm.trans hx')
  rw [hs] at hduring
  have hown : Own { w.setState n x .reaped with got := Function.update w.got i (some n) } i
      (.collected st t p word) := by
    refine ⟨htask, ?_, ?_⟩
    · have hlt := (List.getElem?_eq_some_iff.1 hx).1
      simp [Got, ownerOf, setState, hlt, howner]
    · cases st with
      | compile => exact hduring
      | run => exact hduring
  have hf : ∀ j, j ≠ i → Frame w
      { w.setState n x .reaped with got := Function.update w.got i (some n) } j := by
    intro j hj
    exact { Frame.refl w j with
      got := Function.update_of_ne hj ..
      procs := fun m y hy hyj => set_ne hx hy (by rwa [howner, hyj]) }
  have hold {m : ℕ} {y : TmpProc} (hy : (w.procs.set n { x with state := .reaped })[m]? = some y)
      (hsy : y.state ≠ .reaped) : m ≠ n ∧ w.procs[m]? = some y := by
    rcases set_cases hy with ⟨-, rfl⟩ | hy
    · exact absurd rfl hsy
    · exact hy
  refine ⟨h.own_call hq hown hf, h.bound_call hq hf, h.single, h.idle, ?_, ?_, h.files,
    ⟨h.isolated.reads, h.isolated.execs, h.isolated.sent⟩⟩
  · intro m y hy hsy
    obtain ⟨hm, hy⟩ := hold hy hsy
    obtain ⟨hsty, q, hq', hchild⟩ := h.current m y hy hsy
    have hne : y.owner ≠ i := by
      intro he
      rw [he, hst] at hsty
      exact hm (Option.some.inj hsty).symm
    exact ⟨hsty, q, Phase.getElem?_call_ne hne hq', hchild⟩
  · intro m k y z hy hz hsy hsz hpid
    exact h.pids m k y z (hold hy hsy).2 (hold hz hsz).2 hsy hsz hpid

lemma Mine.owner {st : Stage} {t : TaskCtx} {pid : ℤ} (h : w.Mine i st t pid) :
    w.ownerOf (w.stage i) = some i := by
  obtain ⟨n, x, hst, hx, howner, -⟩ := h
  rw [hst, ownerOf, Option.bind_some, hx, Option.map_some, howner]

lemma own_afterCheck (n : ℕ) : w.Own i (Phase.afterCheck n) :=
  Phase.afterCheck_cases n (fun _ => trivial) trivial

lemma own_afterPipe {st : Stage} {t : TaskCtx} {p : PipeRet} (h : w.Own i (.before st t))
    (hp : p.ret = 0) : w.Own i (st.afterPipe t p) :=
  Stage.afterPipe_cases st t p h fun hret => absurd hp hret

lemma own_after {st : Stage} {t : TaskCtx} {p : PipeRet} {word : ℕ}
    (h : w.Own i (.collected st t p word)) : w.Own i (st.after t (childExit word)) := by
  obtain ⟨htask, hgot, hout⟩ := h
  cases st with
  | compile =>
    simp only [Output] at hout
    rw [Stage.after]
    split
    · rename_i hzero
      rw [if_pos hzero] at hout
      exact ⟨htask, hout⟩
    · rename_i hzero
      rw [if_neg hzero] at hout
      exact ⟨htask, hgot, hout⟩
  | run => exact ⟨htask, hgot, hout⟩

lemma own_afterRead {st : Stage} {t : TaskCtx} {p : PipeRet} {pid : ℤ}
    (h : w.Own i (.streaming st t p pid)) (got : RecvRet) :
    w.Own i (Phase.afterRead st t p pid got) ∧ (Phase.afterRead st t p pid got).child.isSome :=
  Phase.afterRead_cases st t p pid got ⟨h, rfl⟩ ⟨h, rfl⟩ fun _ => ⟨h, rfl⟩

/-- Every call keeps the invariant. -/
lemma Inv.call (h : Inv qs w) (hq : qs[i]? = some q) (hstep : Phase.Step q c r q')
    (hok : Undisturbed w (.call i c r)) (hw : TmpWorld.call w i c r = some w') :
    Inv (qs.set i q' ++ Phase.born c r) w' := by
  have hown := h.own i q hq
  cases hstep with
  | task cfd got data hreq =>
    cases hw
    apply h.receive hq
    exact ⟨(Function.update_self ..).trans hreq, hown.2⟩
  | noTask cfd got hreq =>
    cases hw
    apply h.receive hq
    trivial
  | srcName cfd data pid =>
    simp only [TmpWorld.call] at hw
    split at hw
    · rename_i hpid
      cases hw
      exact h.keep hq ⟨hown.1, hown.2, hpid⟩ nofun
    · cases hw
  | binName cfd data pid pid' =>
    simp only [TmpWorld.call] at hw
    split at hw
    · rename_i hpid
      cases hw
      obtain ⟨hreq, hout, rfl⟩ := hown
      exact h.keep hq ⟨⟨hreq, rfl, congrArg _ hpid⟩, hout⟩ nofun
    · cases hw
  | noFile t => cases hw
  | «open» t f =>
    simp only [TmpWorld.call, Option.bind_some] at hw
    split at hw
    · cases hw
      exact h.openFile hq hok
    · cases hw
  | write t f n =>
    simp only [TmpWorld.call] at hw
    split at hw
    · obtain ⟨s, hs, rfl⟩ := Option.map_eq_some_iff.1 hw
      exact h.fwrite hq hs
    · cases hw
  | flush t f r =>
    obtain ⟨s, hs, rfl⟩ := Option.map_eq_some_iff.1 hw
    exact h.fclose hq hs
  | pipe st t p =>
    simp only [TmpWorld.call] at hw
    split at hw
    · rename_i hp
      cases hw
      exact h.keep hq (own_afterPipe hown hp) nofun
    · cases hw
  | fork st t p pid =>
    simp only [TmpWorld.call] at hw
    split at hw
    · rename_i hpid
      cases hw
      exact h.fork hq hpid.2
    · cases hw
  | check n =>
    cases hw
    exact h.keep hq (own_afterCheck n) nofun
  | read st t p pid size got =>
    cases hw
    obtain ⟨hown', hchild⟩ := own_afterRead hown got
    exact h.keep hq hown' fun _ => hchild
  | output st t p pid buf ret =>
    have hne : msgOutput ≠ msgTaskDone := by decide
    simp only [TmpWorld.call, if_neg hne] at hw
    split at hw
    · rename_i hret
      cases hw
      rw [if_neg (not_lt.2 hret)]
      have hstreaming : w.Own i (.streaming st t p pid) := hown
      exact h.send hq hstreaming id hown.2.owner
    · cases hw
  | wait st t p pid status =>
    obtain ⟨n, hn, hw⟩ := Option.bind_eq_some_iff.1 hw
    obtain ⟨x, hx, hw⟩ := Option.bind_eq_some_iff.1 hw
    split at hw
    · rename_i hs
      cases hw
      exact h.wait hq hn hx hs
    · cases hw
  | closeRd st t p status r =>
    cases hw
    exact h.keep hq (own_after hown) nofun
  | report st t exit ret =>
    simp only [TmpWorld.call, if_true] at hw
    split at hw
    · cases hw
      have hcleaning : w.Own i (.cleaning st t) := ⟨hown.1, hown.2.2⟩
      exact h.send hq hcleaning nofun hown.2.1
    · cases hw
  | unlinkFailed t r =>
    cases hw
    exact h.unlink hq trivial nofun hok
  | unlinkSrc t r =>
    cases hw
    exact h.unlink hq hown nofun hok
  | unlinkBin t r =>
    cases hw
    exact h.unlink hq trivial nofun hok
  | closeWr st t p pid r =>
    cases hw
    exact h.keep hq hown id
  | kill st t p pid r =>
    cases hw
    exact h.keep hq hown id
  | _ =>
    cases hw
    exact h.keep hq hown nofun

/-! ### The children by themselves -/

/-- The handler of a child that was not waited for, and what its phase says about the child. -/
lemma Inv.busy (h : Inv qs w) {n : ℕ} {x : TmpProc} (hx : w.procs[n]? = some x)
    (hs : x.state ≠ .reaped) : ∃ q st t, qs[x.owner]? = some q ∧ q.child = some (st, t, x.pid) ∧
      w.stage x.owner = some n ∧ w.Task x.owner t ∧ x.exec = t.exec st ∧
      w.During x.owner t.data st x.state := by
  obtain ⟨hst, q, hq, hchild⟩ := h.current n x hx hs
  obtain ⟨⟨st, t, pid⟩, hchild⟩ := Option.isSome_iff_exists.1 hchild
  obtain ⟨htask, m, y, hst', hy, -, rfl, hexec, hduring⟩ := (own_busy hchild).1 (h.own _ q hq)
  obtain rfl := Option.some.inj (hst.symm.trans hst')
  obtain rfl := Option.some.inj (hx.symm.trans hy)
  exact ⟨q, st, t, hq, hchild, hst, htask, hexec, hduring⟩

/-- A step of a child. -/
lemma Inv.of_child (h : Inv qs w) {n : ℕ} {x : TmpProc} (hx : w.procs[n]? = some x)
    (hs : x.state ≠ .reaped) {state : TmpState}
    (hprocs : w'.procs = w.procs.set n { x with state := state })
    (hpid : w'.pid = w.pid) (hreq : w'.request = w.request) (hstage : w'.stage = w.stage)
    (hduring : ∀ st t, w.Task x.owner t → x.exec = t.exec st →
      w.During x.owner t.data st x.state → w'.During x.owner t.data st state)
    (hf : ∀ j, j ≠ x.owner → Frame w w' j)
    (hsingle : ∀ j ∈ w'.writers, ∀ k ∈ w'.writers, j = k)
    (hidle : (∀ j, j ∉ w'.writers) → ∀ f, w'.streams f = none)
    (hfiles : Files w'.dir w'.content w'.nextIno) (hiso : w'.TaskIsolated) : Inv qs w' where
  own := by
    intro j p hp
    by_cases hj : j = x.owner
    · subst hj
      obtain ⟨q, st, t, hq, hchild, hst, htask, hexec, hdur⟩ := h.busy hx hs
      obtain rfl := Option.some.inj (hq.symm.trans hp)
      apply (own_busy hchild).2
      refine ⟨?_, n, { x with state := state }, ?_, ?_, rfl, rfl, hexec,
        hduring st t htask hexec hdur⟩
      · rw [Task, hreq, hpid]
        exact htask
      · rw [hstage, hst]
      · rw [hprocs, List.getElem?_set_self (List.getElem?_eq_some_iff.1 hx).1]
    · exact (hf j hj).own (h.own j p hp)
  bound := by
    intro j hj
    by_cases hjx : j = x.owner
    · obtain ⟨-, q, hq, -⟩ := h.current n x hx hs
      rw [hjx]
      exact (List.getElem?_eq_some_iff.1 hq).1
    · apply h.bound j
      rwa [(hf j hjx).writers, (hf j hjx).runners, (hf j hjx).request] at hj
  single := hsingle
  idle := hidle
  current := by
    intro m y hy hsy
    rw [hprocs] at hy
    rw [hstage]
    rcases set_cases hy with ⟨rfl, rfl⟩ | ⟨-, hy⟩
    · exact h.current m x hx hs
    · exact h.current m y hy hsy
  pids := by
    have hold {m : ℕ} {y : TmpProc} (hy : w'.procs[m]? = some y) (hsy : y.state ≠ .reaped) :
        ∃ z, w.procs[m]? = some z ∧ z.state ≠ .reaped ∧ z.pid = y.pid := by
      rw [hprocs] at hy
      rcases set_cases hy with ⟨rfl, rfl⟩ | ⟨-, hy⟩
      · exact ⟨x, hx, hs, rfl⟩
      · exact ⟨y, hy, hsy, rfl⟩
    intro m k y z hy hz hsy hsz hpid
    obtain ⟨y', hy', hsy', hpy⟩ := hold hy hsy
    obtain ⟨z', hz', hsz', hpz⟩ := hold hz hsz
    exact h.pids m k y' z' hy' hz' hsy' hsz' (hpy.trans (hpid.trans hpz.symm))
  files := hfiles
  isolated := hiso

lemma frame_setState {n : ℕ} {x : TmpProc} (hx : w.procs[n]? = some x) (state : TmpState) :
    ∀ j, j ≠ x.owner → Frame w (w.setState n x state) j := by
  intro j hj
  exact { Frame.refl w j with procs := fun m y hy hyj => set_ne hx hy (hyj ▸ hj) }

lemma exec_sh {t : TaskCtx} {st : Stage} {cmd : GccCmd} (h : ChildCall.execSh cmd = t.exec st) :
    st = .compile ∧ cmd = ⟨t.bin, t.src⟩ := by
  cases st with
  | compile =>
    cases h
    exact ⟨rfl, rfl⟩
  | run => cases h

lemma exec_bin {t : TaskCtx} {st : Stage} {path : TmpPath}
    (h : ChildCall.execBin path = t.exec st) : st = .run ∧ path = t.bin := by
  cases st with
  | compile => cases h
  | run =>
    cases h
    exact ⟨rfl, rfl⟩

lemma Inv.gccOpen (h : Inv qs w) {n : ℕ} {x : TmpProc} (hx : w.procs[n]? = some x)
    (hw : w.gccOpen n x = some w') : Inv qs w' := by
  rw [TmpWorld.gccOpen] at hw
  split at hw
  · rename_i cmd hexec hstate
    obtain ⟨ino, hdir, rfl⟩ := Option.map_eq_some_iff.1 hw
    have hs : x.state ≠ .reaped := by
      rw [hstate]
      exact nofun
    refine h.of_child hx hs rfl rfl rfl rfl ?_ (frame_setState hx _) h.single h.idle h.files
      ⟨h.isolated.reads, h.isolated.execs, h.isolated.sent⟩
    intro st t htask hexec' hdur
    obtain ⟨rfl, rfl⟩ := exec_sh (hexec.symm.trans hexec')
    rw [hstate] at hdur
    obtain ⟨ino', hdir', hholds⟩ := hdur
    have hsrc : t.src = .src w.pid := htask.2.1
    rw [hsrc] at hdir
    obtain rfl := Option.some.inj (hdir.symm.trans hdir')
    exact hholds
  · cases hw

lemma Inv.gccRead (h : Inv qs w) {n : ℕ} {x : TmpProc} (hx : w.procs[n]? = some x)
    (hw : w.gccRead n x = some w') : Inv qs w' := by
  rw [TmpWorld.gccRead] at hw
  split at hw
  · rename_i ino hstate
    split at hw
    · rename_i c hc
      cases hw
      have hs : x.state ≠ .reaped := by
        rw [hstate]
        exact nofun
      have hread {st : Stage} {data : Bytes} (hdur : w.During x.owner data st x.state) :
          st = .compile ∧ w.Holds x.owner ino c ∧ c = data := by
        rw [hstate] at hdur
        cases st with
        | run => exact hdur.elim
        | compile =>
          obtain ⟨hin, hout, hnone, hdata⟩ := hdur
          obtain rfl := FileData.text.inj (Option.some.inj (hc.symm.trans hdata))
          exact ⟨rfl, ⟨hin, hout, hnone, hdata⟩, rfl⟩
      obtain ⟨-, st, t, -, -, -, htask, -, hdur⟩ := h.busy hx hs
      obtain ⟨-, hholds, hct⟩ := hread hdur
      refine h.of_child hx hs rfl rfl rfl rfl ?_ ?_ ?_ ?_ h.files ⟨?_, h.isolated.execs,
        h.isolated.sent⟩
      · intro st' t' _ _ hdur'
        obtain ⟨rfl, -, rfl⟩ := hread hdur'
        exact ⟨rfl, fun hm => by simp at hm, hholds.2.1⟩
      · intro j hj
        exact { frame_setState hx _ j hj with
          writers := by
            simp only [List.mem_filter, decide_eq_true_eq]
            exact and_iff_left hj }
      · intro j hj k hk
        exact h.single j (List.mem_of_mem_filter hj) k (List.mem_of_mem_filter hk)
      · intro _
        exact hholds.2.2.1
      · intro y hy
        rcases List.mem_append.1 hy with hy | hy
        · exact h.isolated.reads y hy
        · rw [List.mem_singleton.1 hy, hct]
          exact htask.1
    · cases hw
  · cases hw

lemma Inv.gccWrite (h : Inv qs w) {n : ℕ} {x : TmpProc} (hx : w.procs[n]? = some x)
    (hok : ∀ j ∈ w.runners, w.ownerOf (some n) = some j) (hw : w.gccWrite n x = some w') :
    Inv qs w' := by
  rw [TmpWorld.gccWrite] at hw
  split at hw
  · rename_i cmd c hexec hstate
    cases hw
    have hs : x.state ≠ .reaped := by
      rw [hstate]
      exact nofun
    have hread {st : Stage} {data : Bytes} (hdur : w.During x.owner data st x.state) :
        c = data ∧ w.Out x.owner := by
      rw [hstate] at hdur
      cases st with
      | compile => exact hdur
      | run => exact hdur.elim
    obtain ⟨-, st, t, -, -, -, htask, hexec', hdur⟩ := h.busy hx hs
    obtain ⟨rfl, rfl⟩ := exec_sh (hexec.symm.trans hexec')
    obtain ⟨rfl, hout⟩ := hread hdur
    have hbin : t.bin = .bin w.pid := htask.2.2
    have hnone : ∀ j, j ∉ w.runners := by
      intro j hj
      have := hok j hj
      rw [ownerOf, Option.bind_some, hx, Option.map_some] at this
      obtain rfl := Option.some.inj this
      exact hout.2 hj
    refine h.of_child hx hs rfl rfl rfl rfl ?_ ?_ h.single h.idle ?_
      ⟨h.isolated.reads, h.isolated.execs, h.isolated.sent⟩
    · intro st' t' _ hexec'' hdur'
      obtain ⟨rfl, -⟩ := exec_sh (hexec.symm.trans hexec'')
      obtain ⟨hdata, -⟩ := hread hdur'
      rw [← hdata]
      refine ⟨hout.1, List.mem_cons_self, w.nextIno, ?_, Function.update_self ..⟩
      show Function.update w.dir t.bin _ (.bin w.pid) = _
      rw [hbin]
      exact Function.update_self ..
    · intro j hj
      refine { frame_setState hx _ j hj with
        runners := List.mem_cons.trans (or_iff_right hj)
        source := fun _ => ⟨rfl, Function.update_of_ne ?_ .., fun ino x hc => ?_⟩
        binary := fun hm => absurd hm (hnone j) }
      · rw [hbin]
        exact nofun
      · have hne : ino ≠ w.nextIno := by
          rintro rfl
          rw [h.files.blank _ le_rfl] at hc
          cases hc
        exact (Function.update_of_ne hne ..).trans hc
    · have hfiles := h.files.enter t.bin w.nextIno (.exe ⟨x.owner, t.data⟩)
        fun _ _ hdir => lt_irrefl _ (h.files.known _ _ hdir)
      rwa [max_eq_right (Nat.le_succ _)] at hfiles
  · cases hw

lemma Inv.gccFail (h : Inv qs w) {n word : ℕ} {x : TmpProc} (hx : w.procs[n]? = some x)
    (hw : w.gccFail n word x = some w') : Inv qs w' := by
  rw [TmpWorld.gccFail] at hw
  split at hw
  · rename_i c hstate
    split at hw
    · rename_i hword
      cases hw
      have hs : x.state ≠ .reaped := by
        rw [hstate]
        exact nofun
      refine h.of_child hx hs rfl rfl rfl rfl ?_ (frame_setState hx _) h.single h.idle h.files
        ⟨h.isolated.reads, h.isolated.execs, h.isolated.sent⟩
      intro st t _ _ hdur
      rw [hstate] at hdur
      cases st with
      | compile =>
        show w.Output x.owner t.data word .compile
        rw [Output, if_neg hword]
        exact hdur.2
      | run => exact hdur.elim
    · cases hw
  · cases hw

lemma Inv.execBin (h : Inv qs w) {n : ℕ} {x : TmpProc} (hx : w.procs[n]? = some x)
    (hw : w.execBin n x = some w') : Inv qs w' := by
  rw [TmpWorld.execBin] at hw
  split at hw
  · rename_i path hexec hstate
    split at hw
    · rename_i image himage
      cases hw
      have hs : x.state ≠ .reaped := by
        rw [hstate]
        exact nofun
      obtain ⟨-, st, t, -, -, -, htask, hexec', hdur⟩ := h.busy hx hs
      obtain ⟨rfl, rfl⟩ := exec_bin (hexec.symm.trans hexec')
      rw [hstate] at hdur
      obtain ⟨hout, hin, ino, hdir, hc⟩ := hdur
      have himage' : image = ⟨x.owner, t.data⟩ := by
        rw [htask.2.2, hdir, Option.bind_some, hc] at himage
        exact (FileData.exe.inj (Option.some.inj himage)).symm
      refine h.of_child hx hs rfl rfl rfl rfl ?_ ?_ h.single h.idle h.files
        ⟨h.isolated.reads, ?_, h.isolated.sent⟩
      · intro st' t' _ hexec'' _
        obtain ⟨rfl, -⟩ := exec_bin (hexec.symm.trans hexec'')
        exact ⟨hout, fun hm => by simp at hm⟩
      · intro j hj
        exact { frame_setState hx _ j hj with
          runners := by
            simp only [List.mem_filter, decide_eq_true_eq]
            exact and_iff_left hj }
      · intro y hy
        rcases List.mem_append.1 hy with hy | hy
        · exact h.isolated.execs y hy
        · rw [List.mem_singleton.1 hy, himage']
          exact ⟨rfl, htask.1⟩
    · cases hw
  · cases hw

lemma Inv.exitProc (h : Inv qs w) {n word : ℕ} {x : TmpProc} (hx : w.procs[n]? = some x)
    (hw : w.exitProc n word x = some w') : Inv qs w' := by
  rw [TmpWorld.exitProc] at hw
  split at hw
  · rename_i image hstate
    cases hw
    have hs : x.state ≠ .reaped := by
      rw [hstate]
      exact nofun
    refine h.of_child hx hs rfl rfl rfl rfl ?_ (frame_setState hx _) h.single h.idle h.files
      ⟨h.isolated.reads, h.isolated.execs, h.isolated.sent⟩
    intro st t _ _ hdur
    rw [hstate] at hdur
    cases st with
    | compile => exact hdur.elim
    | run => exact hdur
  · cases hw

lemma Input.idle {data : Bytes} {st : Stage} (h : w.Input i data st) (hi : i ∈ w.writers)
    (f : FilePtr) : w.streams f = none := by
  cases st with
  | compile =>
    obtain ⟨ino, -, hholds⟩ := h
    exact hholds.2.2.1 f
  | run => exact absurd hi h.1

lemma Output.not_writer {data : Bytes} {st : Stage} {word : ℕ} (h : w.Output i data word st) :
    i ∉ w.writers := by
  cases st with
  | compile =>
    simp only [Output] at h
    split at h
    · exact h.1
    · exact h.1
  | run => exact h.1

lemma During.idle {data : Bytes} {st : Stage} {state : TmpState} (h : w.During i data st state)
    (hi : i ∈ w.writers) (f : FilePtr) : w.streams f = none := by
  cases state with
  | started =>
    have hinput : w.Input i data st := by
      cases st with
      | compile => exact h
      | run => exact h
    exact hinput.idle hi f
  | exited word =>
    have houtput : w.Output i data word st := by
      cases st with
      | compile => exact h
      | run => exact h
    exact absurd hi houtput.not_writer
  | opened ino =>
    cases st with
    | compile => exact h.2.2.1 f
    | run => exact h.elim
  | compiling c =>
    cases st with
    | compile => exact absurd hi h.2.1
    | run => exact h.elim
  | running image =>
    cases st with
    | compile => exact h.elim
    | run => exact absurd hi h.1
  | reaped =>
    cases st with
    | compile => exact h.elim
    | run => exact h.elim

lemma Mine.idle {st : Stage} {t : TaskCtx} {pid : ℤ} (h : w.Mine i st t pid) (hi : i ∈ w.writers)
    (f : FilePtr) : w.streams f = none := by
  obtain ⟨n, x, -, -, -, -, -, hdur⟩ := h
  exact hdur.idle hi f

/-- The world after a stream has written some of its bytes. -/
def early (w : TmpWorld) (f : FilePtr) (s : Stream) (k : ℕ) : TmpWorld :=
  { w with
    content := w.flushed s k
    streams := Function.update w.streams f
      (some { s with pos := s.pos + (s.buf.take k).length, buf := s.buf.drop k }) }

section Early

variable {f : FilePtr} {s : Stream} (hs : w.streams f = some s) (k : ℕ)

include hs

/-- The stream of the source writes early. -/
lemma Writing.early {g : FilePtr} {data : Bytes} (h : w.Writing i g data) :
    (w.early f s k).Writing i g data := by
  obtain ⟨hin, hout, hrest, ino, x, b, hdir, hc, hg, hdata⟩ := h
  have hfg : f = g := by
    by_contra hne
    rw [hrest f hne] at hs
    cases hs
  subst hfg
  obtain rfl := Option.some.inj (hg.symm.trans hs)
  have hflush := flushed_text (s := ⟨ino, x.length, b⟩) hc k
  rw [writeAt_length] at hflush
  refine ⟨hin, hout, fun g hne => ?_, ino, x ++ b.take k, b.drop k, hdir, ?_, ?_, ?_⟩
  · exact (Function.update_of_ne hne ..).trans (hrest g hne)
  · show w.flushed _ _ ino = _
    rw [hflush]
    exact Function.update_self ..
  · rw [List.length_append]
    exact Function.update_self ..
  · rw [List.append_assoc, List.take_append_drop, hdata]

/-- Only a handler that writes its source has a stream. -/
lemma Own.early (h : w.Own i q) (hi : i ∈ w.writers) : (w.early f s k).Own i q := by
  have hne : w.streams f ≠ none := by
    rw [hs]
    exact nofun
  cases q with
  | opened t g => exact ⟨h.1, h.2.early hs k⟩
  | written t g => exact ⟨h.1, h.2.early hs k⟩
  | waiting => exact absurd hi h.2.1
  | asked => exact absurd hi h.2.1
  | starting => exact absurd hi h.2.1
  | started => exact absurd hi h.2.1
  | named => exact absurd hi h.2.1.1
  | ready => exact absurd hi h.2.1
  | before => exact absurd (h.2.idle hi f) hne
  | piped => exact absurd (h.2.idle hi f) hne
  | forked => exact absurd (h.2.idle hi f) hne
  | streaming => exact absurd (h.2.idle hi f) hne
  | chunk => exact absurd (h.2.idle hi f) hne
  | lost => exact absurd (h.2.idle hi f) hne
  | drained => exact absurd (h.2.idle hi f) hne
  | collected => exact absurd hi h.2.2.not_writer
  | reporting => exact absurd hi h.2.2.1
  | cleaning => exact absurd hi h.2.1
  | unlinking => exact absurd hi h.2.1
  | _ => trivial

lemma Inv.early (h : Inv qs w) : Inv qs (w.early f s k) := by
  obtain ⟨i, hi⟩ : ∃ i, i ∈ w.writers := by
    by_contra hnone
    rw [h.idle (not_exists.1 hnone) f] at hs
    cases hs
  have hf := h.frame_stream hi (fun _ _ hc => flushed_exe (s := s) (k := k) hc)
    (w.early f s k).streams
  refine ⟨fun j p hp => ?_, h.bound, h.single, fun hm => absurd hi (hm i), h.current, h.pids,
    h.files.flushed s k, ⟨h.isolated.reads, h.isolated.execs, h.isolated.sent⟩⟩
  by_cases hj : j = i
  · subst hj
    exact (h.own j p hp).early hs k hi
  · exact (hf j hj).own (h.own j p hp)

end Early

lemma Inv.env {e : TmpEvent} (h : Inv qs w) (hok : Undisturbed w (.env e))
    (hw : TmpWorld.env w e = some w') : Inv qs w' := by
  cases e with
  | flush f k =>
    obtain ⟨s, hs, rfl⟩ := Option.map_eq_some_iff.1 hw
    exact h.early hs k
  | gccOpen n =>
    obtain ⟨x, hx, hw⟩ := Option.bind_eq_some_iff.1 hw
    exact h.gccOpen hx hw
  | gccRead n =>
    obtain ⟨x, hx, hw⟩ := Option.bind_eq_some_iff.1 hw
    exact h.gccRead hx hw
  | gccWrite n =>
    obtain ⟨x, hx, hw⟩ := Option.bind_eq_some_iff.1 hw
    exact h.gccWrite hx hok hw
  | gccFail n word =>
    obtain ⟨x, hx, hw⟩ := Option.bind_eq_some_iff.1 hw
    exact h.gccFail hx hw
  | exec n =>
    obtain ⟨x, hx, hw⟩ := Option.bind_eq_some_iff.1 hw
    exact h.execBin hx hw
  | exit n word =>
    obtain ⟨x, hx, hw⟩ := Option.bind_eq_some_iff.1 hw
    exact h.exitProc hx hw

end Step

/-- The outline of the temp files. -/
def outline (rounds : ℕ) : Conc.Outline (sys rounds) Undisturbed Phase :=
  Phase.outline rounds call env _ Inv (fun h hq hs hok hw => h.call hq hs hok hw)
    fun h hok hw => h.env hok hw

lemma inv_initial (pid : ℤ) (files : TmpFiles) : Inv [.acceptor] (initial pid files) where
  own := by
    intro i q hq
    cases i with
    | zero =>
      cases hq
      trivial
    | succ i => cases hq
  bound := by
    rintro i (hm | hm | hreq)
    · cases hm
    · cases hm
    · exact absurd rfl hreq
  single := by
    intro i hi
    cases hi
  idle := fun _ _ => rfl
  current := by
    intro n x hx
    rw [show (initial pid files).procs = [] from rfl, List.getElem?_nil] at hx
    cases hx
  pids := by
    intro n m x y hx
    rw [show (initial pid files).procs = [] from rfl, List.getElem?_nil] at hx
    cases hx
  files := ⟨files.known, files.blank, files.apart⟩
  isolated := ⟨fun _ hx => absurd hx List.not_mem_nil, fun _ hx => absurd hx List.not_mem_nil,
    fun _ hx => absurd hx List.not_mem_nil⟩

end TmpWorld

/-- In every run in which no handler disturbs the temp files of another, every gcc reads the bytes
of its own handler's request, every handler executes the binary that its own gcc made from them,
and no client gets the output or the exit code of another client's program. -/
theorem task_isolated (rounds : ℕ) (arg : Ptr) (server_fd : Fd) (pid : ℤ) (files : TmpFiles)
    {s : Conf WorkCall WorkCall.Ret TmpWorld}
    (hr : Conc.Reach (TmpWorld.sys rounds) TmpWorld.Undisturbed
      (TmpWorld.start rounds arg server_fd pid files) s) : s.world.TaskIsolated := by
  obtain ⟨qs, -, hinv⟩ := (TmpWorld.outline rounds).reach
    (Phase.holds_start arg server_fd (TmpWorld.inv_initial pid files)) hr
  exact TmpWorld.Inv.isolated hinv

/-- The gcc `n` reads its source. -/
def readMoves (n : ℕ) : List (Move WorkCall WorkCall.Ret TmpEvent) :=
  [.env (.gccOpen n), .env (.gccRead n)]

/-- The gcc of the handler 1 writes the binary, and the handler opens its second pipe. -/
def collectMoves : List (Move WorkCall WorkCall.Ret TmpEvent) :=
  [.env (.gccWrite 0), .call 1 (.waitpid 50) (0 : ℕ), .call 1 (.close 20) (),
    .call 1 .pipe ⟨0, 22, 23⟩]

/-- The binary runs while the second gcc writes its own, and the handler 1 reports its exit code. -/
def finishMoves : List (Move WorkCall WorkCall.Ret TmpEvent) :=
  [.env (.exec 2), .env (.gccWrite 1), .env (.exit 2 0), .call 1 (.waitpid 51) (0 : ℕ),
    .call 1 (.close 22) (), .call 1 (.sendMsg 11 msgTaskDone [0, 0, 0, 0]) (0 : ℤ)]

/-- Two handlers write their files one after the other; the first one runs its binary, then the gcc
of the second one puts its own in the place. -/
theorem task_isolated_one : ∃ s, Conc.Reach (TmpWorld.sys 3) TmpWorld.Undisturbed
    (TmpWorld.start 3 1 3 7 .nothing) s ∧ s.world.reads.map Prod.fst = [1, 2] ∧
      s.world.execs = [(1, ⟨1, [5]⟩)] ∧ s.world.sent = [(1, some 1)] ∧ s.world.TaskIsolated := by
  have hplay : (((TmpWorld.sys 3).play TmpWorld.Undisturbed
      (.call 0 (.free (some 1)) () :: Phase.admitMoves 1 ++ Phase.admitMoves 2 ++
        Phase.raiseMoves 1 5 ++ Phase.pipeMoves 1 5 ⟨0, 20, 21⟩ ++
        Phase.forkMoves 1 ⟨0, 20, 21⟩ (.execSh ⟨.bin 7, .src 7⟩) 50 ++ readMoves 0 ++
        Phase.raiseMoves 2 6 ++ Phase.pipeMoves 2 6 ⟨0, 24, 25⟩ ++
        Phase.forkMoves 2 ⟨0, 24, 25⟩ (.execSh ⟨.bin 7, .src 7⟩) 52 ++ readMoves 1 ++
        collectMoves ++ Phase.forkMoves 1 ⟨0, 22, 23⟩ (.execBin (.bin 7)) 51 ++ finishMoves)
      (TmpWorld.start 3 1 3 7 .nothing)).map fun s =>
        (s.world.reads.map Prod.fst, s.world.execs, s.world.sent)) =
        some ([1, 2], [(1, ⟨1, [5]⟩)], [(1, some 1)]) := by
    decide +kernel
  obtain ⟨s, hr, hw⟩ := Conc.exists_reach_of_play _ hplay
  simp only [Prod.mk.injEq] at hw
  obtain ⟨hreads, hexecs, hsent⟩ := hw
  exact ⟨s, hr, hreads, hexecs, hsent, task_isolated 3 1 3 7 .nothing hr⟩

/-- The second handler writes its file while the first is about to compile: the gcc of the first
reads the file of the second, and the first client's handler runs the second client's program. -/
theorem other_source_compiled : ∃ s, Conc.Reach (TmpWorld.sys 3) Conc.anyMove
    (TmpWorld.start 3 1 3 7 .nothing) s ∧ s.world.request 1 = some [5] ∧
      s.world.reads = [(1, [6])] ∧ s.world.execs = [(1, ⟨1, [6]⟩)] ∧ ¬ s.world.TaskIsolated := by
  have hplay : (((TmpWorld.sys 3).play Conc.anyMove
      (.call 0 (.free (some 1)) () :: Phase.admitMoves 1 ++ Phase.admitMoves 2 ++
        Phase.raiseMoves 1 5 ++ Phase.pipeMoves 1 5 ⟨0, 20, 21⟩ ++
        Phase.raiseMoves 2 6 ++ Phase.pipeMoves 2 6 ⟨0, 24, 25⟩ ++
        Phase.forkMoves 1 ⟨0, 20, 21⟩ (.execSh ⟨.bin 7, .src 7⟩) 50 ++ readMoves 0 ++
        collectMoves ++ Phase.forkMoves 1 ⟨0, 22, 23⟩ (.execBin (.bin 7)) 51 ++
        [Move.env (TmpEvent.exec 1)])
      (TmpWorld.start 3 1 3 7 .nothing)).map fun s =>
        (s.world.request 1, s.world.reads, s.world.execs)) =
        some (some [5], [(1, [6])], [(1, ⟨1, [6]⟩)]) := by
    decide +kernel
  obtain ⟨s, hr, hw⟩ := Conc.exists_reach_of_play _ hplay
  obtain ⟨hrequest, hw⟩ := Prod.mk.inj hw
  obtain ⟨hreads, hexecs⟩ := Prod.mk.inj hw
  refine ⟨s, hr, hrequest, hreads, hexecs, fun hiso => ?_⟩
  have hread : (1, [6]) ∈ s.world.reads := by
    rw [hreads]
    exact List.mem_cons_self
  have := hiso.reads _ hread
  rw [hrequest] at this
  cases this

end P2PNode
