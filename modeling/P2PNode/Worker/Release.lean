import P2PNode.Lib.Interleave
import P2PNode.Lib.Ledger
import P2PNode.Worker.Custody

/-!
# Every connection is released once

The descriptors and heap blocks of a worker with any number of handler threads. The system gives
out a descriptor or an address only while it is free; which system calls fail is open. Every
connection, argument block, payload and pipe end that was ever handed to the worker is an item of
the ledger, with the thread that holds it.
-/

namespace P2PNode

open Effect

/-! ### The world -/

inductive Handle where
  | fd (fd : Fd)
  | block (p : Ptr)
  deriving DecidableEq

inductive Asset where
  /-- The argument of `accept_loop`. -/
  | arg
  /-- A connection returned by `accept`. -/
  | conn
  /-- A `conn_args_t`. -/
  | args
  /-- A payload allocated by `recv_msg`. -/
  | payload
  /-- An end of a pipe. -/
  | pipe
  deriving DecidableEq

/-- The resources, the number of threads, and how many pipes each thread has asked for. -/
structure Estate where
  ledger : Ledger Handle Asset
  threads : ℕ := 1
  pipes : ℕ → ℕ := fun _ => 0

namespace Estate

/-- The system gives out a handle that is free. -/
def acquire (w : Estate) (i : ℕ) (kind : Asset) (h : Handle) : Option Estate :=
  if hf : w.ledger.holderOf h = none then
    some { w with ledger := w.ledger.acquire i kind h hf }
  else none

def use (w : Estate) (i : ℕ) (h : Handle) : Estate := { w with ledger := w.ledger.use i h }

def release (w : Estate) (i : ℕ) (h : Handle) : Estate :=
  { w with ledger := w.ledger.release i h }

/-- A new thread takes over the connection and its argument block. -/
def spawn (w : Estate) (i : ℕ) (ca : ConnArgs) : Estate :=
  { w with
    ledger := (w.ledger.give i w.threads (.block ca.addr)).give i w.threads (.fd ca.client_fd)
    threads := w.threads + 1 }

/-- A thread asks for a pipe. -/
def askPipe (w : Estate) (i : ℕ) : Estate :=
  { w with pipes := Function.update w.pipes i (w.pipes i + 1) }

/-- The calls of the worker. -/
def work (w : Estate) (i : ℕ) : (c : WorkCall) → c.Ret → Option Estate
  | .accept _, .conn cfd => w.acquire i .conn (.fd cfd)
  | .malloc _, some p => w.acquire i .args (.block p)
  | .pthreadCreate ca, ret => some (if ret = (0 : ℤ) then w.spawn i ca else w)
  | .free (some p), _ => some (w.release i (.block p))
  | .close fd, _ => some (w.release i (.fd fd))
  | .read fd _, _ => some (w.use i (.fd fd))
  | .sendMsg fd _ _, _ => some (w.use i (.fd fd))
  | .pipe, p =>
    if p.ret = 0 then
      ((w.askPipe i).acquire i .pipe (.fd p.rd)).bind fun w => w.acquire i .pipe (.fd p.wr)
    else some (w.askPipe i)
  | _, _ => some w

def call (w : Estate) (i : ℕ) : (c : MemCall) → c.Ret → Option Estate
  | .work c, r => w.work i c r
  | .recvMsg fd, got =>
    if SoundRecv got then
      match got.2.payload with
      | none => some (w.use i (.fd fd))
      | some b => (w.use i (.fd fd)).acquire i .payload (.block b.addr)
    else none
  | .storeArgs p, _ => some (w.use i (.block p))
  | .loadArgs p, _ => some (w.use i (.block p))
  | .load p _ _, _ => some (w.use i (.block p))
  | _, _ => some w

/-- A successful `pthread_create` starts a handler. -/
def started (rounds : ℕ) : (c : MemCall) → c.Ret → Option (MemProg Unit)
  | .work (.pthreadCreate ca), ret =>
    if ret = (0 : ℤ) then some (handleConnectionMem rounds ca) else none
  | _, _ => none

/-- The worker; nothing happens but the calls of its threads. -/
def sys (rounds : ℕ) : Conc MemCall MemCall.Ret Estate Empty where
  call := call
  env _ e := e.elim
  spawn := started rounds

/-- The worker before its first step: `accept_loop` holds its argument. -/
def start (rounds : ℕ) (arg : Ptr) (server_fd : Fd) : Conf MemCall MemCall.Ret Estate where
  threads := [acceptLoopMem rounds arg server_fd]
  world := { ledger := Ledger.acquire {} 0 .arg (.block arg) rfl }

/-! ### Release -/

/-- A thread that has returned, or waits in `accept` for the next connection. -/
def resting : MemProg Unit → Bool
  | .ret _ => true
  | .call (.work (.accept _)) _ => true
  | _ => false

/-- No thread used, freed or closed something that it does not hold, and whatever was handed to the
worker was released exactly once, or not yet and then the thread that holds it is busy. -/
structure Balanced (s : Conf MemCall MemCall.Ret Estate) : Prop where
  misuse : s.world.ledger.misuse = false
  items : ∀ it ∈ s.world.ledger.items, it.releases = 1 ∨
    it.releases = 0 ∧ ∃ p, s.threads[it.holder]? = some p ∧ resting p = false

/-- `malloc` and `pthread_create` succeed in `accept_loop`, and so does every `pipe` of a handler
but its first. -/
def Provided (w : Estate) : Move MemCall MemCall.Ret Empty → Prop
  | .call _ (.work (.malloc _)) p => p ≠ none
  | .call _ (.work (.pthreadCreate _)) ret => ret = (0 : ℤ)
  | .call i (.work .pipe) p => w.pipes i = 0 ∨ p.ret = 0
  | _ => True

instance (w : Estate) (m : Move MemCall MemCall.Ret Empty) : Decidable (w.Provided m) := by
  unfold Provided
  split <;> infer_instance

/-! ### The invariant -/

/-- What a thread holds. -/
def handles : Custody → List Handle
  | .starting arg => [.block arg]
  | .idle => []
  | .admitted cfd => [.fd cfd]
  | .allocated cfd p => [.block p, .fd cfd]
  | .receiving cfd => [.fd cfd]
  | .working cfd payload _ ends =>
    ends.map Handle.fd ++ (payload.map Handle.block).toList ++ [.fd cfd]
  | .bad => []

def pipesOf : Custody → ℕ
  | .working _ _ n _ => n
  | _ => 0

/-- The handles that the threads hold are the live ones. -/
structure Inv (qs : List Custody) (w : Estate) : Prop where
  held : w.ledger.Held (Ledger.holding handles qs)
  threads : w.threads = qs.length
  pipes : ∀ i q, qs[i]? = some q → pipesOf q ≤ w.pipes i

namespace Inv

variable {qs : List Custody} {w w' : Estate} {i : ℕ} {q q' : Custody} {x : Handle}

lemma pipes_set (h : Inv qs w) (hq : qs[i]? = some q) (hp : pipesOf q' ≤ w.pipes i) (j : ℕ)
    (p : Custody) (hj : (qs.set i q')[j]? = some p) : pipesOf p ≤ w.pipes j := by
  by_cases hij : i = j
  · subst hij
    have hi := (List.getElem?_eq_some_iff.1 hq).1
    obtain rfl : q' = p := by simpa [hi] using hj
    exact hp
  · rw [List.getElem?_set_ne hij] at hj
    exact h.pipes j p hj

/-- One thread changes its state. -/
lemma set (h : Inv qs w) (hq : qs[i]? = some q)
    (hheld : w'.ledger.Held (Function.update (Ledger.holding handles qs) i (handles q')))
    (hthreads : w'.threads = w.threads) (hpipes : w'.pipes = w.pipes)
    (hq' : pipesOf q' ≤ w.pipes i) : Inv (qs.set i q') w' where
  held := by
    rw [Ledger.holding_set hq]
    exact hheld
  threads := by rw [hthreads, h.threads, List.length_set]
  pipes := by
    rw [hpipes]
    exact h.pipes_set hq hq'

lemma holding (hq : qs[i]? = some q) : Ledger.holding handles qs i = handles q :=
  Ledger.holding_of_get hq

/-- The thread holds the same handles. -/
lemma same (h : Inv qs w) (hq : qs[i]? = some q) (hh : handles q' = handles q)
    (hp : pipesOf q' ≤ w.pipes i) : Inv (qs.set i q') w := by
  refine h.set hq ?_ rfl rfl hp
  apply h.held.perm
  rw [holding hq, hh]

lemma used (h : Inv qs w) (hq : qs[i]? = some q) (hx : x ∈ handles q) : Inv qs (w.use i x) where
  held := h.held.use (by rwa [holding hq])
  threads := h.threads
  pipes := h.pipes

lemma use (h : Inv qs w) (hq : qs[i]? = some q) (hx : x ∈ handles q) (hh : handles q' = handles q)
    (hp : pipesOf q' ≤ w.pipes i) : Inv (qs.set i q') (w.use i x) :=
  (h.used hq hx).same hq hh hp

lemma pipes_askPipe (w : Estate) (i : ℕ) : (w.askPipe i).pipes i = w.pipes i + 1 :=
  Function.update_self ..

/-- The thread asks for a pipe. -/
lemma askPipe (h : Inv qs w) (i : ℕ) : Inv qs (w.askPipe i) where
  held := h.held
  threads := h.threads
  pipes := by
    intro j q hj
    by_cases hij : j = i
    · subst hij
      rw [pipes_askPipe]
      exact Nat.le_succ_of_le (h.pipes j q hj)
    · simp only [Estate.askPipe, Function.update_of_ne hij]
      exact h.pipes j q hj

lemma acquire (h : Inv qs w) (hq : qs[i]? = some q) {kind : Asset}
    (hw : w.acquire i kind x = some w') (hh : (handles q').Perm (x :: handles q))
    (hp : pipesOf q' ≤ w.pipes i) : Inv (qs.set i q') w' := by
  rw [Estate.acquire] at hw
  split at hw
  · rename_i hf
    cases hw
    refine h.set hq ?_ rfl rfl hp
    apply h.held.acquire hf
    rwa [holding hq]
  · cases hw

lemma release (h : Inv qs w) (hq : qs[i]? = some q) (hh : (handles q).Perm (x :: handles q'))
    (hp : pipesOf q' ≤ w.pipes i) : Inv (qs.set i q') (w.release i x) := by
  refine h.set hq ?_ rfl rfl hp
  apply h.held.release
  rwa [holding hq]

/-- The accept loop starts a handler. -/
lemma spawn (h : Inv qs w) {ca : ConnArgs} (hq : qs[i]? = some (.allocated ca.client_fd ca.addr)) :
    Inv (qs.set i .idle ++ [.allocated ca.client_fd ca.addr]) (w.spawn i ca) where
  held := by
    have hi := (List.getElem?_eq_some_iff.1 hq).1
    have hij : i ≠ w.threads := by
      rw [h.threads]
      exact Nat.ne_of_lt hi
    have hnew : Ledger.holding handles qs w.threads = [] := by
      rw [h.threads, Ledger.holding_length]
    have hblock := h.held.give (j := w.threads) (x := .block ca.addr) (t := [.fd ca.client_fd])
      (u := [.block ca.addr]) hij (by rw [holding hq, handles]) (by rw [hnew])
    have hfd := hblock.give (j := w.threads) (x := .fd ca.client_fd) (t := [])
      (u := [.block ca.addr, .fd ca.client_fd]) hij
      (by rw [Function.update_of_ne hij, Function.update_self])
      (by rw [Function.update_self]; exact .swap _ _ _)
    rw [Ledger.holding_append, Ledger.holding_set hq, List.length_set, ← h.threads]
    rw [Function.update_comm hij.symm, Function.update_idem, Function.update_idem] at hfd
    exact hfd
  threads := by simp [Estate.spawn, h.threads]
  pipes := by
    intro j q hj
    rw [List.getElem?_append] at hj
    split at hj
    · exact h.pipes_set hq (Nat.zero_le _) j q hj
    · obtain rfl := List.mem_singleton.1 (List.mem_of_getElem? hj)
      exact Nat.zero_le _

/-- A message is received. -/
lemma receive (h : Inv qs w) {cfd : Fd} (hq : qs[i]? = some (.receiving cfd)) {got : ℤ × MsgOut}
    (hs : SoundRecv got) (hw : w.call i (.recvMsg cfd) got = some w') :
    Inv (qs.set i (.working cfd (got.2.payload.map Block.addr) 0 [])) w' := by
  have hfd := h.used hq (x := .fd cfd) (by simp [handles])
  obtain ⟨ret, out⟩ := got
  simp only [call, if_pos hs] at hw
  cases hb : out.payload with
  | none =>
    simp only [hb] at hw
    cases hw
    exact hfd.same hq (by simp [handles]) (Nat.zero_le _)
  | some b =>
    simp only [hb] at hw
    exact hfd.acquire hq hw (by simp [handles]) (Nat.zero_le _)

/-- A pipe is opened: its two ends are held, the read end first. -/
lemma openPipe (h : Inv qs w) {cfd : Fd} {payload : Option Ptr} {n : ℕ}
    (hq : qs[i]? = some (.working cfd payload n [])) {p : PipeRet} (hret : p.ret = 0)
    (hw : w.call i (.work .pipe) p = some w') :
    Inv (qs.set i (.working cfd payload (n + 1) [p.wr, p.rd])) w' := by
  have hn : n + 1 ≤ (w.askPipe i).pipes i := by
    rw [pipes_askPipe]
    exact Nat.succ_le_succ (h.pipes i _ hq)
  simp only [call, work, if_pos hret] at hw
  obtain ⟨w₁, hw₁, hw⟩ := Option.bind_eq_some_iff.1 hw
  have h₁ : Inv (qs.set i (.working cfd payload (n + 1) [p.rd])) w₁ :=
    (h.askPipe i).acquire hq hw₁ (.refl _) hn
  have hi := (List.getElem?_eq_some_iff.1 hq).1
  have h₂ : Inv ((qs.set i (.working cfd payload (n + 1) [p.rd])).set i
      (.working cfd payload (n + 1) [p.wr, p.rd])) w' :=
    h₁.acquire (List.getElem?_set_self hi) hw (.refl _)
      (h₁.pipes i (.working cfd payload (n + 1) [p.rd]) (List.getElem?_set_self hi))
  rwa [List.set_set] at h₂

/-- The first pipe of a handler fails. -/
lemma failPipe (h : Inv qs w) {cfd : Fd} {payload : Option Ptr} {ends : List Fd}
    (hq : qs[i]? = some (.working cfd payload 0 ends)) {p : PipeRet} (hret : p.ret ≠ 0)
    (hw : w.call i (.work .pipe) p = some w') :
    Inv (qs.set i (.working cfd payload 1 ends)) w' := by
  simp only [call, work, if_neg hret] at hw
  cases hw
  have h1 : 1 ≤ (w.askPipe i).pipes i := by
    rw [pipes_askPipe]
    exact Nat.succ_le_succ (Nat.zero_le _)
  exact (h.askPipe i).same hq rfl h1

lemma eq_of_quiet {c : WorkCall} (hc : Custody.Quiet c) {r : c.Ret}
    (hw : w.call i (.work c) r = some w') : w = w' := by
  cases c with
  | pipe => exact hc.elim
  | close fd => exact hc.elim
  | read fd size => exact hc.elim
  | sendMsg fd type bytes => exact hc.elim
  | malloc size => exact hc.elim
  | free p => exact hc.elim
  | accept fd => exact hc.elim
  | pthreadCreate ca => exact hc.elim
  | _ => exact Option.some.inj hw

/-- A step that starts no thread. -/
lemma step (h : Inv qs w) (hq : qs[i]? = some q) {c : MemCall} {r : c.Ret}
    (hs : Custody.Step q c r q') (hw : w.call i c r = some w') {rounds : ℕ}
    (hc : started rounds c r = none) : Inv (qs.set i q') w' := by
  have hp := h.pipes i q hq
  cases hs with
  | freeArg arg r =>
    cases hw
    exact h.release hq (.refl _) hp
  | accept server_fd cfd => exact h.acquire hq hw (.refl _) hp
  | noConn server_fd got hno =>
    cases got with
    | intr =>
      cases hw
      exact h.same hq rfl hp
    | err =>
      cases hw
      exact h.same hq rfl hp
    | conn cfd => exact absurd rfl (hno cfd)
  | check cfd c r =>
    cases hw
    exact h.same hq rfl hp
  | refuse cfd r =>
    cases hw
    exact h.release hq (.refl _) hp
  | allocate cfd size p => exact h.acquire hq hw (.refl _) hp
  | storeArgs cfd p r =>
    cases hw
    exact h.use hq (by simp [handles]) rfl hp
  | create cfd p => cases hc
  | loadArgs cfd p r =>
    cases hw
    exact h.use hq (by simp [handles]) rfl hp
  | freeArgs cfd p r =>
    cases hw
    exact h.release hq (.refl _) hp
  | recv cfd got hs => exact h.receive hq hs hw
  | load cfd p n ends off len bytes =>
    cases hw
    exact h.use hq (by simp [handles]) rfl hp
  | store cfd payload n ends off bytes r =>
    cases hw
    exact h.same hq rfl hp
  | enter cfd payload n ends cfd' p off len r =>
    cases hw
    exact h.same hq rfl hp
  | quiet cfd payload n ends c r hquiet =>
    obtain rfl := eq_of_quiet hquiet hw
    exact h.same hq rfl hp
  | send cfd payload n ends type bytes ret =>
    cases hw
    exact h.use hq (by simp [handles]) rfl hp
  | read cfd payload n ends fd size got hfd =>
    cases hw
    exact h.use hq (by simp [handles, hfd]) rfl hp
  | pipe cfd payload n p hret => exact h.openPipe hq hret hw
  | noPipe cfd payload ends p hret => exact h.failPipe hq hret hw
  | closeEnd cfd payload n fd ends r =>
    cases hw
    exact h.release hq (.refl _) hp
  | freeNull cfd payload n ends r =>
    cases hw
    exact h.same hq rfl hp
  | freePayload cfd p n ends r =>
    cases hw
    refine h.release hq ?_ hp
    simp only [handles, Option.map_some, Option.toList_some, Option.map_none, Option.toList_none,
      List.append_nil, List.append_assoc]
    exact List.perm_middle
  | close cfd n r =>
    cases hw
    exact h.release hq (.refl _) (Nat.zero_le _)

/-- The automaton of a task takes every answer but a failure of the second `pipe`. -/
lemma task_accepts {cfd : Fd} {n : ℕ} {ends : List Fd} {c : WorkCall}
    {r : c.Ret} (hn : n ≤ w.pipes i) (hok : Provided w (.call i (.work c) r)) :
    TaskHold.next cfd (.at n ends) c r ≠ none := by
  cases c with
  | pipe =>
    obtain ⟨p, rfl⟩ : ∃ p : PipeRet, p = r := ⟨_, rfl⟩
    simp only [TaskHold.next, TaskHold.pipe]
    split
    · exact Option.some_ne_none _
    · rename_i hp
      have h0 : n = 0 := Nat.le_zero.1 (hn.trans (Nat.le_of_eq (hok.resolve_right hp)))
      rw [if_pos h0]
      exact Option.some_ne_none _
  | _ => exact Option.some_ne_none _

lemma work_accepts (hp : pipesOf q ≤ w.pipes i) {c : WorkCall} {r : c.Ret}
    (hok : Provided w (.call i (.work c) r)) : Custody.work q c r ≠ none := by
  intro hn
  unfold Custody.work at hn
  split at hn
  case h_6 p => exact hok (Option.map_eq_none_iff.1 hn)
  case h_7 ret =>
    rw [if_pos (show ret = (0 : ℤ) from hok)] at hn
    cases hn
  case h_12 => exact task_accepts hp hok (Option.map_eq_none_iff.1 hn)
  all_goals cases hn

/-- The automaton takes the answers of the system. -/
lemma accepts (hp : pipesOf q ≤ w.pipes i) {c : MemCall} {r : c.Ret}
    (hok : Provided w (.call i c r)) (hw : w.call i c r = some w') :
    ∃ q', Custody.next q c r = some q' := by
  apply Option.ne_none_iff_exists'.1
  intro hn
  unfold Custody.next at hn
  split at hn
  · exact work_accepts hp hok hn
  · split at hn
    · cases hn
    · rename_i hs
      simp [call, hs] at hw
  all_goals cases hn

end Inv

/-- The state in which a thread starts. -/
def fresh : (c : MemCall) → c.Ret → Custody
  | .work (.pthreadCreate ca), _ => .allocated ca.client_fd ca.addr
  | _, _ => .idle

lemma started_eq_some {rounds : ℕ} {c : MemCall} {r : c.Ret} {p : MemProg Unit}
    (h : started rounds c r = some p) :
    ∃ ca, c = .work (.pthreadCreate ca) ∧ fresh c r = .allocated ca.client_fd ca.addr ∧
      p = handleConnectionMem rounds ca := by
  unfold started at h
  split at h
  · rename_i ca ret
    split at h
    · exact ⟨ca, rfl, rfl, (Option.some.inj h).symm⟩
    · cases h
  · cases h

/-- The proof outline: every thread obeys the automaton. -/
def outline (rounds : ℕ) : Conc.Outline (sys rounds) Provided Custody where
  auto := Custody.next
  good := Custody.Good
  fin q := q = .idle
  fresh := fresh
  inv := Inv
  spawned := by
    intro c r p hs
    obtain ⟨ca, -, hf, rfl⟩ := started_eq_some hs
    rw [hf]
    exact Custody.always_handleConnectionMem rounds ca
  call := by
    intro qs w i q c r w' h hq _ hok hw
    obtain ⟨q', hq'⟩ := Inv.accepts (h.pipes i q hq) hok hw
    refine ⟨q', hq', fun hg => ?_⟩
    have hs := Custody.step_of_next hq' hg
    cases hc : started rounds c r with
    | none =>
      rw [show (sys rounds).spawn c r = none from hc]
      simpa using h.step hq hs hw hc
    | some p =>
      rw [show (sys rounds).spawn c r = some p from hc]
      obtain ⟨ca, rfl, hf, -⟩ := started_eq_some hc
      cases hs with
      | create cfd p =>
        cases hw
        exact h.spawn hq
      | quiet cfd payload n ends c r hquiet => exact hquiet.elim
  env := by
    intro qs w e w' h hok hw
    exact e.elim

/-- A thread that rests holds nothing. -/
lemma handles_of_resting {p : MemProg Unit} {q : Custody} (hr : resting p = true)
    (h : p.Always Custody.next Custody.Good (fun _ q => q = .idle) q) : handles q = [] := by
  unfold resting at hr
  split at hr
  · rw [h.2]
    rfl
  · -- in any other state `accept` is refused
    have hgood := h.2 AcceptRet.err
    cases q with
    | idle => rfl
    | bad => rfl
    | starting arg => exact absurd rfl (hgood _ rfl).inv
    | admitted cfd => exact absurd rfl (hgood _ rfl).inv
    | allocated cfd p => exact absurd rfl (hgood _ rfl).inv
    | receiving cfd => exact absurd rfl (hgood _ rfl).inv
    | working cfd payload n ends => exact absurd rfl (hgood _ rfl).inv
  · cases hr

lemma inv_start (rounds : ℕ) (arg : Ptr) (server_fd : Fd) :
    Inv [.starting arg] (start rounds arg server_fd).world where
  held := by
    have happ : Ledger.holding handles [.starting arg] =
        Function.update (Ledger.holding handles []) 0 (handles (.starting arg)) :=
      Ledger.holding_append [] (Custody.starting arg)
    rw [happ]
    exact Ledger.held_empty.acquire rfl (.refl _)
  threads := rfl
  pipes := by
    intro i q hq
    obtain rfl := List.mem_singleton.1 (List.mem_of_getElem? hq)
    exact Nat.zero_le _

/-- **Every connection is released once**: in every run of the worker in which the system calls it
relies on succeed, each connection that `accept` returned was closed exactly once, and each
argument block and each payload that was allocated for it freed exactly once, unless the thread
that holds it is still busy; nothing is used, closed or freed by a thread that does not hold it. -/
theorem connections_released {rounds : ℕ} {arg : Ptr} {server_fd : Fd}
    {s : Conf MemCall MemCall.Ret Estate}
    (h : (sys rounds).Reach Provided (start rounds arg server_fd) s) : Balanced s := by
  have h₀ : (outline rounds).Holds (start rounds arg server_fd) [.starting arg] :=
    ⟨.cons (Custody.always_acceptLoopMem rounds arg server_fd) .nil,
      inv_start rounds arg server_fd⟩
  obtain ⟨qs, hts, hinv⟩ := (outline rounds).reach h₀ h
  refine ⟨hinv.held.misuse, fun it hit => ?_⟩
  refine (hinv.held.items hit).imp_right fun ⟨h0, hheld⟩ => ⟨h0, ?_⟩
  obtain ⟨q, hq, hmem⟩ := Ledger.mem_holding hheld
  obtain ⟨hlen, hall⟩ := List.forall₂_iff_get.1 hts
  obtain ⟨hi, rfl⟩ := List.getElem?_eq_some_iff.1 hq
  refine ⟨_, List.getElem?_eq_getElem (hlen ▸ hi), Bool.eq_false_iff.2 fun hr => ?_⟩
  have hnil : handles qs[it.holder] = [] :=
    handles_of_resting hr (hall it.holder (hlen ▸ hi) hi)
  rw [hnil] at hmem
  cases hmem

/-- The connection `cfd` is accepted; `pthread_create` returns `ret`. -/
def admitMoves (cfd : Fd) (ret : ℤ) : List (Move MemCall MemCall.Ret Empty) :=
  [.call 0 (.work (.accept 3)) (.conn cfd),
    .call 0 (.work (.load (.atomicLoad .activeTasks))) (0 : ℕ),
    .call 0 (.work (.malloc connArgsSize)) (some 100), .call 0 (.storeArgs 100) (),
    .call 0 (.work (.pthreadCreate ⟨100, cfd⟩)) ret]

/-- The handler `k` takes its arguments. -/
def enterMoves (k : ℕ) : List (Move MemCall MemCall.Ret Empty) :=
  [.call k (.loadArgs 100) (), .call k (.work (.free (some 100))) ()]

/-- The handler `k` finds the connection `cfd` closed. -/
def hangupMoves (k : ℕ) (cfd : Fd) : List (Move MemCall MemCall.Ret Empty) :=
  [.call k (.recvMsg cfd) (-1, {}), .call k (.work (.close cfd)) ()]

/-- The handler `k` receives a task with the payload at the address 200. -/
def receiveMoves (k : ℕ) (cfd : Fd) : List (Move MemCall MemCall.Ret Empty) :=
  [.call k (.recvMsg cfd) (0, {
      type := some msgTaskFile
      payload := some ⟨200, [0, 1, 97, 0, 0, 0, 1, 120, 0]⟩
      len := 8 }),
    .call k (.load 200 0 2) [0, 1], .call k (.load 200 2 1) [97], .call k (.store 0 [97]) (),
    .call k (.store 1 [0]) (), .call k (.load 200 3 4) [0, 0, 0, 1],
    .call k (.enter cfd 200 7 1) ()]

/-- The handler `k` writes the file and runs a compiler that fails, over the pipe `p`. -/
def compileMoves (k : ℕ) (cfd : Fd) (p : PipeRet) : List (Move MemCall MemCall.Ret Empty) :=
  [.call k (.work (.load (.fetchAdd .activeTasks))) (),
    .call k (.work (.load (.fetchAdd .totalTasks))) (), .call k (.work .getpid) (7 : ℤ),
    .call k (.work .getpid) (7 : ℤ), .call k (.work (.fopen (.src 7))) (some 1),
    .call k (.load 200 7 1) [120], .call k (.work (.fwrite [120] 1)) (1 : ℕ),
    .call k (.work (.fclose 1)) (), .call k (.work .pipe) p,
    .call k (.work (.fork (childCode p (.execSh ⟨.bin 7, .src 7⟩)))) (21 : ℤ),
    .call k (.work (.close p.wr)) (), .call k (.work (.read p.rd outputBufSize)) (.data []),
    .call k (.work (.waitpid 21)) (256 : ℕ), .call k (.work (.close p.rd)) (),
    .call k (.work (.sendMsg cfd msgTaskDone [0, 0, 0, 1])) (0 : ℤ)]

/-- The handler `k` leaves. -/
def leaveMoves (k : ℕ) (cfd : Fd) : List (Move MemCall MemCall.Ret Empty) :=
  [.call k (.work (.unlink (.src 7))) (), .call k (.work (.load (.fetchSub .activeTasks))) (),
    .call k (.work (.free (some 200))) (), .call k (.work (.free none)) (),
    .call k (.work (.close cfd)) ()]

/-- Two connections: the one is closed before a message comes, the other brings a task, whose
payload and pipe are released too. Both handlers run when the next connection is awaited. -/
theorem connections_released_one : ∃ s, (sys 3).Reach Provided (start 3 1 3) s ∧
    s.world.ledger.items.map (fun it => (it.kind, it.holder, it.releases)) =
      [(.arg, 0, 1), (.conn, 1, 1), (.args, 1, 1), (.conn, 2, 1), (.args, 2, 1), (.payload, 2, 1),
        (.pipe, 2, 1), (.pipe, 2, 1)] ∧ Balanced s := by
  have hplay : (((sys 3).play Provided (.call 0 (.work (.free (some 1))) () ::
      (admitMoves 11 0 ++ enterMoves 1 ++ admitMoves 12 0 ++ enterMoves 2 ++ receiveMoves 2 12 ++
        hangupMoves 1 11 ++ compileMoves 2 12 ⟨0, 13, 14⟩ ++ leaveMoves 2 12)) (start 3 1 3)).map
      fun s => s.world.ledger.items.map (fun it => (it.kind, it.holder, it.releases))) =
      some [(.arg, 0, 1), (.conn, 1, 1), (.args, 1, 1), (.conn, 2, 1), (.args, 2, 1),
        (.payload, 2, 1), (.pipe, 2, 1), (.pipe, 2, 1)] := by
    decide +kernel
  obtain ⟨s, hr, hitems⟩ := Conc.exists_reach_of_play _ hplay
  exact ⟨s, hr, hitems, connections_released hr⟩

/-- `pthread_create` fails with `EAGAIN`: the accept loop goes on to its next `accept`, and neither
the connection nor its argument block is released. -/
theorem connection_leaked : ∃ s, (sys 3).Reach Conc.anyMove (start 3 1 3) s ∧
    s.threads.map resting = [true] ∧
    s.world.ledger.items =
      [⟨.block 1, .arg, 0, 1⟩, ⟨.fd 11, .conn, 0, 0⟩, ⟨.block 100, .args, 0, 0⟩] ∧
    ¬ Balanced s := by
  have hplay : (((sys 3).play Conc.anyMove (.call 0 (.work (.free (some 1))) () :: admitMoves 11 11)
      (start 3 1 3)).map fun s =>
      (s.threads.map resting, s.world.ledger.items)) =
      some ([true],
        [⟨.block 1, .arg, 0, 1⟩, ⟨.fd 11, .conn, 0, 0⟩, ⟨.block 100, .args, 0, 0⟩]) := by
    decide +kernel
  obtain ⟨s, hr, hw⟩ := Conc.exists_reach_of_play _ hplay
  obtain ⟨hrest, hitems⟩ := Prod.mk.inj hw
  refine ⟨s, hr, hrest, hitems, fun hb => ?_⟩
  obtain h1 | ⟨-, p, hp, hbusy⟩ := hb.items ⟨.fd 11, .conn, 0, 0⟩ (by rw [hitems]; simp)
  · cases h1
  · have hr := congrArg (fun l => l[0]?) hrest
    simp [hp, hbusy] at hr

end Estate
end P2PNode
