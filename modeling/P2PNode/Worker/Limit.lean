import Mathlib.Data.Finset.Card
import P2PNode.Worker.Phases

/-!
# The limit on concurrent tasks

The accept loop compares the counter of the tasks with `MAX_CONCURRENT_TASKS`, but the counter is
raised by the handler, after the receive of its request. The limit is kept in every run in which the
handlers that have not started their task yet are few enough at each passed check, and not in every
run.
-/

namespace P2PNode

open Effect

/-! ### The node -/

/-- The counters, the number of threads, the handlers that were created and have neither started a
task nor closed their connection, and the handlers between `load_task_start` and
`load_task_done`. -/
structure LoadWorld where
  active : ℕ := 0
  total : ℕ := 0
  threads : ℕ := 1
  pending : Finset ℕ := ∅
  busy : Finset ℕ := ∅

namespace LoadWorld

/-- The counters are atomic 32-bit numbers; every other call can have any result. -/
def call (w : LoadWorld) (i : ℕ) : (c : WorkCall) → c.Ret → Option LoadWorld
  | .load (.fetchAdd .activeTasks), _ => some { w with
      active := (w.active + 1) % 2 ^ 32
      pending := w.pending.erase i
      busy := insert i w.busy }
  | .load (.fetchSub .activeTasks), _ => some { w with
      active := (w.active + (2 ^ 32 - 1)) % 2 ^ 32
      busy := w.busy.erase i }
  | .load (.atomicLoad .activeTasks), (n : ℕ) => if n = w.active then some w else none
  | .load (.fetchAdd .totalTasks), _ => some { w with total := (w.total + 1) % 2 ^ 32 }
  | .load (.atomicLoad .totalTasks), (n : ℕ) => if n = w.total then some w else none
  | .close _, _ => some { w with pending := w.pending.erase i }
  | .pthreadCreate _, (ret : ℤ) =>
    if ret = 0 then
      some { w with threads := w.threads + 1, pending := insert w.threads w.pending }
    else some w
  | _, _ => some w

/-- The worker. -/
abbrev sys (rounds : ℕ) : Conc WorkCall WorkCall.Ret LoadWorld Empty :=
  Phase.workers rounds call fun _ e => e.elim

/-- The worker before its first step. -/
abbrev start (rounds : ℕ) (arg : Ptr) (server_fd : Fd) : Conf WorkCall WorkCall.Ret LoadWorld :=
  Phase.workersStart rounds arg server_fd {}

/-- At a capacity check that passes, the tasks in progress and the handlers still to come are fewer
than the limit. -/
def InTime (w : LoadWorld) : Move WorkCall WorkCall.Ret Empty → Prop
  | .call _ (.load (.atomicLoad .activeTasks)) n =>
    (n : ℕ) < maxConcurrentTasks → w.busy.card + w.pending.card < maxConcurrentTasks
  | _ => True

instance (w : LoadWorld) (m : Move WorkCall WorkCall.Ret Empty) : Decidable (InTime w m) := by
  unfold InTime
  split
  · infer_instance
  · infer_instance

/-! ### The account of the handlers -/

/-- Whether the thread `i` is still to start a task or has one in progress, in the phase `q`. Only
the first thread accepts. -/
def Account (i : ℕ) (q : Phase) (pending busy : Prop) : Prop :=
  match q with
  | .acceptor => i = 0 ∧ ¬ pending ∧ ¬ busy
  | .passed => i = 0 ∧ ¬ pending ∧ ¬ busy
  | .waiting _ => pending ∧ ¬ busy
  | .asked _ _ => pending ∧ ¬ busy
  | .leaving _ => ¬ busy
  | .closed => ¬ pending ∧ ¬ busy
  | .bad => False
  | _ => ¬ pending ∧ busy

/-- The account agrees with the phases of the threads, and there is room for the handler that a
passed check will create. -/
structure Inv (qs : List Phase) (w : LoadWorld) : Prop where
  threads_eq : w.threads = qs.length
  account : ∀ i q, qs[i]? = some q → Account i q (i ∈ w.pending) (i ∈ w.busy)
  known : ∀ i, i ∈ w.pending ∨ i ∈ w.busy → i < qs.length
  limit : w.busy.card + w.pending.card ≤ maxConcurrentTasks
  room : ∀ i : ℕ, qs[i]? = some .passed → w.busy.card + w.pending.card < maxConcurrentTasks

section Step

variable {qs : List Phase} {w w' : LoadWorld} {i : ℕ} {q q' : Phase} {c : WorkCall} {r : c.Ret}

lemma account_afterCheck {n : ℕ} {pending busy : Prop} (h : Account i .acceptor pending busy) :
    Account i (Phase.afterCheck n) pending busy :=
  Phase.afterCheck_cases n (fun _ => h) h

lemma account_afterPipe (st : Stage) (t : TaskCtx) (p : PipeRet) (pending busy : Prop) :
    Account i (st.afterPipe t p) pending busy ↔ ¬ pending ∧ busy :=
  Stage.afterPipe_cases st t p .rfl fun _ => .rfl

lemma account_after (st : Stage) (t : TaskCtx) (exit : ℤ) (pending busy : Prop) :
    Account i (st.after t exit) pending busy ↔ ¬ pending ∧ busy :=
  Stage.after_cases st t exit (fun _ _ => .rfl) fun _ => .rfl

lemma account_afterRead (st : Stage) (t : TaskCtx) (p : PipeRet) (pid : ℤ) (got : RecvRet)
    (pending busy : Prop) :
    Account i (Phase.afterRead st t p pid got) pending busy ↔ ¬ pending ∧ busy :=
  Phase.afterRead_cases st t p pid got .rfl .rfl fun _ => .rfl

lemma ne_passed {q : Phase} (h : ∀ pending busy, Account i q pending busy ↔ ¬ pending ∧ busy) :
    q ≠ .passed := by
  rintro rfl
  exact ((h False True).2 ⟨not_false, trivial⟩).2.2 trivial

/-- Only one thread has passed a check. -/
lemma Inv.eq_of_passed (h : Inv qs w) {j : ℕ} (hi : ∃ q, qs[i]? = some q ∧ q.Accepts)
    (hj : qs[j]? = some .passed) : j = i := by
  obtain ⟨q, hq, hacc⟩ := hi
  have hj0 : j = 0 := (h.account j _ hj).1
  have hi0 : i = 0 := by
    have ha := h.account i q hq
    rcases hacc with rfl | rfl
    · exact ha.1
    · exact ha.1
  rw [hj0, hi0]

/-- A call that creates no handler. -/
lemma Inv.of_call (h : Inv qs w) (hq : qs[i]? = some q) (hb : Phase.born c r = [])
    (hthreads : w'.threads = w.threads) (hacc : Account i q' (i ∈ w'.pending) (i ∈ w'.busy))
    (hpending : ∀ j, j ≠ i → (j ∈ w'.pending ↔ j ∈ w.pending))
    (hbusy : ∀ j, j ≠ i → (j ∈ w'.busy ↔ j ∈ w.busy))
    (hcard : w'.busy.card + w'.pending.card ≤ w.busy.card + w.pending.card)
    (hroom : q' = .passed → w'.busy.card + w'.pending.card < maxConcurrentTasks) :
    Inv (qs.set i q' ++ Phase.born c r) w' where
  threads_eq := by rw [hthreads, h.threads_eq, hb, List.append_nil, List.length_set]
  account := by
    intro j p hp
    rcases Phase.getElem?_call hq hp with ⟨rfl, rfl⟩ | ⟨hj, hold⟩ | ⟨-, hnew⟩
    · exact hacc
    · rw [hpending j hj, hbusy j hj]
      exact h.account j p hold
    · rw [hb] at hnew
      cases hnew
  known := by
    intro j hj
    rw [hb, List.append_nil, List.length_set]
    by_cases hji : j = i
    · rw [hji]
      exact (List.getElem?_eq_some_iff.1 hq).1
    · rw [hpending j hji, hbusy j hji] at hj
      exact h.known j hj
  limit := hcard.trans h.limit
  room := by
    intro j hj
    rcases Phase.getElem?_call hq hj with ⟨-, hq'⟩ | ⟨-, hold⟩ | ⟨-, hnew⟩
    · exact hroom hq'.symm
    · exact lt_of_le_of_lt hcard (h.room j hold)
    · rw [hb] at hnew
      cases hnew

/-- A call that changes nothing but perhaps the counters. -/
lemma Inv.keep (h : Inv qs w) (hq : qs[i]? = some q) (hb : Phase.born c r = [])
    (hthreads : w'.threads = w.threads) (hpending : w'.pending = w.pending)
    (hbusy : w'.busy = w.busy)
    (hacc : Account i q (i ∈ w.pending) (i ∈ w.busy) →
      Account i q' (i ∈ w.pending) (i ∈ w.busy))
    (hroom : q' = .passed → w.busy.card + w.pending.card < maxConcurrentTasks) :
    Inv (qs.set i q' ++ Phase.born c r) w' := by
  refine h.of_call hq hb hthreads ?_ (fun j _ => by rw [hpending]) (fun j _ => by rw [hbusy])
    ?_ ?_
  · rw [hpending, hbusy]
    exact hacc (h.account i q hq)
  · rw [hpending, hbusy]
  · rw [hpending, hbusy]
    exact hroom

/-- The end of a connection, or of another descriptor. -/
lemma Inv.close (h : Inv qs w) (hq : qs[i]? = some q) (hb : Phase.born c r = [])
    (hacc : Account i q (i ∈ w.pending) (i ∈ w.busy) → Account i q' False (i ∈ w.busy))
    (hpassed : q' ≠ .passed) :
    Inv (qs.set i q' ++ Phase.born c r) { w with pending := w.pending.erase i } := by
  refine h.of_call hq hb rfl ?_ (fun j hj => ?_) (fun _ _ => Iff.rfl) ?_
    fun he => absurd he hpassed
  · simpa using hacc (h.account i q hq)
  · simp [hj]
  · exact Nat.add_le_add_left Finset.card_erase_le _

/-- The first increment of `load_task_start`. -/
lemma Inv.raise (h : Inv qs w) {cfd : Fd} {data : Bytes} (hq : qs[i]? = some (.asked cfd data))
    (hb : Phase.born c r = []) :
    Inv (qs.set i (.starting cfd data) ++ Phase.born c r) { w with
      active := (w.active + 1) % 2 ^ 32
      pending := w.pending.erase i
      busy := insert i w.busy } := by
  obtain ⟨hp, hbusy⟩ := h.account i _ hq
  refine h.of_call hq hb rfl ?_ (fun j hj => ?_) (fun j hj => ?_) ?_ nofun
  · exact ⟨Finset.notMem_erase i _, Finset.mem_insert_self i _⟩
  · simp [hj]
  · simp [hj]
  · have hpos := Finset.card_pos.2 ⟨i, hp⟩
    simp only [Finset.card_insert_of_notMem hbusy, Finset.card_erase_of_mem hp]
    omega

/-- `load_task_done`. -/
lemma Inv.lower (h : Inv qs w) {cfd : Fd} (hq : qs[i]? = some (.ending cfd))
    (hb : Phase.born c r = []) :
    Inv (qs.set i (.leaving cfd) ++ Phase.born c r) { w with
      active := (w.active + (2 ^ 32 - 1)) % 2 ^ 32
      busy := w.busy.erase i } := by
  refine h.of_call hq hb rfl ?_ (fun _ _ => Iff.rfl) (fun j hj => ?_) ?_ nofun
  · exact Finset.notMem_erase i _
  · simp [hj]
  · exact Nat.add_le_add_right Finset.card_erase_le _

/-- A handler is created. -/
lemma Inv.create (h : Inv qs w) (hq : qs[i]? = some .passed) {cfd : Fd}
    (hb : Phase.born c r = [.waiting cfd]) :
    Inv (qs.set i .acceptor ++ Phase.born c r)
      { w with threads := w.threads + 1, pending := insert w.threads w.pending } := by
  have hi := (List.getElem?_eq_some_iff.1 hq).1
  have hnew : w.threads ∉ w.pending ∧ w.threads ∉ w.busy := by
    rw [h.threads_eq]
    exact ⟨fun hp => lt_irrefl _ (h.known _ (.inl hp)),
      fun hp => lt_irrefl _ (h.known _ (.inr hp))⟩
  have hne (j : ℕ) (hj : j < qs.length) : j ∈ insert w.threads w.pending ↔ j ∈ w.pending := by
    rw [Finset.mem_insert, h.threads_eq]
    exact or_iff_right hj.ne
  have hroom := h.room i hq
  refine ⟨?_, ?_, ?_, ?_, ?_⟩
  · simp [hb, h.threads_eq]
  · refine Phase.forall_call hq ?_ ?_ ?_
    · have hacc : Account i .passed (i ∈ w.pending) (i ∈ w.busy) := h.account i _ hq
      rw [hne i hi]
      exact hacc
    · intro j p _ hp
      rw [hne j (List.getElem?_eq_some_iff.1 hp).1]
      exact h.account j p hp
    · intro _ _
      rw [← h.threads_eq]
      exact ⟨Finset.mem_insert_self _ _, hnew.2⟩
  · intro j hj
    simp only [hb, List.length_append, List.length_set, List.length_singleton,
      Finset.mem_insert] at hj ⊢
    rcases hj with (hj | hj) | hj
    · rw [hj, h.threads_eq]
      exact Nat.lt_succ_self _
    · exact (h.known j (.inl hj)).trans (Nat.lt_succ_self _)
    · exact (h.known j (.inr hj)).trans (Nat.lt_succ_self _)
  · simp only [Finset.card_insert_of_notMem hnew.1]
    omega
  · intro j hj
    rcases Phase.getElem?_call hq hj with ⟨-, he⟩ | ⟨hji, hold⟩ | ⟨-, hborn⟩
    · cases he
    · exact absurd (h.eq_of_passed ⟨_, hq, .inr rfl⟩ hold) hji
    · obtain ⟨cfd', he⟩ := Phase.mem_born hborn
      cases he

/-- Every call keeps the invariant. -/
lemma Inv.call (h : Inv qs w) (hq : qs[i]? = some q) (hstep : Phase.Step q c r q')
    (hok : InTime w (.call i c r)) (hw : LoadWorld.call w i c r = some w') :
    Inv (qs.set i q' ++ Phase.born c r) w' := by
  cases hstep with
  | check n =>
    simp only [LoadWorld.call] at hw
    split at hw
    · cases hw
      refine h.keep hq rfl rfl rfl rfl account_afterCheck fun hpassed => hok ?_
      by_contra hn
      rw [Phase.afterCheck, if_neg hn] at hpassed
      cases hpassed
    · cases hw
  | allocate size ptr =>
    cases hw
    exact h.keep hq rfl rfl rfl rfl id fun _ => h.room i hq
  | create ca ret =>
    simp only [LoadWorld.call] at hw
    split at hw
    · rename_i hret
      cases hw
      exact h.create hq (if_pos hret)
    · rename_i hret
      cases hw
      exact h.keep hq (if_neg hret) rfl rfl rfl id (by simp)
  | noTask cfd got hreq =>
    cases hw
    exact h.keep hq rfl rfl rfl rfl And.right (by simp)
  | raise cfd data r =>
    obtain rfl := Option.some.inj hw
    exact h.raise hq rfl
  | lower cfd r =>
    obtain rfl := Option.some.inj hw
    exact h.lower hq rfl
  | refuse fd r =>
    cases hw
    exact h.close hq rfl (fun ha => ⟨ha.1, not_false, ha.2.2⟩) (by simp)
  | closeWr st t p pid r =>
    cases hw
    exact h.close hq rfl (fun ha => ⟨not_false, ha.2⟩) (by simp)
  | closeRd st t p status r =>
    cases hw
    exact h.close hq rfl (fun ha => (account_after ..).2 ⟨not_false, ha.2⟩)
      (ne_passed (i := i) (account_after st t _))
  | close cfd r =>
    cases hw
    exact h.close hq rfl (fun ha => ⟨not_false, ha⟩) (by simp)
  | pipe st t p =>
    cases hw
    exact h.keep hq rfl rfl rfl rfl (fun ha => (account_afterPipe ..).2 ha)
      fun he => absurd he (ne_passed (i := i) (account_afterPipe st t p))
  | read st t p pid size got =>
    cases hw
    exact h.keep hq rfl rfl rfl rfl (fun ha => (account_afterRead ..).2 ha)
      fun he => absurd he (ne_passed (i := i) (account_afterRead st t p pid got))
  | output st t p pid buf ret =>
    cases hw
    split
    · exact h.keep hq rfl rfl rfl rfl id (by simp)
    · exact h.keep hq rfl rfl rfl rfl id (by simp)
  | _ =>
    cases hw
    exact h.keep hq rfl rfl rfl rfl id (by simp)

end Step

/-- The outline of the worker. -/
def outline (rounds : ℕ) : Conc.Outline (sys rounds) InTime Phase :=
  Phase.outline rounds call _ _ Inv (fun h hq hs hok hw => h.call hq hs hok hw)
    fun {_ _ e _} _ _ _ => e.elim

lemma inv_start : Inv [.acceptor] {} where
  threads_eq := rfl
  account := by
    intro i q hq
    cases i with
    | zero =>
      cases hq
      exact ⟨rfl, Finset.notMem_empty _, Finset.notMem_empty _⟩
    | succ i => cases hq
  known := by
    rintro i (hi | hi)
    · exact absurd hi (Finset.notMem_empty _)
    · exact absurd hi (Finset.notMem_empty _)
  limit := Nat.zero_le _
  room := by
    intro i hi
    cases i with
    | zero => cases hi
    | succ i => cases hi

end LoadWorld

/-- In every run in which each passed check is in time, at most `MAX_CONCURRENT_TASKS` tasks are in
progress. -/
theorem limit_kept_in_time (rounds : ℕ) (arg : Ptr) (server_fd : Fd)
    {s : Conf WorkCall WorkCall.Ret LoadWorld}
    (hr : Conc.Reach (LoadWorld.sys rounds) LoadWorld.InTime
      (LoadWorld.start rounds arg server_fd) s) :
    s.world.busy.card ≤ maxConcurrentTasks := by
  obtain ⟨qs, -, hinv⟩ := (LoadWorld.outline rounds).reach
    (Phase.holds_start arg server_fd LoadWorld.inv_start) hr
  exact (Nat.le_add_right _ _).trans (LoadWorld.Inv.limit hinv)

/-- Two handlers start their tasks. -/
theorem limit_kept_one : ∃ s, Conc.Reach (LoadWorld.sys 3) LoadWorld.InTime
    (LoadWorld.start 3 1 3) s ∧ s.world.busy = {1, 2} ∧
      s.world.busy.card ≤ maxConcurrentTasks := by
  have hplay : (((LoadWorld.sys 3).play LoadWorld.InTime
      (.call 0 (.free (some 1)) () :: Phase.admitMoves 1 ++ Phase.admitMoves 2 ++
        Phase.raiseMoves 1 7 ++ Phase.raiseMoves 2 8)
      (LoadWorld.start 3 1 3)).map fun s => s.world.busy) = some {1, 2} := by
    decide +kernel
  obtain ⟨s, hr, hbusy⟩ := Conc.exists_reach_of_play _ hplay
  exact ⟨s, hr, hbusy, limit_kept_in_time 3 1 3 hr⟩

/-- Nine connections are accepted before any of their handlers starts its task. -/
theorem limit_exceeded : ∃ s, Conc.Reach (LoadWorld.sys 10) Conc.anyMove
    (LoadWorld.start 10 1 3) s ∧ ¬ s.world.busy.card ≤ maxConcurrentTasks := by
  have hplay : (((LoadWorld.sys 10).play Conc.anyMove
      (.call 0 (.free (some 1)) () :: ((List.range' 1 9).flatMap Phase.admitMoves ++
        (List.range' 1 9).flatMap fun k => Phase.raiseMoves k 7))
      (LoadWorld.start 10 1 3)).map fun s => s.world.busy.card) = some 9 := by
    decide +kernel
  obtain ⟨s, hr, hcard⟩ := Conc.exists_reach_of_play _ hplay
  refine ⟨s, hr, ?_⟩
  rw [hcard]
  decide

end P2PNode
