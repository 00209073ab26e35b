import Mathlib.Data.Finset.Card
import P2PNode.Worker.Phases

/-!
# The task counters

`g_active_tasks` and `g_total_tasks` in every run of the worker, against an account of the calls of
`load_task_start` and `load_task_done`.
-/

namespace P2PNode

open Effect

/-- What a handler did to the counters: the two increments of `load_task_start`, and
`load_task_done`. -/
inductive TaskEvent where
  | start
  | count
  | done
  deriving DecidableEq

/-- The counters, and the account of the threads that changed them. -/
structure Tally where
  active : ℕ := 0
  total : ℕ := 0
  log : List (ℕ × TaskEvent) := []

namespace Tally

/-- The counters are atomic 32-bit numbers; every other call can have any result. -/
def call (w : Tally) (i : ℕ) : (c : WorkCall) → c.Ret → Option Tally
  | .load (.fetchAdd .activeTasks), _ =>
    some { w with active := (w.active + 1) % 2 ^ 32, log := w.log ++ [(i, .start)] }
  | .load (.fetchAdd .totalTasks), _ =>
    some { w with total := (w.total + 1) % 2 ^ 32, log := w.log ++ [(i, .count)] }
  | .load (.fetchSub .activeTasks), _ =>
    some { w with active := (w.active + (2 ^ 32 - 1)) % 2 ^ 32, log := w.log ++ [(i, .done)] }
  | .load (.atomicLoad .activeTasks), (n : ℕ) => if n = w.active then some w else none
  | .load (.atomicLoad .totalTasks), (n : ℕ) => if n = w.total then some w else none
  | _, _ => some w

/-- The worker. -/
abbrev sys (rounds : ℕ) : Conc WorkCall WorkCall.Ret Tally Empty :=
  Phase.workers rounds call fun _ e => e.elim

/-- How often `load_task_start` was called. -/
def starts (w : Tally) : ℕ := w.log.countP fun x => x.2 = .start

/-- The handlers that have called `load_task_start` and not yet `load_task_done`. -/
def inTask (w : Tally) : Finset ℕ :=
  (w.log.map Prod.fst).toFinset.filter fun i => (i, .start) ∈ w.log ∧ (i, .done) ∉ w.log

/-- The handlers between the two increments of `load_task_start`. -/
def midStart (w : Tally) : Finset ℕ :=
  (w.log.map Prod.fst).toFinset.filter fun i => (i, .start) ∈ w.log ∧ (i, .count) ∉ w.log

lemma mem_inTask {w : Tally} {i : ℕ} :
    i ∈ w.inTask ↔ (i, .start) ∈ w.log ∧ (i, .done) ∉ w.log := by
  simp only [inTask, Finset.mem_filter, List.mem_toFinset, List.mem_map, and_iff_right_iff_imp]
  rintro ⟨hs, -⟩
  exact ⟨_, hs, rfl⟩

lemma mem_midStart {w : Tally} {i : ℕ} :
    i ∈ w.midStart ↔ (i, .start) ∈ w.log ∧ (i, .count) ∉ w.log := by
  simp only [midStart, Finset.mem_filter, List.mem_toFinset, List.mem_map, and_iff_right_iff_imp]
  rintro ⟨hs, -⟩
  exact ⟨_, hs, rfl⟩

/-! ### The account of one handler -/

/-- Which events a handler in the phase `q` has in its account. -/
def Marks (q : Phase) (start count done : Prop) : Prop :=
  match q with
  | .acceptor => ¬ start ∧ ¬ count ∧ ¬ done
  | .passed => ¬ start ∧ ¬ count ∧ ¬ done
  | .waiting _ => ¬ start ∧ ¬ count ∧ ¬ done
  | .asked _ _ => ¬ start ∧ ¬ count ∧ ¬ done
  | .starting _ _ => start ∧ ¬ count ∧ ¬ done
  | .leaving _ => (start ↔ done) ∧ (count ↔ done)
  | .closed => (start ↔ done) ∧ (count ↔ done)
  | .bad => False
  | _ => start ∧ count ∧ ¬ done

/-- The counters agree with the account, and the account with the phases. -/
structure Inv (qs : List Phase) (w : Tally) : Prop where
  first : ∃ p, qs[0]? = some p ∧ p.Accepts
  marks : ∀ i q, qs[i]? = some q →
    Marks q ((i, .start) ∈ w.log) ((i, .count) ∈ w.log) ((i, .done) ∈ w.log)
  known : ∀ i e, (i, e) ∈ w.log → i < qs.length
  active : w.active = w.inTask.card % 2 ^ 32
  total : w.total = (w.log.countP fun x => x.2 = .count) % 2 ^ 32
  starts : w.starts = (w.log.countP fun x => x.2 = .count) + w.midStart.card

section Step

variable {qs : List Phase} {w w' : Tally} {i : ℕ} {q q' : Phase} {c : WorkCall} {r : c.Ret}

lemma marks_afterCheck (n : ℕ) (s c d : Prop) :
    Marks (Phase.afterCheck n) s c d ↔ ¬ s ∧ ¬ c ∧ ¬ d :=
  Phase.afterCheck_cases n (fun _ => .rfl) .rfl

lemma marks_afterPipe (st : Stage) (t : TaskCtx) (p : PipeRet) (s c d : Prop) :
    Marks (st.afterPipe t p) s c d ↔ s ∧ c ∧ ¬ d :=
  Stage.afterPipe_cases st t p .rfl fun _ => .rfl

lemma marks_after (st : Stage) (t : TaskCtx) (exit : ℤ) (s c d : Prop) :
    Marks (st.after t exit) s c d ↔ s ∧ c ∧ ¬ d :=
  Stage.after_cases st t exit (fun _ _ => .rfl) fun _ => .rfl

lemma marks_afterRead (st : Stage) (t : TaskCtx) (p : PipeRet) (pid : ℤ) (got : RecvRet)
    (s c d : Prop) : Marks (Phase.afterRead st t p pid got) s c d ↔ s ∧ c ∧ ¬ d :=
  Phase.afterRead_cases st t p pid got .rfl .rfl fun _ => .rfl

/-- The phases after a call that left the account of the others as it was. -/
lemma marks_call (h : Inv qs w) (hq : qs[i]? = some q)
    (hm : Marks q' ((i, .start) ∈ w'.log) ((i, .count) ∈ w'.log) ((i, .done) ∈ w'.log))
    (hne : ∀ j e, j ≠ i → ((j, e) ∈ w'.log ↔ (j, e) ∈ w.log)) :
    ∀ j p, (qs.set i q' ++ Phase.born c r)[j]? = some p →
      Marks p ((j, .start) ∈ w'.log) ((j, .count) ∈ w'.log) ((j, .done) ∈ w'.log) := by
  refine Phase.forall_call hq hm ?_ ?_
  · intro j p hj hp
    rw [hne j _ hj, hne j _ hj, hne j _ hj]
    exact h.marks j p hp
  · intro hj cfd
    have hnew : ∀ e, (qs.length, e) ∉ w'.log := by
      intro e he
      rw [hne _ _ hj] at he
      exact lt_irrefl _ (h.known _ e he)
    exact ⟨hnew _, hnew _, hnew _⟩

/-- A call that is none of the three. -/
lemma Inv.keep (h : Inv qs w) (hq : qs[i]? = some q) (hs : Phase.Step q c r q')
    (hm : ∀ s c d, Marks q s c d → Marks q' s c d) : Inv (qs.set i q' ++ Phase.born c r) w where
  first := Phase.first_call h.first hq hs.accepts
  marks := marks_call h hq (hm _ _ _ (h.marks i q hq)) fun _ _ _ => Iff.rfl
  known := by
    intro j e he
    have := h.known j e he
    rw [List.length_append, List.length_set]
    omega
  active := h.active
  total := h.total
  starts := h.starts

/-- One of the three calls. -/
lemma Inv.event (h : Inv qs w) (hq : qs[i]? = some q) {e : TaskEvent} (ha : ¬ q.Accepts)
    (hlog : w'.log = w.log ++ [(i, e)])
    (hm : Marks q' ((i, .start) ∈ w'.log) ((i, .count) ∈ w'.log) ((i, .done) ∈ w'.log))
    (hactive : w'.active = w'.inTask.card % 2 ^ 32)
    (htotal : w'.total = (w'.log.countP fun x => x.2 = .count) % 2 ^ 32)
    (hstarts : w'.starts = (w'.log.countP fun x => x.2 = .count) + w'.midStart.card) :
    Inv (qs.set i q' ++ Phase.born c r) w' where
  first := Phase.first_call h.first hq fun he => absurd he ha
  marks := by
    refine marks_call h hq hm fun j e' hj => ?_
    rw [hlog, List.mem_append, List.mem_singleton, Prod.mk.injEq]
    simp [hj]
  known := by
    intro j e' he
    have hi := (List.getElem?_eq_some_iff.1 hq).1
    rw [hlog, List.mem_append, List.mem_singleton] at he
    rw [List.length_append, List.length_set]
    rcases he with he | he
    · have := h.known j e' he
      omega
    · cases he
      omega
  active := hactive
  total := htotal
  starts := hstarts

/-- The first increment. -/
lemma Inv.raise (h : Inv qs w) {cfd : Fd} {data : Bytes} (hq : qs[i]? = some (.asked cfd data)) :
    Inv (qs.set i (.starting cfd data) ++ Phase.born c r)
      { w with active := (w.active + 1) % 2 ^ 32, log := w.log ++ [(i, .start)] } := by
  obtain ⟨hs, hc, hd⟩ := h.marks i _ hq
  obtain ⟨w', hw'⟩ : ∃ w' : Tally, w' =
    { w with active := (w.active + 1) % 2 ^ 32, log := w.log ++ [(i, .start)] } := ⟨_, rfl⟩
  rw [← hw']
  have hlog : w'.log = w.log ++ [(i, .start)] := by rw [hw']
  have htask : w'.inTask = insert i w.inTask := by
    ext j
    rw [Finset.mem_insert, mem_inTask, mem_inTask, hlog]
    by_cases hj : j = i
    · simp [hj, hd]
    · simp [hj]
  have hmid : w'.midStart = insert i w.midStart := by
    ext j
    rw [Finset.mem_insert, mem_midStart, mem_midStart, hlog]
    by_cases hj : j = i
    · simp [hj, hc]
    · simp [hj]
  have hni : i ∉ w.inTask := fun hi => hs (mem_inTask.1 hi).1
  have hnm : i ∉ w.midStart := fun hi => hs (mem_midStart.1 hi).1
  have hactive := h.active
  have hstarts := h.starts
  refine h.event hq (by simp [Phase.Accepts]) hlog ?_ ?_ ?_ ?_
  · simp [Marks, hlog, hc, hd]
  · rw [htask, Finset.card_insert_of_notMem hni, hw']
    simp only
    omega
  · rw [hlog, List.countP_append, hw']
    simpa using h.total
  · rw [hmid, Finset.card_insert_of_notMem hnm]
    simp only [Tally.starts, hlog, List.countP_append] at hstarts ⊢
    simp
    omega

/-- The second increment. -/
lemma Inv.count (h : Inv qs w) {cfd : Fd} {data : Bytes}
    (hq : qs[i]? = some (.starting cfd data)) :
    Inv (qs.set i (.started cfd data) ++ Phase.born c r)
      { w with total := (w.total + 1) % 2 ^ 32, log := w.log ++ [(i, .count)] } := by
  obtain ⟨hs, hc, hd⟩ := h.marks i _ hq
  obtain ⟨w', hw'⟩ : ∃ w' : Tally, w' =
    { w with total := (w.total + 1) % 2 ^ 32, log := w.log ++ [(i, .count)] } := ⟨_, rfl⟩
  rw [← hw']
  have hlog : w'.log = w.log ++ [(i, .count)] := by rw [hw']
  have htask : w'.inTask = w.inTask := by
    ext j
    rw [mem_inTask, mem_inTask, hlog]
    simp
  have hmid : w'.midStart = w.midStart.erase i := by
    ext j
    rw [Finset.mem_erase, mem_midStart, mem_midStart, hlog]
    by_cases hj : j = i
    · simp [hj]
    · simp [hj]
  have him : i ∈ w.midStart := mem_midStart.2 ⟨hs, hc⟩
  have hpos := Finset.card_pos.2 ⟨i, him⟩
  have htotal := h.total
  have hstarts := h.starts
  refine h.event hq (by simp [Phase.Accepts]) hlog ?_ ?_ ?_ ?_
  · simp [Marks, hlog, hs, hd]
  · rw [htask, hw']
    exact h.active
  · rw [hlog, List.countP_append, hw']
    simp
    omega
  · rw [hmid, Finset.card_erase_of_mem him]
    simp only [Tally.starts, hlog, List.countP_append] at hstarts ⊢
    simp
    omega

/-- The end of a task. -/
lemma Inv.lower (h : Inv qs w) {cfd : Fd} (hq : qs[i]? = some (.ending cfd)) :
    Inv (qs.set i (.leaving cfd) ++ Phase.born c r)
      { w with active := (w.active + (2 ^ 32 - 1)) % 2 ^ 32, log := w.log ++ [(i, .done)] } := by
  obtain ⟨hs, hc, hd⟩ := h.marks i _ hq
  obtain ⟨w', hw'⟩ : ∃ w' : Tally, w' =
    { w with active := (w.active + (2 ^ 32 - 1)) % 2 ^ 32, log := w.log ++ [(i, .done)] } :=
    ⟨_, rfl⟩
  rw [← hw']
  have hlog : w'.log = w.log ++ [(i, .done)] := by rw [hw']
  have htask : w'.inTask = w.inTask.erase i := by
    ext j
    rw [Finset.mem_erase, mem_inTask, mem_inTask, hlog]
    by_cases hj : j = i
    · simp [hj]
    · simp [hj]
  have hmid : w'.midStart = w.midStart := by
    ext j
    rw [mem_midStart, mem_midStart, hlog]
    simp
  have hit : i ∈ w.inTask := mem_inTask.2 ⟨hs, hd⟩
  have hpos := Finset.card_pos.2 ⟨i, hit⟩
  have hactive := h.active
  refine h.event hq (by simp [Phase.Accepts]) hlog ?_ ?_ ?_ ?_
  · simp [Marks, hlog, hs, hc]
  · rw [htask, Finset.card_erase_of_mem hit, hw']
    simp only
    omega
  · rw [hlog, List.countP_append, hw']
    simpa using h.total
  · rw [hmid]
    simpa [Tally.starts, hlog, List.countP_append] using h.starts

/-- Every call keeps the invariant. -/
lemma Inv.call (h : Inv qs w) (hq : qs[i]? = some q) (hstep : Phase.Step q c r q')
    (hw : Tally.call w i c r = some w') : Inv (qs.set i q' ++ Phase.born c r) w' := by
  cases hstep' : hstep with
  | raise cfd data r =>
    obtain rfl := Option.some.inj hw
    exact h.raise hq
  | count cfd data r =>
    obtain rfl := Option.some.inj hw
    exact h.count hq
  | lower cfd r =>
    obtain rfl := Option.some.inj hw
    exact h.lower hq
  | check n =>
    simp only [Tally.call] at hw
    split at hw
    · cases hw
      exact h.keep hq hstep fun _ _ _ hm => (marks_afterCheck ..).2 hm
    · cases hw
  | noTask cfd got hreq =>
    cases hw
    exact h.keep hq hstep fun s c d hm => by
      obtain ⟨hs, hc, hd⟩ := hm
      exact ⟨iff_of_false hs hd, iff_of_false hc hd⟩
  | pipe st t p =>
    cases hw
    exact h.keep hq hstep fun _ _ _ hm => (marks_afterPipe ..).2 hm
  | closeRd st t p status r =>
    cases hw
    exact h.keep hq hstep fun _ _ _ hm => (marks_after ..).2 hm
  | read st t p pid size got =>
    cases hw
    exact h.keep hq hstep fun _ _ _ hm => (marks_afterRead ..).2 hm
  | output st t p pid buf ret =>
    cases hw
    exact h.keep hq hstep fun _ _ _ hm => by
      split
      · exact hm
      · exact hm
  | _ =>
    cases hw
    exact h.keep hq hstep fun _ _ _ hm => hm

end Step

/-- The outline of the counters. -/
def outline (rounds : ℕ) : Conc.Outline (sys rounds) Conc.anyMove Phase :=
  Phase.outline rounds call _ _ Inv (fun h hq hs _ hw => h.call hq hs hw)
    fun {_ _ e _} _ _ _ => e.elim

lemma inv_start : Inv [.acceptor] {} where
  first := ⟨_, rfl, .inl rfl⟩
  marks := by
    intro i q hq
    cases i with
    | zero =>
      cases hq
      exact ⟨List.not_mem_nil, List.not_mem_nil, List.not_mem_nil⟩
    | succ i => cases hq
  known := fun _ _ he => absurd he List.not_mem_nil
  active := rfl
  total := rfl
  starts := rfl

/-- The worker before its first step. -/
abbrev start (rounds : ℕ) (arg : Ptr) (server_fd : Fd) : Conf WorkCall WorkCall.Ret Tally :=
  Phase.workersStart rounds arg server_fd {}

lemma holds_reach {rounds : ℕ} {arg : Ptr} {server_fd : Fd} {s : Conf WorkCall WorkCall.Ret Tally}
    (hr : Conc.Reach (sys rounds) Conc.anyMove (start rounds arg server_fd) s) :
    ∃ qs, (outline rounds).Holds s qs :=
  (outline rounds).reach (Phase.holds_start arg server_fd inv_start) hr

lemma card_inTask_le (w : Tally) : w.inTask.card ≤ w.starts := by
  have hsub : w.inTask ⊆ ((w.log.filter fun x => x.2 = .start).map Prod.fst).toFinset := by
    intro i hi
    have hs := (mem_inTask.1 hi).1
    rw [List.mem_toFinset, List.mem_map]
    exact ⟨(i, .start), List.mem_filter.2 ⟨hs, decide_eq_true rfl⟩, rfl⟩
  calc w.inTask.card
      ≤ ((w.log.filter fun x => x.2 = .start).map Prod.fst).toFinset.card :=
        Finset.card_le_card hsub
    _ ≤ ((w.log.filter fun x => x.2 = .start).map Prod.fst).length := List.toFinset_card_le _
    _ = w.starts := by rw [List.length_map, starts, List.countP_eq_length_filter]

/-- When all handlers have returned, no task is in progress. -/
lemma inTask_of_returned {rounds : ℕ} {s : Conf WorkCall WorkCall.Ret Tally} {qs : List Phase}
    (h : (outline rounds).Holds s qs)
    (hret : ∀ i p, 0 < i → s.threads[i]? = some p → p = .ret ()) : s.world.inTask = ∅ := by
  obtain ⟨hts, hinv⟩ := h
  have hinv : Inv qs s.world := hinv
  rw [Finset.eq_empty_iff_forall_notMem]
  intro i hi
  obtain ⟨hs, hd⟩ := mem_inTask.1 hi
  have hlt := hinv.known i _ hs
  have hq : qs[i]? = some qs[i] := List.getElem?_eq_getElem _
  have hm := hinv.marks i _ hq
  have hidle : qs[i].Accepts ∨ qs[i] = .closed := by
    rcases Nat.eq_zero_or_pos i with rfl | hpos
    · obtain ⟨p, hp, hacc⟩ := hinv.first
      exact .inl (Option.some.inj (hp.symm.trans hq) ▸ hacc)
    · have hi : i < s.threads.length := hts.length_eq ▸ hlt
      have hp := List.getElem?_eq_getElem hi
      obtain ⟨q, hq', hA⟩ := Phase.of_thread hts hp
      obtain rfl := Option.some.inj (hq.symm.trans hq')
      rw [hret i _ hpos hp] at hA
      have hfin : qs[i] = .acceptor ∨ qs[i] = .closed := hA.2
      exact hfin.imp_left .inl
  rcases hidle with (he | he) | he
  · rw [he] at hm
    exact hm.1 hs
  · rw [he] at hm
    exact hm.1 hs
  · rw [he] at hm
    exact hd (hm.1.1 hs)

lemma counts_call {w w' : Tally} {i : ℕ} {c : WorkCall} {r : c.Ret}
    (h : Tally.call w i c r = some w') : w.log <+: w'.log := by
  unfold Tally.call at h
  split at h
  case h_4 | h_5 =>
    split at h
    · cases h
      exact List.prefix_rfl
    · cases h
  all_goals
    obtain rfl := Option.some.inj h
    first | exact List.prefix_rfl | exact List.prefix_append _ _

/-- `g_total_tasks` never goes down. -/
lemma log_prefix {rounds : ℕ} {s t : Conf WorkCall WorkCall.Ret Tally}
    (hr : Conc.Reach (sys rounds) Conc.anyMove s t) : s.world.log <+: t.world.log := by
  induction hr with
  | start => exact List.prefix_rfl
  | move h _ hn ih =>
    rcases Conc.next_cases hn with ⟨i, c, r, k, w, rfl, -, hw, rfl⟩ | ⟨e, _⟩
    · exact ih.trans (counts_call hw)
    · exact e.elim

/-- The counters of a state that the worker reaches. -/
lemma counters_eq {rounds : ℕ} {s : Conf WorkCall WorkCall.Ret Tally} {qs : List Phase}
    (h : (outline rounds).Holds s qs) (hlt : s.world.starts < 2 ^ 32) :
    s.world.active = s.world.inTask.card ∧
      s.world.total = s.world.log.countP (fun x => x.2 = .count) ∧
      s.world.starts = s.world.log.countP (fun x => x.2 = .count) + s.world.midStart.card := by
  have hinv : Inv qs s.world := h.2
  have hle := card_inTask_le s.world
  have hstarts := hinv.starts
  refine ⟨?_, ?_, hstarts⟩
  · rw [hinv.active, Nat.mod_eq_of_lt (by omega)]
  · rw [hinv.total, Nat.mod_eq_of_lt (by omega)]

end Tally

/-- In every run with fewer than 2^32 started tasks: `g_active_tasks` is the number of handlers that
have called `load_task_start` and not yet `load_task_done`, 0 when all handlers have returned;
`g_total_tasks` is the number of calls of `load_task_start` except those between their two
increments, never goes down, and is with these at least `g_active_tasks`. -/
theorem task_counters_exact (rounds : ℕ) (arg : Ptr) (server_fd : Fd)
    {s : Conf WorkCall WorkCall.Ret Tally}
    (hr : Conc.Reach (Tally.sys rounds) Conc.anyMove (Tally.start rounds arg server_fd) s)
    (hlt : s.world.starts < 2 ^ 32) :
    s.world.active = s.world.inTask.card ∧
      ((∀ i p, 0 < i → s.threads[i]? = some p → p = .ret ()) → s.world.active = 0) ∧
      s.world.total + s.world.midStart.card = s.world.starts ∧
      s.world.active ≤ s.world.total + s.world.midStart.card ∧
      ∀ t, Conc.Reach (Tally.sys rounds) Conc.anyMove s t → t.world.starts < 2 ^ 32 →
        s.world.total ≤ t.world.total := by
  obtain ⟨qs, hqs⟩ := Tally.holds_reach hr
  obtain ⟨hactive, htotal, hstarts⟩ := Tally.counters_eq hqs hlt
  refine ⟨hactive, ?_, by omega, ?_, ?_⟩
  · intro hret
    rw [hactive, Tally.inTask_of_returned hqs hret, Finset.card_empty]
  · have hle := Tally.card_inTask_le s.world
    omega
  · intro t ht hlt'
    obtain ⟨qs', hqs'⟩ := (Tally.outline rounds).reach hqs ht
    obtain ⟨-, htotal', -⟩ := Tally.counters_eq hqs' hlt'
    rw [htotal, htotal']
    exact (Tally.log_prefix ht).sublist.countP_le

/-- The second handler starts its task between the two increments of the first one. -/
theorem task_counters_one : ∃ s,
    Conc.Reach (Tally.sys 3) Conc.anyMove (Tally.start 3 1 3) s ∧
      s.world.log = [(1, .start), (2, .start), (2, .count)] ∧
      s.world.active = s.world.inTask.card ∧
      ((∀ i p, 0 < i → s.threads[i]? = some p → p = .ret ()) → s.world.active = 0) ∧
      s.world.total + s.world.midStart.card = s.world.starts ∧
      s.world.active ≤ s.world.total + s.world.midStart.card ∧
      ∀ t, Conc.Reach (Tally.sys 3) Conc.anyMove s t → t.world.starts < 2 ^ 32 →
        s.world.total ≤ t.world.total := by
  have hplay : (((Tally.sys 3).play Conc.anyMove
      (.call 0 (.free (some 1)) () :: Phase.admitMoves 1 ++ Phase.admitMoves 2 ++
        Phase.raiseMoves 1 7 ++ Phase.raiseMoves 2 8 ++
        [.call 2 (.load (.fetchAdd .totalTasks)) ()])
      (Tally.start 3 1 3)).map fun s => s.world.log) =
        some [(1, .start), (2, .start), (2, .count)] := by
    decide +kernel
  obtain ⟨s, hr, hlog⟩ := Conc.exists_reach_of_play _ hplay
  have hlt : s.world.starts < 2 ^ 32 := by
    rw [Tally.starts, hlog]
    decide
  exact ⟨s, hr, hlog, task_counters_exact 3 1 3 hr hlt⟩

/-- Between the two increments the task in progress is not in the total. -/
theorem total_behind_active : ∃ s,
    Conc.Reach (Tally.sys 2) Conc.anyMove (Tally.start 2 1 3) s ∧ s.world.starts < 2 ^ 32 ∧
      s.world.total ≠ s.world.starts ∧ ¬ s.world.active ≤ s.world.total := by
  have hplay : (((Tally.sys 2).play Conc.anyMove
      (.call 0 (.free (some 1)) () :: Phase.admitMoves 1 ++ Phase.raiseMoves 1 7)
      (Tally.start 2 1 3)).map fun s => (s.world.active, s.world.total, s.world.log)) =
        some (1, 0, [(1, .start)]) := by
    decide +kernel
  obtain ⟨s, hr, hw⟩ := Conc.exists_reach_of_play _ hplay
  obtain ⟨hactive, htotal, hlog⟩ : s.world.active = 1 ∧ s.world.total = 0 ∧
      s.world.log = [(1, .start)] := by simpa using hw
  have hstarts : s.world.starts = 1 := by
    rw [Tally.starts, hlog]
    rfl
  refine ⟨s, hr, ?_, ?_, ?_⟩
  · rw [hstarts]
    decide
  · rw [htotal, hstarts]
    decide
  · rw [hactive, htotal]
    decide

end P2PNode
