import P2PNode.Worker.Script

/-!
# The replies to a task

What a client sees of the reply protocol: the output, then one final message, then the end of the
connection. The handler keeps to it when its temp file opens. When a send fails, one more is always
tried, and the binary of a compilation that ended well is run.
-/

namespace P2PNode

open Effect

/-! ### Answered tasks -/

/-- The events that the client sees. -/
def onWire (log : List ReplyEvent) : List ReplyEvent := log.filter (· ≠ .fork)

/-- Some output, one final message, and the connection is closed. -/
def Answered (log : List ReplyEvent) : Prop :=
  ∃ (outputs : List Bytes) (code : ℤ),
    onWire log = outputs.map (.frame msgOutput) ++ [.frame msgTaskDone (donePayload code), .close]

/-- Every send succeeded. -/
def NothingLost (log : List ReplyEvent) : Prop :=
  ∀ type payload n, ReplyEvent.lost type payload n ∉ log

lemma NothingLost.left {es fs : List ReplyEvent} (h : NothingLost (es ++ fs)) : NothingLost es :=
  fun type payload n hmem => h type payload n (List.mem_append_left fs hmem)

lemma NothingLost.right {es fs : List ReplyEvent} (h : NothingLost (es ++ fs)) : NothingLost fs :=
  fun type payload n hmem => h type payload n (List.mem_append_right es hmem)

@[simp] lemma onWire_append (es fs : List ReplyEvent) :
    onWire (es ++ fs) = onWire es ++ onWire fs :=
  List.filter_append ..

lemma NothingLost.append {es fs : List ReplyEvent} (he : NothingLost es) (hf : NothingLost fs) :
    NothingLost (es ++ fs) := by
  intro type payload n hmem
  rcases List.mem_append.mp hmem with h | h
  · exact he _ _ _ h
  · exact hf _ _ _ h

lemma onWire_outputs (cs : List Bytes) :
    onWire (cs.map (.frame msgOutput)) = cs.map (.frame msgOutput) := by
  apply List.filter_eq_self.mpr
  intro e he
  obtain ⟨c, -, rfl⟩ := List.mem_map.mp he
  rfl

/-- When no send fails, all chunks arrive. -/
lemma forwarded_of_nothingLost {out : ℕ → SendOut} {i : ℕ} {cs : List Bytes}
    (h : NothingLost (forwarded out i cs)) : forwarded out i cs = cs.map (.frame msgOutput) := by
  induction cs generalizing i with
  | nil => rfl
  | cons c cs ih =>
    cases ho : out i with
    | ok =>
      simp only [forwarded, ho] at h ⊢
      have htail : NothingLost (forwarded out (i + 1) cs) :=
        fun type payload n hmem => h type payload n (List.mem_cons_of_mem _ hmem)
      rw [ih htail, List.map_cons]
    | fail n =>
      simp only [forwarded, ho] at h
      exact absurd (List.mem_singleton_self _) (h msgOutput c n)

namespace TaskScript

variable (sc : TaskScript)

lemma onWire_forkEvents (k : ℕ) : onWire (sc.forkEvents k) = [] := by
  rw [forkEvents]
  split
  · rfl
  · rfl

lemma out_false (i : ℕ) : sc.out false i = .fail 0 := rfl

lemma closeEvents_of_ne {fd : Fd} (h : fd ≠ sc.cfd) : sc.closeEvents fd = [] := if_neg h

/-- A final message that arrived was sent on a connection that no closing of the pipe touched. -/
lemma done_of_nothingLost {k : ℕ} {p : PipeRet} {i : ℕ} (h : NothingLost [sc.done k p i]) :
    sc.done k p i = .frame msgTaskDone (donePayload (childExit (sc.status k))) ∧
      p.wr ≠ sc.cfd ∧ p.rd ≠ sc.cfd := by
  by_cases hopen : p.wr ≠ sc.cfd ∧ p.rd ≠ sc.cfd
  · refine ⟨?_, hopen⟩
    cases ho : sc.out (decide (p.wr ≠ sc.cfd) && decide (p.rd ≠ sc.cfd)) i with
    | ok => rw [done, ho, sendEvent]
    | fail n =>
      rw [done, ho, sendEvent] at h
      exact absurd (List.mem_singleton_self _) (h _ _ _)
  · have quiet_closed : (decide (p.wr ≠ sc.cfd) && decide (p.rd ≠ sc.cfd)) = false := by
      rw [← Bool.not_eq_true, Bool.and_eq_true, decide_eq_true_iff, decide_eq_true_iff]
      exact hopen
    rw [done, quiet_closed, out_false, sendEvent] at h
    exact absurd (List.mem_singleton_self _) (h _ _ _)

/-- What the client sees of a stage whose pipe is apart from the connection. -/
lemma onWire_stage {k : ℕ} {p : PipeRet} {i : ℕ} (hwr : p.wr ≠ sc.cfd) (hrd : p.rd ≠ sc.cfd)
    (h : NothingLost (sc.stage k p i)) :
    onWire (sc.stage k p i) = (chunksOf (sc.reads k)).map (.frame msgOutput) := by
  have hout : sc.outputs k p i = (chunksOf (sc.reads k)).map (.frame msgOutput) :=
    forwarded_of_nothingLost h.left.right
  rw [stage, closeEvents_of_ne sc hwr, closeEvents_of_ne sc hrd, hout]
  simp only [List.append_nil, onWire_append, onWire_forkEvents, List.nil_append, onWire_outputs]

/-- A stage with its final message. -/
lemma onWire_stage_done {k : ℕ} {p : PipeRet} {i j : ℕ}
    (h : NothingLost (sc.stage k p i ++ [sc.done k p j])) :
    onWire (sc.stage k p i ++ [sc.done k p j]) =
      (chunksOf (sc.reads k)).map (.frame msgOutput) ++
        [.frame msgTaskDone (donePayload (childExit (sc.status k)))] := by
  obtain ⟨hdone, hwr, hrd⟩ := done_of_nothingLost sc h.right
  rw [onWire_append, onWire_stage sc hwr hrd h.left, hdone]
  rfl

/-- The events of a task whose temp file opens. -/
lemma onWire_taskLog (hf : sc.fopen.isSome) (h : NothingLost sc.taskLog) :
    ∃ (outputs : List Bytes) (code : ℤ), onWire sc.taskLog =
      outputs.map (.frame msgOutput) ++ [.frame msgTaskDone (donePayload code)] := by
  rw [taskLog, if_pos hf] at h ⊢
  by_cases hret : (sc.pipe 0).ret = 0
  · rw [if_pos hret] at h ⊢
    by_cases hexit : childExit (sc.status 0) ≠ 0
    · rw [if_pos hexit] at h ⊢
      exact ⟨_, _, onWire_stage_done sc h⟩
    · rw [if_neg hexit] at h ⊢
      obtain ⟨hrd, hwr⟩ := sc.apart 0 hret
      rw [onWire_append, onWire_stage sc hwr hrd h.left, binaryLog, onWire_stage_done sc h.right,
        ← List.append_assoc, ← List.map_append]
      exact ⟨_, _, rfl⟩
  · rw [if_neg hret] at h ⊢
    exact ⟨_, _, onWire_stage_done sc h⟩

/-- A task is answered exactly when its temp file opens. -/
lemma answered_log_iff (h : NothingLost sc.log) : Answered sc.log ↔ sc.fopen.isSome := by
  constructor
  · rintro ⟨outputs, code, hwire⟩
    by_contra hf
    rw [log, taskLog, if_neg hf] at hwire
    cases outputs with
    | nil => cases hwire
    | cons c cs => cases hwire
  · intro hf
    obtain ⟨outputs, code, hwire⟩ := onWire_taskLog sc hf h.left
    refine ⟨outputs, code, ?_⟩
    rw [log, onWire_append, hwire, List.append_assoc]
    rfl

end TaskScript

/-- As long as every send succeeds, a well-formed request is answered exactly when its temp file
opens. -/
theorem answered_iff_fopen (sc : TaskScript) (rounds : ℕ) (ca : ConnArgs)
    (hfd : ca.client_fd = sc.cfd) (h₀ : (sc.reads 0).length < rounds)
    (h₁ : (sc.reads 1).length < rounds) :
    ∃ s, (handleConnection rounds ca).run sc.handle {} = some ((), s) ∧
      (NothingLost s.log → (Answered s.log ↔ sc.fopen.isSome)) := by
  obtain ⟨s, hrun, hlog⟩ := sc.does_handleConnection rounds ca hfd h₀ h₁
  have hlog : s.log = sc.log := hlog
  refine ⟨s, hrun, ?_⟩
  rw [hlog]
  exact sc.answered_log_iff

/-- A small request; everything but the opening of the temp file and the sends goes well. -/
def smallTask (fopen : Option FilePtr) (reads : ℕ → List RecvRet) (send : ℕ → SendOut) :
    TaskScript where
  cfd := 4
  block := { addr := 64, bytes := [0, 1, 97, 0, 0, 0, 1, 120] }
  len := 8
  name := [97]
  data := [120]
  pid := 10
  fopen := fopen
  written := 1
  pipe _ := { ret := 0, rd := 5, wr := 6 }
  fork k := 20 + k
  reads := reads
  status _ := 0
  send := send
  decodes := by decide
  apart _ _ := ⟨by decide, by decide⟩

theorem answered_iff_fopen_small :
    ∃ s, (handleConnection 2 ⟨32, 4⟩).run (smallTask (some 1) (fun _ => [.data [7]])
      fun _ => .ok).handle {} = some ((), s) ∧
      (NothingLost s.log → (Answered s.log ↔ (some 1 : Option FilePtr).isSome)) :=
  answered_iff_fopen (smallTask (some 1) (fun _ => [.data [7]]) fun _ => .ok) 2 ⟨32, 4⟩ rfl
    (by decide) (by decide)

/-- A request is not answered when the temp file does not open. -/
theorem not_answered :
    ∃ s, (handleConnection 1 ⟨32, 4⟩).run (smallTask none (fun _ => []) fun _ => .ok).handle {} =
      some ((), s) ∧ NothingLost s.log ∧ ¬ Answered s.log := by
  obtain ⟨s, hrun, hlog⟩ := (smallTask none (fun _ => []) fun _ => .ok).does_handleConnection 1
    ⟨32, 4⟩ rfl (by decide) (by decide)
  have hlog : s.log = [.close] := hlog
  refine ⟨s, hrun, ?_, ?_⟩
  · rw [hlog]
    intro type payload n hmem
    cases List.mem_singleton.mp hmem
  · rw [hlog]
    rintro ⟨outputs, code, hwire⟩
    cases outputs with
    | nil => cases hwire
    | cons c cs => cases hwire

/-! ### After a failed send -/

/-- Nothing is written on the connection and no child is started. -/
def ReplyEvent.Quiet : ReplyEvent → Prop
  | .frame _ _  => False
  | .lost _ _ n => n = 0
  | .fork       => False
  | .close      => True

/-- After the first send that fails, all is quiet. -/
def Stops : List ReplyEvent → Prop
  | []                => True
  | .lost _ _ _ :: es => ∀ e ∈ es, e.Quiet
  | _ :: es           => Stops es

/-- In front of a failed send the events do not count. -/
lemma stops_append {es fs : List ReplyEvent} (h : NothingLost es) :
    Stops (es ++ fs) ↔ Stops fs := by
  induction es with
  | nil => rfl
  | cons e es ih =>
    have htail : NothingLost es :=
      fun type payload n hmem => h type payload n (List.mem_cons_of_mem _ hmem)
    cases e with
    | frame type payload => exact ih htail
    | lost type payload n => exact absurd List.mem_cons_self (h type payload n)
    | fork => exact ih htail
    | close => exact ih htail

lemma stops_of_quiet {es : List ReplyEvent} (h : ∀ e ∈ es, e.Quiet) : Stops es := by
  induction es with
  | nil => trivial
  | cons e es ih =>
    rw [List.forall_mem_cons] at h
    cases e with
    | frame type payload => exact h.1.elim
    | lost type payload n => exact h.2
    | fork => exact h.1.elim
    | close => exact ih h.2

lemma quiet_close : ∀ e ∈ [ReplyEvent.close], e.Quiet := by
  intro e he
  rw [List.mem_singleton.mp he]
  trivial

lemma nothingLost_frames (cs : List Bytes) : NothingLost (cs.map (.frame msgOutput)) := by
  intro type payload n hmem
  obtain ⟨c, -, hc⟩ := List.mem_map.mp hmem
  cases hc

/-- The sends of the chunks all succeed, or there is a first that fails and it is the last. -/
lemma forwarded_cases (out : ℕ → SendOut) (i : ℕ) (cs : List Bytes) :
    ((∀ j, i ≤ j → j < i + cs.length → out j = .ok) ∧
      forwarded out i cs = cs.map (.frame msgOutput)) ∨
    ∃ k c n, i ≤ k ∧ k < i + cs.length ∧ out k = .fail n ∧
      (∀ j, i ≤ j → j < k → out j = .ok) ∧
      forwarded out i cs = (cs.take (k - i)).map (.frame msgOutput) ++ [.lost msgOutput c n] := by
  induction cs generalizing i with
  | nil =>
    left
    refine ⟨fun j hj hlt => ?_, rfl⟩
    exact absurd hj (Nat.not_le.mpr hlt)
  | cons c cs ih =>
    cases ho : out i with
    | fail n =>
      right
      refine ⟨i, c, n, le_rfl, by simp, ho, fun j hj hlt => ?_, ?_⟩
      · exact absurd hj (Nat.not_le.mpr hlt)
      · simp [forwarded, ho]
    | ok =>
      have hfirst {j k : ℕ} (h : ∀ j, i + 1 ≤ j → j < k → out j = .ok) (hj : i ≤ j) (hlt : j < k) :
          out j = .ok := by
        rcases Nat.eq_or_lt_of_le hj with rfl | hj
        · exact ho
        · exact h j hj hlt
      have hlen : i + (c :: cs).length = i + 1 + cs.length := by rw [List.length_cons]; omega
      rw [hlen]
      rcases ih (i + 1) with ⟨hall, heq⟩ | ⟨k, c', n, hk, hlt, hfail, hall, heq⟩
      · left
        refine ⟨fun j => hfirst hall, ?_⟩
        simp only [forwarded, ho, heq, List.map_cons]
      · right
        refine ⟨k, c', n, Nat.le_of_succ_le hk, hlt, hfail, fun j => hfirst hall, ?_⟩
        have htake : (c :: cs).take (k - i) = c :: cs.take (k - (i + 1)) := by
          obtain ⟨d, rfl⟩ := Nat.exists_eq_add_of_le hk
          rw [Nat.add_sub_cancel_left, Nat.add_assoc, Nat.add_sub_cancel_left, Nat.add_comm,
            List.take_succ_cons]
        simp only [forwarded, ho, heq, htake, List.map_cons, List.cons_append]

namespace TaskScript

variable (sc : TaskScript)

/-! ### When all is quiet -/

/-- The send `k` is the first to fail of the `n` sends from the send `i` on. -/
def LostAt (i n k : ℕ) : Prop :=
  i ≤ k ∧ k < i + n ∧ sc.send k ≠ .ok ∧ ∀ j, i ≤ j → j < k → sc.send j = .ok

/-- The send `j` fails and writes nothing. -/
def Silent (j : ℕ) : Prop := sc.send j = .fail 0

/-- The number of chunks of the child `k`. -/
def chunks (k : ℕ) : ℕ := (chunksOf (sc.reads k)).length

/-- The run of the binary over the pipe `p`, from the send `i` on and with `n` chunks of output:
after a failed send the final message writes nothing. -/
def RunStops (p : PipeRet) (i n : ℕ) : Prop :=
  p.wr = sc.cfd ∨ p.rd = sc.cfd ∨ ∀ k, sc.LostAt i n k → sc.Silent (k + 1)

/-- In the run of the binary no send writes anything. -/
def RunSilent (p : PipeRet) (i n : ℕ) : Prop :=
  p.wr = sc.cfd ∨ ((0 < n → sc.Silent i) ∧ (p.rd = sc.cfd ∨ sc.Silent (i + min n 1)))

/-- After a failed send of the compiler's output: the compilation fails and the final message writes
nothing, or no child can be started for the binary and nothing is written for it. -/
def CompileStops (k : ℕ) : Prop :=
  if childExit (sc.status 0) ≠ 0 then sc.Silent (k + 1)
  else sc.fork 1 < 0 ∧ sc.RunSilent (sc.pipe 1) (k + 1) (sc.chunks 1)

/-- The conditions under which a failed send is the end of the task. -/
def StopsWhen : Prop :=
  sc.fopen.isSome →
    if (sc.pipe 0).ret = 0 then
      (∀ k, sc.LostAt 0 (sc.chunks 0) k → sc.CompileStops k) ∧
      ((∀ j, j < sc.chunks 0 → sc.send j = .ok) → childExit (sc.status 0) = 0 →
        sc.RunStops (sc.pipe 1) (sc.chunks 0) (sc.chunks 1))
    else sc.RunStops (sc.pipe 1) 0 (sc.chunks 0)

section Quiet

variable {k i n : ℕ} {p : PipeRet}

lemma LostAt.unique {sc : TaskScript} {k' : ℕ} (h : sc.LostAt i n k) (h' : sc.LostAt i n k') :
    k = k' := by
  obtain ⟨hi, -, hk, hall⟩ := h
  obtain ⟨hi', -, hk', hall'⟩ := h'
  rcases Nat.lt_trichotomy k k' with hlt | heq | hlt
  · exact absurd (hall' k hi hlt) hk
  · exact heq
  · exact absurd (hall k' hi' hlt) hk'

lemma out_true (j : ℕ) : sc.out true j = sc.send j := rfl

lemma quiet_forkEvents : (∀ e ∈ sc.forkEvents k, e.Quiet) ↔ sc.fork k < 0 := by
  rw [forkEvents]
  by_cases hk : 0 ≤ sc.fork k
  · rw [if_pos hk, List.forall_mem_singleton]
    exact iff_of_false id (not_lt.mpr hk)
  · rw [if_neg hk]
    exact iff_of_true (List.forall_mem_nil _) (not_le.mp hk)

lemma quiet_closeEvents (fd : Fd) : ∀ e ∈ sc.closeEvents fd, e.Quiet := by
  intro e he
  rw [closeEvents] at he
  split at he
  · rw [List.mem_singleton.mp he]
    trivial
  · cases he

lemma nothingLost_forkEvents (k : ℕ) : NothingLost (sc.forkEvents k) := by
  intro type payload m hmem
  rw [forkEvents] at hmem
  split at hmem
  · cases List.mem_singleton.mp hmem
  · cases hmem

lemma nothingLost_closeEvents (fd : Fd) : NothingLost (sc.closeEvents fd) := by
  intro type payload m hmem
  rw [closeEvents] at hmem
  split at hmem
  · cases List.mem_singleton.mp hmem
  · cases hmem

lemma quiet_sendEvent {o : SendOut} {type : MsgType} {payload : Bytes} :
    (sendEvent o type payload).Quiet ↔ o = .fail 0 := by
  cases o with
  | ok => exact iff_of_false id (by simp)
  | fail m => simp [sendEvent, ReplyEvent.Quiet]

lemma quiet_done :
    (sc.done k p i).Quiet ↔ p.wr = sc.cfd ∨ p.rd = sc.cfd ∨ sc.Silent i := by
  rw [done, quiet_sendEvent, out, Silent]
  by_cases hwr : p.wr = sc.cfd
  · simp [hwr]
  · by_cases hrd : p.rd = sc.cfd
    · simp [hrd]
    · simp [hwr, hrd]

/-- The events of a stage with its final message, when the pipe is not the connection. -/
lemma quiet_outputs (hwr : p.wr ≠ sc.cfd) :
    (∀ e ∈ sc.outputs k p i, e.Quiet) ↔ (0 < sc.chunks k → sc.Silent i) := by
  rw [outputs, decide_eq_true hwr, chunks]
  cases chunksOf (sc.reads k) with
  | nil => exact iff_of_true (List.forall_mem_nil _) (fun h => absurd h (lt_irrefl 0))
  | cons c cs =>
    have hpos : 0 < (c :: cs).length := Nat.succ_pos _
    cases ho : sc.send i with
    | ok => simp [forwarded, out_true, ho, Silent, ReplyEvent.Quiet]
    | fail m => simp [forwarded, out_true, ho, Silent, ReplyEvent.Quiet]

lemma quiet_outputs_closed (hwr : p.wr = sc.cfd) : ∀ e ∈ sc.outputs k p i, e.Quiet := by
  have quiet_closed : decide (p.wr ≠ sc.cfd) = false := by simp [hwr]
  rw [outputs, quiet_closed]
  cases chunksOf (sc.reads k) with
  | nil => exact List.forall_mem_nil _
  | cons c cs => simp [forwarded, out_false, ReplyEvent.Quiet]

/-- A send that writes nothing is the last of its stage. -/
lemma length_outputs (hwr : p.wr ≠ sc.cfd) (h : 0 < sc.chunks k → sc.Silent i) :
    (sc.outputs k p i).length = min (sc.chunks k) 1 := by
  rw [chunks] at h ⊢
  rw [outputs, decide_eq_true hwr]
  cases hcs : chunksOf (sc.reads k) with
  | nil => rfl
  | cons c cs =>
    rw [hcs] at h
    have ho : sc.send i = .fail 0 := h (Nat.succ_pos _)
    simp [forwarded, out_true, ho]

/-- The events of the binary's run are quiet when no child is started and no send writes. -/
lemma quiet_binaryLog :
    (∀ e ∈ sc.binaryLog k i, e.Quiet) ↔
      sc.fork k < 0 ∧ sc.RunSilent (sc.pipe 1) i (sc.chunks k) := by
  simp only [binaryLog, stage, List.forall_mem_append, List.forall_mem_singleton, quiet_forkEvents,
    quiet_done, iff_true_intro (quiet_closeEvents sc _), and_true, and_assoc]
  apply and_congr_right
  intro _
  by_cases hwr : (sc.pipe 1).wr = sc.cfd
  · exact iff_of_true ⟨quiet_outputs_closed sc hwr, Or.inl hwr⟩ (Or.inl hwr)
  · rw [RunSilent, quiet_outputs sc hwr]
    constructor
    · rintro ⟨hfirst, hwr' | hdone⟩
      · exact absurd hwr' hwr
      · rw [length_outputs sc hwr hfirst] at hdone
        exact Or.inr ⟨hfirst, hdone⟩
    · rintro (hwr' | ⟨hfirst, hdone⟩)
      · exact absurd hwr' hwr
      · rw [length_outputs sc hwr hfirst]
        exact ⟨hfirst, Or.inr hdone⟩

/-- A stage loses none of its sends and what follows counts, or it loses one and what follows is
to be quiet. -/
lemma stage_cases (k i : ℕ) (hwr : p.wr ≠ sc.cfd) :
    ((∀ j, i ≤ j → j < i + sc.chunks k → sc.send j = .ok) ∧
      (sc.outputs k p i).length = sc.chunks k ∧
      ∀ fs, Stops (sc.stage k p i ++ fs) ↔ Stops fs) ∨
    ∃ m, sc.LostAt i (sc.chunks k) m ∧ i + (sc.outputs k p i).length = m + 1 ∧
      ∀ fs, Stops (sc.stage k p i ++ fs) ↔ ∀ e ∈ fs, e.Quiet := by
  have hout : sc.outputs k p i = forwarded (sc.out true) i (chunksOf (sc.reads k)) := by
    rw [outputs, decide_eq_true hwr]
  have hhead : NothingLost (sc.forkEvents k ++ sc.closeEvents p.wr) :=
    (nothingLost_forkEvents sc k).append (nothingLost_closeEvents sc p.wr)
  rcases forwarded_cases (sc.out true) i (chunksOf (sc.reads k)) with
    ⟨hall, heq⟩ | ⟨m, c, b, him, hlt, hfail, hall, heq⟩
  · left
    rw [← hout] at heq
    refine ⟨hall, ?_, fun fs => ?_⟩
    · rw [heq, List.length_map, chunks]
    · rw [stage, heq]
      apply stops_append
      exact (hhead.append (nothingLost_frames _)).append (nothingLost_closeEvents sc p.rd)
  · right
    rw [← hout] at heq
    have hok : sc.send m ≠ .ok := by
      intro h
      rw [out_true, h] at hfail
      cases hfail
    refine ⟨m, ⟨him, hlt, hok, hall⟩, ?_, fun fs => ?_⟩
    · rw [heq, List.length_append, List.length_map, List.length_take, List.length_singleton]
      omega
    · have hfront : NothingLost (sc.forkEvents k ++ sc.closeEvents p.wr ++
          ((chunksOf (sc.reads k)).take (m - i)).map (.frame msgOutput)) :=
        hhead.append (nothingLost_frames _)
      have hsplit : sc.stage k p i ++ fs = sc.forkEvents k ++ sc.closeEvents p.wr ++
          ((chunksOf (sc.reads k)).take (m - i)).map (.frame msgOutput) ++
            .lost msgOutput c b :: (sc.closeEvents p.rd ++ fs) := by
        simp only [stage, heq, List.append_assoc, List.cons_append, List.nil_append]
      rw [hsplit, stops_append hfront, Stops, List.forall_mem_append]
      exact and_iff_right (quiet_closeEvents sc p.rd)

lemma stops_done (k : ℕ) (p : PipeRet) (i : ℕ) : Stops [sc.done k p i, .close] := by
  rw [done]
  cases sc.out (decide (p.wr ≠ sc.cfd) && decide (p.rd ≠ sc.cfd)) i with
  | ok => trivial
  | fail n => exact quiet_close

/-- The binary's run as the last stage. -/
lemma stops_binaryLog :
    Stops (sc.binaryLog k i ++ [.close]) ↔ sc.RunStops (sc.pipe 1) i (sc.chunks k) := by
  by_cases hwr : (sc.pipe 1).wr = sc.cfd
  · have hhead : NothingLost (sc.forkEvents k) := nothingLost_forkEvents sc k
    simp only [binaryLog, stage, List.append_assoc]
    rw [stops_append hhead]
    refine iff_of_true (stops_of_quiet ?_) (Or.inl hwr)
    simp only [List.forall_mem_append, List.forall_mem_singleton, quiet_done]
    exact ⟨quiet_closeEvents sc _, quiet_outputs_closed sc hwr, quiet_closeEvents sc _, Or.inl hwr,
      trivial⟩
  · rw [binaryLog, List.append_assoc]
    rcases stage_cases sc k i hwr with ⟨hall, -, hstops⟩ | ⟨m, hlost, hlen, hstops⟩
    · rw [hstops]
      refine iff_of_true ?_ (Or.inr (Or.inr fun m hm => ?_))
      · exact stops_done sc k (sc.pipe 1) _
      · exact absurd (hall m hm.1 hm.2.1) hm.2.2.1
    · rw [hstops, hlen, List.forall_mem_append, and_iff_left quiet_close, List.forall_mem_singleton,
        quiet_done, RunStops]
      apply or_congr_right
      apply or_congr_right
      constructor
      · intro h m' hm'
        rwa [← hlost.unique hm']
      · intro h
        exact h m hlost

end Quiet

/-- The whole handler stops with the first failed send exactly under the conditions. -/
lemma stops_log_iff : Stops sc.log ↔ sc.StopsWhen := by
  rw [log, StopsWhen, taskLog]
  by_cases hf : sc.fopen.isSome
  · rw [if_pos hf, imp_iff_right hf]
    by_cases hret : (sc.pipe 0).ret = 0
    · rw [if_pos hret, if_pos hret, List.append_assoc]
      obtain ⟨hrd, hwr⟩ := sc.apart 0 hret
      rcases stage_cases sc 0 0 hwr with ⟨hall, hlen, hstops⟩ | ⟨m, hlost, hlen, hstops⟩
      · rw [hstops, compileSends, hlen]
        have hnone : ∀ k, sc.LostAt 0 (sc.chunks 0) k → sc.CompileStops k :=
          fun k hk => absurd (hall k hk.1 hk.2.1) hk.2.2.1
        have hall' : ∀ j, j < sc.chunks 0 → sc.send j = .ok :=
          fun j hj => hall j (Nat.zero_le j) ((Nat.zero_add _).symm ▸ hj)
        rw [and_iff_right hnone, imp_iff_right hall']
        by_cases hexit : childExit (sc.status 0) ≠ 0
        · rw [if_pos hexit]
          exact iff_of_true (stops_done sc 0 (sc.pipe 0) _) (fun h => absurd h hexit)
        · rw [if_neg hexit, imp_iff_right (not_not.mp hexit)]
          exact stops_binaryLog sc
      · rw [hstops, compileSends, ← Nat.zero_add (sc.outputs 0 (sc.pipe 0) 0).length, hlen,
          List.forall_mem_append, and_iff_left quiet_close]
        have hsome : ¬ ∀ j, j < sc.chunks 0 → sc.send j = .ok :=
          fun h => hlost.2.2.1 (h m (Nat.zero_add (sc.chunks 0) ▸ hlost.2.1))
        have hthis : (∀ k, sc.LostAt 0 (sc.chunks 0) k → sc.CompileStops k) ↔
            sc.CompileStops m :=
          ⟨fun h => h m hlost, fun h k hk => hlost.unique hk ▸ h⟩
        rw [and_iff_left (fun h => absurd h hsome), hthis, CompileStops]
        by_cases hexit : childExit (sc.status 0) ≠ 0
        · rw [if_pos hexit, if_pos hexit, List.forall_mem_singleton, quiet_done]
          simp only [hwr, hrd, false_or]
        · rw [if_neg hexit, if_neg hexit]
          exact quiet_binaryLog sc
    · rw [if_neg hret, if_neg hret]
      exact stops_binaryLog sc
  · rw [if_neg hf]
    exact iff_of_true trivial (fun h => absurd h hf)

end TaskScript

/-- The handler stops with the first failed send exactly under the conditions `StopsWhen`. -/
theorem stops_iff_stopsWhen (sc : TaskScript) (rounds : ℕ) (ca : ConnArgs)
    (hfd : ca.client_fd = sc.cfd) (h₀ : (sc.reads 0).length < rounds)
    (h₁ : (sc.reads 1).length < rounds) :
    ∃ s, (handleConnection rounds ca).run sc.handle {} = some ((), s) ∧
      (Stops s.log ↔ sc.StopsWhen) := by
  obtain ⟨s, hrun, hlog⟩ := sc.does_handleConnection rounds ca hfd h₀ h₁
  have hlog : s.log = sc.log := hlog
  refine ⟨s, hrun, ?_⟩
  rw [hlog]
  exact sc.stops_log_iff

/-- The compiler's output arrives, a chunk of the program's output breaks off after 3 bytes, and the
final message finds the connection broken. -/
def cutTask : TaskScript :=
  smallTask (some 1) (fun _ => [.data [7]]) fun k => [.ok, .fail 3].getD k (.fail 0)

theorem stops_iff_stopsWhen_small :
    ∃ s, (handleConnection 2 ⟨32, 4⟩).run cutTask.handle {} = some ((), s) ∧
      .lost msgOutput [7] 3 ∈ s.log ∧ (Stops s.log ↔ cutTask.StopsWhen) := by
  obtain ⟨s, hrun, hstops⟩ := stops_iff_stopsWhen cutTask 2 ⟨32, 4⟩ rfl (by decide) (by decide)
  obtain ⟨s', hrun', hlog⟩ := cutTask.does_handleConnection 2 ⟨32, 4⟩ rfl (by decide) (by decide)
  obtain rfl : s = s' := congrArg Prod.snd (Option.some.inj (hrun.symm.trans hrun'))
  have hlog : s.log = [.fork, .frame msgOutput [7], .fork, .lost msgOutput [7] 3,
    .lost msgTaskDone (donePayload 0) 0, .close] := hlog
  refine ⟨s, hrun, ?_, hstops⟩
  rw [hlog]
  simp

/-- The client is lost at the first chunk of the compiler's output, and no later send writes
anything; the compiler has ended well by itself, and the binary is started. -/
theorem not_stops :
    ∃ s, (handleConnection 2 ⟨32, 4⟩).run (smallTask (some 1) (fun _ => [.data [7]])
      fun _ => .fail 0).handle {} = some ((), s) ∧ ¬ Stops s.log := by
  obtain ⟨s, hrun, hlog⟩ := (smallTask (some 1) (fun _ => [.data [7]])
    fun _ => .fail 0).does_handleConnection 2 ⟨32, 4⟩ rfl (by decide) (by decide)
  have hlog : s.log = [.fork, .lost msgOutput [7] 0, .fork, .lost msgOutput [7] 0,
    .lost msgTaskDone (donePayload 0) 0, .close] := hlog
  refine ⟨s, hrun, ?_⟩
  rw [hlog]
  intro hstops
  exact hstops .fork List.mem_cons_self

end P2PNode
