import P2PNode.Dispatch.Fidelity

/-!
# The exit code at the dispatcher

What `receive_output` returns and prints for an arbitrary stream from the side of the worker. The
stream is read as the whole frames at its front, up to the first `MSG_TASK_DONE`.
-/

namespace P2PNode

open Effect

/-! ### What a stream says -/

/-- The whole frames of `s` before the end of the task, and the `MSG_TASK_DONE` frame if the stream
reaches one. -/
inductive Conversation : Bytes → List WireMsg → Option WireMsg → Prop where
  | done {s rest : Bytes} {m : WireMsg} (h : unframe s = some (m, rest))
      (ht : m.type = msgTaskDone) : Conversation s [] (some m)
  | next {s rest : Bytes} {m : WireMsg} {ms : List WireMsg} {last : Option WireMsg}
      (h : unframe s = some (m, rest)) (ht : m.type ≠ msgTaskDone)
      (hc : Conversation rest ms last) : Conversation s (m :: ms) last
  | cut {s : Bytes} (h : unframe s = none) : Conversation s [] none

lemma unframe_length {s rest : Bytes} {m : WireMsg} (h : unframe s = some (m, rest)) :
    rest.length < s.length := by
  have hrest := (recvResult_of_unframe 0 {} h).2.2
  rw [unframe] at h
  split at h
  · rename_i hf
    have h8 : 8 ≤ s.length := hf.1
    rw [hrest, List.length_drop, headerSize]
    omega
  · cases h

/-- Every stream is read in exactly one way. -/
theorem Conversation.unique {s : Bytes} {ms ms' : List WireMsg} {last last' : Option WireMsg}
    (h : Conversation s ms last) (h' : Conversation s ms' last') : ms = ms' ∧ last = last' := by
  induction h generalizing ms' with
  | done h ht =>
    cases h' with
    | done h₂ ht₂ => simp_all
    | next h₂ ht₂ hc₂ => simp_all
    | cut h₂ => simp_all
  | next h ht hc ih =>
    cases h' with
    | done h₂ ht₂ => simp_all
    | next h₂ ht₂ hc₂ =>
      obtain ⟨rfl, rfl⟩ : _ ∧ _ := by simpa using h.symm.trans h₂
      obtain ⟨rfl, rfl⟩ := ih hc₂
      exact ⟨rfl, rfl⟩
    | cut h₂ => simp_all
  | cut h =>
    cases h' with
    | done h₂ ht₂ => simp_all
    | next h₂ ht₂ hc₂ => simp_all
    | cut h₂ => exact ⟨rfl, rfl⟩

/-- The payloads of the `MSG_OUTPUT` frames, one after the other. -/
def outputOf (ms : List WireMsg) : Bytes :=
  (ms.filter fun m => m.type = msgOutput).flatMap WireMsg.payload

lemma outputOf_cons (m : WireMsg) (ms : List WireMsg) :
    outputOf (m :: ms) = outputOf [m] ++ outputOf ms := by
  by_cases hm : m.type = msgOutput
  · simp [outputOf, hm]
  · simp [outputOf, hm]

/-- The exit code that a stream carries: the number in the first four bytes of its `MSG_TASK_DONE`
frame, and -1 when there is no such number. -/
def carriedExit : Option WireMsg → ℤ
  | none   => -1
  | some m => if 4 ≤ m.payload.length then toInt32 (ofBe (m.payload.take 4)) else -1

/-- The value `ret` and the printed bytes `out` are what the stream `s` says. -/
def Honest (s : Bytes) (ret : ℤ) (out : Bytes) : Prop :=
  ∃ ms last, Conversation s ms last ∧ ret = carriedExit last ∧ out = outputOf ms

/-- If the stream reaches a `MSG_TASK_DONE` frame, an exit code fits into its payload. -/
def DoneHasCode (s : Bytes) : Prop :=
  ∀ ms m, Conversation s ms (some m) → 4 ≤ m.payload.length

/-! ### What `receive_output` makes of it -/

/-- The value that `receive_output` returns. -/
def returnedExit : Option WireMsg → ℤ
  | none   => -1
  | some m => if 4 ≤ m.payload.length then toInt32 (ofBe (m.payload.take 4)) else 0

lemma doneExitCode_of_carries {out : MsgOut} {m : WireMsg} (h : out.Carries m) :
    doneExitCode out = returnedExit (some m) := by
  rw [doneExitCode, h.len, h.bytes]
  rfl

lemma returnedExit_eq_carriedExit {last : Option WireMsg} :
    returnedExit last = carriedExit last ↔ ∀ m, last = some m → 4 ≤ m.payload.length := by
  cases last with
  | none => simp [returnedExit, carriedExit]
  | some m =>
    by_cases h4 : 4 ≤ m.payload.length
    · simp [returnedExit, carriedExit, h4]
    · simp [returnedExit, carriedExit, h4]

namespace Client

/-- Over every stream and every schedule, `receive_output` prints the output frames and returns
what it makes of the last frame, unless the schedule ends first. -/
lemma run_receiveOutput_any (rounds : ℕ) (s : Client) :
    ((receiveOutput rounds s.fd).run handle s = none ∧ (s.inb.pending.length < rounds →
        s.inb.sched.countP RecvEvent.moves ≤ s.inb.pending.length)) ∨
      ∃ ms last s', Conversation s.inb.pending ms last ∧
        (receiveOutput rounds s.fd).run handle s = some (returnedExit last, s') ∧
        s'.stdout = s.stdout ++ outputOf ms := by
  induction rounds generalizing s with
  | zero => exact .inl ⟨rfl, fun h => absurd h (Nat.not_lt_zero _)⟩
  | succ rounds ih =>
    have hrecv : handle (.recvMsg s.fd) s = s.receive := by simp [handle]
    cases hun : unframe s.inb.pending with
    | none =>
      rcases receive_unframe_none hun with ⟨h, hb⟩ | ⟨out, inb', h⟩
      · refine .inl ⟨?_, fun _ => hb⟩
        simp [receiveOutput, DispCall.doRecvMsg, hrecv, h]
      · refine .inr ⟨[], none, { s with inb := inb' }, .cut hun, ?_, by simp [outputOf]⟩
        simp [receiveOutput, DispCall.doRecvMsg, h, DispCall.doFree, handle, returnedExit]
    | some x =>
      obtain ⟨m, rest⟩ := x
      rcases receive_unframe hun with ⟨h, hb⟩ | ⟨out, inb', h, hcar, hrest, hmoves⟩
      · refine .inl ⟨?_, fun _ => hb⟩
        simp [receiveOutput, DispCall.doRecvMsg, hrecv, h]
      · have htype : out.type = some m.type := hcar.type
        have hlt := unframe_length hun
        by_cases hdone : m.type = msgTaskDone
        · refine .inr ⟨[], some m, { s with inb := inb' }, .done hun hdone, ?_, by simp [outputOf]⟩
          simp [receiveOutput, DispCall.doRecvMsg, h, htype, hdone, msgTaskDone, msgOutput,
            DispCall.doFree, handle, doneExitCode_of_carries hcar]
        · -- any other frame: it is printed or dropped, and the loop goes on behind it
          obtain ⟨t, ht⟩ : ∃ t : Client, t = { s with
            inb := inb', stdout := s.stdout ++ outputOf [m] } := ⟨_, rfl⟩
          have hstep : (receiveOutput (rounds + 1) s.fd).run handle s =
              (receiveOutput rounds t.fd).run handle t := by
            rw [ht]
            by_cases hout : m.type = msgOutput
            · simp [receiveOutput, DispCall.doRecvMsg, h, htype, hout, DispCall.doFwriteStdout,
                DispCall.doFree, handle, hcar.bytes, outputOf]
            · simp [receiveOutput, DispCall.doRecvMsg, h, htype, hout, hdone, DispCall.doFree,
                handle, outputOf]
          have hpend : t.inb.pending = rest := by rw [ht, hrest]
          have hsched : t.inb.sched = inb'.sched := by rw [ht]
          rw [hstep]
          rcases ih t with ⟨hn, hb⟩ | ⟨ms, last, s', hc, hr, hstd⟩
          · refine .inl ⟨hn, fun hr => ?_⟩
            have := hb (by rw [hpend]; omega)
            rw [hpend, hsched] at this
            rw [hrest] at hmoves
            omega
          · refine .inr ⟨m :: ms, last, s', .next hun hdone (hpend ▸ hc), hr, ?_⟩
            rw [hstd, ht, List.append_assoc, outputOf_cons m ms]

/-! ### No invented success -/

/-- **The exit code is the worker's exactly when it fits.** Over every stream and every schedule
`receive_output` returns once the schedule is long enough. What it returns and prints is what the
stream says if and only if a `MSG_TASK_DONE` frame that the stream reaches has room for an exit
code. -/
theorem receive_output_honest_iff (s : Client) :
    (∀ rounds, s.inb.pending.length < rounds →
      s.inb.pending.length < s.inb.sched.countP RecvEvent.moves →
      ((receiveOutput rounds s.fd).run handle s).isSome) ∧
    ∀ rounds ret s', (receiveOutput rounds s.fd).run handle s = some (ret, s') →
      ∃ out, s'.stdout = s.stdout ++ out ∧
        (Honest s.inb.pending ret out ↔ DoneHasCode s.inb.pending) := by
  constructor
  · intro rounds hr hm
    rcases run_receiveOutput_any rounds s with ⟨-, hb⟩ | ⟨ms, last, s', -, h, -⟩
    · have := hb hr
      omega
    · rw [h]
      rfl
  · intro rounds ret s' hrun
    rcases run_receiveOutput_any rounds s with ⟨hn, -⟩ | ⟨ms, last, t, hc, h, hout⟩
    · exact absurd (hn.symm.trans hrun) (by simp)
    · obtain ⟨rfl, rfl⟩ : returnedExit last = ret ∧ t = s' := by simpa using h.symm.trans hrun
      refine ⟨outputOf ms, hout, ?_, ?_⟩
      · rintro ⟨ms', last', hc', hret, -⟩ ms₂ m hm
        obtain ⟨-, rfl⟩ := hc.unique hc'
        obtain ⟨-, rfl⟩ := hc.unique hm
        exact returnedExit_eq_carriedExit.1 hret m rfl
      · intro hcode
        refine ⟨ms, last, hc, returnedExit_eq_carriedExit.2 fun m hm => ?_, rfl⟩
        exact hcode ms m (hm ▸ hc)

/-- An output frame, a frame of another type, and an exit code of -2 with a byte behind it. -/
theorem receive_output_honest_negative :
    let s : Client := {
      fd := 3, conn := { sched := [] }
      inb := {
        sched := .intr :: List.replicate 40 (.deliver 2)
        pending := frame msgOutput [104] ++ frame msgHello [] ++
          frame msgTaskDone [255, 255, 255, 254, 9] } }
    ∃ ret s', (receiveOutput 40 3).run handle s = some (ret, s') ∧
      ∃ out, s'.stdout = s.stdout ++ out ∧
        (Honest s.inb.pending ret out ↔ DoneHasCode s.inb.pending) := by
  intro s
  obtain ⟨hret, hall⟩ := receive_output_honest_iff s
  obtain ⟨⟨ret, s'⟩, hrun⟩ := Option.isSome_iff_exists.mp (hret 40 (by decide) (by decide))
  exact ⟨ret, s', hrun, hall 40 ret s' hrun⟩

/-- A `MSG_TASK_DONE` frame without a payload is reported as exit code 0. -/
theorem receive_output_invents_success :
    let s : Client := {
      fd := 3, conn := { sched := [] }
      inb := { sched := List.replicate 9 (.deliver 0), pending := frame msgTaskDone [] ++ [] } }
    ∃ s', (receiveOutput 9 3).run handle s = some (0, s') ∧
      ∀ out, ¬ Honest s.inb.pending 0 out := by
  intro s
  have hdone : Conversation s.inb.pending [] (some ⟨msgTaskDone, [], by decide⟩) := 
    .done (unframe_frame ⟨msgTaskDone, [], by decide⟩ []) rfl
  rcases run_receiveOutput_any 9 s with ⟨-, hb⟩ | ⟨ms, last, s', hc, hrun, -⟩
  · exact absurd (hb (by decide)) (by decide)
  · obtain ⟨-, rfl⟩ := hdone.unique hc
    refine ⟨s', hrun, ?_⟩
    rintro out ⟨ms', last', hc', hret, -⟩
    obtain ⟨-, rfl⟩ := hdone.unique hc'
    simp [carriedExit] at hret

end Client
end P2PNode
