import P2PNode.Dispatch.Client
import P2PNode.Net.Framing
import P2PNode.Worker.Output
import Mathlib.Algebra.BigOperators.Group.List.Basic

/-!
# The output of a task at the dispatcher

`receive_output` on the frames of a task prints the output and returns the exit code; together with
what the worker sends this is the way of a run from the pipes to the standard output of the node
that dispatched it.
-/

namespace P2PNode

open Effect

/-! ### Receiving -/

lemma MsgOut.Carries.bytes {out : MsgOut} {m : WireMsg} (h : out.Carries m) :
    out.bytes = m.payload := by
  rw [MsgOut.bytes, h.payload, h.len]
  by_cases hnil : m.payload = []
  · simp [hnil]
  · simp [hnil]

lemma toInt32_of_mem {exit : ℤ} (h0 : 0 ≤ exit) (h1 : exit < 2 ^ 31) :
    toInt32 (exit % 2 ^ 32).toNat = exit := by
  rw [toInt32]
  split
  · omega
  · omega

lemma doneExitCode_eq {out : MsgOut} {exit : ℤ} (hlen : out.len = 4)
    (hb : out.bytes = donePayload exit) (h0 : 0 ≤ exit) (h1 : exit < 2 ^ 31) :
    doneExitCode out = exit := by
  have hmod : (exit % 2 ^ 32).toNat < 2 ^ 32 := by omega
  have htake : out.bytes.take 4 = be32 (exit % 2 ^ 32).toNat := by
    rw [hb, donePayload]
    exact List.take_of_length_le (by simp)
  rw [doneExitCode, if_pos (by omega), htake, ofBe_be32 hmod, toInt32_of_mem h0 h1]

namespace Client

/-- `recv_msg` on a stream with a whole frame at its front: it is blocked, or gives the message. -/
lemma receive_unframe {s : Client} {m : WireMsg} {rest : Bytes}
    (hun : unframe s.inb.pending = some (m, rest)) :
    (s.receive = none ∧ s.inb.sched.countP RecvEvent.moves ≤ s.inb.pending.length) ∨
      ∃ out inb', s.receive = some ((0, out), { s with inb := inb' }) ∧
        out.Carries m ∧ inb'.pending = rest ∧
        s.inb.sched.countP RecvEvent.moves + inb'.pending.length ≤
          inb'.sched.countP RecvEvent.moves + s.inb.pending.length := by
  obtain ⟨h0, hcar, hrest⟩ := recvResult_of_unframe s.inb.next {} hun
  rcases s.inb.receive_cases s.fd with ⟨h, hb⟩ | ⟨inb', h, hr⟩
  · exact .inl ⟨by rw [receive, h]; rfl, hb⟩
  · obtain ⟨out, hout⟩ : ∃ out, recvResult s.inb.pending s.inb.next {} = (0, out) :=
      ⟨_, Prod.ext h0 rfl⟩
    rw [hout] at h hcar hrest hr
    refine .inr ⟨out, inb', by rw [receive, h]; rfl, hcar, ?_, (hr rfl).moves⟩
    rw [(hr rfl).pending, hrest]

/-- `recv_msg` on a stream without a whole frame at its front: it is blocked, or fails. -/
lemma receive_unframe_none {s : Client} (hun : unframe s.inb.pending = none) :
    (s.receive = none ∧ s.inb.sched.countP RecvEvent.moves ≤ s.inb.pending.length) ∨
      ∃ out inb', s.receive = some ((-1, out), { s with inb := inb' }) := by
  rcases s.inb.receive_cases s.fd with ⟨h, hb⟩ | ⟨inb', h, -⟩
  · exact .inl ⟨by rw [receive, h]; rfl, hb⟩
  · obtain ⟨out, hout⟩ : ∃ out, recvResult s.inb.pending s.inb.next {} = (-1, out) :=
      ⟨_, Prod.ext (recvResult_of_unframe_none hun) rfl⟩
    exact .inr ⟨out, inb', by rw [receive, h, hout]; rfl⟩

/-- `recv_msg` on a stream that starts with a frame: it is blocked, or gives the message. -/
lemma receive_frame {s : Client} {type : MsgType} {payload rest : Bytes}
    (hle : payload.length ≤ maxPayload) (hp : s.inb.pending = frame type payload ++ rest) :
    (s.receive = none ∧ s.inb.sched.countP RecvEvent.moves ≤ s.inb.pending.length) ∨
      ∃ out inb', s.receive = some ((0, out), { s with inb := inb' }) ∧
        out.Carries ⟨type, payload, hle⟩ ∧ inb'.pending = rest ∧
        s.inb.sched.countP RecvEvent.moves + inb'.pending.length ≤
          inb'.sched.countP RecvEvent.moves + s.inb.pending.length := by
  apply receive_unframe
  rw [hp]
  exact unframe_frame ⟨type, payload, hle⟩ rest

/-- `receive_output` on the frames of a task prints the output and returns the exit code, unless
the schedule ends first. -/
lemma run_receiveOutput {exit : ℤ} (h0 : 0 ≤ exit) (h1 : exit < 2 ^ 31) (chunks : List Bytes)
    (hc : ∀ c ∈ chunks, c.length ≤ outputBufSize) (rounds : ℕ) (s : Client)
    (hp : s.inb.pending = taskFrames chunks exit) :
    ((receiveOutput rounds s.fd).run handle s = none ∧ (chunks.length < rounds →
        s.inb.sched.countP RecvEvent.moves ≤ s.inb.pending.length)) ∨
      ∃ s', (receiveOutput rounds s.fd).run handle s = some (exit, s') ∧
        s'.stdout = s.stdout ++ chunks.flatten := by
  induction rounds generalizing chunks s with
  | zero => exact .inl ⟨rfl, fun h => absurd h (Nat.not_lt_zero _)⟩
  | succ rounds ih =>
    have hrecv : handle (.recvMsg s.fd) s = s.receive := by simp [handle]
    cases chunks with
    | nil =>
      have hle : (donePayload exit).length ≤ maxPayload := by
        rw [length_donePayload]
        decide
      have hp' : s.inb.pending = frame msgTaskDone (donePayload exit) ++ [] := by
        rw [hp, List.append_nil]
        rfl
      rcases receive_frame hle hp' with ⟨h, hb⟩ | ⟨out, inb', h, hcar, -, -⟩
      · refine .inl ⟨?_, fun _ => hb⟩
        simp [receiveOutput, DispCall.doRecvMsg, hrecv, h]
      · have hcode := doneExitCode_eq (hcar.len.trans (length_donePayload exit)) hcar.bytes h0 h1
        have htype : out.type = some msgTaskDone := hcar.type
        refine .inr ⟨{ s with inb := inb' }, ?_, by simp⟩
        simp [receiveOutput, DispCall.doRecvMsg, h, htype, msgTaskDone, msgOutput,
          DispCall.doFree, handle, hcode]
    | cons c cs =>
      have hle : c.length ≤ maxPayload := (hc c (List.mem_cons_self ..)).trans (by decide)
      have hp' : s.inb.pending = frame msgOutput c ++ taskFrames cs exit := by
        rw [hp, taskFrames, outputFrames, List.flatMap_cons, List.append_assoc]
        rfl
      rcases receive_frame hle hp' with ⟨h, hb⟩ | ⟨out, inb', h, hcar, hrest, hmoves⟩
      · refine .inl ⟨?_, fun _ => hb⟩
        simp [receiveOutput, DispCall.doRecvMsg, hrecv, h]
      · have htype : out.type = some msgOutput := hcar.type
        have hstep : (receiveOutput (rounds + 1) s.fd).run handle s =
            (receiveOutput rounds s.fd).run handle
              { s with inb := inb', stdout := s.stdout ++ c } := by
          simp [receiveOutput, DispCall.doRecvMsg, h, htype, DispCall.doFwriteStdout,
            DispCall.doFree, handle, hcar.bytes]
        rw [hstep]
        rcases ih cs (fun d hd => hc d (List.mem_cons_of_mem _ hd))
          { s with inb := inb', stdout := s.stdout ++ c } hrest with ⟨hn, hb⟩ | ⟨s', hr, hout⟩
        · refine .inl ⟨hn, fun hlt => ?_⟩
          have := hb (by simpa using hlt)
          simp only at this
          omega
        · exact .inr ⟨s', hr, by simp [hout]⟩

end Client

/-! ### From the pipes to the dispatcher -/

/-- **End-to-end fidelity of a run.** When no call of the worker fails, the dispatcher prints
exactly the output of gcc, followed by that of the binary if gcc exited with 0, and returns the
mapped status of the last of the two; and both ends do return once the schedules are long enough. -/
theorem run_fidelity (T : Tools) (name data : Bytes) (h : Host) (hs : h.Smooth data)
    (hw : h.conn.wire = []) :
    let c := T.gcc (some data)
    let r := T.runOf c
    let out := if c.status.mapped ≠ 0 then c.out else c.out ++ r.out
    let exit := if c.status.mapped ≠ 0 then c.status.mapped else r.status.mapped
    (∀ rounds, h.reads.length < rounds → out.length + 2 ≤ h.reads.countP RecvEvent.moves →
      9 * out.length + 12 ≤ h.conn.sched.countP SendEvent.moves →
      ((compileAndStream rounds h.cfd name data).run (Host.handle T) h).isSome) ∧
    ∀ rounds h', (compileAndStream rounds h.cfd name data).run (Host.handle T) h = some ((), h') →
      ∀ s : Client, s.inb.pending = h'.conn.wire →
        (∀ rounds, out.length < rounds →
          h'.conn.wire.length < s.inb.sched.countP RecvEvent.moves →
          ((receiveOutput rounds s.fd).run Client.handle s).isSome) ∧
        ∀ rounds ret s', (receiveOutput rounds s.fd).run Client.handle s = some (ret, s') →
          ret = exit ∧ s'.stdout = s.stdout ++ out := by
  intro c r out exit
  have hout : out = T.output data := rfl
  have hexit : exit = T.exit data := rfl
  obtain ⟨h0, h1⟩ := T.exit_mem data
  rw [hout, hexit]
  constructor
  · intro rounds hr hm hm'
    rcases Host.run_compileAndStream_sent T rounds name data hs with ⟨-, hst⟩ | ⟨_, _, hrun, -⟩
    · rcases hst hr with hst | hst
      · omega
      · omega
    · rw [hrun]
      rfl
  · intro rounds h' hrun s hp
    rcases Host.run_compileAndStream_sent T rounds name data hs with
      ⟨hn, -⟩ | ⟨chunks, k, hk, hsent⟩
    · exact absurd (hn.symm.trans hrun) (by simp)
    · obtain rfl : k = h' := by simpa using hk.symm.trans hrun
      have hwire : k.conn.wire = taskFrames chunks (T.exit data) := by
        rw [hsent.conn.wire, hw, List.nil_append]
      have hlen : chunks.length ≤ (T.output data).length := by
        rw [← hsent.all, List.length_flatten, ← List.length_map (f := List.length)]
        apply List.length_le_sum_of_one_le
        intro n hn
        obtain ⟨c, hc, rfl⟩ := List.mem_map.mp hn
        exact List.length_pos_iff.mpr (hsent.chunk c hc).1
      have hrecv := fun rounds => Client.run_receiveOutput h0 (h1.trans (by decide)) chunks
        (fun c hc => (hsent.chunk c hc).2) rounds s (hp.trans hwire)
      constructor
      · intro rounds hr hm
        rcases hrecv rounds with ⟨-, hb⟩ | ⟨s', hs', -⟩
        · have := hb (hlen.trans_lt hr)
          rw [hp] at this
          omega
        · rw [hs']
          rfl
      · intro rounds ret s' hrun'
        rcases hrecv rounds with ⟨hn, -⟩ | ⟨t, ht, hstd⟩
        · exact absurd (hn.symm.trans hrun') (by simp)
        · obtain ⟨rfl, rfl⟩ : T.exit data = ret ∧ t = s' := by simpa using ht.symm.trans hrun'
          exact ⟨rfl, by rw [hstd, hsent.all]⟩

/-- gcc prints one byte and exits with 0, the binary prints two and is killed by a signal. -/
theorem run_fidelity_signaled :
    let T : Tools := {
      gcc := fun _ => { out := [119], status := .exited 0, bin := some [1], wrote := fun _ => rfl }
      run := fun _ => { out := [104, 105], status := .signaled ⟨11, by decide⟩ true } }
    let h : Host := {
      pid := 1, cfd := 4, fopens := [true], fwrites := [1], pipes := [.ok, .ok]
      forks := [true, true], waits := [⟨true, 0⟩, ⟨true, 0⟩], kills := [], stray := []
      reads := .intr :: List.replicate 5 (.deliver 0)
      conn := { sched := .intr :: List.replicate 39 (.accept 0) }
      inb := { sched := [], pending := [] }, files := fun _ => none }
    ∃ h', (compileAndStream 7 4 [97, 46, 99] [120]).run (Host.handle T) h = some ((), h') ∧
      ∀ (s : Client) (rounds : ℕ) (ret : ℤ) (s' : Client), s.inb.pending = h'.conn.wire →
        (receiveOutput rounds s.fd).run Client.handle s = some (ret, s') →
        ret = 139 ∧ s'.stdout = s.stdout ++ [119, 104, 105] := by
  intro T h
  have hs : h.Smooth [120] := ⟨⟨_, rfl⟩, ⟨1, _, rfl, by decide⟩, ⟨_, rfl⟩, ⟨_, rfl⟩,
    ⟨_, _, _, rfl⟩, rfl, by simp [h], rfl, by simp [h, Outbound.Reliable]⟩
  obtain ⟨hret, hall⟩ := run_fidelity T [97, 46, 99] [120] h hs rfl
  obtain ⟨⟨⟨⟩, h'⟩, hrun⟩ := Option.isSome_iff_exists.mp
    (hret 7 (by decide) (by decide) (by decide))
  exact ⟨h', hrun, fun s rounds ret s' hp hr => (hall 7 h' hrun s hp).2 rounds ret s' hr⟩

end P2PNode
