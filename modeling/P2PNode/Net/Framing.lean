import P2PNode.Lib.SelfDelimiting
import P2PNode.Net.Sending
import P2PNode.Net.Receiving

/-!
# Message sequences over one connection

The frames of `send_msg` form a self-delimiting code, and `recv_msg` is its decoder under every
schedule. A sequence of messages therefore arrives as the messages whose frame came through whole,
wherever the connection is cut.
-/

namespace P2PNode

open Effect SelfDelimiting

/-- A message that `recv_msg` is ready to take. -/
structure WireMsg where
  type : MsgType
  payload : Bytes
  le : payload.length ≤ maxPayload

lemma maxPayload_lt : maxPayload < 2 ^ 32 := by decide

/-- The stream `s` starts with a whole frame that is not too long. -/
def FrontFrame (s : Bytes) : Prop :=
  headerSize ≤ s.length ∧ headerLen (s.take headerSize) ≤ maxPayload ∧
    headerSize + headerLen (s.take headerSize) ≤ s.length

instance (s : Bytes) : Decidable (FrontFrame s) := inferInstanceAs (Decidable (_ ∧ _ ∧ _))

/-- Take one frame off the front of a stream. -/
def unframe (s : Bytes) : Option (WireMsg × Bytes) :=
  if h : FrontFrame s then
    some (⟨headerType (s.take headerSize),
        (s.drop headerSize).take (headerLen (s.take headerSize)), by
          rw [List.length_take]
          exact (Nat.min_le_left _ _).trans h.2.1⟩,
      s.drop (headerSize + headerLen (s.take headerSize)))
  else none

private lemma take_frame (type : MsgType) (payload s : Bytes) {k : ℕ} (hk : headerSize ≤ k) :
    ((frame type payload ++ s).take k).take headerSize =
      MsgHeader.bytes { type := type, payload_len := payload.length } := by
  rw [List.take_take, Nat.min_eq_left hk, frame, List.append_assoc]
  exact List.take_left' (MsgHeader.length_bytes _)

private lemma take_frame' (type : MsgType) (payload s : Bytes) :
    (frame type payload ++ s).take headerSize =
      MsgHeader.bytes { type := type, payload_len := payload.length } := by
  rw [frame, List.append_assoc]
  exact List.take_left' (MsgHeader.length_bytes _)

private lemma headerLen_frame (type : MsgType) {payload : Bytes} (h : payload.length < 2 ^ 32) :
    headerLen (MsgHeader.bytes { type := type, payload_len := payload.length }) =
      payload.length := by
  simpa using headerLen_bytes (h := { type := type, payload_len := payload.length }) h []

lemma unframe_frame (m : WireMsg) (s : Bytes) :
    unframe (frame m.type m.payload ++ s) = some (m, s) := by
  obtain ⟨type, payload, hle⟩ := m
  have hlen := headerLen_frame type (hle.trans_lt maxPayload_lt)
  have hfront : FrontFrame (frame type payload ++ s) := by
    refine ⟨?_, ?_, ?_⟩
    · rw [List.length_append, length_frame]
      omega
    · rw [take_frame', hlen]
      exact hle
    · rw [take_frame', hlen]
      simp
  rw [unframe, dif_pos hfront]
  simp only [Option.some.injEq, Prod.mk.injEq, WireMsg.mk.injEq, take_frame', hlen]
  refine ⟨⟨rfl, ?_⟩, ?_⟩
  · rw [frame, List.append_assoc, List.drop_left' (MsgHeader.length_bytes _), List.take_left]
  · exact List.drop_left' (by simp)

lemma unframe_cut {m : WireMsg} {s : Bytes} (hs : s <+: frame m.type m.payload)
    (hne : s ≠ frame m.type m.payload) : unframe s = none := by
  obtain ⟨type, payload, hle⟩ := m
  rw [unframe, dif_neg]
  rintro ⟨h8, -, hwhole⟩
  have htake : s = (frame type payload).take s.length := List.prefix_iff_eq_take.mp hs
  have hhdr : s.take headerSize =
      MsgHeader.bytes { type := type, payload_len := payload.length } := by
    rw [htake]
    simpa using take_frame type payload [] h8
  rw [hhdr, headerLen_frame type (hle.trans_lt maxPayload_lt)] at hwhole
  exact hne (hs.eq_of_length_le (by simpa using hwhole))

/-- The framing of `send_msg` as a self-delimiting code. -/
def frameCode : Code WireMsg UInt8 where
  enc m := frame m.type m.payload
  dec := unframe
  dec_enc := unframe_frame
  dec_cut _ _ := unframe_cut
  dec_nil := rfl

/-- The frames of a sequence of messages, one after the other. -/
def frames (ms : List WireMsg) : Bytes := frameCode.encAll ms

/-! ### Sending a sequence -/

/-- Successive calls of `send_msg`, with what they return. -/
def sendEach (rounds : ℕ) (fd : Fd) : List WireMsg → NetProg (List ℤ)
  | [] => return []
  | m :: ms => do
    let r ← sendMsg rounds fd m.type (some m.payload) m.payload.length
    let rs ← sendEach rounds fd ms
    return r :: rs

lemma run_sendEach (rounds : ℕ) (fd : Fd) (ms : List WireMsg) (o : Outbound) (ho : o.Reliable) :
    ((sendEach rounds fd ms).run Outbound.handle o = none ∧ o.Starved rounds (frames ms).length) ∨
      ∃ o', (sendEach rounds fd ms).run Outbound.handle o = some (ms.map fun _ => 0, o') ∧
        o.Sent (frames ms) o' := by
  induction ms generalizing o with
  | nil => exact .inr ⟨o, rfl, .refl o⟩
  | cons m ms ih =>
    have hcons : frames (m :: ms) = frame m.type m.payload ++ frames ms :=
      frameCode.encAll_cons m ms
    rw [hcons]
    rcases run_sendMsg rounds fd m.type m.payload o ho with ⟨h, hst⟩ | ⟨o₁, h, hs⟩
    · refine .inl ⟨by simp [sendEach, h], fun hr => ?_⟩
      have := hst hr
      rw [List.length_append]
      omega
    · rcases ih o₁ (hs.reliable ho) with ⟨h', hst⟩ | ⟨o₂, h', hs'⟩
      · refine .inl ⟨by simp [sendEach, h, h'], ?_⟩
        rw [List.length_append]
        exact hst.of_sent hs
      · exact .inr ⟨o₂, by simp [sendEach, h, h'], hs.trans hs'⟩

/-! ### Receiving a sequence -/

/-- The output variables of `recv_msg` hold the message: its type, its length, and a block with its
bytes and a `NUL` (no block for an empty payload). -/
structure MsgOut.Carries (out : MsgOut) (m : WireMsg) : Prop where
  type : out.type = some m.type
  len : out.len = m.payload.length
  payload : out.payload.map Block.bytes = if m.payload = [] then none else some (m.payload ++ [0])

lemma recvResult_of_unframe {s rest : Bytes} {m : WireMsg} (p : Ptr) (out : MsgOut)
    (h : unframe s = some (m, rest)) :
    (recvResult s p out).1 = 0 ∧ (recvResult s p out).2.Carries m ∧
      rest = s.drop (headerSize + (recvResult s p out).2.len) := by
  rw [unframe] at h
  split at h
  · rename_i hf
    obtain ⟨n, hn⟩ : ∃ n, n = headerLen (s.take headerSize) := ⟨_, rfl⟩
    obtain ⟨h8, hmax, hwhole⟩ := hf
    simp only [Option.some.injEq, Prod.mk.injEq, ← hn] at h
    rw [← hn] at hmax hwhole
    obtain ⟨hm, rfl⟩ := h
    have hpay : m.payload = (s.drop headerSize).take n := by rw [← hm]
    have hty : m.type = headerType (s.take headerSize) := by rw [← hm]
    have hlen : m.payload.length = n := by
      rw [hpay, List.length_take, List.length_drop]
      omega
    by_cases hn0 : n = 0
    · have hnil : m.payload = [] := List.eq_nil_of_length_eq_zero (by omega)
      have hres : recvResult s p out = (0, ⟨some m.type, none, 0⟩) := by
        simp [recvResult, h8, ← hn, hn0, hty]
      rw [hres, hn0]
      exact ⟨rfl, ⟨rfl, by simp [hnil], by simp [hnil]⟩, rfl⟩
    · have hne : m.payload ≠ [] := fun h => hn0 (by rw [← hlen, h]; rfl)
      have hres : recvResult s p out =
          (0, ⟨some m.type, some ⟨p, m.payload ++ [0]⟩, n⟩) := by
        simp [recvResult, h8, ← hn, hmax, hwhole, hn0, hty, hpay]
      rw [hres]
      exact ⟨rfl, ⟨rfl, hlen.symm, by simp [hne]⟩, rfl⟩
  · exact absurd h (by simp)

lemma recvResult_of_unframe_none {s : Bytes} {p : Ptr} {out : MsgOut} (h : unframe s = none) :
    (recvResult s p out).1 = -1 := by
  rw [unframe] at h
  split at h
  · exact absurd h (by simp)
  · rename_i hf
    unfold recvResult
    split
    · rename_i h8
      have : ¬ (headerLen (s.take headerSize) ≤ maxPayload ∧
          headerSize + headerLen (s.take headerSize) ≤ s.length) := fun hc => hf ⟨h8, hc⟩
      simp [this]
    · rfl

/-- `n` successive calls of `recv_msg`, with what they return and write. -/
def recvEach (rounds : ℕ) (fd : Fd) : ℕ → NetProg (List (ℤ × MsgOut))
  | 0 => return []
  | n + 1 => do
    let r ← recvMsg rounds fd {}
    let rs ← recvEach rounds fd n
    return r :: rs

lemma run_recvEach_succ (rounds : ℕ) (fd : Fd) (n : ℕ) (i : Inbound) :
    (recvEach rounds fd (n + 1)).run Inbound.handle i =
      ((recvMsg rounds fd {}).run Inbound.handle i).bind fun x =>
        ((recvEach rounds fd n).run Inbound.handle x.2).bind fun y => some (x.1 :: y.1, y.2) := by
  simp [recvEach]

/-- The calls returned exactly the given messages, in order, and then -1. -/
def Delivered (rs : List (ℤ × MsgOut)) (ms : List WireMsg) : Prop :=
  ∃ oks last, rs = oks ++ [last] ∧ last.1 = -1 ∧
    List.Forall₂ (fun r m => r.1 = 0 ∧ r.2.Carries m) oks ms

lemma run_recvEach (rounds : ℕ) (fd : Fd) (ms : List WireMsg) (s : Bytes) (hs : unframe s = none)
    (i : Inbound) (hi : i.pending = frames ms ++ s) :
    ((recvEach rounds fd (ms.length + 1)).run Inbound.handle i = none ∧ i.Blocked rounds) ∨
      ∃ rs i', (recvEach rounds fd (ms.length + 1)).run Inbound.handle i = some (rs, i') ∧
        Delivered rs ms := by
  induction ms generalizing i with
  | nil =>
    rcases run_recvMsg rounds fd {} i with ⟨h, hb⟩ | ⟨i', h, -⟩
    · exact .inl ⟨by simp [recvEach, h], hb⟩
    · refine .inr ⟨[recvResult i.pending i.next {}], i', by simp [recvEach, h], [], _, rfl, ?_,
        .nil⟩
      rw [hi]
      exact recvResult_of_unframe_none hs
  | cons m ms ih =>
    have hcons : frames (m :: ms) = frame m.type m.payload ++ frames ms :=
      frameCode.encAll_cons m ms
    have hun : unframe i.pending = some (m, frames ms ++ s) := by
      rw [hi, hcons, List.append_assoc]
      exact unframe_frame m _
    obtain ⟨h0, hcar, hrest⟩ := recvResult_of_unframe i.next {} hun
    rw [List.length_cons, run_recvEach_succ]
    rcases run_recvMsg rounds fd {} i with ⟨h, hb⟩ | ⟨i₁, h, hr⟩
    · exact .inl ⟨by simp [h], hb⟩
    · have hrec := hr h0
      rcases ih i₁ (by rw [hrec.pending, ← hrest]) with ⟨h', hb⟩ | ⟨rs, i', h', hd⟩
      · refine .inl ⟨by simp [h, h'], fun hlt => ?_⟩
        have := hb (hrec.sched.length_le.trans_lt hlt)
        have := hrec.moves
        omega
      · obtain ⟨oks, last, rfl, hlast, hf⟩ := hd
        refine .inr ⟨_, i', by simp [h, h'],
          recvResult i.pending i.next {} :: oks, last, rfl, hlast, .cons ⟨h0, hcar⟩ hf⟩

/-! ### The whole connection -/

lemma whole_all {ms : List WireMsg} {j : ℕ} (h : frameCode.Whole ms (frames ms).length j) :
    j = ms.length := by
  by_contra hne
  have hlt : j < ms.length := lt_of_le_of_ne h.le hne
  have hnext := h.next hlt
  have hsplit : frames ms = frameCode.encAll (ms.take (j + 1)) ++
      frameCode.encAll (ms.drop (j + 1)) := by
    rw [frames, ← frameCode.encAll_append, List.take_append_drop]
  rw [hsplit, List.length_append] at hnext
  omega

/-- **Framed stream fidelity.** Successive `send_msg` calls over short writes and interruptions put
exactly the frames on the wire. Cut anywhere, the stream gives successive `recv_msg` calls, over
short reads and interruptions, exactly the messages that lie whole before the cut, and then -1. The
calls do return once the schedules are long enough. -/
theorem framed_stream_fidelity (ms : List WireMsg) (fd fd' : Fd) (sched : List SendEvent)
    (hs : SendEvent.err ∉ sched) :
    (∀ rounds, sched.length < rounds → (frames ms).length ≤ sched.countP SendEvent.moves →
      ((sendEach rounds fd ms).run Outbound.handle ⟨sched, []⟩).isSome) ∧
    ∀ rounds rets o, (sendEach rounds fd ms).run Outbound.handle ⟨sched, []⟩ = some (rets, o) →
      rets = ms.map (fun _ => 0) ∧ o.wire = frames ms ∧
      ∀ k ≤ o.wire.length, ∃ j, frameCode.Whole ms k j ∧ (k = o.wire.length → j = ms.length) ∧
        ∀ i : Inbound, i.pending = o.wire.take k →
          (∀ rounds rs i', (recvEach rounds fd' (j + 1)).run Inbound.handle i = some (rs, i') →
            Delivered rs (ms.take j)) ∧
          (∀ rounds, i.sched.length < rounds → k < i.sched.countP RecvEvent.moves →
            ((recvEach rounds fd' (j + 1)).run Inbound.handle i).isSome) := by
  constructor
  · intro rounds hr hm
    rcases run_sendEach rounds fd ms ⟨sched, []⟩ hs with ⟨-, hst⟩ | ⟨o, h, -⟩
    · exact absurd (hst hr) (Nat.not_lt.mpr hm)
    · rw [h]
      rfl
  · intro rounds rets o hrun
    rcases run_sendEach rounds fd ms ⟨sched, []⟩ hs with ⟨h, -⟩ | ⟨o', h, hsent⟩
    · exact absurd (h.symm.trans hrun) (by simp)
    · obtain ⟨hrets, rfl⟩ : (ms.map fun _ => 0) = rets ∧ o' = o := by simpa using h.symm.trans hrun
      have hwire : o'.wire = frames ms := by simpa using hsent.wire
      refine ⟨hrets.symm, hwire, fun k hk => ?_⟩
      obtain ⟨j, s, hw, htake, hdec⟩ := frameCode.exists_cut ms k
      refine ⟨j, hw, fun hkt => whole_all (by rw [← hwire, ← hkt]; exact hw), fun i hi => ?_⟩
      rw [hwire] at hi hk
      have hpend : i.pending = frames (ms.take j) ++ s := by rw [hi, frames, htake]; rfl
      have hj : (ms.take j).length = j := List.length_take_of_le hw.le
      have hruns := fun rounds => run_recvEach rounds fd' (ms.take j) s hdec i hpend
      rw [hj] at hruns
      refine ⟨fun rounds rs i' h => ?_, fun rounds hr hm => ?_⟩
      · rcases hruns rounds with ⟨h', -⟩ | ⟨rs', i'', h', hd⟩
        · exact absurd (h'.symm.trans h) (by simp)
        · obtain ⟨rfl, -⟩ : rs' = rs ∧ i'' = i' := by simpa using h'.symm.trans h
          exact hd
      · rcases hruns rounds with ⟨-, hb⟩ | ⟨rs', i'', h', -⟩
        · have := hb hr
          rw [hi, List.length_take] at this
          omega
        · rw [h']
          rfl

/-- Two messages sent in pieces and cut inside the second header. -/
theorem framed_stream_fidelity_two :
    let ms : List WireMsg := [⟨msgOutput, [104, 105], by decide⟩, ⟨msgTaskDone, [], by decide⟩]
    let sched : List SendEvent := [.accept 2, .intr, .accept 4, .accept 0, .accept 40, .accept 40]
    ∃ o, (sendEach 9 3 ms).run Outbound.handle ⟨sched, []⟩ = some ([0, 0], o) ∧
      ∃ j, frameCode.Whole ms 13 j := by
  intro ms sched
  obtain ⟨o, ho⟩ : ∃ o, (sendEach 9 3 ms).run Outbound.handle ⟨sched, []⟩ = some ([0, 0], o) :=
    ⟨_, rfl⟩
  obtain ⟨-, hwire, hcut⟩ := (framed_stream_fidelity ms 3 4 sched (by decide)).2 9 [0, 0] o ho
  obtain ⟨j, hj, -⟩ := hcut 13 (by rw [hwire]; decide)
  exact ⟨o, ho, j, hj⟩

end P2PNode
