import P2PNode.Net.NetUtils

/-!
# The sending end of a stream connection

`Outbound` is the sending end as the kernel keeps it: the bytes it has taken so far, and how it
will answer the next calls of `send`. Short writes and interruptions may come in any order; a run
is blocked when the schedule is used up.
-/

namespace P2PNode

open Effect

/-- How one call of `send` ends: `accept n` takes up to `n + 1` bytes. -/
inductive SendEvent where
  | intr
  | err
  | accept (n : ℕ)
  deriving DecidableEq

/-- The call is not an interruption. -/
def SendEvent.moves : SendEvent → Bool
  | .intr => false
  | _     => true

structure Outbound where
  sched : List SendEvent
  wire : Bytes := []

/-- The kernel's answers at the sending end. -/
def Outbound.handle : (c : NetCall) → Outbound → Option (c.Ret × Outbound)
  | .send _ buf, o =>
    match o.sched with
    | []             => none
    | .intr :: es    => some (SendRet.intr, { o with sched := es })
    | .err :: es     => some (SendRet.err, { o with sched := es })
    | .accept n :: es =>
      some (SendRet.sent (buf.take (n + 1)).length, ⟨es, o.wire ++ buf.take (n + 1)⟩)
  | .recv _ _, _ => none
  | .malloc _, _ => none
  | .free _, _   => none

/-- The sending end after `bs` went out without an error. -/
structure Outbound.Sent (bs : Bytes) (o o' : Outbound) : Prop where
  wire : o'.wire = o.wire ++ bs
  sched : o'.sched <:+ o.sched
  moves : o.sched.countP SendEvent.moves ≤ o'.sched.countP SendEvent.moves + bs.length

lemma Outbound.Sent.refl (o : Outbound) : o.Sent [] o := ⟨by simp, List.suffix_refl _, by simp⟩

lemma Outbound.Sent.trans {bs bs' : Bytes} {o o' o'' : Outbound} (h : o.Sent bs o')
    (h' : o'.Sent bs' o'') : o.Sent (bs ++ bs') o'' := by
  refine ⟨by rw [h'.wire, h.wire, List.append_assoc], h'.sched.trans h.sched, ?_⟩
  have := h.moves
  have := h'.moves
  simp only [List.length_append]
  omega

/-- No `send` of the schedule fails. -/
def Outbound.Reliable (o : Outbound) : Prop := SendEvent.err ∉ o.sched

lemma Outbound.Sent.reliable {bs : Bytes} {o o' : Outbound} (h : o.Sent bs o')
    (ho : o.Reliable) : o'.Reliable := fun he => ho (h.sched.subset he)

/-- The schedule is too short for `n` bytes (`rounds` being enough for all of it). -/
def Outbound.Starved (o : Outbound) (rounds n : ℕ) : Prop :=
  o.sched.length < rounds → o.sched.countP SendEvent.moves < n

/-- After `bs` went out, what is too short for the rest was too short for the whole. -/
lemma Outbound.Starved.of_sent {bs : Bytes} {o o' : Outbound} {rounds n : ℕ} (hs : o.Sent bs o')
    (h : o'.Starved rounds n) : o.Starved rounds (bs.length + n) := by
  intro hr
  have := h (hs.sched.length_le.trans_lt hr)
  have := hs.moves
  omega

/-- `send_all` sends exactly its buffer, unless the schedule ends first. -/
lemma run_sendAllFrom (rounds : ℕ) (fd : Fd) (buf : Bytes) (sent : ℕ) (o : Outbound)
    (ho : o.Reliable) :
    ((sendAllFrom rounds fd buf sent).run Outbound.handle o = none ∧
        o.Starved rounds (buf.drop sent).length) ∨
      ∃ o', (sendAllFrom rounds fd buf sent).run Outbound.handle o = some (0, o') ∧
        o.Sent (buf.drop sent) o' := by
  induction rounds generalizing sent o with
  | zero => exact .inl ⟨rfl, fun h => absurd h (Nat.not_lt_zero _)⟩
  | succ rounds ih =>
    by_cases hlt : sent < buf.length
    · obtain ⟨sched, wire⟩ := o
      cases sched with
      | nil =>
        refine .inl ⟨by simp [sendAllFrom, hlt, NetCall.doSend, Outbound.handle], fun _ => ?_⟩
        simpa using hlt
      | cons e es =>
        have hes : Outbound.Reliable ⟨es, wire⟩ := fun he => ho (List.mem_cons_of_mem _ he)
        cases e with
        | err => exact absurd (List.mem_cons_self ..) ho
        | intr =>
          have hrun : (sendAllFrom (rounds + 1) fd buf sent).run Outbound.handle
              ⟨.intr :: es, wire⟩ =
                (sendAllFrom rounds fd buf sent).run Outbound.handle ⟨es, wire⟩ := by
            simp [sendAllFrom, hlt, NetCall.doSend, Outbound.handle]
          rw [hrun]
          rcases ih sent ⟨es, wire⟩ hes with ⟨h, hst⟩ | ⟨o', h, hs⟩
          · refine .inl ⟨h, fun hr => ?_⟩
            simpa [SendEvent.moves] using hst (by simpa using hr)
          · exact .inr ⟨o', h, hs.wire, hs.sched.trans (List.suffix_cons _ _), by
              simpa [SendEvent.moves] using hs.moves⟩
        | accept n =>
          -- `m` bytes are taken, at least one and at most all that are left
          obtain ⟨m, hm⟩ : ∃ m, m = ((buf.drop sent).take (n + 1)).length := ⟨_, rfl⟩
          have hpos : m ≠ 0 := by
            rw [hm, List.length_take, List.length_drop]
            omega
          have hrun : (sendAllFrom (rounds + 1) fd buf sent).run Outbound.handle
              ⟨.accept n :: es, wire⟩ = (sendAllFrom rounds fd buf (sent + m)).run
                Outbound.handle ⟨es, wire ++ (buf.drop sent).take (n + 1)⟩ := by
            simp only [sendAllFrom, hlt, if_true, NetCall.doSend, Prog.run_bind, Prog.run_perform,
              Outbound.handle, Option.bind_some, ← hm, hpos, if_false]
          have hsplit : (buf.drop sent).take (n + 1) ++ buf.drop (sent + m) = buf.drop sent := by
            rw [← List.drop_drop, hm, List.length_take]
            by_cases hn : n + 1 ≤ (buf.drop sent).length
            · rw [Nat.min_eq_left hn, List.take_append_drop]
            · rw [Nat.min_eq_right (by omega), List.drop_length, List.append_nil,
                List.take_of_length_le (by omega)]
          have hlen : m + (buf.drop (sent + m)).length = (buf.drop sent).length := by
            rw [← hsplit, List.length_append, ← hm]
          rw [hrun]
          rcases ih (sent + m) ⟨es, wire ++ (buf.drop sent).take (n + 1)⟩ hes with
            ⟨h, hst⟩ | ⟨o', h, hs⟩
          · refine .inl ⟨h, fun hr => ?_⟩
            have := hst (by simpa using hr)
            simp only [List.countP_cons, SendEvent.moves, if_true]
            simp only at this
            omega
          · refine .inr ⟨o', h, ?_, hs.sched.trans (List.suffix_cons _ _), ?_⟩
            · rw [hs.wire, List.append_assoc, hsplit]
            · have := hs.moves
              simp only [List.countP_cons, SendEvent.moves, if_true]
              simp only at this
              omega
    · refine .inr ⟨o, by simp [sendAllFrom, hlt], ?_⟩
      rw [List.drop_eq_nil_of_le (by omega)]
      exact .refl o

lemma run_sendAll (rounds : ℕ) (fd : Fd) (buf : Bytes) (o : Outbound) (ho : o.Reliable) :
    ((sendAll rounds fd buf).run Outbound.handle o = none ∧ o.Starved rounds buf.length) ∨
      ∃ o', (sendAll rounds fd buf).run Outbound.handle o = some (0, o') ∧ o.Sent buf o' := by
  simpa [sendAll] using run_sendAllFrom rounds fd buf 0 o ho

/-- The bytes of one message on the wire. -/
def frame (type : MsgType) (payload : Bytes) : Bytes :=
  MsgHeader.bytes { type := type, payload_len := payload.length } ++ payload

@[simp] lemma length_frame (type : MsgType) (payload : Bytes) :
    (frame type payload).length = headerSize + payload.length := by
  simp [frame]

/-- `send_msg` sends exactly one frame, unless the schedule ends first. -/
theorem run_sendMsg (rounds : ℕ) (fd : Fd) (type : MsgType) (payload : Bytes) (o : Outbound)
    (ho : o.Reliable) :
    ((sendMsg rounds fd type (some payload) payload.length).run Outbound.handle o = none ∧
        o.Starved rounds (frame type payload).length) ∨
      ∃ o', (sendMsg rounds fd type (some payload) payload.length).run Outbound.handle o =
        some (0, o') ∧ o.Sent (frame type payload) o' := by
  obtain ⟨hdr, hh⟩ : ∃ hdr : MsgHeader, hdr = { type := type, payload_len := payload.length } :=
    ⟨_, rfl⟩
  have hf : frame type payload = hdr.bytes ++ payload := by rw [hh, frame]
  rw [hf]
  rcases run_sendAll rounds fd hdr.bytes o ho with ⟨h, hst⟩ | ⟨o₁, h, hs⟩
  · refine .inl ⟨by simp [sendMsg, ← hh, h], fun hr => ?_⟩
    have := hst hr
    rw [List.length_append]
    omega
  · by_cases hp : 0 < payload.length
    · rcases run_sendAll rounds fd payload o₁ (hs.reliable ho) with ⟨h', hst⟩ | ⟨o₂, h', hs'⟩
      · refine .inl ⟨by simp [sendMsg, ← hh, h, h', hp], ?_⟩
        rw [List.length_append]
        exact hst.of_sent hs
      · exact .inr ⟨o₂, by simp [sendMsg, ← hh, h, h', hp], hs.trans hs'⟩
    · have hnil : payload = [] := List.eq_nil_of_length_eq_zero (by omega)
      refine .inr ⟨o₁, by simp [sendMsg, ← hh, h, hp], ?_⟩
      rw [hnil, List.append_nil]
      exact hs

/-- A call of `send_msg` at the sending end. -/
def Outbound.transmit (o : Outbound) (fd : Fd) (type : MsgType) (payload : Bytes) :
    Option (ℤ × Outbound) :=
  (sendMsg (o.sched.length + 1) fd type (some payload) payload.length).run Outbound.handle o

lemma Outbound.transmit_cases {o : Outbound} (ho : o.Reliable) (fd : Fd) (type : MsgType)
    (payload : Bytes) :
    (o.transmit fd type payload = none ∧
        o.sched.countP SendEvent.moves < (frame type payload).length) ∨
      ∃ o', o.transmit fd type payload = some (0, o') ∧ o.Sent (frame type payload) o' := by
  rcases run_sendMsg (o.sched.length + 1) fd type payload o ho with ⟨h, hst⟩ | ⟨o', h, hs⟩
  · exact .inl ⟨h, hst (Nat.lt_succ_self _)⟩
  · exact .inr ⟨o', h, hs⟩

end P2PNode
