import P2PNode.Lib.Always
import P2PNode.Net.Framing

/-!
# Inside `send_msg` and `recv_msg`

The two functions as an automaton over single calls of `send` and `recv`: what is still to be sent
of a frame, or what was received of one so far. They obey it whatever the connection does, so that
what is true of the bytes of a connection at any moment can be read off it.
-/

namespace P2PNode

open Effect

/-- Where a thread is in sending a frame or in receiving one. -/
inductive MsgPhase where
  | sending (todo : Bytes)
  | unsent
  | receiving (got : Bytes)
  | unreceived
  | bad

/-- How many bytes `recv_all` is waiting for, after the bytes `got` of a frame. -/
def missing (got : Bytes) : ℕ :=
  if got.length < headerSize then headerSize - got.length
  else headerSize + headerLen got - got.length

lemma headerLen_header_append {hdr : Bytes} (h : hdr.length = headerSize) (s : Bytes) :
    headerLen (hdr ++ s) = headerLen hdr := by
  have hle : 4 ≤ (hdr.drop 2).length := by
    rw [List.length_drop, h]
    decide
  have hle' : 2 ≤ hdr.length := by
    rw [h]
    decide
  rw [headerLen, List.drop_append_of_le_length hle', List.take_append_of_le_length hle, headerLen]

section Whole

variable {type : MsgType} {payload : Bytes} (h : payload.length < 2 ^ 32)
include h

end Whole

namespace MsgPhase

/-- What `send` makes of the bytes to be sent. -/
def afterSend (todo : Bytes) (size : ℕ) : SendRet → Option MsgPhase
  | .intr   => some (.sending todo)
  | .err    => some .unsent
  | .sent n => if 0 < n ∧ n ≤ size then some (.sending (todo.drop n)) else none

/-- What `recv` makes of the bytes received. -/
def afterRecv (got : Bytes) (len : ℕ) : RecvRet → Option MsgPhase
  | .intr         => some (.receiving got)
  | .err          => some .unreceived
  | .data []      => some .unreceived
  | .data (b::bs) => if (b::bs).length ≤ len then some (.receiving (got ++ b::bs)) else none

/-- After a failed `send` no byte is taken any more. -/
def afterUnsent : SendRet → Option MsgPhase
  | .sent _ => none
  | _       => some .unsent

@[simp] def auto (fd : Fd) : Kernel NetCall NetCall.Ret MsgPhase
  | .sending todo, .send fd' buf, r =>
    if fd' = fd ∧ buf ≠ [] ∧ buf <+: todo then afterSend todo buf.length r else some .bad
  | .unsent, .send fd' buf, r =>
    if fd' = fd ∧ buf ≠ [] then afterUnsent r else some .bad
  | .receiving got, .recv fd' len, r =>
    if fd' = fd ∧ 0 < len ∧ len ≤ missing got then afterRecv got len r else some .bad
  | .receiving got, .malloc _, p => some (if p.isSome then .receiving got else .unreceived)
  | .unreceived, .free _, _ => some .unreceived
  | _, _, _ => some .bad

/-- The thread is inside `send_msg`. -/
def Sends : MsgPhase → Prop
  | .sending _ => True
  | .unsent    => True
  | _          => False

/-- The thread is inside `recv_msg`. -/
def Receives : MsgPhase → Prop
  | .receiving _ => True
  | .unreceived  => True
  | _            => False

variable {fd : Fd}

/-- A frame that was sent whole is not sent further. -/
lemma auto_sent (c : NetCall) (r : c.Ret) : auto fd (.sending []) c r = some .bad := by
  cases c with
  | send fd' buf =>
    have hnot : ¬ (fd' = fd ∧ buf ≠ [] ∧ buf <+: []) := fun h => h.2.1 (List.prefix_nil.1 h.2.2)
    simp only [auto, if_neg hnot]
  | _ => rfl

lemma auto_unsent {c : NetCall} {r : c.Ret} {q : MsgPhase} (h : auto fd .unsent c r = some q) :
    q = .unsent ∨ q = .bad := by
  cases c with
  | send fd' buf =>
    simp only [auto] at h
    split at h
    · cases r with
      | sent n => cases h
      | _ =>
        cases h
        exact .inl rfl
    · cases h
      exact .inr rfl
  | _ =>
    cases h
    exact .inr rfl

lemma always_sendAllFrom (rounds : ℕ) (buf rest : Bytes) (sent : ℕ) :
    (sendAllFrom rounds fd buf sent).Always (auto fd) Sends
      (fun r q => (r = 0 ∧ q = .sending rest) ∨ (r = -1 ∧ q = .unsent))
      (.sending (buf.drop sent ++ rest)) := by
  induction rounds generalizing sent with
  | zero => exact trivial
  | succ rounds ih =>
    rw [sendAllFrom]
    by_cases hlt : sent < buf.length
    · rw [if_pos hlt]
      have hok : buf.drop sent ≠ [] ∧ buf.drop sent <+: buf.drop sent ++ rest := by
        refine ⟨?_, List.prefix_append _ _⟩
        rw [ne_eq, List.drop_eq_nil_iff]
        omega
      refine ⟨trivial, fun r q hq => ?_⟩
      simp only [auto, true_and, if_pos hok] at hq
      cases r with
      | intr =>
        cases hq
        exact ih sent
      | err =>
        cases hq
        exact ⟨trivial, .inr ⟨rfl, rfl⟩⟩
      | sent n =>
        simp only [afterSend] at hq
        split at hq
        · rename_i hn
          cases hq
          simp only [Prog.bind, if_neg hn.1.ne']
          rw [List.drop_append_of_le_length hn.2, List.drop_drop]
          exact ih (sent + n)
        · cases hq
    · rw [if_neg hlt, List.drop_eq_nil_of_le (not_lt.1 hlt), List.nil_append]
      exact ⟨trivial, .inl ⟨rfl, rfl⟩⟩

lemma always_sendAll (rounds : ℕ) (buf rest : Bytes) :
    (sendAll rounds fd buf).Always (auto fd) Sends
      (fun r q => (r = 0 ∧ q = .sending rest) ∨ (r = -1 ∧ q = .unsent))
      (.sending (buf ++ rest)) :=
  always_sendAllFrom rounds buf rest 0

lemma always_sendMsg (rounds : ℕ) (type : MsgType) (payload : Bytes) :
    (sendMsg rounds fd type (some payload) payload.length).Always (auto fd) Sends
      (fun r q => (r = 0 ∧ q = .sending []) ∨ (r = -1 ∧ q = .unsent))
      (.sending (frame type payload)) := by
  apply Prog.Always.bind
  apply (always_sendAll rounds _ payload).mono
  rintro r q (⟨rfl, rfl⟩ | ⟨rfl, rfl⟩)
  · simp only [ne_eq, not_true_eq_false, if_false]
    split
    · apply Prog.Always.bind
      rw [List.take_length]
      have hall := @always_sendAll fd rounds payload []
      rw [List.append_nil] at hall
      apply hall.mono
      rintro r q (⟨rfl, rfl⟩ | ⟨rfl, rfl⟩)
      · exact ⟨trivial, .inl ⟨rfl, rfl⟩⟩
      · exact ⟨trivial, .inr ⟨rfl, rfl⟩⟩
    · rename_i hlen
      rw [List.eq_nil_of_length_eq_zero (Nat.eq_zero_of_not_pos hlen)]
      exact ⟨trivial, .inl ⟨rfl, rfl⟩⟩
  · exact ⟨trivial, .inr ⟨rfl, rfl⟩⟩

lemma always_sendAllFrom_unsent (rounds : ℕ) {buf : Bytes} (hbuf : buf ≠ []) :
    (sendAllFrom rounds fd buf 0).Always (auto fd) (· = .unsent) (fun r q => r = -1 ∧ q = .unsent)
      .unsent := by
  induction rounds with
  | zero => exact rfl
  | succ rounds ih =>
    rw [sendAllFrom, if_pos (List.length_pos_iff.2 hbuf)]
    refine ⟨rfl, fun r q hq => ?_⟩
    simp only [auto, List.drop_zero, true_and, if_pos hbuf] at hq
    cases r with
    | intr =>
      cases hq
      exact ih
    | err =>
      cases hq
      exact ⟨rfl, rfl, rfl⟩
    | sent n => cases hq

lemma always_sendMsg_unsent (rounds : ℕ) (type : MsgType) (payload : Option Bytes) (len : ℕ) :
    (sendMsg rounds fd type payload len).Always (auto fd) (· = .unsent)
      (fun r q => r = -1 ∧ q = .unsent) .unsent := by
  apply Prog.Always.bind
  apply (always_sendAllFrom_unsent rounds (List.cons_ne_nil _ _)).mono
  rintro r q ⟨rfl, rfl⟩
  exact ⟨rfl, rfl, rfl⟩

lemma always_recvAllFrom (rounds : ℕ) {before : Bytes} {len : ℕ}
    (hmiss : ∀ got : Bytes, got.length < len → missing (before ++ got) = len - got.length)
    (got : Bytes) (hle : got.length ≤ len) :
    (recvAllFrom rounds fd len got).Always (auto fd) Receives
      (fun r q => (r.1 = 0 ∧ r.2.length = len ∧ q = .receiving (before ++ r.2)) ∨
        (r.1 = -1 ∧ q = .unreceived)) (.receiving (before ++ got)) := by
  induction rounds generalizing got with
  | zero => exact trivial
  | succ rounds ih =>
    rw [recvAllFrom]
    by_cases hlt : got.length < len
    · rw [if_pos hlt]
      have hok : 0 < len - got.length ∧ len - got.length ≤ missing (before ++ got) :=
        ⟨Nat.sub_pos_of_lt hlt, (hmiss got hlt).ge⟩
      refine ⟨trivial, fun r q hq => ?_⟩
      simp only [auto, true_and, if_pos hok] at hq
      cases r with
      | intr =>
        cases hq
        exact ih got hle
      | err =>
        cases hq
        exact ⟨trivial, .inr ⟨rfl, rfl⟩⟩
      | data bs =>
        cases bs with
        | nil =>
          cases hq
          exact ⟨trivial, .inr ⟨rfl, rfl⟩⟩
        | cons b bs =>
          simp only [afterRecv] at hq
          split at hq
          · rename_i hn
            cases hq
            rw [List.append_assoc]
            refine ih (got ++ b :: bs) ?_
            rw [List.length_append]
            omega
          · cases hq
    · rw [if_neg hlt]
      exact ⟨trivial, .inl ⟨rfl, le_antisymm hle (not_lt.1 hlt), rfl⟩⟩

lemma always_recvAll (rounds : ℕ) {before : Bytes} {len : ℕ}
    (hmiss : ∀ got : Bytes, got.length < len → missing (before ++ got) = len - got.length) :
    (recvAll rounds fd len).Always (auto fd) Receives
      (fun r q => (r.1 = 0 ∧ r.2.length = len ∧ q = .receiving (before ++ r.2)) ∨
        (r.1 = -1 ∧ q = .unreceived)) (.receiving before) := by
  have hall := @always_recvAllFrom fd rounds _ _ hmiss [] (Nat.zero_le len)
  rw [List.append_nil] at hall
  exact hall

lemma missing_header (got : Bytes) (h : got.length < headerSize) :
    missing ([] ++ got) = headerSize - got.length := by
  rw [List.nil_append, missing, if_pos h]

lemma missing_payload {hdr : Bytes} (h : hdr.length = headerSize) (got : Bytes) :
    missing (hdr ++ got) = headerLen hdr - got.length := by
  have hnot : ¬ (hdr ++ got).length < headerSize := by
    rw [List.length_append, h]
    omega
  rw [missing, if_neg hnot, headerLen_header_append h, List.length_append, h]
  omega

/-- The bytes are those of one frame that `recv_msg` takes, and `out` is what it makes of them. -/
def Carried (got : Bytes) (out : MsgOut) : Prop :=
  ∃ m, unframe got = some (m, []) ∧ out.Carries m

lemma carried_of_whole {hdr body : Bytes} (hhdr : hdr.length = headerSize)
    (hle : headerLen hdr ≤ maxPayload) (hbody : body.length = headerLen hdr)
    {payload : Option Block}
    (hpayload : payload.map Block.bytes = if body = [] then none else some (body ++ [0])) :
    Carried (hdr ++ body) ⟨some (headerType hdr), payload, headerLen hdr⟩ := by
  have htake : (hdr ++ body).take headerSize = hdr := List.take_left' hhdr
  have hdrop : (hdr ++ body).drop headerSize = body := List.drop_left' hhdr
  have hfront : FrontFrame (hdr ++ body) := by
    refine ⟨?_, ?_, ?_⟩
    · rw [List.length_append, hhdr]
      exact Nat.le_add_right _ _
    · rw [htake]
      exact hle
    · rw [htake, List.length_append, hhdr, hbody]
  have hrest : (hdr ++ body).drop (headerSize + headerLen hdr) = [] := by
    apply List.drop_eq_nil_of_le
    rw [List.length_append, hhdr, hbody]
  refine ⟨⟨headerType hdr, body, hbody.trans_le hle⟩, ?_, rfl, hbody.symm, hpayload⟩
  rw [unframe, dif_pos hfront]
  simp only [htake, hdrop, hrest]
  simp only [← hbody, List.take_length]

/-- `recv_msg` takes one frame, or the connection, the memory or the length of the frame does not
allow it. -/
lemma always_recvMsg (rounds : ℕ) :
    (recvMsg rounds fd {}).Always (auto fd) Receives
      (fun x q => (x.1 = 0 ∧ ∃ got, q = .receiving got ∧ Carried got x.2) ∨
        (x.1 = -1 ∧ (x.2.payload = none ∧ (q = .unreceived ∨ ∃ got, q = .receiving got ∧
          unframe got = none)))) (.receiving []) := by
  apply Prog.Always.bind
  apply (always_recvAll rounds missing_header).mono
  rintro ⟨ret, hdr⟩ q (⟨hret, hhdr, rfl⟩ | ⟨hret, rfl⟩)
  · simp only at hret hhdr
    subst hret
    rw [List.nil_append]
    simp only [ne_eq, not_true_eq_false, if_false]
    split
    · split
      · rename_i hmax
        refine ⟨trivial, .inr ⟨rfl, rfl, .inr ⟨hdr, rfl, ?_⟩⟩⟩
        rw [unframe, dif_neg]
        rintro ⟨-, hle, -⟩
        rw [List.take_of_length_le hhdr.le] at hle
        omega
      · rename_i hpos hmax
        refine ⟨trivial, fun p q hq => ?_⟩
        cases p with
        | none =>
          cases hq
          exact ⟨trivial, .inr ⟨rfl, rfl, .inl rfl⟩⟩
        | some p =>
          cases hq
          refine Prog.Always.bind ⟨trivial, Prog.Always.bind ?_⟩
          apply (always_recvAll rounds fun got _ => missing_payload hhdr got).mono
          rintro ⟨ret, body⟩ q (⟨hret, hbody, rfl⟩ | ⟨hret, rfl⟩)
          · simp only at hret hbody
            subst hret
            simp only [not_true_eq_false, if_false]
            refine ⟨trivial, .inl ⟨rfl, _, rfl, ?_⟩⟩
            refine carried_of_whole hhdr (not_lt.1 hmax) hbody ?_
            rw [if_neg, Option.map_some]
            rintro rfl
            rw [List.length_nil] at hbody
            omega
          · simp only at hret
            subst hret
            refine ⟨trivial, fun _ q hq => ?_⟩
            cases hq
            exact ⟨trivial, .inr ⟨rfl, rfl, .inl rfl⟩⟩
    · rename_i hpos
      have hzero : headerLen hdr = 0 := Nat.eq_zero_of_not_pos hpos
      refine ⟨trivial, .inl ⟨rfl, hdr, rfl, ?_⟩⟩
      have hcarried := @carried_of_whole hdr [] hhdr (hzero.trans_le (Nat.zero_le _)) hzero.symm
        none rfl
      rw [List.append_nil] at hcarried
      exact hcarried
  · simp only at hret
    subst hret
    exact ⟨trivial, .inr ⟨rfl, rfl, .inl rfl⟩⟩

end MsgPhase
end P2PNode
