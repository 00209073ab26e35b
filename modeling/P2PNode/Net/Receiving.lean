import P2PNode.Net.NetUtils
import Mathlib.Data.List.Basic

/-!
# The receiving end of a stream connection

`Inbound` is the receiving end: the bytes that will still arrive before the stream ends, and how
the kernel will answer the next calls of `recv`. `recvResult` says what `recv_msg` makes of a
stream; `run_recvMsg` that it does so under every schedule of short reads and interruptions.
-/

namespace P2PNode

open Effect

/-- How one call of `recv` ends: `deliver n` hands over up to `n + 1` bytes. -/
inductive RecvEvent where
  | intr
  | deliver (n : ℕ)
  deriving DecidableEq

/-- The call is not an interruption. -/
def RecvEvent.moves : RecvEvent → Bool
  | .intr => false
  | _     => true

/-- The receiving end. Behind `pending` the stream ends, in order or (`reset`) with an error. The
heap is that of the receiving process: the blocks in use and the next free address. -/
structure Inbound where
  sched : List RecvEvent
  pending : Bytes
  reset : Bool := false
  live : List Ptr := []
  next : Ptr := 1

/-- The kernel's answers at the receiving end; allocation succeeds. -/
def Inbound.handle : (c : NetCall) → Inbound → Option (c.Ret × Inbound)
  | .send _ _, _ => none
  | .recv _ len, i =>
    match i.sched with
    | []          => none
    | .intr :: es => some (RecvRet.intr, { i with sched := es })
    | .deliver n :: es =>
      if i.pending = [] ∧ i.reset then some (RecvRet.err, { i with sched := es })
      else some (RecvRet.data (i.pending.take (min (n + 1) len)),
        { i with sched := es, pending := i.pending.drop (min (n + 1) len) })
  | .malloc _, i => some (some i.next, { i with live := i.next :: i.live, next := i.next + 1 })
  | .free p, i   => some ((), { i with live := i.live.filter (fun q => some q ≠ p) })

/-- The receiving end after `n` bytes were asked for and those there are were taken. -/
structure Inbound.Took (n : ℕ) (i i' : Inbound) : Prop where
  pending : i'.pending = i.pending.drop n
  sched : i'.sched <:+ i.sched
  live : i'.live = i.live
  next : i'.next = i.next
  moves : i.sched.countP RecvEvent.moves ≤
    i'.sched.countP RecvEvent.moves + min n (i.pending.length + 1)

/-- The schedule is too short to hand over `n` bytes or report the end of the stream. -/
def Inbound.Starved (i : Inbound) (rounds n : ℕ) : Prop :=
  i.sched.length < rounds → i.sched.countP RecvEvent.moves < min n (i.pending.length + 1)

/-- Taking `m` letters first and then what is missing is taking `n`. -/
private lemma take_take_rest {s : Bytes} {m n : ℕ} (h : m ≤ n) :
    s.take m ++ (s.drop m).take (n - (s.take m).length) = s.take n := by
  rw [List.length_take]
  by_cases hm : m ≤ s.length
  · rw [Nat.min_eq_left hm, ← List.take_add, Nat.add_sub_cancel' h]
  · have hs : s.length ≤ m := Nat.le_of_not_le hm
    simp [List.drop_eq_nil_of_le hs, List.take_of_length_le hs,
      List.take_of_length_le (hs.trans h)]

private lemma drop_drop_rest {s : Bytes} {m n : ℕ} (h : m ≤ n) :
    (s.drop m).drop (n - (s.take m).length) = s.drop n := by
  rw [List.length_take]
  by_cases hm : m ≤ s.length
  · rw [Nat.min_eq_left hm, List.drop_drop, Nat.add_sub_cancel' h]
  · have hs : s.length ≤ m := Nat.le_of_not_le hm
    simp [List.drop_eq_nil_of_le hs, List.drop_eq_nil_of_le (hs.trans h)]

/-- `recv_all` takes exactly `len` bytes if so many are left, and fails at the end of the stream
otherwise. -/
lemma run_recvAllFrom (rounds : ℕ) (fd : Fd) (len : ℕ) (got : Bytes) (i : Inbound)
    (hg : got.length ≤ len) :
    ((recvAllFrom rounds fd len got).run Inbound.handle i = none ∧
        i.Starved rounds (len - got.length)) ∨
      ∃ i', (recvAllFrom rounds fd len got).run Inbound.handle i =
          some ((if len - got.length ≤ i.pending.length then 0 else -1,
            got ++ i.pending.take (len - got.length)), i') ∧
        i.Took (len - got.length) i' := by
  induction rounds generalizing got i with
  | zero => exact .inl ⟨rfl, fun h => absurd h (Nat.not_lt_zero _)⟩
  | succ rounds ih =>
    by_cases hlt : got.length < len
    · obtain ⟨sched, s, reset, live, next⟩ := i
      cases sched with
      | nil =>
        refine .inl ⟨by simp [recvAllFrom, hlt, NetCall.doRecv, Inbound.handle], fun _ => ?_⟩
        simp only [List.countP_nil]
        omega
      | cons e es =>
        cases e with
        | intr =>
          have hrun : (recvAllFrom (rounds + 1) fd len got).run Inbound.handle
              ⟨.intr :: es, s, reset, live, next⟩ =
              (recvAllFrom rounds fd len got).run Inbound.handle ⟨es, s, reset, live, next⟩ := by
            simp [recvAllFrom, hlt, NetCall.doRecv, Inbound.handle]
          rw [hrun]
          rcases ih got ⟨es, s, reset, live, next⟩ hg with ⟨h, hst⟩ | ⟨i', h, ht⟩
          · refine .inl ⟨h, fun hr => ?_⟩
            simpa [RecvEvent.moves] using hst (by simpa using hr)
          · exact .inr ⟨i', h, ht.pending, ht.sched.trans (List.suffix_cons _ _), ht.live, ht.next,
              by simpa [RecvEvent.moves] using ht.moves⟩
        | deliver n =>
          by_cases hnil : s = []
          · -- the end of the stream: both ways of ending make `recv_all` fail
            subst hnil
            have hneed : len - got.length ≠ 0 := by omega
            refine .inr ⟨⟨es, [], reset, live, next⟩, ?_, by simp, List.suffix_cons _ _, rfl, rfl,
              ?_⟩
            · cases reset <;> simp [recvAllFrom, hlt, NetCall.doRecv, Inbound.handle, hneed]
            · simp only [List.countP_cons, RecvEvent.moves, if_true, List.length_nil]
              omega
          · -- some bytes arrive, at least one and at most all that are missing
            obtain ⟨m, hm⟩ : ∃ m, m = min (n + 1) (len - got.length) := ⟨_, rfl⟩
            have hs1 : 0 < s.length := List.length_pos_iff.mpr hnil
            have hl : (s.take m).length = min m s.length := List.length_take
            have hrun : (recvAllFrom (rounds + 1) fd len got).run Inbound.handle
                ⟨.deliver n :: es, s, reset, live, next⟩ =
                (recvAllFrom rounds fd len (got ++ s.take m)).run Inbound.handle
                  ⟨es, s.drop m, reset, live, next⟩ := by
              cases hd : s.take m with
              | nil =>
                rw [hd, List.length_nil] at hl
                omega
              | cons x xs =>
                simp [recvAllFrom, hlt, NetCall.doRecv, Inbound.handle, ← hm, hnil, hd]
            have hmn : m ≤ len - got.length := by omega
            have hrest : len - (got ++ s.take m).length =
                len - got.length - (s.take m).length := by
              rw [List.length_append]
              omega
            have hshort : len - got.length - (s.take m).length ≤ (s.drop m).length ↔
                len - got.length ≤ s.length := by
              rw [List.length_drop, hl]
              omega
            have hlen : (got ++ s.take m).length ≤ len := by
              rw [List.length_append, hl]
              omega
            rw [hrun]
            rcases ih (got ++ s.take m) ⟨es, s.drop m, reset, live, next⟩ hlen with
              ⟨h, hst⟩ | ⟨i', h, ht⟩
            · refine .inl ⟨h, fun hr => ?_⟩
              have := hst (by simpa using hr)
              simp only [hrest, hl, List.length_drop] at this
              simp only [List.countP_cons, RecvEvent.moves, if_true]
              omega
            · rw [hrest] at h ht
              refine .inr ⟨i', ?_, ?_, ht.sched.trans (List.suffix_cons _ _), ht.live, ht.next, ?_⟩
              · rw [h]
                simp only [hshort, List.append_assoc, take_take_rest hmn]
              · rw [ht.pending, drop_drop_rest hmn]
              · have := ht.moves
                simp only [hl, List.length_drop] at this
                simp only [List.countP_cons, RecvEvent.moves, if_true]
                omega
    · have h0 : len - got.length = 0 := by omega
      refine .inr ⟨i, by simp [recvAllFrom, hlt, h0], ?_, List.suffix_refl _, rfl, rfl, by simp⟩
      rw [h0, List.drop_zero]

lemma run_recvAll (rounds : ℕ) (fd : Fd) (len : ℕ) (i : Inbound) :
    ((recvAll rounds fd len).run Inbound.handle i = none ∧ i.Starved rounds len) ∨
      ∃ i', (recvAll rounds fd len).run Inbound.handle i =
          some ((if len ≤ i.pending.length then 0 else -1, i.pending.take len), i') ∧
        i.Took len i' := by
  simpa [recvAll] using run_recvAllFrom rounds fd len [] i (Nat.zero_le _)

/-! ### `recv_msg` -/

/-- What `recv_msg` returns and writes when the stream `s` is left, a block at `p` would be
allocated next, and its variables are `out` before the call. -/
def recvResult (s : Bytes) (p : Ptr) (out : MsgOut) : ℤ × MsgOut :=
  if headerSize ≤ s.length then
    let hdr := s.take headerSize
    let out : MsgOut := { type := some (headerType hdr), payload := none, len := headerLen hdr }
    if headerLen hdr ≤ maxPayload ∧ headerSize + headerLen hdr ≤ s.length then
      if headerLen hdr = 0 then (0, out)
      else (0, { out with payload := some ⟨p, (s.drop headerSize).take (headerLen hdr) ++ [0]⟩ })
    else (-1, out)
  else (-1, out)

section Cases

variable {s : Bytes} {p : Ptr} {out : MsgOut} {n : ℕ}

lemma recvResult_cut (hh : ¬ headerSize ≤ s.length) : recvResult s p out = (-1, out) := if_neg hh

lemma recvResult_empty (hh : headerSize ≤ s.length)
    (h0 : 0 = headerLen (s.take headerSize)) :
    recvResult s p out = (0, ⟨some (headerType (s.take headerSize)), none, 0⟩) := by
  simp [recvResult, hh, ← h0]

/-- The length is refused, or the payload is cut. -/
lemma recvResult_refused (hh : headerSize ≤ s.length) (hn : n = headerLen (s.take headerSize))
    (hbad : ¬ (n ≤ maxPayload ∧ headerSize + n ≤ s.length)) :
    recvResult s p out = (-1, ⟨some (headerType (s.take headerSize)), none, n⟩) := by
  rw [hn] at hbad ⊢
  simp only [recvResult, if_pos hh, if_neg hbad]

lemma recvResult_whole (hh : headerSize ≤ s.length) (hn : n = headerLen (s.take headerSize))
    (h0 : n ≠ 0) (hmax : n ≤ maxPayload) (hwhole : headerSize + n ≤ s.length) :
    recvResult s p out = (0, ⟨some (headerType (s.take headerSize)),
      some ⟨p, (s.drop headerSize).take n ++ [0]⟩, n⟩) := by
  rw [hn] at h0 hmax hwhole ⊢
  simp only [recvResult, if_pos hh, if_pos (And.intro hmax hwhole), if_neg h0]

end Cases

section Steps

variable {W : Type} {handle : (c : NetCall) → W → Option (c.Ret × W)} {rounds : ℕ} {fd : Fd}
  {out : MsgOut} {w w₁ w₂ : W} {hdr : Bytes} {n : ℕ} {p : Ptr}

/-- The receiving of the header ends `recv_msg` when it does not end itself, or fails. -/
lemma run_recvMsg_none (h : (recvAll rounds fd headerSize).run handle w = none) :
    (recvMsg rounds fd out).run handle w = none := by
  simp [recvMsg, h]

lemma run_recvMsg_cut (h : (recvAll rounds fd headerSize).run handle w = some ((-1, hdr), w₁)) :
    (recvMsg rounds fd out).run handle w = some ((-1, out), w₁) := by
  simp [recvMsg, h]

lemma run_recvMsg_empty (h : (recvAll rounds fd headerSize).run handle w = some ((0, hdr), w₁))
    (h0 : 0 = headerLen hdr) :
    (recvMsg rounds fd out).run handle w = some ((0, ⟨some (headerType hdr), none, 0⟩), w₁) := by
  simp [recvMsg, h, ← h0]

lemma run_recvMsg_long (h : (recvAll rounds fd headerSize).run handle w = some ((0, hdr), w₁))
    (hn : n = headerLen hdr) (hmax : maxPayload < n) :
    (recvMsg rounds fd out).run handle w = some ((-1, ⟨some (headerType hdr), none, n⟩), w₁) := by
  have hpos : 0 < n := (Nat.zero_le _).trans_lt hmax
  simp [recvMsg, h, ← hn, hpos, hmax]

/-- The payload is received into a new block, which is freed again if that fails. -/
lemma run_recvMsg_payload (out : MsgOut)
    (h : (recvAll rounds fd headerSize).run handle w = some ((0, hdr), w₁))
    (hn : n = headerLen hdr) (h0 : n ≠ 0) (hmax : ¬ maxPayload < n)
    (hm : handle (.malloc ((n + 1) % 2 ^ 32)) w₁ = some (some p, w₂)) :
    (recvMsg rounds fd out).run handle w =
      ((recvAll rounds fd n).run handle w₂).bind fun x =>
        if x.1.1 ≠ 0 then
          (handle (.free (some p)) x.2).map fun y =>
            ((-1, ⟨some (headerType hdr), none, n⟩), y.2)
        else some ((0, ⟨some (headerType hdr), some ⟨p, x.1.2 ++ [0]⟩, n⟩), x.2) := by
  subst hn
  have hpos : 0 < headerLen hdr := Nat.pos_of_ne_zero h0
  have hm : handle (.malloc ((headerLen hdr + 1) % 4294967296)) w₁ = some (some p, w₂) := hm
  have hrun : (recvMsg rounds fd out).run handle w =
      ((recvAll rounds fd (headerLen hdr)).run handle w₂).bind fun x =>
        (if x.1.1 ≠ 0 then do
          NetCall.doFree (some p)
          return (-1, ⟨some (headerType hdr), none, headerLen hdr⟩)
        else return (0, ⟨some (headerType hdr), some ⟨p, x.1.2 ++ [0]⟩, headerLen hdr⟩) :
          NetProg (ℤ × MsgOut)).run handle x.2 := by
    simp [recvMsg, h, hpos, hmax, NetCall.doMalloc, hm]
  rw [hrun]
  congr 1
  funext x
  split
  · simp [NetCall.doFree, Option.map_eq_bind]
  · rfl

end Steps

/-- The schedule is too short for what is left of the stream. -/
def Inbound.Blocked (i : Inbound) (rounds : ℕ) : Prop :=
  i.sched.length < rounds → i.sched.countP RecvEvent.moves ≤ i.pending.length

/-- The receiving end after a message with a payload of `len` bytes was received. -/
structure Inbound.Received (len : ℕ) (i i' : Inbound) : Prop where
  pending : i'.pending = i.pending.drop (headerSize + len)
  sched : i'.sched <:+ i.sched
  moves : i.sched.countP RecvEvent.moves + i'.pending.length ≤
    i'.sched.countP RecvEvent.moves + i.pending.length

/-- `recv_msg` does what `recvResult` says, unless the schedule ends first. -/
theorem run_recvMsg (rounds : ℕ) (fd : Fd) (out : MsgOut) (i : Inbound) :
    ((recvMsg rounds fd out).run Inbound.handle i = none ∧ i.Blocked rounds) ∨
      ∃ i', (recvMsg rounds fd out).run Inbound.handle i =
          some (recvResult i.pending i.next out, i') ∧
        ((recvResult i.pending i.next out).1 = 0 →
          i.Received (recvResult i.pending i.next out).2.len i') := by
  rcases run_recvAll rounds fd headerSize i with ⟨h, hst⟩ | ⟨i₁, h, ht⟩
  · refine .inl ⟨run_recvMsg_none h, fun hr => ?_⟩
    have := hst hr
    omega
  by_cases hh : headerSize ≤ i.pending.length
  swap
  · rw [if_neg hh] at h
    rw [recvResult_cut hh]
    exact .inr ⟨i₁, run_recvMsg_cut h, nofun⟩
  rw [if_pos hh] at h
  obtain ⟨n, hn⟩ : ∃ n, n = headerLen (i.pending.take headerSize) := ⟨_, rfl⟩
  have hpend : i₁.pending.length = i.pending.length - headerSize := by
    rw [ht.pending, List.length_drop]
  have hmoves := ht.moves
  have hmin : min headerSize (i.pending.length + 1) = headerSize := by omega
  rw [hmin] at hmoves
  by_cases hn0 : n = 0
  · -- no payload
    subst hn0
    rw [recvResult_empty hh hn]
    refine .inr ⟨i₁, run_recvMsg_empty h hn, fun _ => ⟨ht.pending, ht.sched, ?_⟩⟩
    omega
  by_cases hmax : maxPayload < n
  · -- the length is refused
    rw [recvResult_refused hh hn fun hok => Nat.not_le.2 hmax hok.1]
    exact .inr ⟨i₁, run_recvMsg_long h hn hmax, nofun⟩
  -- the payload is allocated, then received
  obtain ⟨i₂, hi₂⟩ : ∃ i₂ : Inbound,
      i₂ = { i₁ with live := i₁.next :: i₁.live, next := i₁.next + 1 } := ⟨_, rfl⟩
  have hp₂ : i₂.pending = i₁.pending := by rw [hi₂]
  have hs₂ : i₂.sched = i₁.sched := by rw [hi₂]
  have hmalloc : Inbound.handle (.malloc ((n + 1) % 2 ^ 32)) i₁ = some (some i.next, i₂) := by
    rw [hi₂, ← ht.next]
    rfl
  have hrun := run_recvMsg_payload out h hn hn0 hmax hmalloc
  rcases run_recvAll rounds fd n i₂ with ⟨h', hst⟩ | ⟨i₃, h', ht'⟩
  · refine .inl ⟨by rw [hrun, h']; rfl, fun hr => ?_⟩
    have := hst ((hs₂ ▸ ht.sched.length_le).trans_lt hr)
    rw [hs₂, hp₂] at this
    omega
  have hlen : n ≤ i₂.pending.length ↔ headerSize + n ≤ i.pending.length := by
    rw [hp₂, hpend]
    omega
  by_cases hwhole : headerSize + n ≤ i.pending.length
  · rw [recvResult_whole hh hn hn0 (Nat.le_of_not_lt hmax) hwhole]
    refine .inr ⟨i₃, ?_, fun _ => ⟨?_, ?_, ?_⟩⟩
    · rw [if_pos (hlen.2 hwhole), hp₂, ht.pending] at h'
      rw [hrun, h']
      rfl
    · rw [ht'.pending, hp₂, ht.pending, List.drop_drop]
    · exact ht'.sched.trans (hs₂ ▸ ht.sched)
    · have := ht'.moves
      rw [hs₂] at this
      rw [ht'.pending, List.length_drop, hp₂, hpend]
      omega
  · rw [recvResult_refused hh hn fun hok => hwhole hok.2]
    obtain ⟨i₄, hi₄⟩ : ∃ i₄, Inbound.handle (.free (some i.next)) i₃ = some ((), i₄) := ⟨_, rfl⟩
    refine .inr ⟨i₄, ?_, nofun⟩
    rw [if_neg fun hle => hwhole (hlen.1 hle)] at h'
    have hfail : (-1 : ℤ) ≠ 0 := by decide
    rw [hrun, h', Option.bind_some, if_pos hfail, hi₄]
    rfl

/-- A call of `recv_msg` at the receiving end. -/
def Inbound.receive (i : Inbound) (fd : Fd) : Option ((ℤ × MsgOut) × Inbound) :=
  (recvMsg (i.sched.length + 1) fd {}).run Inbound.handle i

lemma Inbound.receive_cases (i : Inbound) (fd : Fd) :
    (i.receive fd = none ∧ i.sched.countP RecvEvent.moves ≤ i.pending.length) ∨
      ∃ i', i.receive fd = some (recvResult i.pending i.next {}, i') ∧
        ((recvResult i.pending i.next {}).1 = 0 →
          i.Received (recvResult i.pending i.next {}).2.len i') := by
  rcases run_recvMsg (i.sched.length + 1) fd {} i with ⟨h, hb⟩ | ⟨i', h, hr⟩
  · exact .inl ⟨h, hb (Nat.lt_succ_self _)⟩
  · exact .inr ⟨i', h, hr⟩

end P2PNode
