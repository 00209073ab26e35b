import P2PNode.Net.Framing

/-!
# What `recv_msg` accepts

`recv_msg` on an arbitrary stream, with the heap of the receiving process: the size of each block in
use and the sizes that were asked for. A run that frees a block that is not in use gets stuck.
-/

namespace P2PNode

open Effect

/-! ### The heap -/

/-- The blocks in use with their sizes, and the sizes asked for so far. -/
structure Heap where
  size : Ptr → Option ℕ
  next : Ptr
  asked : List ℕ := []
  fresh : ∀ p, next ≤ p → size p = none

namespace Heap

/-- The heap after a `malloc`, which returned `h.next`. -/
def malloc (h : Heap) (n : ℕ) : Heap where
  size := Function.update h.size h.next (some n)
  next := h.next + 1
  asked := h.asked ++ [n]
  fresh := by
    intro p hp
    rw [Function.update_of_ne (Nat.lt_of_succ_le hp).ne']
    exact h.fresh p (Nat.le_of_succ_le hp)

/-- The heap after a `free`. -/
def free (h : Heap) (p : Ptr) : Heap where
  size := Function.update h.size p none
  next := h.next
  asked := h.asked
  fresh := by
    intro q hq
    by_cases hqp : q = p
    · rw [hqp, Function.update_self]
    · rw [Function.update_of_ne hqp]
      exact h.fresh q hq

@[simp] lemma size_malloc (h : Heap) (n : ℕ) :
    (h.malloc n).size = Function.update h.size h.next (some n) := rfl

@[simp] lemma asked_malloc (h : Heap) (n : ℕ) : (h.malloc n).asked = h.asked ++ [n] := rfl

@[simp] lemma asked_free (h : Heap) (p : Ptr) : (h.free p).asked = h.asked := rfl

lemma size_next (h : Heap) : h.size h.next = none := h.fresh h.next le_rfl

/-- A block that was allocated and freed is gone. -/
lemma size_free_malloc (h : Heap) (n : ℕ) : ((h.malloc n).free h.next).size = h.size := by
  simp only [free, size_malloc, Function.update_idem]
  exact Function.update_eq_self_iff.2 h.size_next.symm

end Heap

/-! ### The receiving process -/

/-- A receiving end, with the heap of its process. -/
structure Receiver where
  sched : List RecvEvent
  pending : Bytes
  reset : Bool := false
  heap : Heap

namespace Receiver

/-- The connection alone. -/
def inbound (r : Receiver) : Inbound := { sched := r.sched, pending := r.pending, reset := r.reset }

/-- The process with the connection as it is in `i`. -/
def set (r : Receiver) (i : Inbound) : Receiver := { r with sched := i.sched, pending := i.pending }

@[simp] lemma heap_set (r : Receiver) (i : Inbound) : (r.set i).heap = r.heap := rfl

def handle : (c : NetCall) → Receiver → Option (c.Ret × Receiver)
  | .send _ _, _ => none
  | .recv fd len, r =>
    (Inbound.handle (.recv fd len) r.inbound).map fun x => (x.1, r.set x.2)
  | .malloc n, r => some (some r.heap.next, { r with heap := r.heap.malloc n })
  | .free none, r => some ((), r)
  | .free (some p), r =>
    if r.heap.size p = none then none else some ((), { r with heap := r.heap.free p })

/-! ### Receiving bytes -/

/-- A call of `recv` changes only the schedule and the bytes still to come. -/
lemma recv_frame {i : Inbound} {fd : Fd} {len : ℕ} {x : RecvRet × Inbound}
    (h : Inbound.handle (.recv fd len) i = some x) :
    x.2 = { i with sched := x.2.sched, pending := x.2.pending } := by
  simp only [Inbound.handle] at h
  cases hs : i.sched with
  | nil => simp [hs] at h
  | cons e es =>
    cases e with
    | intr =>
      simp only [hs, Option.some.injEq] at h
      rw [← h]
    | deliver n =>
      simp only [hs] at h
      by_cases hend : i.pending = [] ∧ i.reset = true
      · simp only [if_pos hend, Option.some.injEq] at h
        rw [← h]
      · simp only [if_neg hend, Option.some.injEq] at h
        rw [← h]

lemma inbound_set {r : Receiver} {fd : Fd} {len : ℕ} {x : RecvRet × Inbound}
    (h : Inbound.handle (.recv fd len) r.inbound = some x) : (r.set x.2).inbound = x.2 :=
  (recv_frame h).symm

/-- `recv_all` does not touch the heap. -/
lemma run_recvAllFrom (rounds : ℕ) (fd : Fd) (len : ℕ) (got : Bytes) (r : Receiver) :
    (recvAllFrom rounds fd len got).run handle r =
      ((recvAllFrom rounds fd len got).run Inbound.handle r.inbound).map
        fun x => (x.1, r.set x.2) := by
  induction rounds generalizing got r with
  | zero => rfl
  | succ rounds ih =>
    by_cases hlt : got.length < len
    · simp only [recvAllFrom, if_pos hlt, NetCall.doRecv, Prog.perform_bind, Prog.run_call, handle]
      cases h : Inbound.handle (.recv fd (len - got.length)) r.inbound with
      | none => rfl
      | some x =>
        have hset := inbound_set h
        obtain ⟨ret, i⟩ := x
        have hself (j : Inbound) : (r.set i).set j = r.set j := rfl
        simp only [Option.map_some, Option.bind_some]
        cases ret with
        | intr =>
          rw [ih got (r.set i), hset]
          simp only [hself]
        | err => rfl
        | data bs =>
          cases bs with
          | nil => rfl
          | cons b bs =>
            rw [ih (got ++ b :: bs) (r.set i), hset]
            simp only [hself]
    · simp only [recvAllFrom, if_neg hlt]
      rfl

/-- `recv_all` takes `len` bytes and succeeds, or takes what is left and fails, or is blocked. -/
lemma run_recvAll (rounds : ℕ) (fd : Fd) (len : ℕ) (r : Receiver) :
    ((recvAll rounds fd len).run handle r = none ∧ r.inbound.Starved rounds len) ∨
      ∃ i, (recvAll rounds fd len).run handle r =
          some ((if len ≤ r.pending.length then 0 else -1, r.pending.take len), r.set i) ∧
        r.inbound.Took len i := by
  rw [recvAll, run_recvAllFrom]
  rcases P2PNode.run_recvAll rounds fd len r.inbound with ⟨h, hst⟩ | ⟨i, h, ht⟩
  · rw [recvAll] at h
    exact .inl ⟨by rw [h]; rfl, hst⟩
  · rw [recvAll] at h
    exact .inr ⟨i, by rw [h]; rfl, ht⟩

/-! ### Receiving a message -/

/-- The payload length announced by the header at the front of a stream. -/
def announced (s : Bytes) : ℕ := headerLen (s.take headerSize)

/-- What a call of `recv_msg` leaves behind: a whole frame is consumed, a payload that was received
is in a block of its own, and a block that was asked for has room for the payload and the `NUL`. -/
structure Done (r r' : Receiver) : Prop where
  pending : FrontFrame r.pending → r'.pending = r.pending.drop (headerSize + announced r.pending)
  size : r'.heap.size =
    if FrontFrame r.pending ∧ announced r.pending ≠ 0 then
      Function.update r.heap.size r.heap.next (some (announced r.pending + 1))
    else r.heap.size
  asked : ∃ ns, r'.heap.asked = r.heap.asked ++ ns ∧
    ∀ n ∈ ns, n = announced r.pending + 1 ∧ announced r.pending ≤ maxPayload

/-- The heap was not touched. -/
lemma Done.of_heap {r r' : Receiver} (hheap : r'.heap = r.heap)
    (hfront : FrontFrame r.pending → announced r.pending = 0 ∧
      r'.pending = r.pending.drop (headerSize + announced r.pending)) : Done r r' := by
  refine ⟨fun h => (hfront h).2, ?_, [], by simp [hheap], by simp⟩
  rw [if_neg, hheap]
  rintro ⟨hf, h0⟩
  exact h0 (hfront hf).1

lemma no_wrap {n : ℕ} (h : n ≤ maxPayload) : (n + 1) % 2 ^ 32 = n + 1 := by
  have hmax : maxPayload = 4194568 := rfl
  exact Nat.mod_eq_of_lt (by omega)

/-- `recv_msg` does what `recvResult` says, unless the schedule ends first. -/
lemma run_recvMsg (rounds : ℕ) (fd : Fd) (out : MsgOut) (r : Receiver) :
    ((recvMsg rounds fd out).run handle r = none ∧ r.inbound.Blocked rounds) ∨
      ∃ r', (recvMsg rounds fd out).run handle r =
        some (recvResult r.pending r.heap.next out, r') ∧ r.Done r' := by
  rcases run_recvAll rounds fd headerSize r with ⟨h, hst⟩ | ⟨i, h, ht⟩
  · refine .inl ⟨run_recvMsg_none h, fun hr => ?_⟩
    have := hst hr
    omega
  by_cases hh : headerSize ≤ r.pending.length
  swap
  · rw [if_neg hh] at h
    rw [recvResult_cut hh]
    refine .inr ⟨r.set i, run_recvMsg_cut h, ?_⟩
    apply Done.of_heap (heap_set r i)
    intro hf
    exact absurd hf.1 hh
  rw [if_pos hh] at h
  obtain ⟨n, hn⟩ : ∃ n, n = headerLen (r.pending.take headerSize) := ⟨_, rfl⟩
  have hann : announced r.pending = n := hn.symm
  have hpend : (r.set i).pending = r.pending.drop headerSize := ht.pending
  by_cases hn0 : n = 0
  · -- no payload
    subst hn0
    rw [recvResult_empty hh hn]
    refine .inr ⟨r.set i, run_recvMsg_empty h hn, ?_⟩
    apply Done.of_heap (heap_set r i)
    intro _
    rw [hann]
    exact ⟨rfl, hpend⟩
  by_cases hmax : maxPayload < n
  · -- the length is refused
    rw [recvResult_refused hh hn fun hok => Nat.not_le.2 hmax hok.1]
    refine .inr ⟨r.set i, run_recvMsg_long h hn hmax, ?_⟩
    apply Done.of_heap (heap_set r i)
    intro hf
    exact absurd (hn ▸ hf.2.1) (Nat.not_le.2 hmax)
  -- the payload is allocated, then received
  obtain ⟨r₂, hr₂⟩ : ∃ r₂ : Receiver, r₂ = { r.set i with heap := r.heap.malloc (n + 1) } :=
    ⟨_, rfl⟩
  have hmalloc : handle (.malloc ((n + 1) % 2 ^ 32)) (r.set i) = some (some r.heap.next, r₂) := by
    rw [hr₂, no_wrap (Nat.le_of_not_lt hmax)]
    rfl
  have hrun := run_recvMsg_payload out h hn hn0 hmax hmalloc
  have hp₂ : r₂.pending = r.pending.drop headerSize := by rw [hr₂, ← hpend]
  have hs₂ : r₂.inbound.sched = i.sched := by rw [hr₂]; rfl
  have hheap₂ : r₂.heap = r.heap.malloc (n + 1) := by rw [hr₂]
  have hasked : ∃ ns, r₂.heap.asked = r.heap.asked ++ ns ∧
      ∀ m ∈ ns, m = announced r.pending + 1 ∧ announced r.pending ≤ maxPayload := by
    refine ⟨[n + 1], by rw [hheap₂]; rfl, fun m hm => ?_⟩
    rw [hann]
    exact ⟨List.mem_singleton.1 hm, Nat.le_of_not_lt hmax⟩
  have hlen : n ≤ r₂.pending.length ↔ headerSize + n ≤ r.pending.length := by
    rw [hp₂, List.length_drop]
    omega
  rcases run_recvAll rounds fd n r₂ with ⟨h', hst⟩ | ⟨i₃, h', ht'⟩
  · refine .inl ⟨by rw [hrun, h']; rfl, fun hr => ?_⟩
    have hst := hst ((hs₂ ▸ ht.sched.length_le).trans_lt hr)
    have hmoves := ht.moves
    have hpl : r₂.inbound.pending.length = r.pending.length - headerSize := by
      rw [show r₂.inbound.pending = r₂.pending from rfl, hp₂, List.length_drop]
    have hri : r.inbound.pending = r.pending := rfl
    rw [hs₂, hpl] at hst
    rw [hri] at hmoves ⊢
    omega
  by_cases hwhole : headerSize + n ≤ r.pending.length
  · have hfront : FrontFrame r.pending := by
      rw [FrontFrame, ← hn]
      exact ⟨hh, Nat.le_of_not_lt hmax, hwhole⟩
    rw [recvResult_whole hh hn hn0 (Nat.le_of_not_lt hmax) hwhole]
    refine .inr ⟨r₂.set i₃, ?_, fun _ => ?_, ?_, hasked⟩
    · rw [if_pos (hlen.2 hwhole), hp₂] at h'
      rw [hrun, h']
      rfl
    · rw [hann, ← List.drop_drop, ← hp₂]
      exact ht'.pending
    · rw [if_pos ⟨hfront, hann ▸ hn0⟩, hann, heap_set, hheap₂]
      rfl
  · have hused : r₂.heap.size r.heap.next = some (n + 1) := by simp [hheap₂]
    obtain ⟨r₄, hr₄⟩ : ∃ r₄ : Receiver,
        r₄ = { r₂.set i₃ with heap := r₂.heap.free r.heap.next } := ⟨_, rfl⟩
    have hfree : handle (.free (some r.heap.next)) (r₂.set i₃) = some ((), r₄) := by
      rw [hr₄]
      simp [handle, set, hused]
    have hnot : ¬ FrontFrame r.pending := fun hf => hwhole (hn ▸ hf.2.2)
    rw [recvResult_refused hh hn fun hok => hwhole hok.2]
    refine .inr ⟨r₄, ?_, fun hf => absurd hf hnot, ?_, ?_⟩
    · have hfail : (-1 : ℤ) ≠ 0 := by decide
      rw [if_neg fun hle => hwhole (hlen.1 hle)] at h'
      rw [hrun, h', Option.bind_some, if_pos hfail, hfree]
      rfl
    · rw [if_neg fun hf => hnot hf.1, hr₄]
      show (r₂.heap.free r.heap.next).size = r.heap.size
      rw [hheap₂, Heap.size_free_malloc]
    · rw [hr₄]
      exact hasked

/-! ### Acceptance -/

/-- The frame at the front of the stream was consumed and handed over: its type, its length, and
its payload with a `NUL` in a new block with room for just that. -/
structure Accepted (r : Receiver) (out : MsgOut) (r' : Receiver) : Prop where
  pending : r'.pending = r.pending.drop (headerSize + announced r.pending)
  type : out.type = some (headerType (r.pending.take headerSize))
  len : out.len = announced r.pending
  empty : announced r.pending = 0 → out.payload = none ∧ r'.heap.size = r.heap.size
  payload : announced r.pending ≠ 0 → ∃ b : Block, out.payload = some b ∧
    b.bytes = (r.pending.drop headerSize).take (announced r.pending) ++ [0] ∧
    b.bytes.length = announced r.pending + 1 ∧ r.heap.size b.addr = none ∧
    r'.heap.size = Function.update r.heap.size b.addr (some b.bytes.length)

lemma recvResult_of_front {s : Bytes} (hf : FrontFrame s) (p : Ptr) (out : MsgOut) :
    recvResult s p out = (0, ⟨some (headerType (s.take headerSize)),
      if announced s = 0 then none
      else some ⟨p, (s.drop headerSize).take (announced s) ++ [0]⟩, announced s⟩) := by
  obtain ⟨h8, hmax, hwhole⟩ := hf
  by_cases h0 : headerLen (s.take headerSize) = 0
  · simp [recvResult, announced, h8, h0]
  · simp [recvResult, announced, h8, h0, hmax, hwhole]

lemma recvResult_of_not_front {s : Bytes} (hf : ¬ FrontFrame s) (p : Ptr) (out : MsgOut) :
    (recvResult s p out).1 = -1 ∧
      (out.payload = none → (recvResult s p out).2.payload = none) := by
  by_cases h8 : headerSize ≤ s.length
  · have hbody : ¬ (headerLen (s.take headerSize) ≤ maxPayload ∧
        headerSize + headerLen (s.take headerSize) ≤ s.length) := fun h => hf ⟨h8, h⟩
    simp [recvResult, h8, hbody]
  · simp [recvResult, h8]

/-- What a run that returns has done. -/
lemma recvResult_of_run {r r' : Receiver} {rounds : ℕ} {fd : Fd} {out out' : MsgOut} {ret : ℤ}
    (h : (recvMsg rounds fd out).run handle r = some ((ret, out'), r')) :
    recvResult r.pending r.heap.next out = (ret, out') ∧ r.Done r' := by
  rcases run_recvMsg rounds fd out r with ⟨hn, -⟩ | ⟨t, ht, hdone⟩
  · exact absurd (hn.symm.trans h) (by simp)
  · obtain ⟨hres, rfl⟩ : recvResult r.pending r.heap.next out = (ret, out') ∧ t = r' := by
      simpa using ht.symm.trans h
    exact ⟨hres, hdone⟩

lemma Done.accepted {r r' : Receiver} (h : r.Done r') (hf : FrontFrame r.pending) (out : MsgOut) :
    r.Accepted (recvResult r.pending r.heap.next out).2 r' := by
  have hsize := h.size
  rw [recvResult_of_front hf]
  refine ⟨h.pending hf, rfl, rfl, fun h0 => ?_, fun h0 => ?_⟩
  · rw [if_neg fun hc => hc.2 h0] at hsize
    exact ⟨if_pos h0, hsize⟩
  · rw [if_pos ⟨hf, h0⟩] at hsize
    have hlen : ((r.pending.drop headerSize).take (announced r.pending) ++ [0]).length =
        announced r.pending + 1 := by
      have hwhole : headerSize + announced r.pending ≤ r.pending.length := hf.2.2
      rw [List.length_append, List.length_take, List.length_drop, List.length_singleton]
      omega
    refine ⟨_, if_neg h0, rfl, hlen, r.heap.size_next, ?_⟩
    rw [hlen]
    exact hsize

/-- **`recv_msg` accepts exactly the well-formed frames.** For every stream and every schedule: it
returns once the schedule is long enough; it returns 0 if and only if a whole frame with a payload
of admissible length is at the front, which is then consumed and handed over; and otherwise -1, with
no block left allocated, and with a `NULL` payload if it was `NULL` before. A block that is asked
for has room for the payload and the `NUL`, a number below `2 ^ 32`. The schedule does not matter
for the result. -/
theorem recv_msg_accepts_iff (r : Receiver) (fd : Fd) (out : MsgOut) :
    (∀ rounds, r.sched.length < rounds → r.pending.length < r.sched.countP RecvEvent.moves →
      ((recvMsg rounds fd out).run handle r).isSome) ∧
    ∀ rounds ret out' r', (recvMsg rounds fd out).run handle r = some ((ret, out'), r') →
      (ret = 0 ↔ FrontFrame r.pending) ∧
      (ret = 0 → r.Accepted out' r') ∧
      (ret ≠ 0 → ret = -1 ∧ (out.payload = none → out'.payload = none) ∧
        r'.heap.size = r.heap.size) ∧
      (∃ ns, r'.heap.asked = r.heap.asked ++ ns ∧
        ∀ n ∈ ns, n = announced r.pending + 1 ∧ n < 2 ^ 32) ∧
      ∀ sched reset rounds₂ ret₂ out₂ r₂,
        (recvMsg rounds₂ fd out).run handle { r with sched := sched, reset := reset } =
          some ((ret₂, out₂), r₂) →
        ret₂ = ret ∧ out₂ = out' ∧ r₂.heap.size = r'.heap.size := by
  constructor
  · intro rounds hr hm
    rcases run_recvMsg rounds fd out r with ⟨-, hb⟩ | ⟨r', h, -⟩
    · exact absurd (hb hr) (Nat.not_le.2 hm)
    · rw [h]
      rfl
  · intro rounds ret out' r' hrun
    obtain ⟨hres, hdone⟩ := recvResult_of_run hrun
    have hret : (recvResult r.pending r.heap.next out).1 = ret := by rw [hres]
    have hout : (recvResult r.pending r.heap.next out).2 = out' := by rw [hres]
    have hiff : ret = 0 ↔ FrontFrame r.pending := by
      constructor
      · intro h0
        by_contra hf
        have := (recvResult_of_not_front hf r.heap.next out).1
        omega
      · intro hf
        rw [← hret, recvResult_of_front hf]
    refine ⟨hiff, fun h0 => hout ▸ hdone.accepted (hiff.1 h0) out, fun h0 => ?_, ?_, ?_⟩
    · have hf : ¬ FrontFrame r.pending := fun hf => h0 (hiff.2 hf)
      obtain ⟨h1, h2⟩ := recvResult_of_not_front hf r.heap.next out
      have hsize := hdone.size
      rw [if_neg fun hc => hf hc.1] at hsize
      exact ⟨hret ▸ h1, hout ▸ h2, hsize⟩
    · obtain ⟨ns, hns, hall⟩ := hdone.asked
      refine ⟨ns, hns, fun n hn => ⟨(hall n hn).1, ?_⟩⟩
      have hmax : maxPayload = 4194568 := rfl
      have := hall n hn
      omega
    · -- the result is a function of the stream and the heap
      intro sched reset rounds₂ ret₂ out₂ r₂ hrun₂
      obtain ⟨hres₂, hdone₂⟩ := recvResult_of_run hrun₂
      obtain ⟨rfl, rfl⟩ : ret₂ = ret ∧ out₂ = out' := by simpa using hres₂.symm.trans hres
      exact ⟨rfl, rfl, hdone₂.size.trans hdone.size.symm⟩

/-- A frame of two bytes behind an interruption, with the next frame cut off behind it. -/
theorem recv_msg_accepts_two :
    let r : Receiver := {
      sched := .intr :: List.replicate 20 (.deliver 3)
      pending := frame msgOutput [104, 105] ++ [7, 0]
      heap := { size := fun _ => none, next := 1, fresh := fun _ _ => rfl } }
    ∃ ret out' r', (recvMsg 22 3 {}).run handle r = some ((ret, out'), r') ∧
      (ret = 0 ↔ FrontFrame r.pending) ∧ (ret = 0 → r.Accepted out' r') := by
  intro r
  obtain ⟨hret, hall⟩ := recv_msg_accepts_iff r 3 {}
  obtain ⟨⟨⟨ret, out'⟩, r'⟩, hrun⟩ := Option.isSome_iff_exists.mp
    (hret 22 (by decide) (by decide))
  obtain ⟨hiff, hacc, -⟩ := hall 22 ret out' r' hrun
  exact ⟨ret, out', r', hrun, hiff, hacc⟩

end Receiver
end P2PNode
