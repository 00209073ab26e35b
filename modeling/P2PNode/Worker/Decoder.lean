import P2PNode.Dispatch.Submit
import P2PNode.Lib.Always
import P2PNode.Net.Acceptance
import P2PNode.Worker.Memory

/-!
# The decoder on hostile payloads

Which bytes the `MSG_TASK_FILE` case of `handle_connection` reads and writes, and for which payloads
it calls `compile_and_stream`. The payload is whatever `recv_msg` hands over.
-/

namespace P2PNode

open Effect

/-! ### The layout -/

lemma be16_ofBe {bs : Bytes} (h : bs.length = 2) : be16 (ofBe bs) = bs := by
  rw [be16, ofBe, ← h]
  exact BigEndian.encode_decode bs

lemma be32_ofBe {bs : Bytes} (h : bs.length = 4) : be32 (ofBe bs) = bs := by
  rw [be32, ofBe, ← h]
  exact BigEndian.encode_decode bs

/-- The payload of a received message starts with the layout of the file name `F` and the data
`D`. -/
structure MsgOut.StartsWith (out : MsgOut) (F D : Bytes) : Prop where
  name : F.length < maxFilenameLen
  data : D.length ≤ maxFileSize
  layout : taskFileLayout F D <+: out.bytes

/-- The decoder finds exactly the layouts. -/
lemma decodeTaskFile_eq_some_iff {payload : Bytes} {plen : ℕ} (hl : plen ≤ payload.length)
    (F D : Bytes) :
    decodeTaskFile payload plen = some (F, D) ↔
      F.length < maxFilenameLen ∧ D.length ≤ maxFileSize ∧
        taskFileLayout F D <+: payload.take plen := by
  constructor
  · intro h
    simp only [decodeTaskFile] at h
    split at h
    · cases h
    split at h
    · cases h
    split at h
    · cases h
    rename_i h6 hname hdata
    obtain ⟨n, hn⟩ : ∃ n, n = ofBe (payload.take 2) := ⟨_, rfl⟩
    obtain ⟨m, hm⟩ : ∃ m, m = ofBe ((payload.drop (2 + n)).take 4) := ⟨_, rfl⟩
    rw [← hn] at hname hdata h
    rw [← hm] at hdata h
    obtain ⟨rfl, rfl⟩ : (payload.drop 2).take n = F ∧ (payload.drop (2 + n + 4)).take m = D := by
      simpa using h
    have hlen₁ : ((payload.drop 2).take n).length = n := by
      rw [List.length_take, List.length_drop]
      omega
    have hlen₂ : ((payload.drop (2 + n + 4)).take m).length = m := by
      rw [List.length_take, List.length_drop]
      omega
    refine ⟨by omega, by omega, ?_⟩
    have h16 : be16 n = payload.take 2 := by
      rw [hn]
      exact be16_ofBe (by rw [List.length_take]; omega)
    have h32 : be32 m = (payload.drop (2 + n)).take 4 := by
      rw [hm]
      exact be32_ofBe (by rw [List.length_take, List.length_drop]; omega)
    have hlayout : taskFileLayout ((payload.drop 2).take n) ((payload.drop (2 + n + 4)).take m) =
        payload.take (2 + n + 4 + m) := by
      rw [taskFileLayout, hlen₁, hlen₂, h16, h32, ← List.take_add, ← List.take_add,
        ← List.take_add]
    rw [hlayout]
    exact List.take_prefix_take_left (by omega)
  · rintro ⟨hn, hd, rest, hrest⟩
    have hpayload : payload = taskFileLayout F D ++ (rest ++ payload.drop plen) := by
      rw [← List.append_assoc, hrest, List.take_append_drop]
    have hle : (taskFileLayout F D).length ≤ plen := by
      have := congrArg List.length hrest
      rw [List.length_append, List.length_take] at this
      omega
    rw [hpayload]
    exact decodeTaskFile_layout hn hd _ hle

/-! ### Received messages -/

/-- What `recv_msg` hands over when it returns 0: the bytes of the payload with a `NUL` behind them,
or a `NULL` payload of length 0. -/
structure MsgOut.WellFormed (out : MsgOut) : Prop where
  le : out.len ≤ maxPayload
  null : out.payload = none → out.len = 0
  block : ∀ b, out.payload = some b → b.bytes.length = out.len + 1

lemma MsgOut.bytes_of_block {out : MsgOut} {b : Block} (hb : out.payload = some b) :
    out.bytes = b.bytes.take out.len := by
  simp [MsgOut.bytes, hb]

/-- Every accepted message is well-formed. -/
lemma Receiver.Accepted.wellFormed {r r' : Receiver} {out : MsgOut} (h : r.Accepted out r')
    (hf : FrontFrame r.pending) : out.WellFormed where
  le := by
    rw [h.len]
    exact hf.2.1
  null := by
    intro hnone
    by_cases h0 : Receiver.announced r.pending = 0
    · rw [h.len, h0]
    · obtain ⟨b, hb, -⟩ := h.payload h0
      rw [hb] at hnone
      cases hnone
  block := by
    intro b hb
    by_cases h0 : Receiver.announced r.pending = 0
    · rw [(h.empty h0).1] at hb
      cases hb
    · obtain ⟨b', hb', -, hlen, -⟩ := h.payload h0
      obtain rfl : b' = b := Option.some.inj (hb'.symm.trans hb)
      rw [hlen, h.len]

/-- `out` can hold a layout only if its payload is not `NULL`, and then it is what the decoder
finds. -/
lemma MsgOut.WellFormed.startsWith_iff {out : MsgOut} (h : out.WellFormed) {b : Block}
    (hb : out.payload = some b) (F D : Bytes) :
    out.StartsWith F D ↔ decodeTaskFile b.bytes out.len = some (F, D) := by
  have hl : out.len ≤ b.bytes.length := by
    rw [h.block b hb]
    exact Nat.le_succ _
  rw [decodeTaskFile_eq_some_iff hl, ← MsgOut.bytes_of_block hb]
  exact ⟨fun h => ⟨h.name, h.data, h.layout⟩, fun ⟨h₁, h₂, h₃⟩ => ⟨h₁, h₂, h₃⟩⟩

lemma MsgOut.not_startsWith_of_null {out : MsgOut} (hb : out.payload = none) (F D : Bytes) :
    ¬ out.StartsWith F D := by
  intro h
  have hlen := h.layout.length_le
  rw [length_taskFileLayout] at hlen
  simp [MsgOut.bytes, hb] at hlen

/-! ### The memory of the handler -/

/-- The received payload and the array `filename`, and an account of the accesses to them and of
the calls of `compile_and_stream`: the contents of `filename` and the bytes passed. -/
structure Mem where
  payload : Option Block
  filename : Bytes
  reads : List (Ptr × ℕ × ℕ) := []
  writes : List (ℕ × ℕ) := []
  entered : List (Fd × Bytes × Bytes) := []

namespace Mem

/-- The bytes `payload[off..off+len-1]`. -/
def content (m : Mem) (off len : ℕ) : Bytes :=
  (((m.payload.map Block.bytes).getD []).drop off).take len

/-- The array after `bytes` were written to it. -/
def overwrite (array : Bytes) (off : ℕ) (bytes : Bytes) : Bytes :=
  array.take off ++ bytes ++ array.drop (off + bytes.length)

/-- A read gives the contents of the payload; every other call can have any result. -/
def access : Kernel MemCall MemCall.Ret Mem
  | m, .load p off len, (bytes : Bytes) =>
    if bytes = m.content off len then some { m with reads := m.reads ++ [(p, off, len)] } else none
  | m, .store off bytes, _ => some { m with
      filename := overwrite m.filename off bytes
      writes := m.writes ++ [(off, bytes.length)] }
  | m, .enter cfd _ off len, _ => some { m with
      entered := m.entered ++ [(cfd, m.filename, m.content off len)] }
  | m, _, _ => some m

/-- Every access is inside the payload or the array, and `compile_and_stream` was called at most
once, with a name and data that the payload starts with. -/
structure Safe (cfd : Fd) (out : MsgOut) (m : Mem) : Prop where
  reads : ∀ x ∈ m.reads, out.payload.map Block.addr = some x.1 ∧ x.2.1 + x.2.2 ≤ out.len
  writes : ∀ x ∈ m.writes, x.1 + x.2 ≤ maxFilenameLen
  entered : m.entered = [] ∨ ∃ F D array, out.StartsWith F D ∧ m.entered = [(cfd, array, D)] ∧
    array.take (F.length + 1) = F ++ [0]

/-- The memory when the `MSG_TASK_FILE` case is entered; the array holds arbitrary bytes. -/
structure Start (out : MsgOut) (m : Mem) : Prop where
  payload : m.payload = out.payload
  filename : m.filename.length = maxFilenameLen
  reads : m.reads = []
  writes : m.writes = []
  entered : m.entered = []

section Rules

variable {α : Type} {cfd : Fd} {out : MsgOut} {post : α → Mem → Prop} {m : Mem}

lemma Start.safe (h : m.Start out) : m.Safe cfd out where
  reads := by simp [h.reads]
  writes := by simp [h.writes]
  entered := .inl h.entered

/-- A read inside the payload. -/
lemma Safe.read (h : m.Safe cfd out) {b : Block} (hb : out.payload = some b) {off len : ℕ}
    (hle : off + len ≤ out.len) :
    Safe cfd out { m with reads := m.reads ++ [(b.addr, off, len)] } where
  reads := by
    intro x hx
    rcases List.mem_append.1 hx with hx | hx
    · exact h.reads x hx
    · obtain rfl := List.mem_singleton.1 hx
      exact ⟨by rw [hb]; rfl, hle⟩
  writes := h.writes
  entered := h.entered

/-- A write inside the array. -/
lemma Safe.write (h : m.Safe cfd out) {off : ℕ} {bytes : Bytes}
    (hle : off + bytes.length ≤ maxFilenameLen) :
    Safe cfd out { m with
      filename := overwrite m.filename off bytes
      writes := m.writes ++ [(off, bytes.length)] } where
  reads := h.reads
  writes := by
    intro x hx
    rcases List.mem_append.1 hx with hx | hx
    · exact h.writes x hx
    · obtain rfl := List.mem_singleton.1 hx
      exact hle
  entered := h.entered

lemma always_load {b : Block} (hb : out.payload = some b) {off len : ℕ} {k : Bytes → MemProg α}
    (h : m.Safe cfd out) (hle : off + len ≤ out.len)
    (hk : ∀ m', m' = { m with reads := m.reads ++ [(b.addr, off, len)] } → m'.Safe cfd out →
      (k (m.content off len)).Always access (Safe cfd out) post m') :
    (MemCall.doLoad b.addr off len >>= k).Always access (Safe cfd out) post m := by
  refine ⟨h, fun (bytes : Bytes) m' hm => ?_⟩
  simp only [access] at hm
  split at hm
  · rename_i hbytes
    cases hm
    rw [hbytes]
    exact hk _ rfl (h.read hb hle)
  · cases hm

lemma always_store {off : ℕ} {bytes : Bytes} {k : Unit → MemProg α} (h : m.Safe cfd out)
    (hle : off + bytes.length ≤ maxFilenameLen)
    (hk : ∀ m', m' = { m with
        filename := overwrite m.filename off bytes
        writes := m.writes ++ [(off, bytes.length)] } → m'.Safe cfd out →
      (k ()).Always access (Safe cfd out) post m') :
    (MemCall.doStore off bytes >>= k).Always access (Safe cfd out) post m := by
  refine ⟨h, fun _ m' hm => ?_⟩
  cases hm
  exact hk _ rfl (h.write hle)

/-- The calls of the worker touch neither the payload nor the array. -/
lemma always_doWork {I : Mem → Prop} (p : WorkProg α) (h : I m) (hp : ∀ a, post a m) :
    (MemCall.doWork p).Always access I post m := by
  induction p with
  | ret a => exact ⟨h, hp a⟩
  | spin => exact h
  | call c k ih =>
    refine ⟨h, fun r m' hm => ?_⟩
    cases hm
    exact ih r

lemma always_work {β : Type} (p : WorkProg β) {k : β → MemProg α} (h : m.Safe cfd out)
    (hk : ∀ a, (k a).Always access (Safe cfd out) post m) :
    (MemCall.doWork p >>= k).Always access (Safe cfd out) post m :=
  Prog.Always.bind (always_doWork p h hk)

/-- The call of `compile_and_stream`. -/
lemma always_enter {p : Ptr} {off len : ℕ} {k : Unit → MemProg α} (h : m.Safe cfd out)
    (hk : (k ()).Always access (Safe cfd out) post
      { m with entered := m.entered ++ [(cfd, m.filename, m.content off len)] }) :
    (MemCall.doEnter cfd p off len >>= k).Always access (Safe cfd out) post m := by
  refine ⟨h, fun _ m' hm => ?_⟩
  cases hm
  exact hk

end Rules

/-! ### The accesses -/

lemma overwrite_zero {array bytes : Bytes} (h : bytes.length ≤ array.length) :
    (overwrite array 0 bytes).take bytes.length = bytes ∧
      (overwrite array 0 bytes).length = array.length := by
  constructor
  · simp [overwrite]
  · simp only [overwrite, List.take_zero, List.nil_append, List.length_append, List.length_drop]
    omega

lemma take_overwrite_nul {array : Bytes} {n : ℕ} (h : n < array.length) :
    (overwrite array n [0]).take (n + 1) = array.take n ++ [0] := by
  have hlen : (array.take n ++ [0]).length = n + 1 := by
    rw [List.length_append, List.length_take, List.length_singleton]
    omega
  rw [overwrite]
  exact List.take_left' hlen

/-- What the decoder has found; without a layout it finds nothing. -/
def Found (out : MsgOut) (m : Mem) : Option (ℕ × ℕ) → Prop
  | none => ¬ ∃ F D, out.StartsWith F D
  | some (off, len) => off + len ≤ out.len ∧ ∃ F, out.StartsWith F (m.content off len) ∧
      m.filename.take (F.length + 1) = F ++ [0]

lemma always_decodeTaskFileMem {cfd : Fd} {out : MsgOut} (hout : out.WellFormed) {b : Block}
    (hb : out.payload = some b) {m : Mem} (hm : m.Start out) :
    (decodeTaskFileMem b.addr out.len).Always access (Safe cfd out)
      (fun res m' => m'.payload = out.payload ∧ m'.entered = [] ∧ Found out m' res) m := by
  have hs : m.Safe cfd out := hm.safe
  have hpay : m.payload = some b := hm.payload.trans hb
  have hcontent (off len : ℕ) : m.content off len = (b.bytes.drop off).take len := by
    simp [content, hpay]
  have hnot (hnone : decodeTaskFile b.bytes out.len = none) : ¬ ∃ F D, out.StartsWith F D := by
    rintro ⟨F, D, hstart⟩
    exact absurd (hnone.symm.trans ((hout.startsWith_iff hb F D).1 hstart)) (by simp)
  rw [decodeTaskFileMem]
  by_cases h6 : out.len < 6
  · rw [if_pos h6]
    exact ⟨hs, hm.payload, hm.entered, hnot (if_pos h6)⟩
  rw [if_neg h6]
  apply always_load hb hs (by omega)
  intro m₁ hm₁ hs₁
  obtain ⟨n, hn⟩ : ∃ n, n = ofBe (m.content 0 2) := ⟨_, rfl⟩
  have hn' : ofBe (b.bytes.take 2) = n := by rw [hn, hcontent, List.drop_zero]
  simp only [← hn]
  by_cases hname : maxFilenameLen ≤ n ∨ out.len < 2 + n + 4
  · rw [if_pos hname]
    subst hm₁
    refine ⟨hs₁, hm.payload, hm.entered, hnot ?_⟩
    simp only [decodeTaskFile, if_neg h6, hn', if_pos hname]
  rw [if_neg hname]
  apply always_load hb hs₁ (by omega)
  intro m₂ hm₂ hs₂
  obtain ⟨F, hF⟩ : ∃ F, F = m₁.content 2 n := ⟨_, rfl⟩
  have hFb : F = (b.bytes.drop 2).take n := by rw [hF, hm₁, ← hcontent]; rfl
  have hFl : F.length = n := by
    rw [hFb, List.length_take, List.length_drop, hout.block b hb]
    omega
  rw [← hF]
  apply always_store hs₂ (by omega)
  intro m₃ hm₃ hs₃
  apply always_store hs₃ (by rw [List.length_singleton]; omega)
  intro m₄ hm₄ hs₄
  have hpay₄ : m₄.payload = m.payload := by rw [hm₄, hm₃, hm₂, hm₁]
  have hent₄ : m₄.entered = m.entered := by rw [hm₄, hm₃, hm₂, hm₁]
  have hname₄ : m₄.filename.take (F.length + 1) = F ++ [0] := by
    obtain ⟨htake, hlen⟩ := overwrite_zero
      (show F.length ≤ m.filename.length by rw [hm.filename]; omega)
    have hfile : m₄.filename = overwrite (overwrite m.filename 0 F) n [0] := by
      rw [hm₄, hm₃, hm₂, hm₁]
    rw [hfile, hFl, take_overwrite_nul (by rw [hlen, hm.filename]; omega), ← hFl, htake]
  have hcontent₄ (off len : ℕ) : m₄.content off len = (b.bytes.drop off).take len := by
    simp [content, hpay₄, hpay]
  apply always_load hb hs₄ (by omega)
  intro m₅ hm₅ hs₅
  have hpay₅ : m₅.payload = out.payload := by rw [hm₅, ← hm.payload, ← hpay₄]
  have hent₅ : m₅.entered = [] := by rw [hm₅, ← hm.entered, ← hent₄]
  obtain ⟨l, hl⟩ : ∃ l, l = ofBe (m₄.content (2 + n) 4) := ⟨_, rfl⟩
  have hl' : ofBe ((b.bytes.drop (2 + n)).take 4) = l := by rw [hl, hcontent₄]
  simp only [← hl]
  by_cases hdata : maxFileSize < l ∨ out.len < 2 + n + 4 + l
  · rw [if_pos hdata]
    refine ⟨hs₅, hpay₅, hent₅, hnot ?_⟩
    simp only [decodeTaskFile, if_neg h6, hn', if_neg hname, hl', if_pos hdata]
  · rw [if_neg hdata]
    refine ⟨hs₅, hpay₅, hent₅, by omega, F, ?_, by rw [hm₅]; exact hname₄⟩
    have hdec : decodeTaskFile b.bytes out.len =
        some (F, (b.bytes.drop (2 + n + 4)).take l) := by
      simp only [decodeTaskFile, if_neg h6, hn', if_neg hname, hl', if_neg hdata, hFb]
    have hc₅ : m₅.content (2 + n + 4) l = (b.bytes.drop (2 + n + 4)).take l := by
      rw [hm₅, ← hcontent₄]
      rfl
    rw [hc₅]
    exact (hout.startsWith_iff hb _ _).2 hdec

lemma always_compileAndStreamMem (rounds : ℕ) {cfd : Fd} {out : MsgOut} {b : Block}
    (hb : out.payload = some b) {m : Mem} (hs : m.Safe cfd out) (hent : m.entered = [])
    {off len : ℕ} (hf : Found out m (some (off, len))) :
    (compileAndStreamMem rounds cfd b.addr off len).Always access (Safe cfd out)
      (fun _ m' => m'.entered ≠ []) m := by
  obtain ⟨hle, F, hstart, hname⟩ := hf
  obtain ⟨m₁, hm₁⟩ : ∃ m₁, m₁ =
    { m with entered := m.entered ++ [(cfd, m.filename, m.content off len)] } := ⟨_, rfl⟩
  have hs₁ : Safe cfd out m₁ := by
    rw [hm₁, hent]
    exact ⟨hs.reads, hs.writes, .inr ⟨F, _, _, hstart, rfl, hname⟩⟩
  have hent₁ : m₁.entered ≠ [] := by simp [hm₁]
  apply always_enter hs
  rw [← hm₁]
  apply always_work _ hs₁
  intro _
  apply always_work _ hs₁
  intro pid
  apply always_work _ hs₁
  intro pid'
  apply always_work _ hs₁
  intro file
  cases file with
  | none =>
    apply always_doWork _ hs₁
    exact fun _ => hent₁
  | some f =>
    apply always_load hb hs₁ hle
    intro m₂ hm₂ hs₂
    apply always_work _ hs₂
    intro _
    apply always_work _ hs₂
    intro _
    apply always_doWork _ hs₂
    intro _
    rw [hm₂]
    exact hent₁

/-- Every access of the `MSG_TASK_FILE` case and of the task it starts; with a layout, it has made
the call when it returns. -/
lemma always_taskFileCaseMem (rounds : ℕ) (cfd : Fd) {out : MsgOut} (hout : out.WellFormed)
    {m : Mem} (hm : m.Start out) :
    (taskFileCaseMem rounds cfd out).Always access (Safe cfd out)
      (fun _ m' => (∃ F D, out.StartsWith F D) → m'.entered ≠ []) m := by
  rw [taskFileCaseMem]
  cases hb : out.payload with
  | none =>
    simp only [hout.null hb]
    refine ⟨hm.safe, ?_⟩
    rintro ⟨F, D, h⟩
    exact absurd h (MsgOut.not_startsWith_of_null hb F D)
  | some b =>
    apply Prog.Always.bind
    apply (always_decodeTaskFileMem hout hb hm).mono_inv
    rintro res m' hs ⟨hpay, hent, hfound⟩
    cases res with
    | none => exact ⟨hs, fun hstart => absurd hstart hfound⟩
    | some x =>
      apply Prog.Always.bind
      apply (always_compileAndStreamMem rounds hb hs hent hfound).mono_inv
      rintro _ m'' hs'' hent''
      apply always_work _ hs''
      exact fun _ => ⟨hs'', fun _ => hent''⟩

/-! ### The call of `compile_and_stream` -/

section Reach

variable {α : Type} {m : Mem} {q : MemProg α}

/-- The memory in which the program gets to `q`. -/
def Gets (p q : MemProg α) (m : Mem) : Prop := ∃ t, Exec access p m q t

lemma gets_load (p : Ptr) (off len : ℕ) {k : Bytes → MemProg α}
    (h : Gets (k (m.content off len)) q { m with reads := m.reads ++ [(p, off, len)] }) :
    Gets (MemCall.doLoad p off len >>= k) q m := by
  obtain ⟨t, h⟩ := h
  exact ⟨t, .call (if_pos rfl) h⟩

lemma gets_store (off : ℕ) (bytes : Bytes) {k : Unit → MemProg α}
    (h : Gets (k ()) q { m with
      filename := overwrite m.filename off bytes
      writes := m.writes ++ [(off, bytes.length)] }) :
    Gets (MemCall.doStore off bytes >>= k) q m := by
  obtain ⟨t, h⟩ := h
  exact ⟨t, Exec.step () _ rfl h⟩

/-- The decoder reaches its end when there is a layout. -/
lemma gets_decodeTaskFileMem {plen : ℕ} {b : Block} (hpay : m.payload = some b) {F D : Bytes}
    (hdec : decodeTaskFile b.bytes plen = some (F, D)) :
    ∃ x, Gets (decodeTaskFileMem b.addr plen) (.ret (some x)) m := by
  simp only [decodeTaskFile] at hdec
  split at hdec
  · cases hdec
  split at hdec
  · cases hdec
  split at hdec
  · cases hdec
  rename_i h6 hname hdata
  obtain ⟨n, hn⟩ : ∃ n, n = ofBe (b.bytes.take 2) := ⟨_, rfl⟩
  obtain ⟨l, hl⟩ : ∃ l, l = ofBe ((b.bytes.drop (2 + n)).take 4) := ⟨_, rfl⟩
  rw [← hn] at hname hdata
  rw [← hl] at hdata
  refine ⟨(2 + n + 4, l), ?_⟩
  rw [decodeTaskFileMem, if_neg h6]
  apply gets_load
  simp only [content, hpay, Option.map_some, Option.getD_some, List.drop_zero, ← hn, if_neg hname]
  apply gets_load
  apply gets_store
  apply gets_store
  apply gets_load
  simp only [content, Option.map_some, Option.getD_some, ← hl, if_neg hdata]
  exact ⟨_, .refl _ _⟩

/-- With a layout, the `MSG_TASK_FILE` case reaches the call. -/
lemma exec_taskFileCaseMem (rounds : ℕ) (cfd : Fd) {out : MsgOut} (hout : out.WellFormed)
    (hm : m.Start out) {F D : Bytes} (h : out.StartsWith F D) :
    ∃ q m', Exec access (taskFileCaseMem rounds cfd out) m q m' ∧ m'.entered ≠ [] := by
  rw [taskFileCaseMem]
  cases hb : out.payload with
  | none => exact absurd h (MsgOut.not_startsWith_of_null hb F D)
  | some b =>
    have hdec := (hout.startsWith_iff hb F D).1 h
    obtain ⟨⟨off, len⟩, m', hexec⟩ := gets_decodeTaskFileMem (hm.payload.trans hb) hdec
    refine ⟨_, _, (hexec.bind _).trans (Exec.step () _ rfl (.refl _ _)), ?_⟩
    simp

end Reach

/-- **The task decoder is safe and exact.** For every payload that `recv_msg` hands over and
whatever the calls of the task return: all reads are below the payload length, all writes inside
`filename`, and `compile_and_stream` is called at most once, with a layout that the payload starts
with, the name in the array followed by a `NUL`. It is called if and only if the payload starts
with such a layout, of which there is at most one; and then every execution that returns has called
it. -/
theorem task_decoder_safe_exact (rounds : ℕ) (cfd : Fd) (out : MsgOut) (m : Mem)
    (hout : out.WellFormed) (hm : m.Start out) :
    (taskFileCaseMem rounds cfd out).Always access (Safe cfd out)
      (fun _ m' => (∃ F D, out.StartsWith F D) → m'.entered ≠ []) m ∧
    ((∃ q m', Exec access (taskFileCaseMem rounds cfd out) m q m' ∧ m'.entered ≠ []) ↔
      ∃ F D, out.StartsWith F D) ∧
    ∀ F D F' D', out.StartsWith F D → out.StartsWith F' D' → F = F' ∧ D = D' := by
  have halways := always_taskFileCaseMem rounds cfd hout hm
  refine ⟨halways, ⟨?_, ?_⟩, ?_⟩
  · rintro ⟨q, m', hexec, hent⟩
    rcases (halways.exec hexec).inv.entered with hnil | ⟨F, D, -, hstart, -⟩
    · exact absurd hnil hent
    · exact ⟨F, D, hstart⟩
  · rintro ⟨F, D, hstart⟩
    exact exec_taskFileCaseMem rounds cfd hout hm hstart
  · intro F D F' D' h h'
    cases hb : out.payload with
    | none => exact absurd h (MsgOut.not_startsWith_of_null hb F D)
    | some b =>
      have hdec := (hout.startsWith_iff hb F D).1 h
      have hdec' := (hout.startsWith_iff hb F' D').1 h'
      simpa using hdec.symm.trans hdec'

/-- The layout of the name `a` and the data `7`, with a byte behind it. -/
theorem task_decoder_safe_exact_one :
    let b : Block := ⟨1, [0, 1, 97, 0, 0, 0, 1, 7, 9, 0]⟩
    let out : MsgOut := { type := some msgTaskFile, payload := some b, len := 9 }
    let m : Mem := { payload := some b, filename := List.replicate maxFilenameLen 255 }
    (taskFileCaseMem 3 4 out).Always access (Safe 4 out)
      (fun _ m' => (∃ F D, out.StartsWith F D) → m'.entered ≠ []) m ∧
    ((∃ q m', Exec access (taskFileCaseMem 3 4 out) m q m' ∧ m'.entered ≠ []) ↔
      ∃ F D, out.StartsWith F D) ∧
    ∀ F D F' D', out.StartsWith F D → out.StartsWith F' D' → F = F' ∧ D = D' := by
  intro b out m
  have hout : out.WellFormed := ⟨by decide, nofun, by rintro _ ⟨⟩; rfl⟩
  have hm : m.Start out := ⟨rfl, List.length_replicate, rfl, rfl, rfl⟩
  exact task_decoder_safe_exact 3 4 out m hout hm

end Mem
end P2PNode
