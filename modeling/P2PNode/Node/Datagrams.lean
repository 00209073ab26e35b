import P2PNode.Lib.Always
import P2PNode.Node.Announcer

/-!
# The listener and its buffer (`discovery.c`)

`listener_thread` receives every datagram into the same array. The loop is written here over that
array: a datagram overwrites its front, and behind it stand the bytes of earlier datagrams. What the
thread does about a datagram is compared with a reaction that is stated for the datagram alone.
-/

namespace P2PNode

open Effect

/-! ### The loop over the array -/

/-- A `size_t` (64 bits) converted to `ssize_t`. -/
def ssize (n : ℕ) : ℤ := (BitVec.ofNat 64 n).toInt

/-- `buf` of `listener_thread`. -/
structure ListenBuf where
  bytes : Bytes
  length_eq : bytes.length = listenBufSize

/-- The number of bytes that `recvfrom` stores of a datagram, the rest being discarded. -/
def storedLen (data : Bytes) : ℕ := min data.length listenBufSize

/-- The array after `recvfrom` has stored a datagram. -/
def ListenBuf.store (buf : ListenBuf) (data : Bytes) : ListenBuf where
  bytes := data.take listenBufSize ++ buf.bytes.drop (storedLen data)
  length_eq := by
    rw [List.length_append, List.length_take, List.length_drop, buf.length_eq, storedLen]
    omega

/-- The body of the loop after `recvfrom`, `n` being what it returned. -/
def handleDatagram (local_ip : Bytes) (src : Addr) (n : ℤ) (buf : ListenBuf) : UdpProg Unit :=
  if n < ssize headerSize then return ()
  else
    let plen := headerLen buf.bytes
    if n < ssize (headerSize + plen) then return ()
    else if src.ip = local_ip then return ()
    else if headerType buf.bytes = msgHello then
      if plen < helloSize then return ()
      else do
        UdpCall.doPeerListAdd src.ip (ofBe ((buf.bytes.drop headerSize).take 2))
        UdpCall.doPeerListTouch src.ip
    else if headerType buf.bytes = msgBye then UdpCall.doPeerListRemove src.ip
    else return ()

/-- The loop of `listener_thread`; `src` holds the source of the datagram received last. -/
def listenerLoopBuf (local_ip : Bytes) (listen_fd : Fd) :
    ℕ → Addr → ListenBuf → UdpProg Unit
  | 0, _, _ => .spin
  | rounds + 1, src, buf => do
    match ← UdpCall.doRecvfrom listen_fd listenBufSize with
    | none =>
      handleDatagram local_ip src (-1) buf
      listenerLoopBuf local_ip listen_fd rounds src buf
    | some (src, data) =>
      handleDatagram local_ip src (storedLen data) (buf.store data)
      listenerLoopBuf local_ip listen_fd rounds src (buf.store data)

/-! ### What the bytes behind a datagram do not change -/

lemma ssize_of_lt {n : ℕ} (h : n < 2 ^ 63) : ssize n = n := by
  have hn : (BitVec.ofNat 64 n).toNat = n := by
    rw [BitVec.toNat_ofNat]
    exact Nat.mod_eq_of_lt (h.trans (by decide))
  rw [ssize, BitVec.toInt_eq_toNat_of_lt (by rw [hn]; omega), hn]

lemma headerLen_lt (bs : Bytes) : headerLen bs < 2 ^ 32 := by
  have hlen : ((bs.drop 2).take 4).length ≤ 4 := List.length_take_le _ _
  exact (BigEndian.decode_lt _).trans_le (Nat.pow_le_pow_right (by decide) hlen)

/-- The fields of a packet that starts the buffer. -/
lemma take_drop_append {bs : Bytes} {off len : ℕ} (h : off + len ≤ bs.length) (rest : Bytes) :
    ((bs ++ rest).drop off).take len = (bs.drop off).take len := by
  rw [List.drop_append_of_le_length (Nat.le_of_add_right_le h)]
  apply List.take_append_of_le_length
  rw [List.length_drop]
  exact Nat.le_sub_of_add_le' h

lemma headerType_append {bs : Bytes} (h : headerSize ≤ bs.length) (rest : Bytes) :
    headerType (bs ++ rest) = headerType bs := by
  cases bs with
  | nil => cases h
  | cons b bs => rfl

lemma headerLen_append {bs : Bytes} (h : headerSize ≤ bs.length) (rest : Bytes) :
    headerLen (bs ++ rest) = headerLen bs := by
  have h6 : 2 + 4 ≤ bs.length := Nat.le_trans (by decide) h
  rw [headerLen, take_drop_append h6, headerLen]

@[simp] lemma length_stored (data : Bytes) :
    (data.take listenBufSize).length = storedLen data := by
  rw [List.length_take, storedLen, Nat.min_comm]

/-- What the thread does depends on the bytes of the datagram alone. -/
lemma handleDatagram_store (local_ip : Bytes) (src : Addr) (data : Bytes) (buf : ListenBuf) :
    handleDatagram local_ip src (storedLen data) (buf.store data) =
      handleAnnouncement local_ip (some (src, data.take listenBufSize)) := by
  obtain ⟨t, ht⟩ : ∃ t, t = data.take listenBufSize := ⟨_, rfl⟩
  have hlen : t.length = storedLen data := by rw [ht, length_stored]
  have hbuf : (buf.store data).bytes = t ++ buf.bytes.drop (storedLen data) := by
    rw [ht, ListenBuf.store]
  have h8 : ssize headerSize = headerSize := ssize_of_lt (by decide)
  simp only [handleDatagram, handleAnnouncement, hbuf, ← ht, ← hlen, h8, Nat.cast_lt]
  by_cases hshort : t.length < headerSize
  · rw [if_pos hshort, if_pos hshort]
  have hle : headerSize ≤ t.length := Nat.le_of_not_lt hshort
  have hplen : ssize (headerSize + headerLen t) = (headerSize + headerLen t : ℕ) := by
    apply ssize_of_lt
    have := headerLen_lt t
    rw [headerSize]
    omega
  rw [if_neg hshort, if_neg hshort, headerLen_append hle, headerType_append hle, hplen]
  simp only [Nat.cast_lt]
  by_cases hfit : t.length < headerSize + headerLen t
  · rw [if_pos hfit, if_pos hfit]
  rw [if_neg hfit, if_neg hfit]
  by_cases hhello : headerLen t < helloSize
  · simp only [if_pos hhello]
  · have hport : headerSize + 2 ≤ t.length := by
      have h2 : 2 ≤ helloSize := by decide
      omega
    rw [take_drop_append hport]

/-- Nothing is done when `recvfrom` fails. -/
lemma handleDatagram_err (local_ip : Bytes) (src : Addr) (buf : ListenBuf) :
    handleDatagram local_ip src (-1) buf = .ret () := by
  rw [handleDatagram, if_pos, Prog.pure_def]
  rw [ssize_of_lt (by decide)]
  decide

/-! ### The reaction to a datagram -/

/-- A call of the peer list. -/
inductive ListCall where
  | add (ip : Bytes) (port : ℕ)
  | touch (ip : Bytes)
  | remove (ip : Bytes)
  deriving DecidableEq

/-- A datagram of a type whose length field fits into what is received of it. -/
structure Fits (type : MsgType) (data : Bytes) : Prop where
  type : headerType data = type
  header : headerSize ≤ storedLen data
  payload : headerLen data ≤ storedLen data - headerSize

instance (type : MsgType) (data : Bytes) : Decidable (Fits type data) :=
  decidable_of_iff (headerType data = type ∧ headerSize ≤ storedLen data ∧
    headerLen data ≤ storedLen data - headerSize)
    ⟨fun ⟨h₁, h₂, h₃⟩ => ⟨h₁, h₂, h₃⟩, fun h => ⟨h.type, h.header, h.payload⟩⟩

/-- What a node is to do about one datagram. -/
def reaction (local_ip : Bytes) : Option (Addr × Bytes) → List ListCall
  | none => []
  | some (src, data) =>
    if src.ip = local_ip then []
    else if Fits msgHello data ∧ helloSize ≤ headerLen data then
      [.add src.ip (ofBe ((data.drop headerSize).take 2)), .touch src.ip]
    else if Fits msgBye data then [.remove src.ip]
    else []

/-- An answer of `recvfrom`, with the calls of the peer list that came before the next one. -/
structure Heard where
  got : Option (Addr × Bytes)
  calls : List ListCall := []
  deriving DecidableEq

namespace Heard

/-- A call of the peer list; the answers of `recvfrom` stand in the log from the last to the
first. -/
def note (c : ListCall) : List Heard → List Heard
  | [] => [⟨none, [c]⟩]
  | h :: log => { h with calls := h.calls ++ [c] } :: log

/-- Any datagrams can arrive. -/
def listen : Kernel UdpCall UdpCall.Ret (List Heard)
  | log, .recvfrom _ _, got => some (⟨got, []⟩ :: log)
  | log, .peerListAdd ip port, _ => some (note (.add ip port) log)
  | log, .peerListTouch ip, _ => some (note (.touch ip) log)
  | log, .peerListRemove ip, _ => some (note (.remove ip) log)
  | log, _, _ => some log

/-- Every datagram had its own reaction. -/
def Done (local_ip : Bytes) (log : List Heard) : Prop :=
  ∀ h ∈ log, h.calls = reaction local_ip h.got

/-- Every datagram had its own reaction, that to the last one being under way. -/
def Alone (local_ip : Bytes) : List Heard → Prop
  | [] => True
  | h :: log => h.calls <+: reaction local_ip h.got ∧ Done local_ip log

section Rules

variable {local_ip : Bytes} {got : Option (Addr × Bytes)} {log : List Heard} {h : Heard}

lemma Done.cons (hlog : Done local_ip log) (hh : h.calls = reaction local_ip h.got) :
    Done local_ip (h :: log) := by
  intro x hx
  rcases List.mem_cons.1 hx with rfl | hx
  · exact hh
  · exact hlog x hx

lemma Done.alone (hlog : Done local_ip log) : Alone local_ip log := by
  cases log with
  | nil => trivial
  | cons h log =>
    have hcalls := hlog h List.mem_cons_self
    exact ⟨hcalls ▸ List.prefix_rfl, fun x hx => hlog x (List.mem_cons_of_mem _ hx)⟩

/-- The calls of a program are the rest of the reaction to the last datagram. -/
def Reacts (local_ip : Bytes) (p : UdpProg Unit) (got : Option (Addr × Bytes))
    (calls : List ListCall) : Prop :=
  ∀ log, Done local_ip log →
    p.Always listen (Alone local_ip) (fun _ log' => ∃ h, h.got = got ∧ Done local_ip (h :: log) ∧
      log' = h :: log) (⟨got, calls⟩ :: log)

lemma reacts_ret {calls : List ListCall} (hc : calls = reaction local_ip got) :
    Reacts local_ip (.ret ()) got calls := by
  intro log hlog
  have hd : Done local_ip (⟨got, calls⟩ :: log) := hlog.cons hc
  exact ⟨hd.alone, ⟨got, calls⟩, rfl, hd, rfl⟩

/-- A call of the peer list. -/
lemma reacts_call {c : UdpCall} {x : ListCall} {calls : List ListCall} {k : c.Ret → UdpProg Unit}
    (hc : ∀ log r, listen log c r = some (note x log))
    (hpre : calls <+: reaction local_ip got)
    (hk : ∀ r, Reacts local_ip (k r) got (calls ++ [x])) :
    Reacts local_ip (.call c k) got calls := by
  intro log hlog
  refine ⟨⟨hpre, hlog⟩, fun r log' hr => ?_⟩
  rw [hc] at hr
  cases hr
  exact hk r log hlog

end Rules

/-- The reaction in the order in which the thread looks at the fields. -/
lemma reaction_of_stored (local_ip : Bytes) (src : Addr) {data t : Bytes}
    (ht : t = data.take listenBufSize) (hle : headerSize ≤ t.length) :
    reaction local_ip (some (src, data)) =
      if t.length < headerSize + headerLen t then []
      else if src.ip = local_ip then []
      else if headerType t = msgHello then
        if headerLen t < helloSize then []
        else [.add src.ip (ofBe ((t.drop headerSize).take 2)), .touch src.ip]
      else if headerType t = msgBye then [.remove src.ip]
      else [] := by
  have hlen : t.length = storedLen data := by rw [ht, length_stored]
  have hdata : data = t ++ data.drop listenBufSize := by rw [ht, List.take_append_drop]
  have htype : headerType data = headerType t := by rw [hdata, headerType_append hle]
  have hplen : headerLen data = headerLen t := by rw [hdata, headerLen_append hle]
  have hfits (type : MsgType) : Fits type data ↔
      headerType t = type ∧ headerSize + headerLen t ≤ t.length := by
    constructor
    · rintro ⟨h₁, h₂, h₃⟩
      rw [htype] at h₁
      rw [hplen, ← hlen] at h₃
      exact ⟨h₁, by omega⟩
    · rintro ⟨h₁, h₂⟩
      refine ⟨htype.trans h₁, hlen ▸ hle, ?_⟩
      rw [hplen, ← hlen]
      omega
  simp only [reaction, hfits, hplen]
  by_cases hfit : t.length < headerSize + headerLen t
  · have hno : ¬ headerSize + headerLen t ≤ t.length := Nat.not_le_of_lt hfit
    simp [hfit, hno]
  have hyes : headerSize + headerLen t ≤ t.length := Nat.le_of_not_lt hfit
  simp only [hfit, hyes, and_true, if_false]
  by_cases hhello : headerType t = msgHello
  · by_cases hsize : headerLen t < helloSize
    · simp [hhello, hsize, Nat.not_le_of_lt hsize, show msgHello ≠ msgBye by decide]
    · have h2 : headerSize + 2 ≤ t.length := by
        have : 2 ≤ helloSize := by decide
        omega
      have hport : (data.drop headerSize).take 2 = (t.drop headerSize).take 2 := by
        rw [hdata, take_drop_append h2]
      simp [hhello, hsize, Nat.le_of_not_lt hsize, hport]
  · simp [hhello]

/-- The own HELLO of a node enters its port. -/
lemma reaction_broadcastPacket {local_ip : Bytes} {own_port : ℕ} (hport : own_port < 2 ^ 16)
    {src : Addr} (hip : src.ip ≠ local_ip) (name : Bytes) :
    reaction local_ip (some (src, broadcastPacket msgHello own_port name)) =
      [.add src.ip own_port, .touch src.ip] := by
  have hlen : storedLen (broadcastPacket msgHello own_port name) = headerSize + helloSize := by
    rw [← length_stored, take_broadcastPacket, length_broadcastPacket]
  have hfits : Fits msgHello (broadcastPacket msgHello own_port name) := by
    constructor
    · rfl
    · rw [hlen]
      exact Nat.le_add_right _ _
    · rw [hlen, headerLen_broadcastPacket, Nat.add_sub_cancel_left]
  rw [reaction, if_neg hip, if_pos ⟨hfits, (headerLen_broadcastPacket _ _ _).ge⟩,
    port_broadcastPacket msgHello hport]

/-- The thread reacts to a datagram as it should. -/
lemma reacts_handleDatagram (local_ip : Bytes) (src : Addr) (data : Bytes) (buf : ListenBuf) :
    Reacts local_ip (handleDatagram local_ip src (storedLen data) (buf.store data))
      (some (src, data)) [] := by
  obtain ⟨t, ht⟩ : ∃ t, t = data.take listenBufSize := ⟨_, rfl⟩
  have hlen : t.length = storedLen data := by rw [ht, length_stored]
  rw [handleDatagram_store, ← ht]
  simp only [handleAnnouncement, Prog.pure_def]
  by_cases hshort : t.length < headerSize
  · rw [if_pos hshort]
    apply reacts_ret
    have hno (type : MsgType) : ¬ Fits type data :=
      fun h => Nat.not_le_of_lt (hlen ▸ hshort) h.header
    simp [reaction, hno]
  have hre := reaction_of_stored local_ip src ht (Nat.le_of_not_lt hshort)
  rw [if_neg hshort]
  split
  · rename_i hfit
    exact reacts_ret (by rw [hre, if_pos hfit])
  rename_i hfit
  rw [if_neg hfit] at hre
  split
  · rename_i hsrc
    exact reacts_ret (by rw [hre, if_pos hsrc])
  rename_i hsrc
  rw [if_neg hsrc] at hre
  split
  · rename_i hhello
    rw [if_pos hhello] at hre
    split
    · rename_i hsize
      exact reacts_ret (by rw [hre, if_pos hsize])
    · rename_i hsize
      rw [if_neg hsize] at hre
      apply reacts_call (fun _ _ => rfl) List.nil_prefix
      intro _
      apply reacts_call (fun _ _ => rfl)
      · rw [hre]
        exact ⟨_, rfl⟩
      · intro _
        exact reacts_ret hre.symm
  rename_i hhello
  rw [if_neg hhello] at hre
  split
  · rename_i hbye
    rw [if_pos hbye] at hre
    apply reacts_call (fun _ _ => rfl) List.nil_prefix
    intro _
    exact reacts_ret hre.symm
  · rename_i hbye
    exact reacts_ret (by rw [hre, if_neg hbye])

/-- The loop reacts to every datagram alone, whatever the array holds. -/
lemma always_listenerLoopBuf (local_ip : Bytes) (listen_fd : Fd) (rounds : ℕ) (src : Addr)
    (buf : ListenBuf) {log : List Heard} (hlog : Done local_ip log) :
    (listenerLoopBuf local_ip listen_fd rounds src buf).Always listen (Alone local_ip)
      (fun _ log => Done local_ip log) log := by
  induction rounds generalizing src buf log with
  | zero => exact hlog.alone
  | succ rounds ih =>
    refine ⟨hlog.alone, fun (got : Option (Addr × Bytes)) log' hr => ?_⟩
    cases hr
    cases got with
    | none =>
      simp only [handleDatagram_err]
      exact ih src buf (hlog.cons rfl)
    | some x =>
      obtain ⟨src, data⟩ := x
      have hbody := reacts_handleDatagram local_ip src data buf log hlog
      refine Prog.Always.bind (p := handleDatagram local_ip src (storedLen data) (buf.store data))
        (hbody.mono ?_)
      rintro _ _ ⟨h, -, hd, rfl⟩
      exact ih src (buf.store data) hd

lemma halts_handleDatagram (local_ip : Bytes) (src : Addr) (n : ℤ) (buf : ListenBuf) :
    (handleDatagram local_ip src n buf).Halts := by
  simp only [handleDatagram, Prog.pure_def]
  split
  · trivial
  split
  · trivial
  split
  · trivial
  split
  · split
    · trivial
    · exact fun _ _ => trivial
  split
  · exact fun _ => trivial
  · trivial

/-- Some answer to every call is accepted. -/
lemma listen_total (log : List Heard) (c : UdpCall) : ∃ r log', listen log c r = some log' := by
  cases c with
  | sock c =>
    cases c with
    | socket kind => exact ⟨(0 : ℤ), log, rfl⟩
    | setsockopt fd opt => exact ⟨(), log, rfl⟩
    | bind fd port => exact ⟨(0 : ℤ), log, rfl⟩
    | inetPton ip => exact ⟨(0 : ℤ), log, rfl⟩
    | connect fd ip port => exact ⟨(0 : ℤ), log, rfl⟩
    | close fd => exact ⟨(), log, rfl⟩
  | load c =>
    cases c with
    | fetchAdd c => exact ⟨(), log, rfl⟩
    | fetchSub c => exact ⟨(), log, rfl⟩
    | atomicLoad c => exact ⟨(0 : ℕ), log, rfl⟩
    | readLoadavg => exact ⟨.noFile, log, rfl⟩
    | nprocessorsOnln => exact ⟨(0 : ℤ), log, rfl⟩
  | recvfrom fd size => exact ⟨none, _, rfl⟩
  | sendto fd dst data => exact ⟨(), log, rfl⟩
  | peerListAdd ip port => exact ⟨(), _, rfl⟩
  | peerListTouch ip => exact ⟨(), _, rfl⟩
  | peerListRemove ip => exact ⟨(), _, rfl⟩

/-- The thread takes any sequence of datagrams. -/
lemma exec_listenerLoopBuf (local_ip : Bytes) (listen_fd : Fd) (rounds : ℕ)
    (gots : List (Option (Addr × Bytes))) (src : Addr) (buf : ListenBuf) {log : List Heard}
    (hlog : Done local_ip log) :
    ∃ src' buf', Exec listen (listenerLoopBuf local_ip listen_fd (gots.length + rounds) src buf) log
      (listenerLoopBuf local_ip listen_fd rounds src' buf')
      ((gots.map fun got => ⟨got, reaction local_ip got⟩).reverse ++ log) := by
  induction gots generalizing src buf log with
  | nil =>
    rw [List.length_nil, Nat.zero_add]
    exact ⟨src, buf, .refl _ _⟩
  | cons got gots ih =>
    have hcons : Done local_ip (⟨got, reaction local_ip got⟩ :: log) := hlog.cons rfl
    rw [List.map_cons, List.reverse_cons, List.append_assoc, List.length_cons,
      Nat.add_right_comm]
    cases got with
    | none =>
      obtain ⟨src', buf', hx⟩ := ih src buf hcons
      refine ⟨src', buf', .step none _ rfl ?_⟩
      simp only [handleDatagram_err]
      exact hx
    | some x =>
      obtain ⟨from_addr, data⟩ := x
      obtain ⟨src', buf', hx⟩ := ih from_addr (buf.store data) hcons
      have hbody := reacts_handleDatagram local_ip from_addr data buf log hlog
      obtain ⟨⟨⟩, t, ht⟩ := (halts_handleDatagram local_ip from_addr (storedLen data)
        (buf.store data)).exec (s := ⟨some (from_addr, data), []⟩ :: log) listen_total
      obtain ⟨-, ⟨got, calls⟩, hgot, hdone, rfl⟩ := hbody.exec ht
      obtain rfl : calls = reaction local_ip got := hdone _ List.mem_cons_self
      simp only at hgot
      rw [hgot] at ht
      exact ⟨src', buf', .step (some (from_addr, data)) _ rfl ((ht.bind _).trans hx)⟩

end Heard

/-- **Discovery reacts to each datagram alone.** Whatever the array holds at first and whatever
datagrams arrive, the listener makes for each of them the calls of its own reaction, before it
receives the next one; it does so for every sequence of datagrams. A HELLO that `send_broadcast`
puts together is accepted and enters the port of its node. -/
theorem datagrams_alone (local_ip : Bytes) (listen_fd : Fd) (src : Addr) (buf : ListenBuf) :
    (∀ rounds p log,
      Exec Heard.listen (listenerLoopBuf local_ip listen_fd rounds src buf) [] p log →
        Heard.Alone local_ip log) ∧
    (∀ rounds (gots : List (Option (Addr × Bytes))), ∃ src' buf',
      Exec Heard.listen (listenerLoopBuf local_ip listen_fd (gots.length + rounds) src buf) []
        (listenerLoopBuf local_ip listen_fd rounds src' buf')
        (gots.map fun got => (⟨got, reaction local_ip got⟩ : Heard)).reverse) ∧
    ∀ own_port < 2 ^ 16, ∀ (bcast_fd : Fd) (from_addr : Addr), from_addr.ip ≠ local_ip →
      (sendBroadcast bcast_fd own_port msgHello).Only fun c => ∀ fd dst data,
        c = .sendto fd dst data → reaction local_ip (some (from_addr, data)) =
          [.add from_addr.ip own_port, .touch from_addr.ip] := by
  refine ⟨fun rounds p log hx => ?_, fun rounds gots => ?_,
    fun own_port hport bcast_fd addr hip => ?_⟩
  · have hnil : Heard.Done local_ip [] := nofun
    exact ((Heard.always_listenerLoopBuf local_ip listen_fd rounds src buf hnil).exec hx).inv
  · have hnil : Heard.Done local_ip [] := nofun
    obtain ⟨src', buf', hx⟩ :=
      Heard.exec_listenerLoopBuf local_ip listen_fd rounds gots src buf hnil
    rw [List.append_nil] at hx
    exact ⟨src', buf', hx⟩
  · rw [sendBroadcast]
    split
    · trivial
    · refine ⟨nofun, fun name => ⟨?_, fun _ => trivial⟩⟩
      rintro fd dst data ⟨⟩
      exact Heard.reaction_broadcastPacket hport hip name

/-- An array of zeros. -/
def ListenBuf.zero : ListenBuf := ⟨List.replicate listenBufSize 0, List.length_replicate⟩

/-- The second datagram is the first byte of a HELLO; behind it stands the rest of the one before,
which enters nothing again. -/
theorem datagrams_alone_two : ∃ p log,
    Exec Heard.listen (listenerLoopBuf [49] 3 2 ⟨[50], 1⟩ .zero) [] p log ∧
      Heard.Alone [49] log ∧
      log = [⟨some (⟨[51], 9⟩, [1]), []⟩,
        ⟨some (⟨[51], 9⟩, broadcastPacket msgHello 7777 []), [.add [51] 7777, .touch [51]]⟩] := by
  obtain ⟨halone, hall, -⟩ := datagrams_alone [49] 3 ⟨[50], 1⟩ .zero
  obtain ⟨src', buf', hx⟩ :=
    hall 0 [some (⟨[51], 9⟩, broadcastPacket msgHello 7777 []), some (⟨[51], 9⟩, [1])]
  refine ⟨_, _, hx, halone 2 _ _ hx, ?_⟩
  decide +kernel

end P2PNode
