import P2PNode.Lib.Interleave
import P2PNode.Node.Discovery

/-!
# Which load requests are answered

The two threads on the discovery port, with a kernel that hands each arriving datagram to one of
their sockets. In every run the responder answers every load request handed to its socket, once and
to its source; the listener drops those handed to its own.
-/

namespace P2PNode

open Effect

/-! ### The node -/

/-- What a run does not change: the two sockets, the address of the node and the bit patterns of
the loads. -/
structure UdpNode where
  listen_fd : Fd
  respond_fd : Fd
  local_ip : Bytes
  bits : ExtRat → ℕ
  listen_nonneg : ¬ listen_fd < 0
  respond_nonneg : ¬ respond_fd < 0
  distinct : listen_fd ≠ respond_fd

/-- A datagram and the socket that the kernel hands it to. -/
structure Arrival where
  src : Addr
  data : Bytes
  fd : Fd

/-- A datagram that was sent, and the number of the datagram that its thread had received last. -/
structure Reply where
  cause : Option ℕ
  dst : Addr
  data : Bytes

/-- The datagrams that arrived, numbered in their order; those waiting at each socket and those
taken from it, with their numbers; and the datagrams sent. -/
structure UdpWorld where
  arrived : List Arrival := []
  queue : Fd → List (Arrival × ℕ) := fun _ => []
  taken : Fd → List (Arrival × ℕ) := fun _ => []
  replies : List Reply := []

namespace UdpNode

variable (N : UdpNode)

/-- The socket of each thread. -/
def fdOf (i : ℕ) : Fd := if i = 0 then N.listen_fd else N.respond_fd

/-- `recvfrom` on a socket: an error, or the first waiting datagram, cut to the buffer. -/
def recvfrom (w : UdpWorld) (fd : Fd) (size : ℕ) : Option (Addr × Bytes) → Option UdpWorld
  | none => some w
  | some (src, data) =>
    match w.queue fd with
    | [] => none
    | x :: rest =>
      if src = x.1.src ∧ data = x.1.data.take size then
        some { w with
          queue := Function.update w.queue fd rest
          taken := Function.update w.taken fd (w.taken fd ++ [x]) }
      else none

def call (w : UdpWorld) (i : ℕ) : (c : UdpCall) → c.Ret → Option UdpWorld
  | .sock (.socket _), (fd : ℤ) => if fd = N.fdOf i then some w else none
  | .sock (.setsockopt _ _), _ => some w
  | .sock (.bind _ _), (ret : ℤ) => if ret = 0 then some w else none
  | .sock _, _ => none
  | .load _, _ => some w
  | .recvfrom fd size, r => recvfrom w fd size r
  | .sendto fd dst data, _ => some { w with
      replies := w.replies ++ [⟨(w.taken fd).getLast?.map Prod.snd, dst, data⟩] }
  | .peerListAdd _ _, _ => some w
  | .peerListTouch _, _ => some w
  | .peerListRemove _, _ => some w

/-- A datagram arrives at one of the two sockets. -/
def arrive (w : UdpWorld) (a : Arrival) : Option UdpWorld :=
  if a.fd = N.listen_fd ∨ a.fd = N.respond_fd then
    some { w with
      arrived := w.arrived ++ [a]
      queue := Function.update w.queue a.fd (w.queue a.fd ++ [(a, w.arrived.length)]) }
  else none

def sys : Conc UdpCall UdpCall.Ret UdpWorld Arrival where
  call := N.call
  env := N.arrive
  spawn := fun _ _ => none

/-- The threads before their first call. -/
def start (rounds : ℕ) : Conf UdpCall UdpCall.Ret UdpWorld where
  threads := [listenerThread N.local_ip rounds, loadResponderThread N.bits rounds]
  world := {}

end UdpNode

/-- A datagram that is a well-formed `MSG_LOAD_REQ` header. -/
def Arrival.IsLoadReq (a : Arrival) : Prop :=
  a.data.length = headerSize ∧ headerType a.data = msgLoadReq ∧ headerLen a.data = 0

/-- What the responder takes for a load request. -/
def isRequest (data : Bytes) : Bool :=
  decide (headerSize ≤ data.length) && decide (headerType data = msgLoadReq)

/-- A datagram that is a `MSG_LOAD_RESP`. -/
def isLoadResp (data : Bytes) : Bool :=
  decide (data.length = headerSize + loadRespSize) && decide (headerType data = msgLoadResp)

namespace UdpWorld

/-- The datagrams sent because of the datagram `n`. -/
def repliesTo (w : UdpWorld) (n : ℕ) : List Reply := w.replies.filter fun r => r.cause = some n

/-- Exactly one datagram was sent because of the datagram `n`: a `MSG_LOAD_RESP` to its source. -/
def Answered (w : UdpWorld) (n : ℕ) (a : Arrival) : Prop :=
  ∃ data, w.repliesTo n = [⟨some n, a.src, data⟩] ∧ isLoadResp data = true

end UdpWorld

/-! ### What one thread does -/

/-- The states of a thread: the listener, the responder waiting for a datagram, and the responder
with a request to answer. -/
inductive UdpState where
  | listening
  | waiting
  | answering (src : Addr)
  | bad

namespace UdpNode

variable (N : UdpNode)

/-- The next state of a thread. -/
@[simp] def auto : Kernel UdpCall UdpCall.Ret UdpState
  | .listening, .sock (.socket _), (fd : ℤ) => if fd = N.listen_fd then some .listening else none
  | .waiting, .sock (.socket _), (fd : ℤ) => if fd = N.respond_fd then some .waiting else none
  | _, .sock (.socket _), _ => some .bad
  | q, .sock (.bind _ _), (ret : ℤ) => if ret = 0 then some q else none
  | q, .sock _, _ => some q
  | q, .load _, _ => some q
  | q, .peerListAdd _ _, _ => some q
  | q, .peerListTouch _, _ => some q
  | q, .peerListRemove _, _ => some q
  | .listening, .recvfrom fd _, _ => if fd = N.listen_fd then some .listening else some .bad
  | .waiting, .recvfrom fd size, r =>
    if fd = N.respond_fd ∧ size = respondBufSize then
      match r with
      | none => some .waiting
      | some (src, data) => if isRequest data then some (.answering src) else some .waiting
    else some .bad
  | _, .recvfrom _ _, _ => some .bad
  | .answering src, .sendto fd dst data, _ =>
    if fd = N.respond_fd ∧ dst = src ∧ isLoadResp data then some .waiting else some .bad
  | _, .sendto _ _ _, _ => some .bad

variable {N}

def Good (q : UdpState) : Prop := q ≠ .bad

/-- The state in which a thread waits on its socket. -/
inductive Waits (N : UdpNode) : UdpState → Fd → Prop where
  | listening : Waits N .listening N.listen_fd
  | waiting : Waits N .waiting N.respond_fd

lemma Waits.good {q : UdpState} {fd : Fd} (h : N.Waits q fd) : Good q := by
  cases h
  · exact nofun
  · exact nofun

lemma Waits.nonneg {q : UdpState} {fd : Fd} (h : N.Waits q fd) : ¬ fd < 0 := by
  cases h
  · exact N.listen_nonneg
  · exact N.respond_nonneg

lemma Waits.socket {q q' : UdpState} {fd fd' : Fd} (h : N.Waits q fd) {kind : SockKind}
    (ha : N.auto q (.sock (.socket kind)) fd' = some q') : fd' = fd ∧ q' = q := by
  cases h with
  | listening =>
    simp only [auto] at ha
    split at ha
    · cases ha
      exact ⟨‹_›, rfl⟩
    · cases ha
  | waiting =>
    simp only [auto] at ha
    split at ha
    · cases ha
      exact ⟨‹_›, rfl⟩
    · cases ha

/-- The calls that leave every state as it is. -/
def Neutral (N : UdpNode) (c : UdpCall) : Prop := ∀ q r q', N.auto q c r = some q' → q' = q

section Rules

variable {α : Type} {post : α → UdpState → Prop} {q : UdpState}

lemma always_neutral {c : UdpCall} {k : c.Ret → UdpProg α} (hc : N.Neutral c) (hq : Good q)
    (hk : ∀ r, (k r).Always N.auto Good post q) :
    (Prog.call c k).Always N.auto Good post q := by
  refine ⟨hq, fun r q' hr => ?_⟩
  rw [hc q r q' hr]
  exact hk r

lemma neutral_setsockopt (fd : Fd) (opt : SockOpt) : N.Neutral (.sock (.setsockopt fd opt)) := by
  intro q r q' h
  cases q <;> cases h <;> rfl

lemma neutral_bind (fd : Fd) (port : ℕ) : N.Neutral (.sock (.bind fd port)) := by
  intro q r q' h
  cases q <;> (simp only [auto] at h; split at h <;> cases h; rfl)

lemma neutral_load (c : LoadCall) : N.Neutral (.load c) := by
  intro q r q' h
  cases q <;> cases h <;> rfl

lemma neutral_add (ip : Bytes) (port : ℕ) : N.Neutral (.peerListAdd ip port) := by
  intro q r q' h
  cases q <;> cases h <;> rfl

lemma neutral_touch (ip : Bytes) : N.Neutral (.peerListTouch ip) := by
  intro q r q' h
  cases q <;> cases h <;> rfl

lemma neutral_remove (ip : Bytes) : N.Neutral (.peerListRemove ip) := by
  intro q r q' h
  cases q <;> cases h <;> rfl

lemma always_doLoad (p : LoadProg α) (hq : Good q) (hp : ∀ a, post a q) :
    (UdpCall.doLoad p).Always N.auto Good post q := by
  induction p with
  | ret a => exact ⟨hq, hp a⟩
  | call c k ih => exact always_neutral (neutral_load c) hq fun r => ih r
  | spin => exact hq

end Rules

lemma serverSocket_eq : UdpCall.doSock (makeUdpBroadcastSocket discoveryPort) =
    .call (.sock (.socket .dgram)) fun fd : ℤ => if fd < 0 then .ret (-1) else
      .call (.sock (.setsockopt fd .broadcast)) fun _ =>
      .call (.sock (.setsockopt fd .reuseaddr)) fun _ =>
      .call (.sock (.setsockopt fd .reuseport)) fun _ =>
      .call (.sock (.bind fd discoveryPort)) fun ret : ℤ =>
        if ret < 0 then .call (.sock (.close fd)) fun _ => .ret (-1) else .ret fd := by
  simp [UdpCall.doSock, makeUdpBroadcastSocket, SockCall.doSocket, SockCall.doSetsockopt,
    SockCall.doBind, SockCall.doClose, Prog.embed_ite, discoveryPort]

/-- Making the socket of a thread. -/
lemma always_serverSocket {q : UdpState} {fd : Fd} (h : N.Waits q fd) :
    (UdpCall.doSock (makeUdpBroadcastSocket discoveryPort)).Always N.auto Good
      (fun fd' q' => fd' = fd ∧ q' = q) q := by
  rw [serverSocket_eq]
  refine ⟨h.good, fun (fd' : ℤ) q' hr => ?_⟩
  obtain ⟨rfl, rfl⟩ := h.socket hr
  simp only [if_neg h.nonneg]
  refine always_neutral (neutral_setsockopt _ _) h.good fun _ => ?_
  refine always_neutral (neutral_setsockopt _ _) h.good fun _ => ?_
  refine always_neutral (neutral_setsockopt _ _) h.good fun _ => ?_
  refine ⟨h.good, fun (ret : ℤ) q'' hret => ?_⟩
  obtain rfl := neutral_bind _ _ _ _ _ hret
  have hzero : ret = 0 := by
    cases h
    all_goals
      simp only [auto] at hret
      split at hret
      · assumption
      · cases hret
  rw [hzero]
  exact ⟨h.good, rfl, rfl⟩

/-! ### The two threads -/

lemma always_handleAnnouncement (got : Option (Addr × Bytes)) :
    (handleAnnouncement N.local_ip got).Always N.auto Good (fun _ q => q = .listening)
      .listening := by
  have hg : Good .listening := nofun
  have hret : (Prog.ret () : UdpProg Unit).Always N.auto Good (fun _ q => q = .listening)
      .listening := ⟨hg, rfl⟩
  cases got with
  | none => exact hret
  | some x =>
    obtain ⟨src, buf⟩ := x
    simp only [handleAnnouncement, Prog.pure_def]
    split
    · exact hret
    split
    · exact hret
    split
    · exact hret
    split
    · split
      · exact hret
      · refine always_neutral (neutral_add _ _) hg fun _ => ?_
        exact always_neutral (neutral_touch _) hg fun _ => hret
    split
    · exact always_neutral (neutral_remove _) hg fun _ => hret
    · exact hret

lemma listenerLoop_succ (ip : Bytes) (fd : Fd) (rounds : ℕ) : listenerLoop ip fd (rounds + 1) =
    .call (.recvfrom fd listenBufSize) fun got =>
      handleAnnouncement ip got >>= fun _ => listenerLoop ip fd rounds := rfl

lemma loadResponderLoop_succ (bits : ExtRat → ℕ) (fd : Fd) (rounds : ℕ) :
    loadResponderLoop bits fd (rounds + 1) = .call (.recvfrom fd respondBufSize) fun got =>
      answerLoadReq bits fd got >>= fun _ => loadResponderLoop bits fd rounds := rfl

lemma always_listenerLoop (rounds : ℕ) :
    (listenerLoop N.local_ip N.listen_fd rounds).Always N.auto Good (fun _ _ => True)
      .listening := by
  induction rounds with
  | zero => exact nofun
  | succ rounds ih =>
    rw [listenerLoop_succ]
    refine ⟨nofun, fun got q hr => ?_⟩
    simp only [auto, if_true] at hr
    cases hr
    refine Prog.Always.bind ((always_handleAnnouncement got).mono ?_)
    rintro _ q rfl
    exact ih

lemma always_listenerThread (rounds : ℕ) :
    (listenerThread N.local_ip rounds).Always N.auto Good (fun _ _ => True) .listening := by
  refine Prog.Always.bind ((always_serverSocket .listening).mono ?_)
  rintro fd q ⟨rfl, rfl⟩
  simp only [if_neg N.listen_nonneg]
  exact always_listenerLoop rounds

lemma isLoadResp_packet (resp : LoadResp) :
    isLoadResp (loadRespHdr.bytes ++ resp.bytes) = true := by
  have hlen : resp.bytes.length = loadRespSize := by simp [LoadResp.bytes, loadRespSize]
  simp [isLoadResp, hlen, loadRespHdr]

/-- The responder answers a request, and nothing else. -/
lemma always_answerLoadReq {src : Addr} {buf : Bytes} (hreq : isRequest buf = true) :
    (answerLoadReq N.bits N.respond_fd (some (src, buf))).Always N.auto Good
      (fun _ q => q = .waiting) (.answering src) := by
  have hg : Good (.answering src) := nofun
  simp only [isRequest, Bool.and_eq_true, decide_eq_true_eq] at hreq
  simp only [answerLoadReq, if_neg (not_lt.2 hreq.1), if_neg (not_not.2 hreq.2)]
  refine Prog.Always.bind (always_doLoad _ hg fun lp => ?_)
  refine Prog.Always.bind (always_doLoad _ hg fun active => ?_)
  refine Prog.Always.bind (always_doLoad _ hg fun total => ?_)
  refine Prog.Always.bind (always_doLoad _ hg fun cores => ?_)
  refine ⟨hg, fun _ q hr => ?_⟩
  simp only [auto, isLoadResp_packet, and_true, if_true] at hr
  cases hr
  exact ⟨nofun, rfl⟩

lemma answerLoadReq_drop {fd : Fd} {got : Option (Addr × Bytes)}
    (h : ∀ src buf, got = some (src, buf) → isRequest buf = false) :
    answerLoadReq N.bits fd got = .ret () := by
  cases got with
  | none => rfl
  | some x =>
    obtain ⟨src, buf⟩ := x
    have hreq := h src buf rfl
    simp only [isRequest, Bool.and_eq_false_iff, decide_eq_false_iff_not, not_le] at hreq
    rw [answerLoadReq]
    split
    · rfl
    · rcases hreq with hlen | htype
      · exact absurd hlen ‹_›
      · rw [if_pos htype]
        rfl

lemma always_loadResponderLoop (rounds : ℕ) :
    (loadResponderLoop N.bits N.respond_fd rounds).Always N.auto Good (fun _ _ => True)
      .waiting := by
  induction rounds with
  | zero => exact nofun
  | succ rounds ih =>
    rw [loadResponderLoop_succ]
    refine ⟨nofun, fun got q hr => ?_⟩
    simp only [auto, and_self, if_true] at hr
    by_cases hreq : ∃ src buf, got = some (src, buf) ∧ isRequest buf = true
    · obtain ⟨src, buf, rfl, hreq⟩ := hreq
      simp only [hreq, if_true] at hr
      cases hr
      refine Prog.Always.bind ((always_answerLoadReq hreq).mono ?_)
      rintro _ q rfl
      exact ih
    · have hdrop : ∀ src buf, got = some (src, buf) → isRequest buf = false := by
        intro src buf he
        by_contra hne
        exact hreq ⟨src, buf, he, by simpa using hne⟩
      have hq : q = .waiting := by
        cases got with
        | none =>
          cases hr
          rfl
        | some x =>
          obtain ⟨src, buf⟩ := x
          simp only [hdrop src buf rfl] at hr
          cases hr
          rfl
      subst hq
      simp only [answerLoadReq_drop hdrop, Prog.ret_bind]
      exact ih

lemma always_loadResponderThread (rounds : ℕ) :
    (loadResponderThread N.bits rounds).Always N.auto Good (fun _ _ => True) .waiting := by
  refine Prog.Always.bind ((always_serverSocket .waiting).mono ?_)
  rintro fd q ⟨rfl, rfl⟩
  simp only [if_neg N.respond_nonneg]
  exact always_loadResponderLoop rounds

/-! ### What holds of the node -/

/-- The answers due to the requests among the datagrams `l`: cause and destination. -/
def due (l : List (Arrival × ℕ)) : List (Option ℕ × Addr) :=
  (l.filter fun x => isRequest x.1.data).map fun x => (some x.2, x.1.src)

/-- The cause and the destination of a reply. -/
def Reply.key (r : Reply) : Option ℕ × Addr := (r.cause, r.dst)

/-- The replies sent are those due to the datagrams that the responder has taken, except for the
request it is about to answer. -/
def Replied (N : UdpNode) : UdpState → UdpWorld → Prop
  | .waiting, w => w.replies.map Reply.key = due (w.taken N.respond_fd)
  | .answering src, w => ∃ pre x, w.taken N.respond_fd = pre ++ [x] ∧ isRequest x.1.data = true ∧
      x.1.src = src ∧ w.replies.map Reply.key = due pre
  | _, _ => False

structure Inv (N : UdpNode) (q : UdpState) (w : UdpWorld) : Prop where
  handed : ∀ fd, w.taken fd ++ w.queue fd = w.arrived.zipIdx.filter fun x => x.1.fd = fd
  replied : Replied N q w
  responses : ∀ r ∈ w.replies, isLoadResp r.data = true

lemma isRequest_take (data : Bytes) : isRequest (data.take respondBufSize) = isRequest data := by
  have hlen : (headerSize ≤ (data.take respondBufSize).length) ↔ headerSize ≤ data.length := by
    have : headerSize ≤ respondBufSize := by decide
    rw [List.length_take]
    omega
  have htype : headerType (data.take respondBufSize) = headerType data := by
    cases data with
    | nil => rfl
    | cons b bs => rfl
  simp only [isRequest, hlen, htype]

lemma due_append (l : List (Arrival × ℕ)) (x : Arrival × ℕ) :
    due (l ++ [x]) = due l ++ if isRequest x.1.data then [(some x.2, x.1.src)] else [] := by
  cases h : isRequest x.1.data with
  | true => simp [due, h]
  | false => simp [due, h]

lemma recvfrom_cases {w w' : UdpWorld} {fd : Fd} {size : ℕ} {r : Option (Addr × Bytes)}
    (h : recvfrom w fd size r = some w') :
    (r = none ∧ w' = w) ∨ ∃ x rest, w.queue fd = x :: rest ∧
      r = some (x.1.src, x.1.data.take size) ∧ w' = { w with
        queue := Function.update w.queue fd rest
        taken := Function.update w.taken fd (w.taken fd ++ [x]) } := by
  cases r with
  | none =>
    cases h
    exact .inl ⟨rfl, rfl⟩
  | some y =>
    obtain ⟨src, data⟩ := y
    simp only [recvfrom] at h
    split at h
    · cases h
    · rename_i x rest hq
      split at h
      · rename_i he
        cases h
        exact .inr ⟨x, rest, hq, by rw [he.1, he.2], rfl⟩
      · cases h

/-- Taking a datagram keeps the account of the datagrams. -/
lemma handed_recvfrom {w w' : UdpWorld} {fd : Fd} {size : ℕ} {r : Option (Addr × Bytes)}
    (h : ∀ fd, w.taken fd ++ w.queue fd = w.arrived.zipIdx.filter fun x => x.1.fd = fd)
    (hw : recvfrom w fd size r = some w') (fd' : Fd) :
    w'.taken fd' ++ w'.queue fd' = w'.arrived.zipIdx.filter fun x => x.1.fd = fd' := by
  rcases recvfrom_cases hw with ⟨-, rfl⟩ | ⟨x, rest, hq, -, rfl⟩
  · exact h fd'
  · by_cases he : fd' = fd
    · subst he
      have := h fd'
      rw [hq] at this
      simpa using this
    · simpa [he] using h fd'

lemma replied_congr {q : UdpState} {w w' : UdpWorld} (h : Replied N q w)
    (ht : w'.taken N.respond_fd = w.taken N.respond_fd) (hr : w'.replies = w.replies) :
    Replied N q w' := by
  cases q with
  | waiting =>
    show w'.replies.map Reply.key = due (w'.taken N.respond_fd)
    rw [ht, hr]
    exact h
  | answering src =>
    obtain ⟨pre, x, hx⟩ := h
    refine ⟨pre, x, ?_⟩
    rw [ht, hr]
    exact hx
  | listening => exact h
  | bad => exact h

/-- A call that changes nothing. -/
lemma neutral_call {q : UdpState} {w w' : UdpWorld} {c : UdpCall} {r : c.Ret} (i : ℕ)
    (hw : N.call w i c r = some w') (hrecv : ∀ fd size, c ≠ .recvfrom fd size)
    (hsend : ∀ fd dst data, c ≠ .sendto fd dst data)
    (hq : (q = .listening ∧ i = 0) ∨ (q ≠ .listening ∧ i = 1)) :
    w' = w ∧ ∃ q', N.auto q c r = some q' ∧ (Good q' → q' = q) := by
  cases c with
  | sock c =>
    cases c with
    | socket kind =>
      simp only [call] at hw
      split at hw
      · cases hw
        refine ⟨rfl, ?_⟩
        rcases hq with ⟨rfl, rfl⟩ | ⟨hq, rfl⟩
        · refine ⟨.listening, ?_, fun _ => rfl⟩
          simpa [auto, fdOf] using ‹_›
        · cases q with
          | listening => exact absurd rfl hq
          | waiting =>
            refine ⟨.waiting, ?_, fun _ => rfl⟩
            simpa [auto, fdOf] using ‹_›
          | answering src => exact ⟨.bad, rfl, fun hg => absurd rfl hg⟩
          | bad => exact ⟨.bad, rfl, fun hg => absurd rfl hg⟩
      · cases hw
    | bind fd port =>
      simp only [call] at hw
      split at hw
      · cases hw
        refine ⟨rfl, q, ?_, fun _ => rfl⟩
        cases q <;> simpa [auto] using ‹_›
      · cases hw
    | setsockopt fd opt =>
      cases hw
      exact ⟨rfl, q, by cases q <;> rfl, fun _ => rfl⟩
    | inetPton ip => cases hw
    | connect fd ip port => cases hw
    | close fd => cases hw
  | recvfrom fd size => exact absurd rfl (hrecv fd size)
  | sendto fd dst data => exact absurd rfl (hsend fd dst data)
  | _ =>
    cases hw
    exact ⟨rfl, q, by cases q <;> rfl, fun _ => rfl⟩

/-- A call of the listener. -/
lemma inv_listener {q : UdpState} {w w' : UdpWorld} {c : UdpCall} {r : c.Ret} (h : N.Inv q w)
    (hw : N.call w 0 c r = some w') :
    ∃ q', N.auto .listening c r = some q' ∧ (Good q' → q' = .listening ∧ N.Inv q w') := by
  cases c with
  | recvfrom fd size =>
    by_cases hfd : fd = N.listen_fd
    · refine ⟨.listening, by simp [auto, hfd], fun _ => ⟨rfl, ?_⟩⟩
      refine ⟨handed_recvfrom h.handed hw, ?_, ?_⟩
      · rcases recvfrom_cases hw with ⟨-, rfl⟩ | ⟨x, rest, -, -, rfl⟩
        · exact h.replied
        · refine replied_congr h.replied ?_ rfl
          simp [hfd, N.distinct.symm]
      · rcases recvfrom_cases hw with ⟨-, rfl⟩ | ⟨x, rest, -, -, rfl⟩
        · exact h.responses
        · exact h.responses
    · exact ⟨.bad, by simp [auto, hfd], fun hg => absurd rfl hg⟩
  | sendto fd dst data => exact ⟨.bad, rfl, fun hg => absurd rfl hg⟩
  | _ =>
    obtain ⟨rfl, q', hq', hg⟩ := neutral_call (q := .listening) 0 hw nofun nofun (.inl ⟨rfl, rfl⟩)
    exact ⟨q', hq', fun hgood => ⟨hg hgood, h⟩⟩

/-- The responder takes a datagram. -/
lemma inv_take {w w' : UdpWorld} {r : Option (Addr × Bytes)} (h : N.Inv .waiting w)
    (hw : N.call w 1 (.recvfrom N.respond_fd respondBufSize) r = some w') :
    ∃ q', N.auto .waiting (.recvfrom N.respond_fd respondBufSize) r = some q' ∧ N.Inv q' w' := by
  have hhanded := handed_recvfrom h.handed hw
  rcases recvfrom_cases hw with ⟨rfl, rfl⟩ | ⟨x, rest, -, rfl, rfl⟩
  · exact ⟨.waiting, by simp [auto], h⟩
  · have hdue : w.replies.map Reply.key = due (w.taken N.respond_fd) := h.replied
    by_cases hreq : isRequest x.1.data = true
    · refine ⟨.answering x.1.src, by simp [auto, isRequest_take, hreq], hhanded, ?_, h.responses⟩
      exact ⟨w.taken N.respond_fd, x, by simp, hreq, rfl, hdue⟩
    · refine ⟨.waiting, by simp [auto, isRequest_take, hreq], hhanded, ?_, h.responses⟩
      show w.replies.map Reply.key = due (Function.update w.taken N.respond_fd _ N.respond_fd)
      rw [Function.update_self, due_append, if_neg hreq, List.append_nil, hdue]

/-- The responder sends its answer. -/
lemma inv_send {w : UdpWorld} {src : Addr} {data : Bytes} (h : N.Inv (.answering src) w)
    (hdata : isLoadResp data = true) :
    N.Inv .waiting { w with replies := w.replies ++
      [⟨(w.taken N.respond_fd).getLast?.map Prod.snd, src, data⟩] } := by
  obtain ⟨pre, x, htaken, hreq, hsrc, hdue⟩ := h.replied
  refine ⟨h.handed, ?_, ?_⟩
  · show (w.replies ++ _).map Reply.key = due (w.taken N.respond_fd)
    rw [htaken, due_append, if_pos hreq, List.map_append, hdue]
    simp [Reply.key, hsrc]
  · intro r hr
    rcases List.mem_append.1 hr with hr | hr
    · exact h.responses r hr
    · rw [List.mem_singleton.1 hr]
      exact hdata

/-- A call of the responder. -/
lemma inv_responder {q : UdpState} {w w' : UdpWorld} {c : UdpCall} {r : c.Ret} (h : N.Inv q w)
    (hw : N.call w 1 c r = some w') :
    ∃ q', N.auto q c r = some q' ∧ (Good q' → N.Inv q' w') := by
  have hq : q ≠ .listening := by
    rintro rfl
    exact h.replied
  cases c with
  | recvfrom fd size =>
    by_cases hwait : q = .waiting ∧ fd = N.respond_fd ∧ size = respondBufSize
    · obtain ⟨rfl, rfl, rfl⟩ := hwait
      obtain ⟨q', hq', hinv⟩ := inv_take h hw
      exact ⟨q', hq', fun _ => hinv⟩
    · refine ⟨.bad, ?_, fun hg => absurd rfl hg⟩
      cases q with
      | listening => exact absurd rfl hq
      | waiting => simp only [auto, if_neg fun h => hwait ⟨rfl, h⟩]
      | answering src => rfl
      | bad => rfl
  | sendto fd dst data =>
    cases hw
    by_cases hsend : ∃ src, q = .answering src ∧ fd = N.respond_fd ∧ dst = src ∧
        isLoadResp data = true
    · obtain ⟨src, rfl, rfl, rfl, hdata⟩ := hsend
      exact ⟨.waiting, by simp [auto, hdata], fun _ => inv_send h hdata⟩
    · refine ⟨.bad, ?_, fun hg => absurd rfl hg⟩
      cases q with
      | listening => exact absurd rfl hq
      | waiting => rfl
      | answering src => simp only [auto, if_neg fun h => hsend ⟨src, rfl, h⟩]
      | bad => rfl
  | _ =>
    obtain ⟨rfl, q', hq', hg⟩ := neutral_call (q := q) 1 hw nofun nofun (.inr ⟨hq, rfl⟩)
    exact ⟨q', hq', fun hgood => (hg hgood).symm ▸ h⟩

lemma inv_arrive {q : UdpState} {w w' : UdpWorld} {a : Arrival} (h : N.Inv q w)
    (hw : N.arrive w a = some w') : N.Inv q w' := by
  simp only [arrive] at hw
  split at hw
  · cases hw
    refine ⟨fun fd => ?_, replied_congr h.replied rfl rfl, h.responses⟩
    have hfd := h.handed fd
    by_cases he : fd = a.fd
    · subst he
      simp [List.zipIdx_append, ← hfd]
    · simp [List.zipIdx_append, ← hfd, he, Ne.symm he]
  · cases hw

/-- The outline of the node. -/
def outline (N : UdpNode) : Conc.Outline N.sys Conc.anyMove UdpState where
  auto := N.auto
  good := Good
  fin := fun _ => True
  fresh := fun _ _ => .bad
  inv := fun qs w => ∃ q, qs = [.listening, q] ∧ N.Inv q w
  spawned := nofun
  call := by
    rintro _ w i q c r w' ⟨q₁, rfl, hinv⟩ hi hgood - hw
    match i with
    | 0 =>
      obtain rfl : UdpState.listening = q := by simpa using hi
      obtain ⟨q', hq', h⟩ := inv_listener hinv hw
      refine ⟨q', hq', fun hg => ⟨q₁, ?_, (h hg).2⟩⟩
      rw [(h hg).1]
      rfl
    | 1 =>
      obtain rfl : q₁ = q := by simpa using hi
      obtain ⟨q', hq', h⟩ := inv_responder hinv hw
      exact ⟨q', hq', fun hg => ⟨q', rfl, h hg⟩⟩
    | i + 2 => simp at hi
  env := by
    rintro _ w a w' ⟨q, rfl, hinv⟩ - hw
    exact ⟨q, rfl, inv_arrive hinv hw⟩

lemma holds_start (rounds : ℕ) : N.outline.Holds (N.start rounds) [.listening, .waiting] := by
  refine ⟨.cons (always_listenerThread rounds) (.cons (always_loadResponderThread rounds) .nil),
    .waiting, rfl, fun fd => rfl, rfl, ?_⟩
  intro r hr
  cases hr

end UdpNode

end P2PNode
