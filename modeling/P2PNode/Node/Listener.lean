import P2PNode.Lib.Always
import P2PNode.Node.Announcer

/-!
# What the listener does

The listener thread as an automaton: which datagrams make it call which operation of the table. The
thread obeys it whatever the socket and the table do.
-/

namespace P2PNode

open Effect

/-- Where the listener is: it waits on its socket, or has an operation of the table to call. -/
inductive ListenPhase where
  | waiting
  | adding (ip : Bytes) (port : ℕ)
  | touching (ip : Bytes)
  | removing (ip : Bytes)
  | bad

namespace ListenPhase

/-- What the listener is going to do with the answer of `recvfrom`. -/
def after (local_ip : Bytes) : Option (Addr × Bytes) → ListenPhase
  | none => .waiting
  | some (src, buf) =>
    if buf.length < headerSize then .waiting
    else if buf.length < headerSize + headerLen buf then .waiting
    else if src.ip = local_ip then .waiting
    else if headerType buf = msgHello then
      if headerLen buf < helloSize then .waiting
      else .adding src.ip (ofBe ((buf.drop headerSize).take 2))
    else if headerType buf = msgBye then .removing src.ip
    else .waiting

/-- The next phase. -/
def auto (local_ip : Bytes) : Kernel UdpCall UdpCall.Ret ListenPhase
  | .waiting, .sock _, _ => some .waiting
  | .waiting, .recvfrom _ size, got =>
    some (if size = listenBufSize then after local_ip got else .bad)
  | .adding ip port, .peerListAdd ip' port', _ =>
    some (if ip' = ip ∧ port' = port then .touching ip else .bad)
  | .touching ip, .peerListTouch ip', _ => some (if ip' = ip then .waiting else .bad)
  | .removing ip, .peerListRemove ip', _ => some (if ip' = ip then .waiting else .bad)
  | _, _, _ => some .bad

def Good (q : ListenPhase) : Prop := q ≠ .bad

/-! ### The datagrams of a node -/

section Announced

variable {local_ip : Bytes} (src : Addr) {own_port : ℕ} (name : Bytes)

lemma after_hello (hsrc : src.ip ≠ local_ip) (hport : own_port < 2 ^ 16) :
    after local_ip (some (src, broadcastPacket msgHello own_port name)) =
      .adding src.ip own_port := by
  simp [after, hsrc, port_broadcastPacket msgHello hport]

lemma after_bye (hsrc : src.ip ≠ local_ip) (own_port : ℕ) :
    after local_ip (some (src, broadcastPacket msgBye own_port name)) = .removing src.ip := by
  have hne : msgBye ≠ msgHello := by decide
  simp [after, hsrc, hne]

/-- Whatever comes from the address of the node is dropped. -/
lemma after_own (hsrc : src.ip = local_ip) (buf : Bytes) :
    after local_ip (some (src, buf)) = .waiting := by
  simp [after, hsrc]

end Announced

/-! ### The thread obeys the automaton -/

variable {α : Type} {local_ip : Bytes}

lemma always_doSock (p : SockProg α) :
    (UdpCall.doSock p).Always (auto local_ip) Good (fun _ q => q = .waiting) .waiting := by
  induction p with
  | ret a => exact ⟨nofun, rfl⟩
  | call c k ih =>
    refine ⟨nofun, fun r q hq => ?_⟩
    cases hq
    exact ih r
  | spin => exact nofun

/-- Handling a datagram starts where the automaton says, and ends in waiting. -/
lemma always_handleAnnouncement (got : Option (Addr × Bytes)) :
    (handleAnnouncement local_ip got).Always (auto local_ip) Good (fun _ q => q = .waiting)
      (after local_ip got) := by
  have hret : (Prog.ret () : UdpProg Unit).Always (auto local_ip) Good (fun _ q => q = .waiting)
      .waiting := ⟨by simp [Good], rfl⟩
  cases got with
  | none => exact hret
  | some x =>
    obtain ⟨src, buf⟩ := x
    simp only [handleAnnouncement, after, Prog.pure_def]
    split
    · exact hret
    split
    · exact hret
    split
    · exact hret
    split
    · split
      · exact hret
      · refine ⟨by simp [Good], fun _ q hq => ?_⟩
        simp only [auto, and_self, if_true] at hq
        cases hq
        refine ⟨by simp [Good], fun _ q hq => ?_⟩
        simp only [auto, if_true] at hq
        cases hq
        exact hret
    split
    · refine ⟨by simp [Good], fun _ q hq => ?_⟩
      simp only [auto, if_true] at hq
      cases hq
      exact hret
    · exact hret

lemma always_listenerLoop (listen_fd : Fd) (rounds : ℕ) :
    (listenerLoop local_ip listen_fd rounds).Always (auto local_ip) Good
      (fun _ q => q = .waiting) .waiting := by
  induction rounds with
  | zero => exact nofun
  | succ rounds ih =>
    refine ⟨nofun, fun got q hq => ?_⟩
    simp only [auto, if_true] at hq
    cases hq
    have hbody : (handleAnnouncement local_ip got).Always (auto local_ip) Good
        (fun _ q => (listenerLoop local_ip listen_fd rounds).Always (auto local_ip) Good
          (fun _ q => q = .waiting) q) (after local_ip got) := by
      apply (always_handleAnnouncement got).mono
      rintro _ q rfl
      exact ih
    exact hbody.bind

lemma always_listenerThread (rounds : ℕ) :
    (listenerThread local_ip rounds).Always (auto local_ip) Good (fun _ q => q = .waiting)
      .waiting := by
  apply Prog.Always.bind
  apply (always_doSock _).mono
  rintro listen_fd q rfl
  by_cases hfd : listen_fd < 0
  · rw [if_pos hfd]
    exact ⟨nofun, rfl⟩
  · rw [if_neg hfd]
    exact always_listenerLoop listen_fd rounds

/-- The listener is about to receive only where it waits. -/
lemma waiting_of_recvfrom {q : ListenPhase} {fd : Fd} {size : ℕ}
    {k : Option (Addr × Bytes) → UdpProg α} {post : α → ListenPhase → Prop}
    (h : (Prog.call (.recvfrom fd size) k : UdpProg α).Always (auto local_ip) Good post q) :
    q = .waiting := by
  cases q with
  | waiting => rfl
  | _ => exact absurd rfl (h.2 none _ rfl).inv

end ListenPhase
end P2PNode
