import P2PNode.Dispatch.Dispatcher
import P2PNode.Lib.Always

/-!
# At most one execution, no socket lost

`dispatch` under a kernel that answers every call in any way, gives out descriptors that are free
and keeps account of the sockets. In every execution the task is sent at most once, on the last
connection made and after the last attempt to connect; every socket is closed once before
`dispatch` returns.
-/

namespace P2PNode

open Effect

/-! ### The kernel -/

/-- The account of the sockets, which are numbered as they are made: how many there are, the
descriptors in use, how often each was closed, the closes of a free descriptor, the socket of the
last connection made, the messages sent, whether there was an attempt to connect after one of them,
and the datagrams sent. -/
structure SockLog where
  made : ℕ := 0
  table : Fd → Option ℕ := fun _ => none
  closes : ℕ → ℕ := fun _ => 0
  stray : ℕ := 0
  connected : Option ℕ := none
  sends : List (Option ℕ × MsgType × Bytes) := []
  late : Bool := false
  datagrams : List Bytes := []

namespace SockLog

/-- `close` of a descriptor. -/
def close (s : SockLog) (fd : Fd) : SockLog :=
  match s.table fd with
  | none   => { s with stray := s.stray + 1 }
  | some i => { s with
      table := Function.update s.table fd none
      closes := Function.update s.closes i (s.closes i + 1) }

def kernel : Kernel DispCall DispCall.Ret SockLog
  | s, .sock (.socket _), (fd : ℤ) =>
    if fd < 0 then some s
    else if s.table fd = none then
      some { s with made := s.made + 1, table := Function.update s.table fd (some s.made) }
    else none
  | s, .sock (.connect fd _ _), (ret : ℤ) =>
    some { s with
      connected := if ret < 0 then s.connected else s.table fd
      late := s.late || !s.sends.isEmpty }
  | s, .sock (.close fd), _ => some (s.close fd)
  | s, .sendMsg fd type payload, _ =>
    some { s with sends := s.sends ++ [(s.table fd, type, payload)] }
  | s, .sendto _ _ _ data, _ => some { s with datagrams := s.datagrams ++ [data] }
  | s, _, _ => some s

/-- What holds at every point of every execution. -/
structure Safe (s : SockLog) : Prop where
  sends_le : s.sends.length ≤ 1
  on_target : ∀ x ∈ s.sends, x.1.isSome ∧ x.1 = s.connected
  not_late : s.late = false
  not_stray : s.stray = 0
  only_queries : ∀ d ∈ s.datagrams, d = loadReq.bytes
  closes_le : ∀ i, s.closes i ≤ 1

/-- The account between the calls, `l` being the messages sent. -/
structure Quiet (l : List (Option ℕ × MsgType × Bytes)) (s : SockLog) : Prop where
  sends_eq : s.sends = l
  length_le : l.length ≤ 1
  on_target : ∀ x ∈ l, x.1.isSome ∧ x.1 = s.connected
  not_late : s.late = false
  not_stray : s.stray = 0
  only_queries : ∀ d ∈ s.datagrams, d = loadReq.bytes

/-- No socket is open. -/
structure Idle (l : List (Option ℕ × MsgType × Bytes)) (s : SockLog) : Prop extends Quiet l s where
  table_eq : ∀ fd, s.table fd = none
  closes_eq : ∀ i, s.closes i = if i < s.made then 1 else 0

/-- The only open socket is the last one made, at `fd`. -/
structure Holds (fd : Fd) (l : List (Option ℕ × MsgType × Bytes)) (s : SockLog) : Prop
    extends Quiet l s where
  made_pos : 0 < s.made
  table_eq : ∀ fd', s.table fd' = if fd' = fd then some (s.made - 1) else none
  closes_eq : ∀ i, s.closes i = if i < s.made - 1 then 1 else 0

variable {l : List (Option ℕ × MsgType × Bytes)} {s : SockLog} {fd : Fd}

lemma Quiet.safe (h : Quiet l s) (hc : ∀ i, s.closes i ≤ 1) : Safe s where
  sends_le := by
    rw [h.sends_eq]
    exact h.length_le
  on_target := by
    rw [h.sends_eq]
    exact h.on_target
  not_late := h.not_late
  not_stray := h.not_stray
  only_queries := h.only_queries
  closes_le := hc

lemma Idle.safe (h : Idle l s) : Safe s := by
  apply h.toQuiet.safe
  intro i
  rw [h.closes_eq]
  split
  · exact le_rfl
  · exact Nat.zero_le 1

lemma Holds.safe (h : Holds fd l s) : Safe s := by
  apply h.toQuiet.safe
  intro i
  rw [h.closes_eq]
  split
  · exact le_rfl
  · exact Nat.zero_le 1

/-! ### One call -/

section Rules

variable {α : Type} {post : α → SockLog → Prop}

/-- The calls that the account does not see. -/
def Neutral (c : DispCall) : Prop := ∀ s r, kernel s c r = some s

lemma always_neutral {c : DispCall} {k : c.Ret → DispProg α} (hc : Neutral c) (hs : Safe s)
    (hk : ∀ r, (k r).Always kernel Safe post s) :
    (Prog.call c k).Always kernel Safe post s := by
  refine ⟨hs, fun r s' hr => ?_⟩
  rw [hc s r] at hr
  cases hr
  exact hk r

lemma always_socket {kind : SockKind} {k : ℤ → DispProg α} (h : Idle l s)
    (hneg : ∀ fd < 0, (k fd).Always kernel Safe post s)
    (hpos : ∀ fd s', ¬ fd < 0 → Holds fd l s' → (k fd).Always kernel Safe post s') :
    (Prog.call (.sock (.socket kind)) k : DispProg α).Always kernel Safe post s := by
  refine ⟨h.safe, fun (fd : ℤ) s' hr => ?_⟩
  by_cases hfd : fd < 0
  · simp only [kernel, hfd, if_true] at hr
    cases hr
    exact hneg fd hfd
  · simp only [kernel, hfd, if_false, h.table_eq, if_true] at hr
    cases hr
    refine hpos fd _ hfd ⟨⟨h.sends_eq, h.length_le, h.on_target, h.not_late, h.not_stray,
      h.only_queries⟩, Nat.succ_pos _, ?_, ?_⟩
    · intro fd'
      by_cases he : fd' = fd
      · simp [he]
      · simp [he, h.table_eq]
    · intro i
      simpa using h.closes_eq i

lemma Holds.close (h : Holds fd l s) : Idle l (s.close fd) := by
  have htable : s.table fd = some (s.made - 1) := by rw [h.table_eq, if_pos rfl]
  have hclose : s.close fd = { s with
      table := Function.update s.table fd none
      closes := Function.update s.closes (s.made - 1) (s.closes (s.made - 1) + 1) } := by
    rw [SockLog.close, htable]
  rw [hclose]
  refine ⟨⟨h.sends_eq, h.length_le, h.on_target, h.not_late, h.not_stray, h.only_queries⟩, ?_, ?_⟩
  · intro fd'
    by_cases he : fd' = fd
    · simp [he]
    · simp [he, h.table_eq]
  · have hpos := h.made_pos
    intro i
    by_cases he : i = s.made - 1
    · subst he
      simp only [Function.update_self, h.closes_eq, lt_irrefl, if_false]
      rw [if_pos (by omega)]
    · simp only [Function.update_of_ne he, h.closes_eq]
      by_cases hi : i < s.made - 1
      · rw [if_pos hi, if_pos (by omega)]
      · rw [if_neg hi, if_neg (by omega)]

lemma always_close {k : Unit → DispProg α} (h : Holds fd l s)
    (hk : ∀ s', Idle l s' → (k ()).Always kernel Safe post s') :
    (Prog.call (.sock (.close fd)) k : DispProg α).Always kernel Safe post s := by
  refine ⟨h.safe, fun r s' hr => ?_⟩
  cases hr
  exact hk _ h.close

lemma always_sendto {fd' : Fd} {ip : Bytes} {port : ℕ} {k : Unit → DispProg α} (h : Holds fd l s)
    (hk : ∀ s', Holds fd l s' → (k ()).Always kernel Safe post s') :
    (Prog.call (.sendto fd' ip port loadReq.bytes) k : DispProg α).Always kernel Safe post s := by
  refine ⟨h.safe, fun r s' hr => ?_⟩
  cases hr
  refine hk _ ⟨⟨h.sends_eq, h.length_le, h.on_target, h.not_late, h.not_stray, ?_⟩, h.made_pos,
    h.table_eq, h.closes_eq⟩
  intro d hd
  rcases List.mem_append.1 hd with hd | hd
  · exact h.only_queries d hd
  · exact List.mem_singleton.1 hd

/-- Before anything is sent, a connection can be made. -/
lemma always_connect {ip : Bytes} {port : Option ℕ} {k : ℤ → DispProg α} (h : Holds fd [] s)
    (hneg : ∀ ret < 0, ∀ s', Holds fd [] s' → (k ret).Always kernel Safe post s')
    (hpos : ∀ ret s', ¬ ret < 0 → Holds fd [] s' → s'.connected = s'.table fd →
      (k ret).Always kernel Safe post s') :
    (Prog.call (.sock (.connect fd ip port)) k : DispProg α).Always kernel Safe post s := by
  refine ⟨h.safe, fun (ret : ℤ) s' hr => ?_⟩
  have hs' : Holds fd [] s' := by
    cases hr
    refine ⟨⟨h.sends_eq, h.length_le, by simp, ?_, h.not_stray, h.only_queries⟩, h.made_pos,
      h.table_eq, h.closes_eq⟩
    simp [h.not_late, h.sends_eq]
  by_cases hret : ret < 0
  · exact hneg ret hret s' hs'
  · apply hpos ret s' hret hs'
    cases hr
    simp [hret]

/-- The first message on the connection just made. -/
lemma always_sendMsg {type : MsgType} {payload : Bytes} {k : ℤ → DispProg α} (h : Holds fd [] s)
    (hc : s.connected = s.table fd)
    (hk : ∀ ret s' x, Holds fd [x] s' → (k ret).Always kernel Safe post s') :
    (Prog.call (.sendMsg fd type payload) k : DispProg α).Always kernel Safe post s := by
  refine ⟨h.safe, fun (ret : ℤ) s' hr => ?_⟩
  cases hr
  refine hk ret _ (s.table fd, type, payload) ⟨⟨?_, by simp, ?_, h.not_late, h.not_stray,
    h.only_queries⟩, h.made_pos, h.table_eq, h.closes_eq⟩
  · simp [h.sends_eq]
  · intro x hx
    rw [List.mem_singleton.1 hx]
    exact ⟨by simp [h.table_eq], hc.symm⟩

end Rules

/-! ### The programs that make sockets -/

/-- The result of a function that makes a socket: none is open, or it is. -/
def Made (l : List (Option ℕ × MsgType × Bytes)) (fd : Fd) (s : SockLog) : Prop :=
  (fd < 0 ∧ Idle l s) ∨ (¬ fd < 0 ∧ Holds fd l s)

lemma tcpConnect_eq (ip : Bytes) (port : Option ℕ) : DispCall.doSock (tcpConnect ip port) =
    .call (.sock (.socket .stream)) fun fd : ℤ => if fd < 0 then .ret (-1) else
      .call (.sock (.inetPton ip)) fun ret : ℤ =>
        if ret ≤ 0 then .call (.sock (.close fd)) fun _ => .ret (-1) else
          .call (.sock (.connect fd ip port)) fun ret : ℤ =>
            if ret < 0 then .call (.sock (.close fd)) fun _ => .ret (-1) else .ret fd := by
  simp [DispCall.doSock, tcpConnect, SockCall.doSocket, SockCall.doInetPton, SockCall.doConnect,
    SockCall.doClose, Prog.embed_ite]

lemma always_udpSocket (h : Idle l s) :
    (DispCall.doSock (makeUdpBroadcastSocket 0)).Always kernel Safe (Made l) s := by
  rw [udpSocket_eq]
  apply always_socket h
  · intro fd hfd
    simp only [if_pos hfd]
    exact ⟨h.safe, .inl ⟨by decide, h⟩⟩
  · intro fd s' hfd h'
    simp only [if_neg hfd]
    refine always_neutral (fun _ _ => rfl) h'.safe fun _ => ?_
    refine always_neutral (fun _ _ => rfl) h'.safe fun _ => ?_
    refine always_neutral (fun _ _ => rfl) h'.safe fun _ => ?_
    exact ⟨h'.safe, .inr ⟨hfd, h'⟩⟩

lemma always_tcpConnect (ip : Bytes) (port : Option ℕ) (h : Idle [] s) :
    (DispCall.doSock (tcpConnect ip port)).Always kernel Safe
      (fun fd s => Made [] fd s ∧ (¬ fd < 0 → s.connected = s.table fd)) s := by
  rw [tcpConnect_eq]
  apply always_socket h
  · intro fd hfd
    simp only [if_pos hfd]
    exact ⟨h.safe, .inl ⟨by decide, h⟩, fun hn => absurd (by decide) hn⟩
  · intro fd s' hfd h'
    simp only [if_neg hfd]
    refine always_neutral (fun _ _ => rfl) h'.safe fun ret => ?_
    by_cases hret : ret ≤ 0
    · simp only [if_pos hret]
      refine always_close h' fun t ht => ?_
      exact ⟨ht.safe, .inl ⟨by decide, ht⟩, fun hn => absurd (by decide) hn⟩
    · simp only [if_neg hret]
      refine always_connect h' ?_ ?_
      · intro ret hneg t ht
        simp only [if_pos hneg]
        refine always_close ht fun u hu => ?_
        exact ⟨hu.safe, .inl ⟨by decide, hu⟩, fun hn => absurd (by decide) hn⟩
      · intro ret t hneg ht hc
        simp only [if_neg hneg]
        exact ⟨ht.safe, .inr ⟨hfd, ht⟩, fun _ => hc⟩

/-! ### The queries -/

lemma always_awaitLoadResp (ip : Bytes) (h : Holds fd l s) :
    (awaitLoadResp fd ip).Always kernel Safe (fun _ => Idle l) s := by
  rw [awaitLoadResp_eq]
  refine always_sendto h fun t ht => ?_
  refine always_neutral (fun _ _ => rfl) ht.safe fun sel => ?_
  by_cases hsel : sel ≤ 0
  · simp only [if_pos hsel]
    exact always_close ht fun u hu => ⟨hu.safe, hu⟩
  · simp only [if_neg hsel]
    refine always_neutral (fun _ _ => rfl) ht.safe fun n => ?_
    exact always_close ht fun u hu => ⟨hu.safe, hu⟩

lemma always_queryPeerLoad (ip : Bytes) (port : ℕ) (h : Idle l s) :
    (queryPeerLoad ip port).Always kernel Safe (fun _ => Idle l) s := by
  refine Prog.Always.bind ((always_udpSocket h).mono ?_)
  rintro fd t (⟨hfd, ht⟩ | ⟨hfd, ht⟩)
  · simp only [if_pos hfd]
    exact ⟨ht.safe, ht⟩
  · simp only [if_neg hfd]
    refine Prog.Always.bind ((always_awaitLoadResp ip ht).mono fun n u hu => ?_)
    cases hn : n.bind checkLoadResp with
    | none => exact ⟨hu.safe, hu⟩
    | some resp => exact always_neutral (fun _ _ => rfl) hu.safe fun _ => ⟨hu.safe, hu⟩

lemma always_queryPeers (peers : List PeerInfo) (best : Best) (h : Idle l s) :
    (queryPeers peers best).Always kernel Safe (fun _ => Idle l) s := by
  induction peers generalizing best s with
  | nil => exact ⟨h.safe, h⟩
  | cons peer peers ih =>
    refine Prog.Always.bind ((always_queryPeerLoad peer.ip peer.port h).mono ?_)
    rintro ⟨score, result⟩ t ht
    refine always_neutral (fun _ _ => rfl) ht.safe fun _ => ?_
    by_cases hlt : score < best.score
    · simp only [if_pos hlt]
      exact ih _ ht
    · simp only [if_neg hlt]
      exact ih _ ht

lemma always_doLoad {α : Type} {post : α → SockLog → Prop} (p : LoadProg α) (hs : Safe s)
    (hp : ∀ a, post a s) : (DispCall.doLoad p).Always kernel Safe post s := by
  induction p with
  | ret a => exact ⟨hs, hp a⟩
  | call c k ih => exact always_neutral (fun _ _ => rfl) hs fun r => ih r
  | spin => exact hs

lemma always_route (local_ip : Bytes) (own_port : ℕ) (h : Idle l s) :
    (route local_ip own_port).Always kernel Safe (fun _ => Idle l) s := by
  refine Prog.Always.bind (always_neutral (fun _ _ => rfl) h.safe fun peers => ⟨h.safe, ?_⟩)
  refine Prog.Always.bind ((always_queryPeers peers {} h).mono fun best t ht => ?_)
  refine Prog.Always.bind (always_doLoad loadScoreLocal ht.safe fun self_score => ?_)
  refine Prog.Always.bind (always_doLoad loadGetPercentage ht.safe fun pct => ?_)
  refine always_neutral (fun _ _ => rfl) ht.safe fun _ => ?_
  by_cases hhere : peers.length = 0 ∨ self_score ≤ best.score
  · rw [if_pos hhere]
    exact always_neutral (fun _ _ => rfl) ht.safe fun _ => ⟨ht.safe, ht⟩
  · rw [if_neg hhere]
    exact always_neutral (fun _ _ => rfl) ht.safe fun _ => ⟨ht.safe, ht⟩

/-! ### The task connection -/

lemma always_connectTarget (here : Bool) (best : Best) (local_ip : Bytes) (own_port : ℕ)
    (h : Idle [] s) :
    (connectTarget here best local_ip own_port).Always kernel Safe
      (fun fd s => Made [] fd s ∧ (¬ fd < 0 → s.connected = s.table fd)) s := by
  refine Prog.Always.bind ((always_tcpConnect _ _ h).mono ?_)
  rintro fd t ⟨hmade, hc⟩
  by_cases hfd : fd < 0
  · simp only [if_pos hfd]
    cases here with
    | true =>
      rcases hmade with ⟨_, ht⟩ | ⟨hn, _⟩
      · exact ⟨ht.safe, .inl ⟨hfd, ht⟩, hc⟩
      · exact absurd hfd hn
    | false =>
      rcases hmade with ⟨_, ht⟩ | ⟨hn, _⟩
      · exact always_tcpConnect _ _ ht
      · exact absurd hfd hn
  · simp only [if_neg hfd]
    rcases hmade with ⟨hn, _⟩ | ⟨_, ht⟩
    · exact absurd hn hfd
    · exact ⟨ht.safe, .inr ⟨hfd, ht⟩, hc⟩

lemma always_sendTaskFile (task : Task) (h : Holds fd [] s) (hc : s.connected = s.table fd) :
    (sendTaskFile fd task).Always kernel Safe (fun _ s => ∃ l, Holds fd l s) s := by
  refine always_neutral (fun _ _ => rfl) h.safe fun (buf : Option Ptr) => ?_
  cases buf with
  | none => exact ⟨h.safe, [], h⟩
  | some p =>
    refine always_sendMsg h hc fun ret t x ht => ?_
    exact always_neutral (fun _ _ => rfl) ht.safe fun _ => ⟨ht.safe, [x], ht⟩

lemma receiveOutput_succ (rounds : ℕ) (fd : Fd) : receiveOutput (rounds + 1) fd =
    .call (.recvMsg fd) fun x : ℤ × MsgOut =>
      if x.1 < 0 then .call (.free (x.2.payload.map Block.addr)) fun _ => .ret (-1)
      else if x.2.type = some msgOutput then
        .call (.fwriteStdout x.2.bytes) fun _ =>
          .call (.free (x.2.payload.map Block.addr)) fun _ => receiveOutput rounds fd
      else if x.2.type = some msgTaskDone then
        .call (.free (x.2.payload.map Block.addr)) fun _ => .ret (doneExitCode x.2)
      else .call (.free (x.2.payload.map Block.addr)) fun _ => receiveOutput rounds fd := by
  simp [receiveOutput, DispCall.doRecvMsg, DispCall.doFree, DispCall.doFwriteStdout]

/-- The calls of `receive_output` leave the account alone. -/
lemma always_receiveOutput (rounds : ℕ) (h : Holds fd l s) :
    (receiveOutput rounds fd).Always kernel Safe (fun _ => Holds fd l) s := by
  induction rounds with
  | zero => exact h.safe
  | succ rounds ih =>
    rw [receiveOutput_succ]
    refine always_neutral (fun _ _ => rfl) h.safe fun x => ?_
    by_cases hret : x.1 < 0
    · simp only [if_pos hret]
      exact always_neutral (fun _ _ => rfl) h.safe fun _ => ⟨h.safe, h⟩
    · simp only [if_neg hret]
      by_cases hout : x.2.type = some msgOutput
      · simp only [if_pos hout]
        refine always_neutral (fun _ _ => rfl) h.safe fun _ => ?_
        exact always_neutral (fun _ _ => rfl) h.safe fun _ => ih
      · simp only [if_neg hout]
        by_cases hdone : x.2.type = some msgTaskDone
        · simp only [if_pos hdone]
          exact always_neutral (fun _ _ => rfl) h.safe fun _ => ⟨h.safe, h⟩
        · simp only [if_neg hdone]
          exact always_neutral (fun _ _ => rfl) h.safe fun _ => ih

lemma always_deliver (rounds : ℕ) (task : Task) (here : Bool) (best : Best) (local_ip : Bytes)
    (own_port : ℕ) (h : Idle [] s) :
    (deliver rounds task here best local_ip own_port).Always kernel Safe
      (fun _ s => ∃ l, Idle l s) s := by
  refine Prog.Always.bind ((always_connectTarget here best local_ip own_port h).mono ?_)
  rintro fd t ⟨hmade, hc⟩
  rcases hmade with ⟨hfd, ht⟩ | ⟨hfd, ht⟩
  · simp only [if_pos hfd]
    exact ⟨ht.safe, [], ht⟩
  · simp only [if_neg hfd]
    refine Prog.Always.bind ((always_sendTaskFile task ht (hc hfd)).mono ?_)
    rintro ret u ⟨l, hu⟩
    by_cases hret : ret < 0
    · simp only [if_pos hret]
      exact always_close hu fun v hv => ⟨hv.safe, l, hv⟩
    · simp only [if_neg hret]
      refine Prog.Always.bind ((always_receiveOutput rounds hu).mono fun code v hv => ?_)
      exact always_close hv fun w hw => ⟨hw.safe, l, hw⟩

lemma idle_start : Idle [] {} where
  sends_eq := rfl
  length_le := by decide
  on_target := by simp
  not_late := rfl
  not_stray := rfl
  only_queries := by simp
  table_eq := fun _ => rfl
  closes_eq := fun _ => rfl

end SockLog

/-- In every execution of `dispatch` at most one message is sent, on the last connection made and
with no attempt to connect after it; only load requests are sent beside it; no socket is closed
twice; and when `dispatch` has returned every socket was closed once. -/
theorem dispatch_at_most_once (rounds : ℕ) (task : Task) (local_ip : Bytes) (own_port : ℕ)
    {q : DispProg ℤ} {s : SockLog}
    (hx : Exec SockLog.kernel (dispatch rounds task local_ip own_port) {} q s) :
    s.sends.length ≤ 1 ∧ (∀ x ∈ s.sends, x.1.isSome ∧ x.1 = s.connected) ∧ s.late = false ∧
      (∀ d ∈ s.datagrams, d = loadReq.bytes) ∧ s.stray = 0 ∧ (∀ i, s.closes i ≤ 1) ∧
      ∀ code, q = .ret code → ∀ i < s.made, s.closes i = 1 := by
  have hstart : (dispatch rounds task local_ip own_port).Always SockLog.kernel SockLog.Safe
      (fun _ s => ∃ l, SockLog.Idle l s) {} := by
    refine Prog.Always.bind ((SockLog.always_route local_ip own_port SockLog.idle_start).mono ?_)
    rintro ⟨here, best⟩ t ht
    exact SockLog.always_deliver rounds task here best local_ip own_port ht
  have hend := hstart.exec hx
  have hsafe := hend.inv
  refine ⟨hsafe.sends_le, hsafe.on_target, hsafe.not_late, hsafe.only_queries, hsafe.not_stray,
    hsafe.closes_le, ?_⟩
  rintro code rfl i hi
  obtain ⟨-, l, hidle⟩ := hend
  rw [hidle.closes_eq, if_pos hi]

/-- An idle peer is chosen and refuses the connection; the task goes to this node, which drops the
connection. -/
def fallbackAnswers : List ((c : DispCall) × c.Ret) :=
  [⟨.peerListGetAll maxPeers, ([{ ip := [50], port := 7778, valid := true }] : List PeerInfo)⟩,
   ⟨.sock (.socket .dgram), (3 : ℤ)⟩,
   ⟨.sock (.setsockopt 3 .broadcast), ()⟩,
   ⟨.sock (.setsockopt 3 .reuseaddr), ()⟩,
   ⟨.sock (.setsockopt 3 .reuseport), ()⟩,
   ⟨.sendto 3 [50] discoveryPort loadReq.bytes, ()⟩,
   ⟨.select 3, (1 : ℤ)⟩,
   ⟨.recv 3 queryBufSize, some (({ type := msgLoadResp, payload_len := 16 } : MsgHeader).bytes ++
      (LoadResp.mk 0 0 0 4).bytes)⟩,
   ⟨.sock (.close 3), ()⟩,
   ⟨.peerListUpdateLoad [50] ⟨0, 0, 0, 4⟩, ()⟩,
   ⟨.printf (.load [50] 7778 (some 0)), ()⟩,
   ⟨.load .readLoadavg, LoadavgRet.noFile⟩,
   ⟨.load (.atomicLoad .activeTasks), (2 : ℕ)⟩,
   ⟨.load .readLoadavg, LoadavgRet.noFile⟩,
   ⟨.printf (.loadSelf [49] 7777 (.fin 0)), ()⟩,
   ⟨.printf (.routePeer [50] (some 7778) (.fin 0)), ()⟩,
   ⟨.sock (.socket .stream), (3 : ℤ)⟩,
   ⟨.sock (.inetPton [50]), (1 : ℤ)⟩,
   ⟨.sock (.connect 3 [50] (some 7778)), (-1 : ℤ)⟩,
   ⟨.sock (.close 3), ()⟩,
   ⟨.sock (.socket .stream), (3 : ℤ)⟩,
   ⟨.sock (.inetPton [49]), (1 : ℤ)⟩,
   ⟨.sock (.connect 3 [49] (some 7777)), (0 : ℤ)⟩,
   ⟨.malloc 8, (some 1 : Option Ptr)⟩,
   ⟨.sendMsg 3 msgTaskFile [0, 1, 97, 0, 0, 0, 1, 7], (0 : ℤ)⟩,
   ⟨.free (some 1), ()⟩,
   ⟨.recvMsg 3, ((-1, {}) : ℤ × MsgOut)⟩,
   ⟨.free none, ()⟩,
   ⟨.sock (.close 3), ()⟩]

theorem dispatch_fallback_once : ∃ s,
    Exec SockLog.kernel (dispatch 1 ⟨[97], [7], 1⟩ [49] 7777) {} (.ret (-1)) s ∧
      s.made = 3 ∧ s.sends.length = 1 ∧
      s.sends.length ≤ 1 ∧ (∀ x ∈ s.sends, x.1.isSome ∧ x.1 = s.connected) ∧ s.late = false ∧
      (∀ d ∈ s.datagrams, d = loadReq.bytes) ∧ s.stray = 0 ∧ (∀ i, s.closes i ≤ 1) ∧
      ∀ code, (.ret (-1) : DispProg ℤ) = .ret code → ∀ i < s.made, s.closes i = 1 := by
  have hrun : ((follow SockLog.kernel (dispatch 1 ⟨[97], [7], 1⟩ [49] 7777) {} fallbackAnswers).map
      fun x => (x.1.value, x.2.made, x.2.sends.length)) = some (some (-1), 3, 1) := by
    decide +kernel
  obtain ⟨⟨q, s⟩, hs, hx⟩ := Option.map_eq_some_iff.1 hrun
  simp only [Prod.mk.injEq] at hx
  obtain ⟨hq, hmade, hsends⟩ := hx
  obtain rfl := Prog.eq_ret_of_value hq
  have hexec := Exec.of_follow hs
  exact ⟨s, hexec, hmade, hsends, dispatch_at_most_once 1 _ _ _ hexec⟩

end P2PNode
