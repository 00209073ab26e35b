import P2PNode.Dispatch.Scene
import P2PNode.Node.Discovery
import P2PNode.Peers.PeerList

/-!
# The load response and its two decoders

A load response is decoded twice from the bytes that lie in memory: by `query_peer_load` into
`*out_info`, and by `peer_list_update_load` into the table. Both give back what the responder put
into the packet; only the table receives the number of cores.
-/

namespace P2PNode

open Effect

/-! ### The response in memory -/

/-- `payload_load_resp_t`, each field as its four bytes in network byte order. -/
structure NetLoadResp where
  load_pct : Bytes
  active_tasks : Bytes
  total_tasks : Bytes
  num_cores : Bytes
  deriving DecidableEq

namespace NetLoadResp

/-- The `memcpy` out of the packet. -/
def ofBytes (bs : Bytes) : NetLoadResp where
  load_pct := bs.take 4
  active_tasks := (bs.drop 4).take 4
  total_tasks := (bs.drop 8).take 4
  num_cores := (bs.drop 12).take 4

/-- The fields in host order. -/
def decode (resp : NetLoadResp) : LoadResp where
  load_pct := ofBe resp.load_pct
  active_tasks := ofBe resp.active_tasks
  total_tasks := ofBe resp.total_tasks
  num_cores := ofBe resp.num_cores

lemma ofBytes_bytes (r : LoadResp) : ofBytes r.bytes =
    ⟨be32 r.load_pct, be32 r.active_tasks, be32 r.total_tasks, be32 r.num_cores⟩ := by
  simp [ofBytes, LoadResp.bytes, List.drop_append, List.drop_of_length_le, List.take_of_length_le]

end NetLoadResp

/-- `peer_list_update_load` on the response as it lies in memory. -/
def peerListUpdateLoadNet (ip : Bytes) (resp : NetLoadResp) (now : ℤ) (peers : PeerTable) :
    PeerTable :=
  match findSlot ip peers with
  | some idx => Function.update peers idx { peers idx with
      load_pct := ofBe resp.load_pct
      active_tasks := ofBe resp.active_tasks
      total_tasks := ofBe resp.total_tasks
      num_cores := ofBe resp.num_cores
      last_seen := now }
  | none => peers

lemma peerListUpdateLoadNet_eq (ip : Bytes) (resp : NetLoadResp) (now : ℤ) (peers : PeerTable) :
    peerListUpdateLoadNet ip resp now peers = peerListUpdateLoad ip resp.decode now peers := rfl

/-! ### The query on it -/

/-- `*out_info`, with the field that `dispatch` has no use for. -/
structure OutInfo extends QueryResult where
  num_cores : Option ℕ := none

inductive QueryCall where
  | disp (c : DispCall)
  | peerListUpdateLoad (ip : Bytes) (resp : NetLoadResp)
  deriving DecidableEq

@[reducible] def QueryCall.Ret : QueryCall → Type
  | .disp c                 => c.Ret
  | .peerListUpdateLoad _ _ => Unit

abbrev QueryProg := Prog QueryCall QueryCall.Ret

namespace QueryCall

def doDisp {α : Type} (p : DispProg α) : QueryProg α := p.embed QueryCall.disp fun _ r => r
def doPeerListUpdateLoad (ip : Bytes) (resp : NetLoadResp) : QueryProg Unit :=
  Prog.perform (QueryCall.peerListUpdateLoad ip resp)

end QueryCall

open QueryCall

/-- The checks on the answer, and the copy of its payload. -/
def checkLoadRespNet (buf : Bytes) : Option NetLoadResp :=
  if buf.length < headerSize + loadRespSize then none
  else if headerType buf ≠ msgLoadResp then none
  else some (NetLoadResp.ofBytes ((buf.drop headerSize).take loadRespSize))

/-- `query_peer_load` with its own decoding of the response. -/
def queryPeerLoadNet (ip : Bytes) (port : ℕ) : QueryProg (ExtRat × OutInfo) := do
  let udp_fd ← doDisp (DispCall.doSock (makeUdpBroadcastSocket 0))
  if udp_fd < 0 then return (noAnswerScore, {})
  else
    let n ← doDisp (awaitLoadResp udp_fd ip)
    match n.bind checkLoadRespNet with
    | none => return (noAnswerScore, {})
    | some resp =>
      doPeerListUpdateLoad ip resp
      let f := ofBe resp.load_pct
      let active_tasks := ofBe resp.active_tasks
      return (ExtRat.ofBits f + .fin (10 * active_tasks), {
        ip := some ip
        port := some port
        load_pct := some f
        active_tasks := some active_tasks
        total_tasks := some (ofBe resp.total_tasks) })

namespace QueryProg

variable {α β : Type}

/-- The same program, the response being passed on in host order. -/
def erase : QueryProg α → DispProg α
  | .ret a                                => .ret a
  | .spin                                 => .spin
  | .call (.disp c) k                     => .call c fun r => erase (k r)
  | .call (.peerListUpdateLoad ip resp) k =>
    .call (.peerListUpdateLoad ip resp.decode) fun _ => erase (k ())

@[simp] lemma erase_bind (p : QueryProg α) (f : α → QueryProg β) :
    erase (p >>= f) = erase p >>= fun a => erase (f a) := by
  induction p with
  | ret a => rfl
  | spin => rfl
  | call c k ih =>
    cases c with
    | disp c => simp [erase, ih]
    | peerListUpdateLoad ip resp => simp [erase, ih]

@[simp] lemma erase_doDisp (p : DispProg α) : erase (doDisp p) = p := by
  induction p with
  | ret a => rfl
  | spin => rfl
  | call c k ih =>
    simp only [doDisp] at ih
    simp [doDisp, erase, ih]

lemma checkLoadResp_eq (buf : Bytes) :
    checkLoadResp buf = (checkLoadRespNet buf).map NetLoadResp.decode := by
  rw [checkLoadResp, checkLoadRespNet]
  split
  · rfl
  · split
    · rfl
    · rfl

/-- It is the query of the dispatcher. -/
theorem erase_queryPeerLoadNet (ip : Bytes) (port : ℕ) :
    (erase (queryPeerLoadNet ip port) >>= fun x => .ret (x.1, x.2.toQueryResult)) =
      queryPeerLoad ip port := by
  simp only [queryPeerLoadNet, queryPeerLoad, erase_bind, erase_doDisp, Prog.bind_assoc]
  congr 1
  funext udp_fd
  by_cases hfd : udp_fd < 0
  · rw [if_pos hfd, if_pos hfd]
    rfl
  · rw [if_neg hfd, if_neg hfd]
    simp only [erase_bind, erase_doDisp, Prog.bind_assoc]
    congr 1
    funext n
    have hcheck : n.bind checkLoadResp = (n.bind checkLoadRespNet).map NetLoadResp.decode := by
      cases n with
      | none => rfl
      | some buf => exact checkLoadResp_eq buf
    rw [hcheck]
    cases n.bind checkLoadRespNet with
    | none => rfl
    | some resp => rfl

end QueryProg

/-! ### The packet -/

/-- The packet that `load_responder_thread` puts together. -/
def loadRespPacket (r : LoadResp) : Bytes := loadRespHdr.bytes ++ r.bytes

@[simp] lemma LoadResp.length_bytes (r : LoadResp) : r.bytes.length = loadRespSize := by
  simp [LoadResp.bytes, loadRespSize]

lemma length_loadRespPacket (r : LoadResp) :
    (loadRespPacket r).length = headerSize + loadRespSize := by
  rw [loadRespPacket, List.length_append, MsgHeader.length_bytes, LoadResp.length_bytes]

/-- The packet fits into the buffer of the query. -/
lemma take_loadRespPacket (r : LoadResp) :
    (loadRespPacket r).take queryBufSize = loadRespPacket r := by
  apply List.take_of_length_le
  rw [length_loadRespPacket, queryBufSize]
  exact Nat.le_add_right _ _

lemma checkLoadRespNet_packet (r : LoadResp) : checkLoadRespNet (loadRespPacket r) =
    some ⟨be32 r.load_pct, be32 r.active_tasks, be32 r.total_tasks, be32 r.num_cores⟩ := by
  have htype : headerType (loadRespPacket r) = msgLoadResp := rfl
  have hpay : ((loadRespPacket r).drop headerSize).take loadRespSize = r.bytes := by
    rw [loadRespPacket, List.drop_left' (MsgHeader.length_bytes _)]
    exact List.take_of_length_le (LoadResp.length_bytes r).le
  rw [checkLoadRespNet, if_neg (length_loadRespPacket r).ge.not_gt, if_neg (not_not.2 htype), hpay,
    NetLoadResp.ofBytes_bytes]

/-! ### The responder -/

namespace LoadReading

/-- The calls of `load_monitor.c`, answered by one reading and a count of all tasks. -/
def answer (l : LoadReading) (total : ℕ) : (c : LoadCall) → c.Ret
  | .fetchAdd _              => ()
  | .fetchSub _              => ()
  | .atomicLoad .activeTasks => l.active
  | .atomicLoad .totalTasks  => total
  | .readLoadavg             => l.loadavg
  | .nprocessorsOnln         => l.cores

variable (l : LoadReading) (total : ℕ)

lemma answered_loadGetCoreCount :
    loadGetCoreCount.answered (l.answer total) = some l.coreCount := by
  by_cases hc : l.cores < 1
  · simp [loadGetCoreCount, LoadCall.doNprocessorsOnln, answer, coreCount, hc]
  · simp [loadGetCoreCount, LoadCall.doNprocessorsOnln, answer, coreCount, hc]

lemma answered_atMostHundred (pct : ExtRat) :
    (if .fin 100 < pct then Prog.ret (.fin 100) else .ret pct : LoadProg ExtRat).answered
      (l.answer total) = some (atMostHundred pct) := by
  rw [atMostHundred]
  split
  · rfl
  · rfl

lemma answered_loadGetPercentage :
    loadGetPercentage.answered (l.answer total) = some l.percentage := by
  cases hl : l.loadavg with
  | noFile =>
    simp [loadGetPercentage, loadGet, LoadCall.doReadLoadavg, answer, percentage, hl]
  | badFormat =>
    simp [loadGetPercentage, loadGet, LoadCall.doReadLoadavg, answer, percentage, hl]
  | values l1 l5 l15 =>
    simp [loadGetPercentage, loadGet, LoadCall.doReadLoadavg, answer, percentage, hl,
      answered_loadGetCoreCount, answered_atMostHundred]

lemma answered_loadScoreLocal : loadScoreLocal.answered (l.answer total) = some l.score := by
  simp [loadScoreLocal, answered_loadGetPercentage, loadGetActiveTasks, LoadCall.doAtomicLoad,
    answer, score]

end LoadReading

/-- A node that answers load requests: its load, the number of tasks it ever started, and the bit
patterns of its `float`s. -/
structure Responder where
  reading : LoadReading
  total : ℕ
  bits : ExtRat → ℕ

namespace Responder

variable (S : Responder)

/-- The response, in host order. -/
def resp : LoadResp where
  load_pct := S.bits S.reading.percentage
  active_tasks := S.reading.active
  total_tasks := S.total
  num_cores := S.reading.coreCount

/-- The host of the responder; its state are the datagrams sent. -/
def handle : (c : UdpCall) → List (Addr × Bytes) → Option (c.Ret × List (Addr × Bytes))
  | .load c, sent            => some (S.reading.answer S.total c, sent)
  | .sendto _ dst data, sent => some ((), sent ++ [(dst, data)])
  | _, _                     => none

lemma run_doLoad {α : Type} (p : LoadProg α) (sent : List (Addr × Bytes)) :
    (UdpCall.doLoad p).run S.handle sent =
      (p.answered (S.reading.answer S.total)).map fun x => (x, sent) := by
  apply Prog.run_embed_answered
  intro c
  exact ⟨_, rfl, rfl⟩

/-- A load request is answered with one packet to its source. -/
lemma run_answerLoadReq (fd : Fd) (src : Addr) {req : Bytes} (hlen : headerSize ≤ req.length)
    (htype : headerType req = msgLoadReq) (sent : List (Addr × Bytes)) :
    (answerLoadReq S.bits fd (some (src, req))).run S.handle sent =
      some ((), sent ++ [(src, loadRespPacket S.resp)]) := by
  have hshort : ¬ req.length < headerSize := hlen.not_gt
  have htotal : loadGetTotalTasks.answered (S.reading.answer S.total) = some S.total := rfl
  have hactive : loadGetActiveTasks.answered (S.reading.answer S.total) = some S.reading.active :=
    rfl
  simp [answerLoadReq, hshort, htype, run_doLoad, LoadReading.answered_loadGetPercentage,
    LoadReading.answered_loadGetCoreCount, htotal, hactive, UdpCall.doSendto, handle,
    loadRespPacket, resp]

end Responder

/-! ### The query -/

/-- A host on which the query gets an answer: its socket, what `select` returns, and the clock
that the update of the table reads. -/
structure QueryHost where
  fd : Fd
  selected : ℤ
  now : ℤ
  fd_nonneg : ¬ fd < 0
  selected_pos : ¬ selected ≤ 0

namespace QueryHost

variable (H : QueryHost)

/-- The calls of the query, when the answer is the datagram `packet`; the state is the table. -/
def handle (packet : Bytes) : (c : QueryCall) → PeerTable → Option (c.Ret × PeerTable)
  | .disp (.sock (.socket _)), peers       => some (H.fd, peers)
  | .disp (.sock (.setsockopt _ _)), peers => some ((), peers)
  | .disp (.sock (.close _)), peers        => some ((), peers)
  | .disp (.sendto _ _ _ _), peers         => some ((), peers)
  | .disp (.select _), peers               => some (H.selected, peers)
  | .disp (.recv _ size), peers            => some (some (packet.take size), peers)
  | .peerListUpdateLoad ip resp, peers     =>
    some ((), peerListUpdateLoadNet ip resp H.now peers)
  | _, _                                   => none

lemma run_udpSocket (packet : Bytes) (peers : PeerTable) :
    (doDisp (DispCall.doSock (makeUdpBroadcastSocket 0))).run (H.handle packet) peers =
      some (H.fd, peers) := by
  simp [doDisp, DispCall.doSock, makeUdpBroadcastSocket, SockCall.doSocket, SockCall.doSetsockopt,
    handle, H.fd_nonneg]

lemma run_awaitLoadResp (packet : Bytes) (ip : Bytes) (peers : PeerTable) :
    (doDisp (awaitLoadResp H.fd ip)).run (H.handle packet) peers =
      some (some (packet.take queryBufSize), peers) := by
  simp [doDisp, awaitLoadResp, DispCall.doSendto, DispCall.doSelect, DispCall.doRecv,
    DispCall.doClose, DispCall.doSock, SockCall.doClose, handle, H.selected_pos, Prog.embed_ite]

/-- A response is accepted; it goes into the table and, without its last field, into `*out_info`. -/
lemma run_queryPeerLoadNet {r : LoadResp} (hl : r.load_pct < 2 ^ 32) (ha : r.active_tasks < 2 ^ 32)
    (ht : r.total_tasks < 2 ^ 32) (hc : r.num_cores < 2 ^ 32) (ip : Bytes) (port : ℕ)
    (peers : PeerTable) :
    (queryPeerLoadNet ip port).run (H.handle (loadRespPacket r)) peers =
      some ((respScore r, {
        ip := some ip
        port := some port
        load_pct := some r.load_pct
        active_tasks := some r.active_tasks
        total_tasks := some r.total_tasks }), peerListUpdateLoad ip r H.now peers) := by
  have hdecode : (NetLoadResp.mk (be32 r.load_pct) (be32 r.active_tasks) (be32 r.total_tasks)
      (be32 r.num_cores)).decode = r := by
    simp [NetLoadResp.decode, ofBe_be32 hl, ofBe_be32 ha, ofBe_be32 ht, ofBe_be32 hc]
  simp [queryPeerLoadNet, run_udpSocket, run_awaitLoadResp, H.fd_nonneg, take_loadRespPacket,
    checkLoadRespNet_packet, doPeerListUpdateLoad, handle, peerListUpdateLoadNet_eq, hdecode,
    ofBe_be32 hl, ofBe_be32 ha, ofBe_be32 ht, respScore]

end QueryHost

/-! ### The round trip -/

/-- The fields of an entry that a response sets. -/
def PeerInfo.resp (peer : PeerInfo) : LoadResp :=
  ⟨peer.load_pct, peer.active_tasks, peer.total_tasks, peer.num_cores⟩

/-- The score in `load_score_local`. -/
def loadScore (lp : ExtRat) (active_tasks : ℕ) : ExtRat := lp + .fin (10 * active_tasks)

lemma findSlot_of_valid {ip : Bytes} {peers : PeerTable} {j : Fin maxPeers}
    (hv : (peers j).valid = true) (hip : (peers j).ip = ip) :
    ∃ i, findSlot ip peers = some i ∧ (peers i).ip = ip := by
  cases hs : findSlot ip peers with
  | none =>
    have hno := List.find?_eq_none.1 hs j (List.mem_finRange j)
    simp [hv, hip] at hno
  | some i =>
    have hi := List.find?_some hs
    simp only [Bool.and_eq_true, decide_eq_true_eq] at hi
    exact ⟨i, rfl, hi.2⟩

/-- What a node answers to a load request is accepted by the query, whatever the bits of its load
and its counts. The load and the counts of tasks come out in `*out_info`, and the core count with
them in the entry of the peer, if it has one; the other entries stay. The score is the expression of
the sender on the values sent. -/
theorem load_resp_round_trip (load active total cores : UInt32) (S : Responder)
    (hS : S.resp = ⟨load.toNat, active.toNat, total.toNat, cores.toNat⟩) (fd : Fd) (src : Addr)
    (H : QueryHost) (ip : Bytes) (port : ℕ) (peers : PeerTable) :
    ∃ packet score out peers',
      (answerLoadReq S.bits fd (some (src, loadReq.bytes))).run S.handle [] =
        some ((), [(src, packet)]) ∧
      (queryPeerLoadNet ip port).run (H.handle packet) peers = some ((score, out), peers') ∧
      (out.load_pct = some load.toNat ∧ out.active_tasks = some active.toNat ∧
        out.total_tasks = some total.toNat) ∧
      ((∃ j, (peers j).valid = true ∧ (peers j).ip = ip) → ∃ i, findSlot ip peers = some i ∧
        (peers' i).ip = ip ∧
        (peers' i).resp = ⟨load.toNat, active.toNat, total.toNat, cores.toNat⟩) ∧
      (∀ i, findSlot ip peers ≠ some i → peers' i = peers i) ∧
      score = loadScore (ExtRat.ofBits load.toNat) active.toNat ∧
      S.bits S.reading.percentage = load.toNat ∧
      loadScoreLocal.answered (S.reading.answer S.total) =
        some (loadScore S.reading.percentage active.toNat) := by
  have hactive : S.reading.active = active.toNat := congrArg LoadResp.active_tasks hS
  have hsent := S.run_answerLoadReq fd src (MsgHeader.length_bytes loadReq).ge rfl []
  rw [hS, List.nil_append] at hsent
  have hquery := H.run_queryPeerLoadNet (r := ⟨load.toNat, active.toNat, total.toNat, cores.toNat⟩)
    load.toNat_lt active.toNat_lt total.toNat_lt cores.toNat_lt ip port peers
  refine ⟨_, _, _, _, hsent, hquery, ⟨rfl, rfl, rfl⟩, ?_, ?_, rfl,
    congrArg LoadResp.load_pct hS, ?_⟩
  · rintro ⟨j, hv, hip⟩
    obtain ⟨i, hi, hip'⟩ := findSlot_of_valid hv hip
    refine ⟨i, hi, ?_, ?_⟩
    · rw [peerListUpdateLoad, hi]
      simpa using hip'
    · rw [peerListUpdateLoad, hi]
      simp [PeerInfo.resp]
  · intro i hi
    rw [peerListUpdateLoad]
    cases hs : findSlot ip peers with
    | none => rfl
    | some idx =>
      have hne : i ≠ idx := by
        rintro rfl
        exact hi hs
      simp [hne]
  · rw [LoadReading.answered_loadScoreLocal, LoadReading.score, hactive, loadScore]

/-- A node with four cores that runs two tasks; the bits of its load are those of a NaN. -/
def nanResponder : Responder := ⟨⟨.noFile, 4, 2⟩, 7, fun _ => 0x7fc00001⟩

lemma not_three_neg : ¬ (3 : Fd) < 0 := by decide

/-- A host whose query gets its answer in time. -/
def promptHost : QueryHost := ⟨3, 1, 100, not_three_neg, by decide⟩

/-- A table with one peer. -/
def onePeerTable : PeerTable :=
  Function.update peerListInit firstSlot { ip := [49], port := 7778, num_cores := 1, valid := true }

theorem load_resp_round_trip_nan : ∃ packet score out peers',
    (answerLoadReq nanResponder.bits 5 (some (⟨[48], 4000⟩, loadReq.bytes))).run
      nanResponder.handle [] = some ((), [(⟨[48], 4000⟩, packet)]) ∧
    (queryPeerLoadNet [49] 7778).run (promptHost.handle packet) onePeerTable =
      some ((score, out), peers') ∧
    out.active_tasks = some 2 ∧
    ∃ i, findSlot [49] onePeerTable = some i ∧ (peers' i).resp = ⟨0x7fc00001, 2, 7, 4⟩ := by
  obtain ⟨packet, score, out, peers', hsent, hquery, hout, htable, -⟩ :=
    load_resp_round_trip 0x7fc00001 2 7 4 nanResponder (by decide +kernel) 5 ⟨[48], 4000⟩
      promptHost [49] 7778 onePeerTable
  obtain ⟨i, hi, -, hresp⟩ := htable ⟨firstSlot, rfl, rfl⟩
  exact ⟨packet, score, out, peers', hsent, hquery, hout.2.1, i, hi, hresp⟩

/-- The core count of the answer reaches the table, and not `*out_info`. -/
theorem load_resp_num_cores_dropped : ∃ packet score out peers',
    (answerLoadReq nanResponder.bits 5 (some (⟨[48], 4000⟩, loadReq.bytes))).run
      nanResponder.handle [] = some ((), [(⟨[48], 4000⟩, packet)]) ∧
    nanResponder.resp.num_cores = 4 ∧
    (queryPeerLoadNet [49] 7778).run (promptHost.handle packet) onePeerTable =
      some ((score, out), peers') ∧
    (peers' firstSlot).num_cores = 4 ∧ out.num_cores ≠ some 4 := by
  have hresp : nanResponder.resp = ⟨0x7fc00001, 2, 7, 4⟩ := by decide +kernel
  have hsent := nanResponder.run_answerLoadReq 5 ⟨[48], 4000⟩ (MsgHeader.length_bytes loadReq).ge
    rfl []
  have hquery := promptHost.run_queryPeerLoadNet (r := nanResponder.resp) (by rw [hresp]; decide)
    (by rw [hresp]; decide) (by rw [hresp]; decide) (by rw [hresp]; decide) [49] 7778 onePeerTable
  refine ⟨_, _, _, _, hsent, congrArg LoadResp.num_cores hresp, hquery, ?_, nofun⟩
  have hslot : findSlot [49] onePeerTable = some firstSlot := by decide +kernel
  rw [peerListUpdateLoad, hslot, hresp]
  rfl

end P2PNode
