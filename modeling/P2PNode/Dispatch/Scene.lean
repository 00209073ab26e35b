import P2PNode.Dispatch.Dispatcher

/-!
# A host for `dispatch`

`dispatch` on a scripted host: a snapshot of peers, what becomes of the query to each of them, and
the load of the node itself. The connection, the send and the answers of the worker are arbitrary.
-/

namespace P2PNode

open Effect

/-! ### The host -/

/-- What becomes of one query. -/
inductive Outcome where
  | noSocket
  | timeout
  | selectError
  | recvError
  | datagram (data : Bytes)

/-- What `load_monitor.c` reads for one score. -/
structure LoadReading where
  loadavg : LoadavgRet
  cores : ℤ
  active : ℕ

/-- The host: the readings for the score of the node and for the line printed after it, and the
results on the task connection. -/
structure Scene where
  asked : List (PeerInfo × Outcome)
  own : LoadReading
  later : LoadReading
  connected : ℕ → ℤ
  block : Option Ptr
  sent : ℤ
  incoming : List (ℤ × MsgOut)

/-- The state of a run: the outcomes still to come, the query under way, whether the score was
taken, the addresses connected to, the lines printed and the messages still to come. -/
structure Desk where
  waiting : List Outcome
  current : Outcome := .timeout
  scored : Bool := false
  targets : List (Bytes × Option ℕ) := []
  printed : List OutLine := []
  incoming : List (ℤ × MsgOut)

/-- The value of `load_get_core_count`. -/
def LoadReading.coreCount (l : LoadReading) : ℕ :=
  if l.cores < 1 then 1 else l.cores.toNat % 2 ^ 32

/-- A load in percent, cut to 100. -/
def atMostHundred (pct : ExtRat) : ExtRat := if .fin 100 < pct then .fin 100 else pct

/-- The value of `load_get_percentage`. -/
def LoadReading.percentage (l : LoadReading) : ExtRat :=
  match l.loadavg with
  | .values l1 _ _ => atMostHundred ((l1.scale (1 / l.coreCount)).scale 100)
  | _              => .fin 0

/-- The value of `load_score_local`. -/
def LoadReading.score (l : LoadReading) : ExtRat := l.percentage + .fin (10 * l.active)

namespace Outcome

def fd : Outcome → Fd
  | .noSocket => -1
  | _         => 3

def selected : Outcome → ℤ
  | .timeout     => 0
  | .selectError => -1
  | _            => 1

/-- A datagram is cut to the size of the buffer. -/
def received (size : ℕ) : Outcome → Option Bytes
  | .datagram data => some (data.take size)
  | _              => none

/-- The response of a peer that answered well-formed: a datagram of type `MSG_LOAD_RESP` with room
for its payload. -/
def response : Outcome → Option LoadResp
  | .datagram data =>
    if headerSize + loadRespSize ≤ data.length ∧ headerType data = msgLoadResp then
      some (LoadResp.ofBytes ((data.drop headerSize).take loadRespSize))
    else none
  | _ => none

def score (o : Outcome) : Option ExtRat := o.response.map respScore

end Outcome

/-- A peer with its score, if it answered well-formed. -/
def scored (x : PeerInfo × Outcome) : Option (PeerInfo × ExtRat) := x.2.score.map fun v => (x.1, v)

namespace Scene

variable (sc : Scene)

def start : Desk where
  waiting := sc.asked.map Prod.snd
  incoming := sc.incoming

/-- The reading that answers the load calls. -/
def reading (s : Desk) : LoadReading := if s.scored then sc.later else sc.own

def handle : (c : DispCall) → Desk → Option (c.Ret × Desk)
  | .sock (.socket .dgram), s =>
    match s.waiting with
    | []      => some (-1, s)
    | o :: os => some (o.fd, { s with waiting := os, current := o })
  | .sock (.socket .stream), s => some (4, s)
  | .sock (.setsockopt _ _), s => some ((), s)
  | .sock (.bind _ _), s => some (0, s)
  | .sock (.inetPton _), s => some (1, s)
  | .sock (.connect _ ip port), s =>
    some (sc.connected s.targets.length, { s with targets := s.targets ++ [(ip, port)] })
  | .sock (.close _), s => some ((), s)
  | .load (.fetchAdd _), s => some ((), s)
  | .load (.fetchSub _), s => some ((), s)
  | .load (.atomicLoad _), s => some ((sc.reading s).active, { s with scored := true })
  | .load .readLoadavg, s => some ((sc.reading s).loadavg, s)
  | .load .nprocessorsOnln, s => some ((sc.reading s).cores, s)
  | .sendto _ _ _ _, s => some ((), s)
  | .select _, s => some (s.current.selected, s)
  | .recv _ size, s => some (s.current.received size, s)
  | .peerListGetAll _, s => some (sc.asked.map Prod.fst, s)
  | .peerListUpdateLoad _ _, s => some ((), s)
  | .malloc _, s => some (sc.block, s)
  | .free _, s => some ((), s)
  | .sendMsg _ _ _, s => some (sc.sent, s)
  | .recvMsg _, s =>
    match s.incoming with
    | []      => some ((-1, {}), s)
    | m :: ms => some (m, { s with incoming := ms })
  | .fwriteStdout _, s => some ((), s)
  | .printf line, s => some ((), { s with printed := s.printed ++ [line] })

/-- The peers that answered well-formed, with their scores, in the order of the snapshot. -/
def answers : List (PeerInfo × ExtRat) := sc.asked.filterMap scored

end Scene

/-! ### One query -/

/-- The result of the query to a peer. -/
def Outcome.result (o : Outcome) (peer : PeerInfo) : ExtRat × QueryResult :=
  match o.response with
  | none => (noAnswerScore, {})
  | some resp => (respScore resp, {
      ip := some peer.ip
      port := some peer.port
      load_pct := some resp.load_pct
      active_tasks := some resp.active_tasks
      total_tasks := some resp.total_tasks })

lemma checkLoadResp_eq_response (data : Bytes) :
    checkLoadResp data = (Outcome.datagram data).response := by
  rw [checkLoadResp, Outcome.response]
  by_cases hl : headerSize + loadRespSize ≤ data.length
  · rw [if_neg (Nat.not_lt.2 hl)]
    by_cases ht : headerType data = msgLoadResp
    · rw [if_neg (not_not.2 ht), if_pos ⟨hl, ht⟩]
    · rw [if_pos ht, if_neg fun h => ht h.2]
  · rw [if_pos (Nat.lt_of_not_le hl), if_neg fun h => hl h.1]

namespace Scene

variable {sc : Scene}

lemma run_awaitLoadResp (s : Desk) (ip : Bytes) (fd : Fd) :
    (awaitLoadResp fd ip).run sc.handle s =
      some (if s.current.selected ≤ 0 then none else s.current.received queryBufSize, s) := by
  by_cases hsel : s.current.selected ≤ 0
  · simp [awaitLoadResp, DispCall.doSendto, DispCall.doSelect, DispCall.doClose, DispCall.doSock,
      SockCall.doClose, handle, hsel]
  · simp [awaitLoadResp, DispCall.doSendto, DispCall.doSelect, DispCall.doClose, DispCall.doSock,
      SockCall.doClose, DispCall.doRecv, handle, hsel]

lemma run_udpSocket {s : Desk} {o : Outcome} {os : List Outcome} (hw : s.waiting = o :: os) :
    (DispCall.doSock (makeUdpBroadcastSocket 0)).run sc.handle s =
      some (o.fd, { s with waiting := os, current := o }) := by
  cases o with
  | noSocket =>
    simp [DispCall.doSock, makeUdpBroadcastSocket, SockCall.doSocket, handle, hw, Outcome.fd]
  | _ =>
    simp [DispCall.doSock, makeUdpBroadcastSocket, SockCall.doSocket, SockCall.doSetsockopt,
      handle, hw, Outcome.fd]

variable (sc) in
lemma run_queryPeerLoad {s : Desk} {o : Outcome} {os : List Outcome} (hw : s.waiting = o :: os)
    (peer : PeerInfo) :
    (queryPeerLoad peer.ip peer.port).run sc.handle s =
      some (o.result peer, { s with waiting := os, current := o }) := by
  cases o with
  | noSocket =>
    simp [queryPeerLoad, run_udpSocket hw, Outcome.fd, Outcome.result, Outcome.response]
  | timeout =>
    simp [queryPeerLoad, run_udpSocket hw, run_awaitLoadResp, Outcome.fd, Outcome.selected,
      Outcome.result, Outcome.response]
  | selectError =>
    simp [queryPeerLoad, run_udpSocket hw, run_awaitLoadResp, Outcome.fd, Outcome.selected,
      Outcome.result, Outcome.response]
  | recvError =>
    simp [queryPeerLoad, run_udpSocket hw, run_awaitLoadResp, Outcome.fd, Outcome.selected,
      Outcome.received, Outcome.result, Outcome.response]
  | datagram data =>
    have hcheck := (checkLoadResp_take data).trans (checkLoadResp_eq_response data)
    cases hr : (Outcome.datagram data).response with
    | none =>
      rw [hr] at hcheck
      simp [queryPeerLoad, run_udpSocket hw, run_awaitLoadResp, Outcome.fd, Outcome.selected,
        Outcome.received, Outcome.result, hr, hcheck]
    | some resp =>
      rw [hr] at hcheck
      simp [queryPeerLoad, run_udpSocket hw, run_awaitLoadResp, Outcome.fd, Outcome.selected,
        Outcome.received, Outcome.result, hr, hcheck, DispCall.doPeerListUpdateLoad, handle]

/-! ### The loop over the snapshot -/

end Scene

/-- What the loop keeps of a peer that is better than the others. -/
def contender (x : PeerInfo × Outcome) : Best where
  score := (x.2.result x.1).1
  ip := x.1.ip
  port := (x.2.result x.1).2.port

/-- The best peer after the loop. -/
def pick (asked : List (PeerInfo × Outcome)) (best : Best) : Best :=
  asked.foldl (fun best x => if (contender x).score < best.score then contender x else best) best

namespace Scene

variable {sc : Scene}

variable (sc) in
lemma run_queryPeers (asked : List (PeerInfo × Outcome)) (best : Best) (s : Desk)
    (hw : s.waiting = asked.map Prod.snd)
    (hp : ∀ ip port, OutLine.routeSelf ip port ∉ s.printed) :
    ∃ s', (queryPeers (asked.map Prod.fst) best).run sc.handle s = some (pick asked best, s') ∧
      s'.targets = s.targets ∧ s'.incoming = s.incoming ∧ s'.scored = s.scored ∧
      ∀ ip port, OutLine.routeSelf ip port ∉ s'.printed := by
  induction asked generalizing best s with
  | nil => exact ⟨s, rfl, rfl, rfl, rfl, hp⟩
  | cons x asked ih =>
    obtain ⟨line, hline⟩ : ∃ line, line =
      OutLine.load x.1.ip x.1.port (x.2.result x.1).2.load_pct := ⟨_, rfl⟩
    obtain ⟨t, ht⟩ : ∃ t : Desk, t = { s with
      waiting := asked.map Prod.snd, current := x.2, printed := s.printed ++ [line] } := ⟨_, rfl⟩
    have hstep : (queryPeers ((x :: asked).map Prod.fst) best).run sc.handle s =
        (queryPeers (asked.map Prod.fst) (if (contender x).score < best.score then contender x
          else best)).run sc.handle t := by
      have hq := run_queryPeerLoad sc (s := s) (o := x.2) hw x.1
      subst ht hline
      by_cases hlt : (contender x).score < best.score
      · have hlt' : (x.2.result x.1).1 < best.score := hlt
        simp [queryPeers, hq, DispCall.doPrintf, handle, hlt', contender]
      · have hlt' : ¬ (x.2.result x.1).1 < best.score := hlt
        simp [queryPeers, hq, DispCall.doPrintf, handle, hlt, hlt']
    have hpt : ∀ ip port, OutLine.routeSelf ip port ∉ t.printed := by
      intro ip port hmem
      rw [ht] at hmem
      simp only [List.mem_append, List.mem_singleton] at hmem
      rcases hmem with hmem | hmem
      · exact hp ip port hmem
      · rw [hline] at hmem
        cases hmem
    obtain ⟨s', hrun, htar, hinc, hsc, hpr⟩ :=
      ih (if (contender x).score < best.score then contender x else best) t (by rw [ht]) hpt
    refine ⟨s', by rw [hstep, hrun]; rfl, ?_, ?_, ?_, hpr⟩
    · rw [htar, ht]
    · rw [hinc, ht]
    · rw [hsc, ht]

/-! ### The score of the node -/

lemma run_loadGetCoreCount (s : Desk) :
    (DispCall.doLoad loadGetCoreCount).run sc.handle s = some ((sc.reading s).coreCount, s) := by
  by_cases hc : (sc.reading s).cores < 1
  · simp [DispCall.doLoad, loadGetCoreCount, LoadCall.doNprocessorsOnln, handle, hc,
      LoadReading.coreCount]
  · simp [DispCall.doLoad, loadGetCoreCount, LoadCall.doNprocessorsOnln, handle, hc,
      LoadReading.coreCount]

lemma run_atMostHundred (pct : ExtRat) (s : Desk) :
    (DispCall.doLoad (if .fin 100 < pct then return .fin 100 else return pct)).run sc.handle s =
      some (atMostHundred pct, s) := by
  rw [atMostHundred]
  split
  · rfl
  · rfl

variable (sc) in
lemma run_loadGetPercentage (s : Desk) :
    (DispCall.doLoad loadGetPercentage).run sc.handle s =
      some ((sc.reading s).percentage, s) := by
  cases hl : (sc.reading s).loadavg with
  | noFile =>
    simp [DispCall.doLoad, loadGetPercentage, loadGet, LoadCall.doReadLoadavg, handle, hl,
      LoadReading.percentage]
  | badFormat =>
    simp [DispCall.doLoad, loadGetPercentage, loadGet, LoadCall.doReadLoadavg, handle, hl,
      LoadReading.percentage]
  | values l1 l5 l15 =>
    have hsplit : (DispCall.doLoad loadGetPercentage).run sc.handle s =
        (DispCall.doLoad loadGetCoreCount >>= fun cores => DispCall.doLoad
          (if .fin 100 < (l1.scale (1 / cores)).scale 100 then return .fin 100
            else return (l1.scale (1 / cores)).scale 100)).run sc.handle s := by
      simp only [DispCall.doLoad, loadGetPercentage, loadGet, LoadCall.doReadLoadavg, handle, hl,
        Prog.perform_bind, Prog.call_bind, Prog.embed_call, Prog.run_call, Option.bind_some,
        Prog.pure_def, Prog.embed_ret, Prog.ret_bind, Prog.embed_bind, ne_eq, not_true_eq_false,
        if_false]
    rw [hsplit, Prog.run_bind, run_loadGetCoreCount, Option.bind_some, run_atMostHundred,
      LoadReading.percentage, hl]

variable (sc) in
lemma run_loadScoreLocal (s : Desk) :
    (DispCall.doLoad loadScoreLocal).run sc.handle s =
      some ((sc.reading s).score, { s with scored := true }) := by
  have hp := run_loadGetPercentage sc s
  have hsplit : DispCall.doLoad loadScoreLocal = DispCall.doLoad loadGetPercentage >>= fun lp =>
      DispCall.doLoad loadGetActiveTasks >>= fun active => .ret (lp + .fin (10 * active)) := by
    simp [DispCall.doLoad, loadScoreLocal]
  rw [hsplit, Prog.run_bind, hp]
  simp [DispCall.doLoad, loadGetActiveTasks, LoadCall.doAtomicLoad, handle, LoadReading.score]

/-! ### Steps 1 and 2 -/

/-- Whether the task is run here. -/
def runsHere (sc : Scene) : Prop := sc.asked = [] ∨ sc.own.score ≤ (pick sc.asked {}).score

variable (sc) in
lemma run_route (local_ip : Bytes) (own_port : ℕ) :
    ∃ here s, (route local_ip own_port).run sc.handle sc.start =
        some ((here, pick sc.asked {}), s) ∧ (here = true ↔ sc.runsHere) ∧
      s.targets = [] ∧ s.incoming = sc.incoming ∧
      (.routeSelf local_ip own_port ∈ s.printed ↔ sc.runsHere) := by
  obtain ⟨s, hq, htar, hinc, hsc, hpr⟩ :=
    run_queryPeers sc sc.asked {} sc.start rfl (by simp [start])
  have hown : sc.reading s = sc.own := by simp [reading, hsc, start]
  have hscore := run_loadScoreLocal sc s
  rw [hown] at hscore
  by_cases hhere : sc.runsHere
  · have hcond : sc.asked = [] ∨ sc.own.score ≤ (pick sc.asked {}).score := hhere
    refine ⟨true, { s with
      scored := true
      printed := s.printed ++ [.loadSelf local_ip own_port sc.later.percentage] ++
        [.routeSelf local_ip own_port] }, ?_, by simp [hhere], htar, hinc, by simp [hhere]⟩
    simp [route, DispCall.doPeerListGetAll, handle, hq, hscore, run_loadGetPercentage,
      DispCall.doPrintf, hcond, reading]
  · have hcond : ¬ (sc.asked = [] ∨ sc.own.score ≤ (pick sc.asked {}).score) := hhere
    refine ⟨false, { s with
      scored := true
      printed := s.printed ++ [.loadSelf local_ip own_port sc.later.percentage] ++
        [.routePeer (pick sc.asked {}).ip (pick sc.asked {}).port (pick sc.asked {}).score] },
      ?_, by simp [hhere], htar, hinc, by simp [hhere, hpr]⟩
    simp [route, DispCall.doPeerListGetAll, handle, hq, hscore, run_loadGetPercentage,
      DispCall.doPrintf, hcond, reading]

/-! ### Steps 3 and 4 -/

variable (sc) in
lemma run_tcpConnect (ip : Bytes) (port : Option ℕ) (s : Desk) :
    ∃ fd, (DispCall.doSock (tcpConnect ip port)).run sc.handle s =
      some (fd, { s with targets := s.targets ++ [(ip, port)] }) := by
  by_cases hc : sc.connected s.targets.length < 0
  · refine ⟨-1, ?_⟩
    simp [DispCall.doSock, tcpConnect, SockCall.doSocket, SockCall.doInetPton, SockCall.doConnect,
      SockCall.doClose, handle, hc]
  · refine ⟨4, ?_⟩
    simp [DispCall.doSock, tcpConnect, SockCall.doSocket, SockCall.doInetPton, SockCall.doConnect,
      handle, hc]

variable (sc) in
/-- The first connection attempt goes to the target. -/
lemma run_connectTarget (here : Bool) (best : Best) (local_ip : Bytes) (own_port : ℕ) (s : Desk)
    (hs : s.targets = []) :
    ∃ fd s', (connectTarget here best local_ip own_port).run sc.handle s = some (fd, s') ∧
      s'.targets.head? = some (if here then (local_ip, some own_port) else (best.ip, best.port)) ∧
      s'.incoming = s.incoming ∧ s'.printed = s.printed := by
  cases here with
  | true =>
    obtain ⟨fd, hfd⟩ := run_tcpConnect sc local_ip (some own_port) s
    refine ⟨fd, { s with targets := s.targets ++ [(local_ip, some own_port)] }, ?_, by simp [hs],
      rfl, rfl⟩
    simp [connectTarget, hfd]
  | false =>
    obtain ⟨fd, hfd⟩ := run_tcpConnect sc best.ip best.port s
    by_cases hneg : fd < 0
    · obtain ⟨fd', hfd'⟩ := run_tcpConnect sc local_ip (some own_port)
        { s with targets := s.targets ++ [(best.ip, best.port)] }
      refine ⟨fd', { s with targets := s.targets ++ [(best.ip, best.port)] ++
        [(local_ip, some own_port)] }, ?_, by simp [hs], rfl, rfl⟩
      simp [connectTarget, hfd, hneg, hfd']
    · refine ⟨fd, { s with targets := s.targets ++ [(best.ip, best.port)] }, ?_, by simp [hs],
        rfl, rfl⟩
      simp [connectTarget, hfd, hneg]

variable (sc) in
/-- The loop over the answers ends when there is no more to receive. -/
lemma run_receiveOutput (rounds : ℕ) (fd : Fd) (s : Desk) (hr : s.incoming.length < rounds) :
    ∃ code s', (receiveOutput rounds fd).run sc.handle s = some (code, s') ∧
      s'.targets = s.targets ∧ s'.printed = s.printed := by
  induction rounds generalizing s with
  | zero => exact absurd hr (Nat.not_lt_zero _)
  | succ rounds ih =>
    cases hi : s.incoming with
    | nil =>
      refine ⟨-1, s, ?_, rfl, rfl⟩
      simp [receiveOutput, DispCall.doRecvMsg, DispCall.doFree, handle, hi]
    | cons m ms =>
      obtain ⟨ret, out⟩ := m
      obtain ⟨code, s', hrun, htar, hpr⟩ := ih { s with incoming := ms } (by
        rw [hi] at hr
        simpa using hr)
      by_cases hret : ret < 0
      · refine ⟨-1, { s with incoming := ms }, ?_, rfl, rfl⟩
        simp [receiveOutput, DispCall.doRecvMsg, DispCall.doFree, handle, hi, hret]
      · by_cases hout : out.type = some msgOutput
        · refine ⟨code, s', ?_, htar, hpr⟩
          simp [receiveOutput, DispCall.doRecvMsg, DispCall.doFree, DispCall.doFwriteStdout,
            handle, hi, hret, hout, hrun]
        · by_cases hdone : out.type = some msgTaskDone
          · refine ⟨doneExitCode out, { s with incoming := ms }, ?_, rfl, rfl⟩
            simp [receiveOutput, DispCall.doRecvMsg, DispCall.doFree, handle, hi, hret, hdone,
              msgTaskDone, msgOutput]
          · refine ⟨code, s', ?_, htar, hpr⟩
            simp [receiveOutput, DispCall.doRecvMsg, DispCall.doFree, handle, hi, hret, hout,
              hdone, hrun]

variable (sc) in
lemma run_deliver (rounds : ℕ) (task : Task) (here : Bool) (best : Best) (local_ip : Bytes)
    (own_port : ℕ) (s : Desk) (hs : s.targets = []) (hr : s.incoming.length < rounds) :
    ∃ code s', (deliver rounds task here best local_ip own_port).run sc.handle s = some (code, s') ∧
      s'.targets.head? = some (if here then (local_ip, some own_port) else (best.ip, best.port)) ∧
      s'.printed = s.printed := by
  obtain ⟨fd, t, hfd, htar, hinc, hpr⟩ :=
    run_connectTarget sc here best local_ip own_port s hs
  by_cases hneg : fd < 0
  · exact ⟨-1, t, by simp [deliver, hfd, hneg], htar, hpr⟩
  · have hsend : ∃ ret, (sendTaskFile fd task).run sc.handle t = some (ret, t) := by
      cases hb : sc.block with
      | none => exact ⟨-1, by simp [sendTaskFile, DispCall.doMalloc, handle, hb]⟩
      | some p =>
        exact ⟨sc.sent, by simp [sendTaskFile, DispCall.doMalloc, DispCall.doSendMsg,
          DispCall.doFree, handle, hb]⟩
    obtain ⟨ret, hret⟩ := hsend
    by_cases hfail : ret < 0
    · refine ⟨-1, t, ?_, htar, hpr⟩
      simp [deliver, hfd, hneg, hret, hfail, DispCall.doClose, DispCall.doSock, SockCall.doClose,
        handle]
    · obtain ⟨code, s', hrecv, htar', hpr'⟩ := run_receiveOutput sc rounds fd t (by
        rwa [hinc])
      refine ⟨code, s', ?_, by rw [htar', htar], hpr'.trans hpr⟩
      simp [deliver, hfd, hneg, hret, hfail, hrecv, DispCall.doClose, DispCall.doSock,
        SockCall.doClose, handle]

variable (sc) in
/-- The run of `dispatch` in terms of the best peer. -/
lemma run_dispatch (task : Task) (local_ip : Bytes) (own_port : ℕ) {rounds : ℕ}
    (hr : sc.incoming.length < rounds) :
    ∃ code s, (dispatch rounds task local_ip own_port).run sc.handle sc.start = some (code, s) ∧
      (.routeSelf local_ip own_port ∈ s.printed ↔ sc.runsHere) ∧
      (sc.runsHere → s.targets.head? = some (local_ip, some own_port)) ∧
      (¬ sc.runsHere →
        s.targets.head? = some ((pick sc.asked {}).ip, (pick sc.asked {}).port)) := by
  obtain ⟨here, t, hroute, hhere, htar, hinc, hpr⟩ := run_route sc local_ip own_port
  obtain ⟨code, s, hdel, hhead, hpr'⟩ := run_deliver sc rounds task here
    (pick sc.asked {}) local_ip own_port t htar (by rwa [hinc])
  refine ⟨code, s, by simp [dispatch, hroute, hdel], by rw [hpr', hpr], ?_, ?_⟩
  · intro h
    rw [hhead, hhere.2 h]
    rfl
  · intro h
    have hfalse : here = false := by
      cases here with
      | true => exact absurd (hhere.1 rfl) h
      | false => rfl
    rw [hhead, hfalse]
    rfl

end Scene

end P2PNode
