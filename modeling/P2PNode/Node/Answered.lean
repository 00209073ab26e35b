import P2PNode.Node.LoadAnswers

/-!
# Load requests are answered exactly when the responder gets them

A run is over when no datagram waits at a socket and both threads wait for the next one. Every
sequence of arrivals has such a run, and in each of them the requests that were handed to the
responder's socket are answered once and the others not at all.
-/

namespace P2PNode

open Effect

namespace UdpNode

variable {N : UdpNode}

/-- Nothing is left to do. -/
structure Quiescent (s : Conf UdpCall UdpCall.Ret UdpWorld) : Prop where
  queues : ∀ fd, s.world.queue fd = []
  waiting : ∀ p ∈ s.threads, ∃ fd size k, p = .call (.recvfrom fd size) k

/-! ### The account of a run that is over -/

/-- The element with the index `n`. -/
lemma filter_zipIdx {α : Type} (l : List α) (k n : ℕ) :
    ((l.zipIdx k).filter fun x => x.2 = k + n) = (l[n]?.map fun a => (a, k + n)).toList := by
  induction l generalizing k n with
  | nil => rfl
  | cons a l ih =>
    rw [List.zipIdx_cons]
    cases n with
    | zero =>
      have htail : ((l.zipIdx (k + 1)).filter fun x => x.2 = k + 0) = [] := by
        rw [List.filter_eq_nil_iff]
        intro x hx
        have := List.le_snd_of_mem_zipIdx hx
        simp only [decide_eq_true_eq]
        omega
      rw [List.filter_cons_of_pos (by simp), htail]
      rfl
    | succ m =>
      have := ih (k + 1) m
      rw [show k + 1 + m = k + (m + 1) by omega] at this
      rw [List.filter_cons_of_neg (by simp), this]
      rfl

lemma quiescent_inv {rounds : ℕ} {s : Conf UdpCall UdpCall.Ret UdpWorld}
    (hr : Conc.Reach N.sys Conc.anyMove (N.start rounds) s) (hq : Quiescent s) :
    N.Inv .waiting s.world := by
  obtain ⟨qs, hthreads, q, rfl, hinv⟩ := N.outline.reach (holds_start rounds) hr
  cases q with
  | waiting => exact hinv
  | listening => exact hinv.replied.elim
  | bad => exact hinv.replied.elim
  | answering src =>
    -- a thread with a request to answer does not wait for a datagram
    obtain ⟨p, ps, -, htail, hps⟩ := List.forall₂_cons_right_iff.1 hthreads
    obtain ⟨p', ps', hp', -, rfl⟩ := List.forall₂_cons_right_iff.1 htail
    obtain ⟨fd, size, k, rfl⟩ := hq.waiting p' (by simp [hps])
    exact absurd rfl (hp'.2 none .bad rfl).inv

/-- In a run that is over, the replies to the datagram `n`. -/
lemma keys_repliesTo {w : UdpWorld} (h : N.Inv .waiting w) (hq : ∀ fd, w.queue fd = [])
    {n : ℕ} {a : Arrival} (ha : w.arrived[n]? = some a) :
    (w.repliesTo n).map Reply.key =
      if a.fd = N.respond_fd ∧ isRequest a.data = true then [(some n, a.src)] else [] := by
  have htaken := h.handed N.respond_fd
  rw [hq, List.append_nil] at htaken
  have hdue : w.replies.map Reply.key = due (w.taken N.respond_fd) := h.replied
  have hone := filter_zipIdx w.arrived 0 n
  rw [Nat.zero_add, ha] at hone
  have hcause : (w.repliesTo n).map Reply.key =
      (w.replies.map Reply.key).filter fun x => x.1 = some n := by
    rw [List.filter_map]
    rfl
  have hsplit : ((w.arrived.zipIdx.filter fun x => x.1.fd = N.respond_fd).filter fun x =>
      isRequest x.1.data).filter (fun x => x.2 = n) =
      [(a, n)].filter fun x => decide (x.1.fd = N.respond_fd) && isRequest x.1.data := by
    rw [show [(a, n)] = (Option.map (fun a => (a, n)) (some a)).toList from rfl, ← hone,
      List.filter_filter, List.filter_filter, List.filter_filter]
    congr 1
    funext x
    rw [Bool.and_assoc, Bool.and_comm, Bool.and_comm (isRequest _)]
  have hkey : ((fun x : Option ℕ × Addr => decide (x.1 = some n)) ∘
      fun x : Arrival × ℕ => (some x.2, x.1.src)) = fun x => decide (x.2 = n) := by
    funext x
    simp
  rw [hcause, hdue, htaken, due, List.filter_map, hkey, hsplit]
  by_cases hc : a.fd = N.respond_fd ∧ isRequest a.data = true
  · simp [hc]
  · rw [if_neg hc, List.filter_cons_of_neg (by simpa using hc)]
    rfl

lemma isRequest_of_isLoadReq {a : Arrival} (h : a.IsLoadReq) : isRequest a.data = true := by
  simp [isRequest, h.1, h.2.1]

/-- A load request is answered exactly when the responder got it. -/
lemma answered_iff {rounds : ℕ} {s : Conf UdpCall UdpCall.Ret UdpWorld}
    (hr : Conc.Reach N.sys Conc.anyMove (N.start rounds) s) (hq : Quiescent s) {n : ℕ}
    {a : Arrival} (ha : s.world.arrived[n]? = some a) (hreq : a.IsLoadReq) :
    s.world.Answered n a ↔ a.fd = N.respond_fd := by
  have hinv := quiescent_inv hr hq
  have hkeys := keys_repliesTo hinv hq.queues ha
  constructor
  · rintro ⟨data, hdata, -⟩
    by_contra hfd
    rw [hdata, if_neg fun h => hfd h.1] at hkeys
    cases hkeys
  · intro hfd
    rw [if_pos ⟨hfd, isRequest_of_isLoadReq hreq⟩] at hkeys
    obtain ⟨⟨cause, dst, data⟩, hlist, hkey⟩ := List.map_eq_singleton_iff.1 hkeys
    cases hkey
    refine ⟨data, hlist, hinv.responses ⟨some n, a.src, data⟩ ?_⟩
    exact List.mem_of_mem_filter (hlist ▸ List.mem_singleton_self _)

/-! ### Every sequence of arrivals has a run -/

/-- The calls of thread `i` when it runs alone. -/
abbrev solo (N : UdpNode) (i : ℕ) : Kernel UdpCall UdpCall.Ret UdpWorld :=
  fun w c r => N.call w i c r

lemma exec_handleAnnouncement (i : ℕ) (w : UdpWorld) (got : Option (Addr × Bytes)) :
    Exec (N.solo i) (handleAnnouncement N.local_ip got) w (.ret ()) w := by
  have hret : Exec (N.solo i) (.ret ()) w (.ret ()) w := .refl _ _
  cases got with
  | none => exact hret
  | some x =>
    obtain ⟨src, buf⟩ := x
    simp only [handleAnnouncement, Prog.pure_def]
    split
    · exact hret
    split
    · exact hret
    split
    · exact hret
    split
    · split
      · exact hret
      · exact .step () w rfl (.step () w rfl hret)
    split
    · exact .step () w rfl hret
    · exact hret

lemma exec_serverSocket (i : ℕ) (w : UdpWorld) :
    Exec (N.solo i) (UdpCall.doSock (makeUdpBroadcastSocket discoveryPort)) w
      (.ret (N.fdOf i)) w := by
  have hfd : ¬ N.fdOf i < 0 := by
    rw [fdOf]
    split
    · exact N.listen_nonneg
    · exact N.respond_nonneg
  rw [serverSocket_eq]
  refine .step (N.fdOf i) w (if_pos rfl) ?_
  simp only [if_neg hfd]
  refine .step () w rfl (.step () w rfl (.step () w rfl ?_))
  refine .step (0 : ℤ) w (by simp [solo, call]) ?_
  exact .refl _ _

/-- The world in which the first datagram at a socket was taken. -/
def take (w : UdpWorld) (fd : Fd) (x : Arrival × ℕ) (rest : List (Arrival × ℕ)) : UdpWorld :=
  { w with
    queue := Function.update w.queue fd rest
    taken := Function.update w.taken fd (w.taken fd ++ [x]) }

lemma recvfrom_take {w : UdpWorld} {fd : Fd} {x : Arrival × ℕ} {rest : List (Arrival × ℕ)}
    (hq : w.queue fd = x :: rest) (size : ℕ) :
    recvfrom w fd size (some (x.1.src, x.1.data.take size)) = some (take w fd x rest) := by
  simp [recvfrom, hq, take]

lemma exec_listenerLoop {w : UdpWorld} {x : Arrival × ℕ} {rest : List (Arrival × ℕ)}
    (hq : w.queue N.listen_fd = x :: rest) (rounds : ℕ) :
    Exec (N.solo 0) (listenerLoop N.local_ip N.listen_fd (rounds + 1)) w
      (listenerLoop N.local_ip N.listen_fd rounds) (take w N.listen_fd x rest) := by
  rw [listenerLoop_succ]
  refine .step (some (x.1.src, x.1.data.take listenBufSize)) (take w N.listen_fd x rest)
    (recvfrom_take hq _) ?_
  exact (exec_handleAnnouncement 0 _ _).bind _

/-- The load calls on a machine without `/proc/loadavg`. -/
def idleLoad : (c : LoadCall) → Unit → Option (c.Ret × Unit)
  | .fetchAdd _, _      => some ((), ())
  | .fetchSub _, _      => some ((), ())
  | .atomicLoad _, _    => some (0, ())
  | .readLoadavg, _     => some (.noFile, ())
  | .nprocessorsOnln, _ => some (1, ())

lemma exec_doLoad {α : Type} {p : LoadProg α} {a : α} (h : p.run idleLoad () = some (a, ())) (i : ℕ)
    (w : UdpWorld) : Exec (N.solo i) (UdpCall.doLoad p) w (.ret a) w := by
  induction p with
  | ret b =>
    cases h
    exact .refl _ _
  | call c k ih =>
    rw [Prog.run_call, Option.bind_eq_some_iff] at h
    obtain ⟨⟨r, u⟩, -, h⟩ := h
    exact .step r w rfl (ih r h)
  | spin => cases h

lemma exec_answerLoadReq (w : UdpWorld) (got : Option (Addr × Bytes)) :
    ∃ w', Exec (N.solo 1) (answerLoadReq N.bits N.respond_fd got) w (.ret ()) w' ∧
      w'.arrived = w.arrived ∧ w'.queue = w.queue := by
  cases got with
  | none => exact ⟨w, .refl _ _, rfl, rfl⟩
  | some x =>
    obtain ⟨src, buf⟩ := x
    simp only [answerLoadReq, Prog.pure_def]
    split
    · exact ⟨w, .refl _ _, rfl, rfl⟩
    split
    · exact ⟨w, .refl _ _, rfl, rfl⟩
    · refine ⟨{ w with replies := w.replies ++ [⟨(w.taken N.respond_fd).getLast?.map Prod.snd, src,
        loadRespHdr.bytes ++ (LoadResp.mk (N.bits (.fin 0)) 0 0 1).bytes⟩] }, ?_, rfl, rfl⟩
      apply ((exec_doLoad (a := ExtRat.fin 0) rfl 1 w).bind _).trans
      apply ((exec_doLoad (a := 0) rfl 1 w).bind _).trans
      apply ((exec_doLoad (a := 0) rfl 1 w).bind _).trans
      apply ((exec_doLoad (a := 1) rfl 1 w).bind _).trans
      exact .step () _ rfl (.refl _ _)

lemma exec_loadResponderLoop {w : UdpWorld} {x : Arrival × ℕ} {rest : List (Arrival × ℕ)}
    (hq : w.queue N.respond_fd = x :: rest) (rounds : ℕ) :
    ∃ w', Exec (N.solo 1) (loadResponderLoop N.bits N.respond_fd (rounds + 1)) w
        (loadResponderLoop N.bits N.respond_fd rounds) w' ∧
      w'.arrived = w.arrived ∧ w'.queue = Function.update w.queue N.respond_fd rest := by
  obtain ⟨w', hx, harr, hqueue⟩ := exec_answerLoadReq (N := N) (take w N.respond_fd x rest)
    (some (x.1.src, x.1.data.take respondBufSize))
  refine ⟨w', ?_, harr, hqueue⟩
  rw [loadResponderLoop_succ]
  refine .step (some (x.1.src, x.1.data.take respondBufSize)) (take w N.respond_fd x rest)
    (recvfrom_take hq _) ?_
  exact hx.bind _

/-- The threads in their loops, with rounds left, and nothing waiting. -/
structure Ready (N : UdpNode) (rounds : ℕ) (s : Conf UdpCall UdpCall.Ret UdpWorld) : Prop where
  threads : ∃ m k, rounds < m ∧ rounds < k ∧ s.threads =
    [listenerLoop N.local_ip N.listen_fd m, loadResponderLoop N.bits N.respond_fd k]
  queues : ∀ fd, s.world.queue fd = []

lemma Ready.quiescent {rounds : ℕ} {s : Conf UdpCall UdpCall.Ret UdpWorld} (h : Ready N rounds s) :
    Quiescent s := by
  obtain ⟨m, k, hm, hk, hthreads⟩ := h.threads
  obtain ⟨m', rfl⟩ := Nat.exists_eq_succ_of_ne_zero (Nat.ne_zero_of_lt hm)
  obtain ⟨k', rfl⟩ := Nat.exists_eq_succ_of_ne_zero (Nat.ne_zero_of_lt hk)
  refine ⟨h.queues, ?_⟩
  intro p hp
  rw [hthreads] at hp
  simp only [List.mem_cons, List.not_mem_nil, or_false] at hp
  rcases hp with rfl | rfl
  · exact ⟨_, _, _, listenerLoop_succ ..⟩
  · exact ⟨_, _, _, loadResponderLoop_succ ..⟩

/-- A datagram arrives and is handled. -/
lemma Ready.handle {rounds : ℕ} {s₀ s : Conf UdpCall UdpCall.Ret UdpWorld}
    (hr : Conc.Reach N.sys Conc.anyMove s₀ s) (h : Ready N (rounds + 1) s) {a : Arrival}
    (ha : a.fd = N.listen_fd ∨ a.fd = N.respond_fd) :
    ∃ t, Conc.Reach N.sys Conc.anyMove s₀ t ∧ Ready N rounds t ∧
      t.world.arrived = s.world.arrived ++ [a] := by
  obtain ⟨m, k, hm, hk, hthreads⟩ := h.threads
  obtain ⟨m, rfl⟩ := Nat.exists_eq_succ_of_ne_zero (Nat.ne_zero_of_lt hm)
  obtain ⟨k, rfl⟩ := Nat.exists_eq_succ_of_ne_zero (Nat.ne_zero_of_lt hk)
  obtain ⟨w, hw⟩ : ∃ w : UdpWorld, w = { s.world with
    arrived := s.world.arrived ++ [a]
    queue := Function.update s.world.queue a.fd
      (s.world.queue a.fd ++ [(a, s.world.arrived.length)]) } := ⟨_, rfl⟩
  have hnext : N.sys.next s (.env a) = some ⟨s.threads, w⟩ := by
    simp [Conc.next, sys, arrive, ha, hw]
  have hreach := hr.move trivial hnext
  have hqueue : w.queue = Function.update s.world.queue a.fd [(a, s.world.arrived.length)] := by
    rw [hw, h.queues]
    rfl
  have hempty : ∀ fd, Function.update w.queue a.fd [] fd = [] := by
    intro fd
    by_cases he : fd = a.fd
    · simp [he]
    · simp [he, hqueue, h.queues]
  rcases ha with ha | ha
  · have hq : w.queue N.listen_fd = [(a, s.world.arrived.length)] := by
      rw [hqueue, ha, Function.update_self]
    have hx := exec_listenerLoop hq m
    have := Conc.Reach.exec (fun _ _ => rfl) hreach (i := 0) (by rw [hthreads]; rfl) hx
    refine ⟨_, this, ⟨⟨m, k + 1, by omega, by omega, by rw [hthreads]; rfl⟩, ?_⟩, ?_⟩
    · intro fd
      show Function.update w.queue N.listen_fd [] fd = []
      rw [← ha]
      exact hempty fd
    · show w.arrived = _
      rw [hw]
  · have hq : w.queue N.respond_fd = [(a, s.world.arrived.length)] := by
      rw [hqueue, ha, Function.update_self]
    obtain ⟨w', hx, harr, hq'⟩ := exec_loadResponderLoop hq k
    have := Conc.Reach.exec (fun _ _ => rfl) hreach (i := 1) (by rw [hthreads]; rfl) hx
    refine ⟨_, this, ⟨⟨m + 1, k, by omega, by omega, by rw [hthreads]; rfl⟩, ?_⟩, ?_⟩
    · intro fd
      show w'.queue fd = []
      rw [hq', ← ha]
      exact hempty fd
    · show w'.arrived = _
      rw [harr, hw]

lemma Ready.handle_all {rounds : ℕ} {s₀ s : Conf UdpCall UdpCall.Ret UdpWorld}
    (hr : Conc.Reach N.sys Conc.anyMove s₀ s) (as : List Arrival)
    (has : ∀ a ∈ as, a.fd = N.listen_fd ∨ a.fd = N.respond_fd)
    (h : Ready N (as.length + rounds) s) :
    ∃ t, Conc.Reach N.sys Conc.anyMove s₀ t ∧ Ready N rounds t ∧
      t.world.arrived = s.world.arrived ++ as := by
  induction as generalizing s with
  | nil => exact ⟨s, hr, by simpa using h, by simp⟩
  | cons a as ih =>
    have h' : Ready N (as.length + rounds + 1) s := by
      have he : (a :: as).length + rounds = as.length + rounds + 1 := by
        rw [List.length_cons]
        omega
      rwa [he] at h
    obtain ⟨t, ht, hready, harr⟩ := h'.handle hr (has a (List.mem_cons_self ..))
    obtain ⟨u, hu, hready', harr'⟩ := ih ht (fun b hb => has b (List.mem_cons_of_mem _ hb)) hready
    exact ⟨u, hu, hready', by rw [harr', harr, List.append_assoc]; rfl⟩

/-- Both threads make their sockets. -/
lemma exists_ready (rounds : ℕ) : ∃ s, Conc.Reach N.sys Conc.anyMove (N.start (rounds + 1)) s ∧
    Ready N rounds s ∧ s.world = {} := by
  have hl : Exec (N.solo 0) (listenerThread N.local_ip (rounds + 1)) {}
      (listenerLoop N.local_ip N.listen_fd (rounds + 1)) {} := by
    apply ((exec_serverSocket 0 {}).bind _).trans
    show Exec _ (if N.listen_fd < 0 then _ else _) _ _ _
    rw [if_neg N.listen_nonneg]
    exact .refl _ _
  have hr : Exec (N.solo 1) (loadResponderThread N.bits (rounds + 1)) {}
      (loadResponderLoop N.bits N.respond_fd (rounds + 1)) {} := by
    apply ((exec_serverSocket 1 {}).bind _).trans
    show Exec _ (if N.respond_fd < 0 then _ else _) _ _ _
    rw [if_neg N.respond_nonneg]
    exact .refl _ _
  have h0 : Conc.Reach N.sys Conc.anyMove (N.start (rounds + 1)) (N.start (rounds + 1)) := .start
  have h1 := Conc.Reach.exec (i := 0) (fun _ _ => rfl) h0 rfl hl
  have h2 := Conc.Reach.exec (K := N.sys) (i := 1) (fun _ _ => rfl) h1 rfl hr
  exact ⟨_, h2, ⟨⟨rounds + 1, rounds + 1, by omega, by omega, rfl⟩, fun _ => rfl⟩, rfl⟩

lemma exists_quiescent (as : List Arrival)
    (has : ∀ a ∈ as, a.fd = N.listen_fd ∨ a.fd = N.respond_fd)
    {rounds : ℕ} (hr : as.length < rounds) :
    ∃ s, Conc.Reach N.sys Conc.anyMove (N.start rounds) s ∧ Quiescent s ∧
      s.world.arrived = as := by
  obtain ⟨extra, rfl⟩ : ∃ extra, rounds = as.length + extra + 1 :=
    ⟨rounds - as.length - 1, by omega⟩
  obtain ⟨s, hs, hready, hworld⟩ := exists_ready (N := N) (as.length + extra)
  obtain ⟨t, ht, hready', harr⟩ := Ready.handle_all hs as has hready
  exact ⟨t, ht, hready'.quiescent, by rw [harr, hworld]; rfl⟩

end UdpNode

/-- For every sequence of arrivals and every way the kernel hands them out there are runs in which
they are all handled, and in each of these every load request of another host is answered exactly
once if and only if every one of them was handed to the responder's socket. -/
theorem load_requests_answered_iff (N : UdpNode) (as : List Arrival)
    (has : ∀ a ∈ as, a.fd = N.listen_fd ∨ a.fd = N.respond_fd) (rounds : ℕ)
    (hr : as.length < rounds) :
    (∃ s, Conc.Reach N.sys Conc.anyMove (N.start rounds) s ∧ UdpNode.Quiescent s ∧
        s.world.arrived = as) ∧
      ∀ s, Conc.Reach N.sys Conc.anyMove (N.start rounds) s → UdpNode.Quiescent s →
        s.world.arrived = as →
        ((∀ n a, as[n]? = some a → a.IsLoadReq → a.src.ip ≠ N.local_ip → s.world.Answered n a) ↔
          ∀ a ∈ as, a.IsLoadReq → a.src.ip ≠ N.local_ip → a.fd = N.respond_fd) := by
  refine ⟨UdpNode.exists_quiescent as has hr, ?_⟩
  rintro s hs hq rfl
  constructor
  · intro h a ha hreq hip
    obtain ⟨n, hn⟩ := List.mem_iff_getElem?.1 ha
    exact (UdpNode.answered_iff hs hq hn hreq).1 (h n a hn hreq hip)
  · intro h n a hn hreq hip
    exact (UdpNode.answered_iff hs hq hn hreq).2 (h a (List.mem_of_getElem? hn) hreq hip)

/-- A node with the address `1`. -/
def nodeOne : UdpNode where
  listen_fd := 3
  respond_fd := 4
  local_ip := [49]
  bits := fun _ => 0
  listen_nonneg := by decide
  respond_nonneg := by decide
  distinct := by decide

/-- A load request of the host `2`, handed to the socket `fd`. -/
def requestAt (fd : Fd) : Arrival where
  src := ⟨[50], 40000⟩
  data := ({ type := msgLoadReq, payload_len := 0 } : MsgHeader).bytes
  fd := fd

lemma requestAt_isLoadReq (fd : Fd) : (requestAt fd).IsLoadReq := by
  refine ⟨?_, ?_, ?_⟩
  · rfl
  · rfl
  · rfl

theorem load_requests_answered_both :
    (∃ s, Conc.Reach nodeOne.sys Conc.anyMove (nodeOne.start 3) s ∧ UdpNode.Quiescent s ∧
        s.world.arrived = [requestAt 4, requestAt 3]) ∧
      ∀ s, Conc.Reach nodeOne.sys Conc.anyMove (nodeOne.start 3) s → UdpNode.Quiescent s →
        s.world.arrived = [requestAt 4, requestAt 3] →
        ((∀ n a, [requestAt 4, requestAt 3][n]? = some a → a.IsLoadReq →
            a.src.ip ≠ nodeOne.local_ip → s.world.Answered n a) ↔
          ∀ a ∈ [requestAt 4, requestAt 3], a.IsLoadReq → a.src.ip ≠ nodeOne.local_ip →
            a.fd = nodeOne.respond_fd) :=
  load_requests_answered_iff nodeOne [requestAt 4, requestAt 3] (by decide) 3 (by decide)

/-- A load request that the kernel hands to the listener's socket is never answered. -/
theorem load_request_lost : ∃ s,
    Conc.Reach nodeOne.sys Conc.anyMove (nodeOne.start 2) s ∧ UdpNode.Quiescent s ∧
      s.world.arrived = [requestAt 3] ∧ (requestAt 3).IsLoadReq ∧
      (requestAt 3).src.ip ≠ nodeOne.local_ip ∧ s.world.repliesTo 0 = [] ∧
      ¬ s.world.Answered 0 (requestAt 3) := by
  obtain ⟨s, hs, hq, harr⟩ :=
    UdpNode.exists_quiescent (N := nodeOne) [requestAt 3] (by decide) 
    (show [requestAt 3].length < 2 by decide)
  have hkeys := UdpNode.keys_repliesTo (UdpNode.quiescent_inv hs hq) hq.queues (n := 0)
    (a := requestAt 3) (by rw [harr]; rfl)
  have hnil : s.world.repliesTo 0 = [] := List.map_eq_nil_iff.1 hkeys
  refine ⟨s, hs, hq, harr, requestAt_isLoadReq 3, by decide, hnil, ?_⟩
  rintro ⟨data, hdata, -⟩
  rw [hnil] at hdata
  cases hdata

end P2PNode
