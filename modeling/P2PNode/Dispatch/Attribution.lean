import P2PNode.Dispatch.Dispatcher
import P2PNode.Lib.Interleave
import P2PNode.Node.Discovery

/-!
# Whose load is stored

A sequence of calls of `query_peer_load`, and a network in which any host sends to any port and
every datagram on its way can arrive any number of times, at any time and in any order, or never.
The port of a socket is free again when the socket is closed.
-/

namespace P2PNode

open Effect

/-- `query_peer_load` for one peer after the other. -/
def queryAll : List (Bytes × ℕ) → DispProg Unit
  | [] => return ()
  | (ip, port) :: peers => do
    let _ ← queryPeerLoad ip port
    queryAll peers

/-! ### The network -/

/-- A LOAD_REQ on its way: the number of the query, the port of its socket, the peer. -/
structure FlyingReq where
  query : ℕ
  port : ℕ
  dst : Bytes

/-- A datagram on its way to the node; `cause` is the number of the query that it answers. -/
structure FlyingResp where
  src : Bytes
  port : ℕ
  data : Bytes
  cause : Option ℕ

/-- What a load responder has sent: the host, the query answered and the datagram. -/
structure LoadAnswer where
  src : Bytes
  query : ℕ
  data : Bytes

/-- A call of `peer_list_update_load` with the query that made it. -/
structure StoredLoad where
  query : ℕ
  ip : Bytes
  resp : LoadResp

/-- The socket of a query: its port, once it has sent, and the datagrams waiting. -/
structure QuerySock where
  port : Option ℕ := none
  buf : List FlyingResp := []

/-- The peers asked so far, the answers given so far, what is on its way, the port that the next
socket will get, the socket and the loads stored. -/
structure QueryWorld where
  queries : List Bytes := []
  answers : List LoadAnswer := []
  reqs : List FlyingReq := []
  resps : List FlyingResp := []
  nextPort : ℕ := 0
  sock : Option QuerySock := none
  stored : List StoredLoad := []

/-- What the network and the other hosts do. -/
inductive QueryEnv where
  | choosePort (port : ℕ)
  | answer (k : ℕ) (resp : LoadResp)
  | forge (src : Bytes) (port : ℕ) (data : Bytes)
  | deliver (k : ℕ)
  | loseReq (k : ℕ)
  | loseResp (k : ℕ)

namespace QueryWorld

/-- The socket is open on this port. -/
def Open (w : QueryWorld) (port : ℕ) : Prop := ∃ o, w.sock = some o ∧ o.port = some port

instance (w : QueryWorld) (port : ℕ) : Decidable (w.Open port) :=
  match h : w.sock with
  | none => .isFalse fun ⟨o, ho, _⟩ => by rw [h] at ho; cases ho
  | some o => decidable_of_iff (o.port = some port)
      ⟨fun hp => ⟨o, h, hp⟩, fun ⟨o', ho, hp⟩ => by rw [h] at ho; cases ho; exact hp⟩

def recv (w : QueryWorld) (size : ℕ) : Option Bytes → Option QueryWorld
  | none => some w
  | some data =>
    w.sock.bind fun o =>
      match o.buf with
      | [] => none
      | r :: buf =>
        if data = r.data.take size then some { w with sock := some { o with buf := buf } }
        else none

def call (w : QueryWorld) (_ : ℕ) : (c : DispCall) → c.Ret → Option QueryWorld
  | .sock (.socket .dgram), (fd : ℤ) => some (if fd < 0 then w else { w with sock := some {} })
  | .sock (.close _), _ => some { w with sock := none }
  | .sendto _ ip _ _, _ =>
    w.sock.map fun o => { w with
      queries := w.queries ++ [ip]
      reqs := w.reqs ++ [⟨w.queries.length, w.nextPort, ip⟩]
      sock := some { o with port := some w.nextPort } }
  | .recv _ size, got => w.recv size got
  | .peerListUpdateLoad ip resp, _ =>
    some { w with stored := w.stored ++ [⟨w.queries.length - 1, ip, resp⟩] }
  | _, _ => some w

/-- The datagram of `load_responder_thread`. -/
def answerData (resp : LoadResp) : Bytes := loadRespHdr.bytes ++ resp.bytes

def env (w : QueryWorld) : QueryEnv → Option QueryWorld
  | .choosePort port => some { w with nextPort := port }
  | .answer k resp =>
    w.reqs[k]?.map fun r => { w with
      answers := w.answers ++ [⟨r.dst, r.query, answerData resp⟩]
      resps := w.resps ++ [⟨r.dst, r.port, answerData resp, some r.query⟩] }
  | .forge src port data => some { w with resps := w.resps ++ [⟨src, port, data, none⟩] }
  | .deliver k =>
    w.resps[k]?.map fun r =>
      if w.Open r.port then
        { w with sock := w.sock.map fun o => { o with buf := o.buf ++ [r] } }
      else w
  | .loseReq k => some { w with reqs := w.reqs.eraseIdx k }
  | .loseResp k => some { w with resps := w.resps.eraseIdx k }

def sys : Conc DispCall DispCall.Ret QueryWorld QueryEnv where
  call := call
  env := env
  spawn := fun _ _ => none

/-- The queries before the first step. -/
def start (peers : List (Bytes × ℕ)) : Conf DispCall DispCall.Ret QueryWorld where
  threads := [queryAll peers]
  world := {}

/-- Nothing on its way reaches the wrong query: only answers to requests of the node are delivered
to an open socket, and a socket gets a port for which no request of an earlier query and no answer
to one is on its way. -/
def Undisturbed (w : QueryWorld) : Move DispCall DispCall.Ret QueryEnv → Prop
  | .call _ (.sendto _ _ _ _) _ =>
    (∀ r ∈ w.reqs, r.port ≠ w.nextPort) ∧
      ∀ r ∈ w.resps, r.cause.isSome → r.port ≠ w.nextPort
  | .env (.deliver k) => ∀ r ∈ w.resps[k]?, w.Open r.port → r.cause.isSome
  | _ => True

instance : ∀ w m, Decidable (Undisturbed w m) := by
  intro w m
  unfold Undisturbed
  split <;> infer_instance

end QueryWorld

/-! ### What the queries do -/

/-- Where the dispatcher is in a query: `received` and `checking` with the peer and the answer of
`recv`. -/
inductive QueryPhase where
  | idle
  | opened
  | sent (ip : Bytes)
  | received (ip : Bytes) (got : Option Bytes)
  | checking (ip : Bytes) (got : Option Bytes)
  | bad

namespace QueryPhase

/-- A new socket. -/
def opening (fd : ℤ) : QueryPhase := if fd < 0 then .idle else .opened

def auto : Kernel DispCall DispCall.Ret QueryPhase
  | .idle, .sock (.socket .dgram), (fd : ℤ) => some (opening fd)
  | .opened, .sock (.setsockopt _ _), _ => some .opened
  | .opened, .sendto _ ip _ _, _ => some (.sent ip)
  | .sent ip, .select _, _ => some (.sent ip)
  | .sent ip, .recv _ size, got => some (if size = queryBufSize then .received ip got else .bad)
  | .sent _, .sock (.close _), _ => some .idle
  | .received ip got, .sock (.close _), _ => some (.checking ip got)
  | .checking _ _, .sock (.socket .dgram), (fd : ℤ) => some (opening fd)
  | .checking ip got, .peerListUpdateLoad ip' resp, _ =>
    some (if ip' = ip ∧ got.bind checkLoadResp = some resp then .idle else .bad)
  | _, _, _ => some .bad

def Good (q : QueryPhase) : Prop := q ≠ .bad

/-- Between two queries. -/
def Ready (q : QueryPhase) : Prop := q = .idle ∨ ∃ ip got, q = .checking ip got

lemma Ready.good {q : QueryPhase} (hq : q.Ready) : q.Good := by
  rcases hq with rfl | ⟨ip, got, rfl⟩
  · exact nofun
  · exact nofun

lemma always_querySocket {q : QueryPhase} (hq : q.Ready) :
    (DispCall.doSock (makeUdpBroadcastSocket 0)).Always auto Good
      (fun fd q' => q' = opening fd) q := by
  rw [udpSocket_eq]
  have hstep : ∀ fd : ℤ, auto q (.sock (.socket .dgram)) fd = some (opening fd) := by
    intro fd
    rcases hq with rfl | ⟨ip, got, rfl⟩
    · rfl
    · rfl
  refine ⟨hq.good, fun (fd : ℤ) q' hq' => ?_⟩
  obtain rfl := Option.some.inj ((hstep fd).symm.trans hq')
  by_cases hfd : fd < 0
  · simp only [hfd, if_true, opening]
    exact ⟨nofun, rfl⟩
  · have hopen : opening fd = .opened := if_neg hfd
    simp only [hfd, if_false, hopen]
    refine ⟨nofun, fun _ q' hq' => ?_⟩
    cases hq'
    refine ⟨nofun, fun _ q' hq' => ?_⟩
    cases hq'
    refine ⟨nofun, fun _ q' hq' => ?_⟩
    cases hq'
    exact ⟨nofun, hopen.symm⟩

lemma always_awaitLoadResp (udp_fd : Fd) (ip : Bytes) :
    (awaitLoadResp udp_fd ip).Always auto Good
      (fun got q => q.Ready ∧ (got.isSome → q = .checking ip got)) .opened := by
  rw [awaitLoadResp_eq]
  refine ⟨nofun, fun _ q hq => ?_⟩
  cases hq
  refine ⟨nofun, fun (sel : ℤ) q hq => ?_⟩
  cases hq
  by_cases hsel : sel ≤ 0
  · simp only [hsel, if_true]
    refine ⟨nofun, fun _ q hq => ?_⟩
    cases hq
    exact ⟨nofun, .inl rfl, nofun⟩
  · simp only [hsel, if_false]
    refine ⟨nofun, fun got q hq => ?_⟩
    simp only [auto, if_true] at hq
    cases hq
    refine ⟨nofun, fun _ q hq => ?_⟩
    cases hq
    exact ⟨nofun, .inr ⟨ip, got, rfl⟩, fun _ => rfl⟩

lemma always_queryPeerLoad (ip : Bytes) (port : ℕ) {q : QueryPhase} (hq : q.Ready) :
    (queryPeerLoad ip port).Always auto Good (fun _ q => q.Ready) q := by
  apply Prog.Always.bind
  apply (always_querySocket hq).mono
  rintro udp_fd _ rfl
  by_cases hfd : udp_fd < 0
  · simp only [hfd, if_true, opening]
    exact ⟨nofun, .inl rfl⟩
  · have hopen : opening udp_fd = .opened := if_neg hfd
    simp only [hfd, if_false, hopen]
    apply Prog.Always.bind
    apply (always_awaitLoadResp udp_fd ip).mono
    rintro got q ⟨hready, hgot⟩
    cases hresp : got.bind checkLoadResp with
    | none => exact ⟨hready.good, hready⟩
    | some resp =>
      obtain ⟨buf, rfl, -⟩ := Option.bind_eq_some_iff.1 hresp
      obtain rfl := hgot rfl
      refine ⟨nofun, fun _ q hq => ?_⟩
      simp only [auto, hresp, and_self, if_true] at hq
      cases hq
      exact ⟨nofun, .inl rfl⟩

lemma always_queryAll (peers : List (Bytes × ℕ)) {q : QueryPhase} (hq : q.Ready) :
    (queryAll peers).Always auto Good (fun _ _ => True) q := by
  induction peers generalizing q with
  | nil => exact ⟨hq.good, trivial⟩
  | cons peer peers ih =>
    apply Prog.Always.bind
    apply (always_queryPeerLoad _ _ hq).mono
    intro _ q' hq'
    exact ih hq'

end QueryPhase

/-! ### The invariant -/

namespace QueryWorld

/-- The datagram answers the request of the query that was made last. -/
def Genuine (w : QueryWorld) (r : FlyingResp) : Prop :=
  ∃ n, r.cause = some n ∧ n + 1 = w.queries.length ∧ ⟨r.src, n, r.data⟩ ∈ w.answers ∧
    w.queries[n]? = some r.src

/-- The buffer holds what the peer `ip` has answered to the request of the last query. -/
def Holds (w : QueryWorld) (ip : Bytes) (got : Option Bytes) : Prop :=
  ∀ buf, got = some buf → ∃ n data, n + 1 = w.queries.length ∧ w.queries[n]? = some ip ∧
    ⟨ip, n, data⟩ ∈ w.answers ∧ buf = data.take queryBufSize

/-- The load was stored for a peer that has sent it in answer to the query. -/
def Attributed (w : QueryWorld) (x : StoredLoad) : Prop :=
  w.queries[x.query]? = some x.ip ∧
    ∃ data, ⟨x.ip, x.query, data⟩ ∈ w.answers ∧ checkLoadResp data = some x.resp

/-- What is on its way, waiting and stored belongs to the queries that were made. -/
structure Net (w : QueryWorld) : Prop where
  asked : ∀ r ∈ w.reqs, w.queries[r.query]? = some r.dst
  answered : ∀ r ∈ w.resps, ∀ n, r.cause = some n →
    ⟨r.src, n, r.data⟩ ∈ w.answers ∧ w.queries[n]? = some r.src
  reqs : ∀ r ∈ w.reqs, w.Open r.port → r.query + 1 = w.queries.length
  resps : ∀ r ∈ w.resps, w.Open r.port → ∀ n, r.cause = some n → n + 1 = w.queries.length
  waiting : ∀ o, w.sock = some o → ∀ r ∈ o.buf, w.Genuine r
  stored : ∀ x ∈ w.stored, w.Attributed x

/-- The query under way. -/
def Asks (w : QueryWorld) : QueryPhase → Prop
  | .idle => True
  | .opened => w.sock = some {}
  | .sent ip => w.queries.getLast? = some ip
  | .received ip got => w.Holds ip got
  | .checking ip got => w.Holds ip got
  | .bad => False

structure Inv (w : QueryWorld) (qs : List QueryPhase) : Prop where
  one : ∃ q, qs = [q] ∧ w.Asks q
  net : w.Net

variable {w w' : QueryWorld}

namespace Net

/-- The socket is closed, or a new one is opened. -/
lemma setSock (h : w.Net) {o : Option QuerySock} (ho : o = none ∨ o = some {}) :
    Net { w with sock := o } := by
  have hclosed : ∀ p, ¬ Open { w with sock := o } p := by
    rintro p ⟨o', ho', hp⟩
    rcases ho with rfl | rfl
    · cases ho'
    · cases ho'
      cases hp
  refine ⟨h.asked, h.answered, fun r _ hr => absurd hr (hclosed _),
    fun r _ hr => absurd hr (hclosed _), fun o' ho' r hr => ?_, h.stored⟩
  rcases ho with rfl | rfl
  · cases ho'
  · cases ho'
    cases hr

end Net

lemma Attributed.concat {x : StoredLoad} (h : w.Attributed x) (hq : w.queries <+: w'.queries)
    (ha : w.answers <+: w'.answers) : w'.Attributed x := by
  obtain ⟨hip, data, hmem, hresp⟩ := h
  refine ⟨?_, data, ha.mem hmem, hresp⟩
  obtain ⟨qs, hq⟩ := hq
  rw [← hq]
  exact getElem?_append_of_some hip qs

namespace Net

/-- The request is sent. -/
lemma send (h : w.Net) (ip : Bytes)
    (hok : (∀ r ∈ w.reqs, r.port ≠ w.nextPort) ∧
      ∀ r ∈ w.resps, r.cause.isSome → r.port ≠ w.nextPort) :
    Net { w with
      queries := w.queries ++ [ip]
      reqs := w.reqs ++ [⟨w.queries.length, w.nextPort, ip⟩]
      sock := some { port := some w.nextPort } } := by
  obtain ⟨w', hw'⟩ : ∃ w' : QueryWorld, w' = { w with
      queries := w.queries ++ [ip]
      reqs := w.reqs ++ [⟨w.queries.length, w.nextPort, ip⟩]
      sock := some { port := some w.nextPort } } := ⟨_, rfl⟩
  rw [← hw']
  have hopen : ∀ p, w'.Open p → p = w.nextPort := by
    rintro p ⟨o, ho, hp⟩
    rw [hw'] at ho
    cases ho
    exact (Option.some.inj hp).symm
  have hq : w'.queries = w.queries ++ [ip] := by rw [hw']
  constructor
  · intro r hr
    rw [hq]
    rw [hw', List.mem_append, List.mem_singleton] at hr
    rcases hr with hr | rfl
    · exact getElem?_append_of_some (h.asked r hr) [ip]
    · exact List.getElem?_concat_length
  · intro r hr n hn
    rw [hw'] at hr
    obtain ⟨hmem, hip⟩ := h.answered r hr n hn
    rw [hq]
    exact ⟨by rw [hw']; exact hmem, getElem?_append_of_some hip [ip]⟩
  · intro r hr ho
    rw [hw', List.mem_append, List.mem_singleton] at hr
    rcases hr with hr | rfl
    · exact absurd (hopen _ ho) (hok.1 r hr)
    · rw [hq, List.length_append, List.length_singleton]
  · intro r hr ho n hn
    rw [hw'] at hr
    exact absurd (hopen _ ho) (hok.2 r hr (by rw [hn]; rfl))
  · intro o ho r hr
    rw [hw'] at ho
    cases ho
    cases hr
  · intro x hx
    rw [hw'] at hx
    exact (h.stored x hx).concat (hq ▸ List.prefix_append _ _) (hw' ▸ List.prefix_refl _)

/-- The first waiting datagram is received. -/
lemma recv (h : w.Net) {o : QuerySock} {r : FlyingResp} {buf : List FlyingResp}
    (ho : w.sock = some o) (hbuf : o.buf = r :: buf) :
    Net { w with sock := some { o with buf := buf } } := by
  have hopen : ∀ p, Open { w with sock := some { o with buf := buf } } p → w.Open p := by
    rintro p ⟨o', ho', hp⟩
    cases ho'
    exact ⟨o, ho, hp⟩
  refine ⟨h.asked, h.answered, fun r hr hop => h.reqs r hr (hopen _ hop),
    fun r hr hop => h.resps r hr (hopen _ hop), fun o' ho' r' hr' => ?_, h.stored⟩
  cases ho'
  exact h.waiting o ho r' (hbuf ▸ List.mem_cons_of_mem r hr')

/-- A load is stored. -/
lemma store (h : w.Net) {x : StoredLoad} (hx : w.Attributed x) :
    Net { w with stored := w.stored ++ [x] } := by
  refine ⟨h.asked, h.answered, h.reqs, h.resps, h.waiting, fun y hy => ?_⟩
  rcases List.mem_append.1 hy with hy | hy
  · exact h.stored y hy
  · rw [List.mem_singleton.1 hy]
    exact hx

/-- A host answers a request. -/
lemma answer (h : w.Net) {k : ℕ} {r : FlyingReq} (hr : w.reqs[k]? = some r) (data : Bytes) :
    Net { w with
      answers := w.answers ++ [⟨r.dst, r.query, data⟩]
      resps := w.resps ++ [⟨r.dst, r.port, data, some r.query⟩] } := by
  have hmem := List.mem_of_getElem? hr
  refine ⟨h.asked, ?_, h.reqs, ?_, ?_, ?_⟩
  · intro r' hr' n hn
    rcases List.mem_append.1 hr' with hr' | hr'
    · obtain ⟨ha, hq⟩ := h.answered r' hr' n hn
      exact ⟨List.mem_append_left _ ha, hq⟩
    · rw [List.mem_singleton] at hr'
      subst hr'
      obtain rfl := Option.some.inj hn
      exact ⟨List.mem_append_right _ (List.mem_singleton_self _), h.asked r hmem⟩
  · intro r' hr' hop n hn
    rcases List.mem_append.1 hr' with hr' | hr'
    · exact h.resps r' hr' hop n hn
    · rw [List.mem_singleton] at hr'
      subst hr'
      obtain rfl := Option.some.inj hn
      exact h.reqs r hmem hop
  · intro o ho r' hr'
    obtain ⟨n, hn, hlast, ha, hq⟩ := h.waiting o ho r' hr'
    exact ⟨n, hn, hlast, List.mem_append_left _ ha, hq⟩
  · intro x hx
    exact (h.stored x hx).concat (List.prefix_refl _) (List.prefix_append _ _)

/-- A host sends anything. -/
lemma forge (h : w.Net) (src : Bytes) (port : ℕ) (data : Bytes) :
    Net { w with resps := w.resps ++ [⟨src, port, data, none⟩] } := by
  refine ⟨h.asked, ?_, h.reqs, ?_, h.waiting, h.stored⟩
  · intro r hr n hn
    rcases List.mem_append.1 hr with hr | hr
    · exact h.answered r hr n hn
    · rw [List.mem_singleton.1 hr] at hn
      cases hn
  · intro r hr hop n hn
    rcases List.mem_append.1 hr with hr | hr
    · exact h.resps r hr hop n hn
    · rw [List.mem_singleton.1 hr] at hn
      cases hn

/-- A datagram is delivered to the open socket. -/
lemma deliver (h : w.Net) {k : ℕ} {r : FlyingResp} (hr : w.resps[k]? = some r)
    (hop : w.Open r.port) (hcause : r.cause.isSome) :
    Net { w with sock := w.sock.map fun o => { o with buf := o.buf ++ [r] } } := by
  obtain ⟨o, ho, hp⟩ := hop
  have hopen : ∀ p, Open { w with sock := w.sock.map fun o => { o with buf := o.buf ++ [r] } } p →
      w.Open p := by
    rintro p ⟨o', ho', hp'⟩
    rw [ho] at ho'
    cases ho'
    exact ⟨o, ho, hp'⟩
  have hmem := List.mem_of_getElem? hr
  obtain ⟨n, hn⟩ := Option.isSome_iff_exists.1 hcause
  obtain ⟨ha, hq⟩ := h.answered r hmem n hn
  refine ⟨h.asked, h.answered, fun r hr hop => h.reqs r hr (hopen _ hop),
    fun r hr hop => h.resps r hr (hopen _ hop), fun o' ho' r' hr' => ?_, h.stored⟩
  rw [ho] at ho'
  cases ho'
  rcases List.mem_append.1 hr' with hr' | hr'
  · exact h.waiting o ho r' hr'
  · rw [List.mem_singleton.1 hr']
    exact ⟨n, hn, h.resps r hmem ⟨o, ho, hp⟩ n hn, ha, hq⟩

/-- Datagrams are lost. -/
lemma lose (h : w.Net) {reqs : List FlyingReq} {resps : List FlyingResp} (hreqs : reqs ⊆ w.reqs)
    (hresps : resps ⊆ w.resps) : Net { w with reqs := reqs, resps := resps } :=
  ⟨fun r hr => h.asked r (hreqs hr), fun r hr => h.answered r (hresps hr),
    fun r hr => h.reqs r (hreqs hr), fun r hr => h.resps r (hresps hr), h.waiting, h.stored⟩

end Net

/-! ### Every run -/

lemma Asks.congr {q : QueryPhase} (h : w.Asks q) (hs : q = .opened → w'.sock = w.sock)
    (hq : w'.queries = w.queries) (ha : ∃ as, w'.answers = w.answers ++ as) : w'.Asks q := by
  obtain ⟨as, ha⟩ := ha
  have hholds : ∀ ip got, w.Holds ip got → w'.Holds ip got := by
    intro ip got hh buf hbuf
    obtain ⟨n, data, hn, hip, hmem, hdata⟩ := hh buf hbuf
    exact ⟨n, data, by rw [hq, hn], by rw [hq, hip], ha ▸ List.mem_append_left _ hmem, hdata⟩
  cases q with
  | idle => trivial
  | opened => exact (hs rfl).trans h
  | sent ip => exact (congrArg List.getLast? hq).trans h
  | received ip got => exact hholds ip got h
  | checking ip got => exact hholds ip got h
  | bad => exact h

/-- What the network does. -/
lemma Inv.env {qs : List QueryPhase} {e : QueryEnv} (h : w.Inv qs)
    (hok : Undisturbed w (.env e)) (hw : QueryWorld.env w e = some w') : w'.Inv qs := by
  obtain ⟨⟨q, rfl, hq⟩, hnet⟩ := h
  have hnil : ∃ as, w.answers = w.answers ++ as := ⟨[], (List.append_nil _).symm⟩
  cases e with
  | choosePort port =>
    cases hw
    exact ⟨⟨q, rfl, hq.congr (fun _ => rfl) rfl hnil⟩, hnet.asked, hnet.answered, hnet.reqs,
      hnet.resps, hnet.waiting, hnet.stored⟩
  | answer k resp =>
    obtain ⟨r, hr, rfl⟩ := Option.map_eq_some_iff.1 hw
    exact ⟨⟨q, rfl, hq.congr (fun _ => rfl) rfl ⟨_, rfl⟩⟩, hnet.answer hr _⟩
  | forge src port data =>
    cases hw
    exact ⟨⟨q, rfl, hq.congr (fun _ => rfl) rfl hnil⟩, hnet.forge src port data⟩
  | deliver k =>
    obtain ⟨r, hr, hw⟩ := Option.map_eq_some_iff.1 hw
    split at hw
    · rename_i hop
      subst hw
      refine ⟨⟨q, rfl, hq.congr ?_ rfl hnil⟩, hnet.deliver hr hop (hok r hr hop)⟩
      rintro rfl
      -- a socket that has not sent yet has no port
      obtain ⟨o, ho, hp⟩ := hop
      rw [show w.sock = some {} from hq] at ho
      cases ho
      cases hp
    · subst hw
      exact ⟨⟨q, rfl, hq⟩, hnet⟩
  | loseReq k =>
    cases hw
    exact ⟨⟨q, rfl, hq.congr (fun _ => rfl) rfl hnil⟩,
      hnet.lose (fun _ hr => List.mem_of_mem_eraseIdx hr) fun _ hr => hr⟩
  | loseResp k =>
    cases hw
    exact ⟨⟨q, rfl, hq.congr (fun _ => rfl) rfl hnil⟩,
      hnet.lose (fun _ hr => hr) fun _ hr => List.mem_of_mem_eraseIdx hr⟩

/-- A new socket. -/
lemma Net.opening (h : w.Net) {fd : ℤ}
    (hw : some (if fd < 0 then w else { w with sock := some {} }) = some w') :
    w'.Asks (.opening fd) ∧ w'.Net := by
  cases hw
  by_cases hfd : fd < 0
  · rw [QueryPhase.opening, if_pos hfd, if_pos hfd]
    exact ⟨trivial, h⟩
  · rw [QueryPhase.opening, if_neg hfd, if_neg hfd]
    exact ⟨rfl, h.setSock (.inr rfl)⟩

/-- The answer of `recv`. -/
lemma Net.received (h : w.Net) {ip : Bytes} (hip : w.queries.getLast? = some ip)
    {got : Option Bytes} (hw : w.recv queryBufSize got = some w') :
    w'.Holds ip got ∧ w'.Net := by
  cases got with
  | none =>
    cases hw
    exact ⟨nofun, h⟩
  | some data =>
    obtain ⟨o, ho, hw⟩ := Option.bind_eq_some_iff.1 hw
    cases hbuf : o.buf with
    | nil =>
      rw [hbuf] at hw
      cases hw
    | cons r buf =>
      rw [hbuf] at hw
      simp only at hw
      split at hw
      · rename_i hdata
        cases hw
        refine ⟨fun buf' hbuf' => ?_, h.recv ho hbuf⟩
        obtain rfl := Option.some.inj hbuf'
        obtain ⟨n, hn, hlast, ha, hq⟩ := h.waiting o ho r (hbuf ▸ List.mem_cons_self)
        have hsrc : r.src = ip := by
          rw [List.getLast?_eq_getElem?, ← hlast, Nat.add_sub_cancel, hq] at hip
          exact Option.some.inj hip
        subst hsrc
        exact ⟨n, r.data, hlast, hq, ha, hdata⟩
      · cases hw

/-- A call of the dispatcher. -/
lemma Inv.call {qs : List QueryPhase} {i : ℕ} {q : QueryPhase} {c : DispCall} {r : c.Ret}
    (h : w.Inv qs) (hq : qs[i]? = some q) (hok : Undisturbed w (.call i c r))
    (hw : QueryWorld.call w i c r = some w') :
    ∃ q', QueryPhase.auto q c r = some q' ∧ (q'.Good → w'.Inv (qs.set i q')) := by
  obtain ⟨⟨q₀, rfl, hasks⟩, hnet⟩ := h
  obtain ⟨rfl, rfl⟩ : i = 0 ∧ q₀ = q := by
    cases i with
    | zero => exact ⟨rfl, Option.some.inj hq⟩
    | succ i => cases hq
  have hbad : QueryPhase.bad.Good → w'.Inv ([q₀].set 0 .bad) := fun hb => absurd rfl hb
  have hone : ∀ {q'}, w'.Asks q' ∧ w'.Net → w'.Inv ([q₀].set 0 q') := fun h =>
    ⟨⟨_, rfl, h.1⟩, h.2⟩
  cases q₀ with
  | bad => exact hasks.elim
  | idle =>
    cases c with
    | sock c =>
      cases c with
      | socket kind =>
        cases kind with
        | dgram => exact ⟨_, rfl, fun _ => hone (hnet.opening hw)⟩
        | stream => exact ⟨.bad, rfl, hbad⟩
      | _ => exact ⟨.bad, rfl, hbad⟩
    | _ => exact ⟨.bad, rfl, hbad⟩
  | opened =>
    cases c with
    | sock c =>
      cases c with
      | setsockopt fd opt =>
        cases hw
        exact ⟨.opened, rfl, fun _ => hone ⟨hasks, hnet⟩⟩
      | _ => exact ⟨.bad, rfl, hbad⟩
    | sendto fd ip port data =>
      obtain ⟨o, ho, rfl⟩ := Option.map_eq_some_iff.1 hw
      obtain rfl : o = {} := Option.some.inj (ho.symm.trans hasks)
      exact ⟨.sent ip, rfl, fun _ => hone ⟨List.getLast?_concat, hnet.send ip hok⟩⟩
    | _ => exact ⟨.bad, rfl, hbad⟩
  | sent ip =>
    cases c with
    | sock c =>
      cases c with
      | close fd =>
        cases hw
        exact ⟨.idle, rfl, fun _ => hone ⟨trivial, hnet.setSock (.inl rfl)⟩⟩
      | _ => exact ⟨.bad, rfl, hbad⟩
    | select fd =>
      cases hw
      exact ⟨.sent ip, rfl, fun _ => hone ⟨hasks, hnet⟩⟩
    | recv fd size =>
      refine ⟨_, rfl, fun hgood => ?_⟩
      by_cases hsize : size = queryBufSize
      · rw [if_pos hsize]
        subst hsize
        exact hone (hnet.received hasks hw)
      · rw [if_neg hsize] at hgood
        exact absurd rfl hgood
    | _ => exact ⟨.bad, rfl, hbad⟩
  | received ip got =>
    cases c with
    | sock c =>
      cases c with
      | close fd =>
        cases hw
        exact ⟨.checking ip got, rfl, fun _ => hone ⟨hasks, hnet.setSock (.inl rfl)⟩⟩
      | _ => exact ⟨.bad, rfl, hbad⟩
    | _ => exact ⟨.bad, rfl, hbad⟩
  | checking ip got =>
    cases c with
    | sock c =>
      cases c with
      | socket kind =>
        cases kind with
        | dgram => exact ⟨_, rfl, fun _ => hone (hnet.opening hw)⟩
        | stream => exact ⟨.bad, rfl, hbad⟩
      | _ => exact ⟨.bad, rfl, hbad⟩
    | peerListUpdateLoad ip' resp =>
      refine ⟨_, rfl, fun hgood => ?_⟩
      cases hw
      by_cases he : ip' = ip ∧ got.bind checkLoadResp = some resp
      · rw [if_pos he]
        obtain ⟨rfl, hresp⟩ := he
        obtain ⟨buf, rfl, hcheck⟩ := Option.bind_eq_some_iff.1 hresp
        obtain ⟨n, data, hn, hip, hmem, rfl⟩ := hasks buf rfl
        rw [checkLoadResp_take] at hcheck
        obtain rfl : n = w.queries.length - 1 := by omega
        exact ⟨⟨.idle, rfl, trivial⟩, hnet.store ⟨hip, data, hmem, hcheck⟩⟩
      · rw [if_neg he] at hgood
        exact absurd rfl hgood
    | _ => exact ⟨.bad, rfl, hbad⟩

/-- The outline of the queries. -/
def outline : Conc.Outline sys Undisturbed QueryPhase where
  auto := QueryPhase.auto
  good := QueryPhase.Good
  fin := fun _ => True
  fresh := fun _ _ => .bad
  inv := fun qs w => w.Inv qs
  spawned := nofun
  call := by
    intro qs w i q c r w' h hq _ hok hw
    obtain ⟨q', hq', hinv⟩ := h.call hq hok hw
    refine ⟨q', hq', fun hgood => ?_⟩
    simpa [sys] using hinv hgood
  env := fun h hok hw => h.env hok hw

lemma holds_start (peers : List (Bytes × ℕ)) : outline.Holds (start peers) [.idle] := by
  refine ⟨.cons (QueryPhase.always_queryAll peers (.inl rfl)) .nil, ⟨.idle, rfl, trivial⟩, ?_⟩
  constructor
  · exact fun _ hr => absurd hr List.not_mem_nil
  · exact fun _ hr => absurd hr List.not_mem_nil
  · exact fun _ hr => absurd hr List.not_mem_nil
  · exact fun _ hr => absurd hr List.not_mem_nil
  · exact fun _ ho => by cases ho
  · exact fun _ hx => absurd hx List.not_mem_nil

end QueryWorld

/-- In every run in which only answers to requests of the node are delivered to an open socket and
no socket gets a port for which a request of an earlier query or an answer to one is on its way:
every load that is stored for a peer was sent by that peer in answer to the request of the query
that stores it. -/
theorem stored_load_answers_query (peers : List (Bytes × ℕ))
    {s : Conf DispCall DispCall.Ret QueryWorld}
    (hr : Conc.Reach QueryWorld.sys QueryWorld.Undisturbed (QueryWorld.start peers) s)
    {x : StoredLoad} (hx : x ∈ s.world.stored) : s.world.Attributed x := by
  obtain ⟨qs, -, hinv⟩ := QueryWorld.outline.reach (QueryWorld.holds_start peers) hr
  exact hinv.net.stored x hx

/-! ### Two queries -/

namespace QueryWorld

/-- The peers `10.0.0.2` and `10.0.0.3`. -/
def firstPeer : Bytes := [49, 48, 46, 48, 46, 48, 46, 50]
def secondPeer : Bytes := [49, 48, 46, 48, 46, 48, 46, 51]

/-- A query makes its socket and sends its request from a port. -/
def askMoves (ip : Bytes) (port : ℕ) : List (Move DispCall DispCall.Ret QueryEnv) :=
  [.call 0 (.sock (.socket .dgram)) (3 : ℤ), .call 0 (.sock (.setsockopt 3 .broadcast)) (),
    .call 0 (.sock (.setsockopt 3 .reuseaddr)) (), .call 0 (.sock (.setsockopt 3 .reuseport)) (),
    .env (.choosePort port), .call 0 (.sendto 3 ip discoveryPort loadReq.bytes) ()]

/-- The answer `k` arrives, is received and stored. -/
def storeMoves (k : ℕ) (ip : Bytes) (resp : LoadResp) :
    List (Move DispCall DispCall.Ret QueryEnv) :=
  [.env (.deliver k), .call 0 (.select 3) (1 : ℤ),
    .call 0 (.recv 3 queryBufSize) (some (answerData resp)), .call 0 (.sock (.close 3)) (),
    .call 0 (.peerListUpdateLoad ip resp) ()]

def idleLoad : LoadResp := { load_pct := 0, active_tasks := 0, total_tasks := 5, num_cores := 4 }
def busyLoad : LoadResp := { load_pct := 90, active_tasks := 2, total_tasks := 7, num_cores := 8 }

end QueryWorld

open QueryWorld in
/-- The second query gets another port than the first one, and each gets its answer. -/
theorem stored_load_one : ∃ s x,
    Conc.Reach QueryWorld.sys QueryWorld.Undisturbed
      (QueryWorld.start [(firstPeer, 7777), (secondPeer, 7777)]) s ∧
      s.world.stored.map StoredLoad.ip = [firstPeer, secondPeer] ∧
      x ∈ s.world.stored ∧ x.ip = secondPeer ∧ s.world.Attributed x := by
  have hplay : ((QueryWorld.sys.play QueryWorld.Undisturbed
      (askMoves firstPeer 40000 ++ [.env (.answer 0 idleLoad)] ++
        storeMoves 0 firstPeer idleLoad ++ askMoves secondPeer 40001 ++
        [.env (.answer 1 busyLoad)] ++ storeMoves 1 secondPeer busyLoad)
      (QueryWorld.start [(firstPeer, 7777), (secondPeer, 7777)])).map fun s =>
        s.world.stored.map StoredLoad.ip) = some [firstPeer, secondPeer] := by
    decide +kernel
  obtain ⟨s, hr, hip⟩ := Conc.exists_reach_of_play _ hplay
  obtain ⟨x, hx, hxip⟩ : ∃ x ∈ s.world.stored, x.ip = secondPeer := by
    apply List.mem_map.1
    rw [hip]
    exact List.mem_cons_of_mem _ (List.mem_singleton_self _)
  exact ⟨s, x, hr, hip, hx, hxip, stored_load_answers_query _ hr hx⟩

open QueryWorld in
/-- The first query times out, and the second one gets its port: the late answer of the first peer
is stored as the load of the second one, which has answered nothing. -/
theorem late_answer_stored : ∃ s x,
    Conc.Reach QueryWorld.sys Conc.anyMove
      (QueryWorld.start [(firstPeer, 7777), (secondPeer, 7777)]) s ∧
      x ∈ s.world.stored ∧ x.ip = secondPeer ∧ s.world.answers.map LoadAnswer.src = [firstPeer] ∧
      ¬ s.world.Attributed x := by
  have hplay : ((QueryWorld.sys.play Conc.anyMove
      (askMoves firstPeer 40000 ++
        [.call 0 (.select 3) (0 : ℤ), .call 0 (.sock (.close 3)) (), .env (.answer 0 idleLoad)] ++
        askMoves secondPeer 40000 ++ storeMoves 0 secondPeer idleLoad)
      (QueryWorld.start [(firstPeer, 7777), (secondPeer, 7777)])).map fun s =>
        (s.world.stored.map StoredLoad.ip, s.world.answers.map LoadAnswer.src)) =
      some ([secondPeer], [firstPeer]) := by
    decide +kernel
  obtain ⟨s, hr, hw⟩ := Conc.exists_reach_of_play _ hplay
  obtain ⟨hip, hanswers⟩ := Prod.mk.inj hw
  obtain ⟨x, hx, hxip⟩ := List.mem_map.1 (hip.symm ▸ List.mem_singleton_self secondPeer)
  refine ⟨s, x, hr, hx, hxip, hanswers, ?_⟩
  rintro ⟨-, data, hmem, -⟩
  have hsrc := List.mem_map_of_mem (f := LoadAnswer.src) hmem
  have hne : secondPeer ≠ firstPeer := by decide
  rw [hanswers, List.mem_singleton, hxip] at hsrc
  exact hne hsrc

end P2PNode
