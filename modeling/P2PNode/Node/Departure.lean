import P2PNode.Node.Membership

/-!
# After the BYE of a node

A departing node with its announcer thread and the end of its `main`, its datagrams on their way,
and a receiving node with its listener, whose dispatcher and reaper change the table as well.
-/

namespace P2PNode

open Effect

/-! ### The two nodes -/

/-- A departing node, and the address of the node that receives its datagrams. -/
structure Departure where
  ip : Ip
  port : ℕ
  src_port : ℕ
  bcast_fd : Fd
  local_ip : Bytes
  port_lt : port < 2 ^ 16
  remote : ip.text ≠ local_ip

/-- The calls of the departing node and of the listener of the receiving node. -/
inductive DepartCall where
  | sender (c : BcastCall)
  | receiver (c : UdpCall)
  deriving DecidableEq

@[reducible] def DepartCall.Ret : DepartCall → Type
  | .sender c   => c.Ret
  | .receiver c => c.Ret

/-- A datagram at the socket of the receiver; `own` if the departing node has sent it. -/
structure Packet where
  src : Ip
  src_port : ℕ
  data : Bytes
  own : Bool

/-- What the departing node has sent and what of it is on its way; the datagrams waiting at the
socket of the receiver and those received; its clock and its table. `departed` tells whether the
listener has called `peer_list_remove` because of the BYE. -/
structure DepartWorld where
  sent : List Bytes := []
  wire : List Bytes := []
  exited : Bool := false
  inbox : List Packet := []
  received : List Packet := []
  clock : ℤ
  peers : PeerTable := peerListInit
  departed : Bool := false

/-- What happens by itself: the next datagram of the departing node arrives; a datagram of another
address or the announcement of another node arrives; the dispatcher or the reaper of the receiver
changes the table; time passes. -/
inductive DepartEnv where
  | deliver
  | stranger (src : Ip) (src_port : ℕ) (data : Bytes)
  | neighbour (a : Announcement)
  | updateLoad (ip : Ip) (resp : LoadResp)
  | reapStale (now : ℤ)
  | clock (now : ℤ)

/-- The data of the datagrams that the departing node has sent. -/
def ownData (ps : List Packet) : List Bytes := (ps.filter Packet.own).map Packet.data

def Packet.IsBye (p : Packet) : Prop := p.own = true ∧ headerType p.data = msgBye

instance (p : Packet) : Decidable p.IsBye := inferInstanceAs (Decidable (_ ∧ _))

namespace DepartWorld

/-- The datagram that was received last is the BYE. -/
def byeReceived (w : DepartWorld) : Bool := w.received.getLast?.any fun p => p.IsBye

/-- A call of the departing node, possible until its process has ended. -/
def send (w : DepartWorld) : (c : BcastCall) → c.Ret → Option DepartWorld
  | .gethostname, _ => if w.exited then none else some w
  | .sendto _ _ data, _ =>
    if w.exited then none else some { w with sent := w.sent ++ [data], wire := w.wire ++ [data] }
  | .sleep _, _ => if w.exited then none else some w
  | .exit, _ => some { w with exited := true }

def recvfrom (w : DepartWorld) (size : ℕ) : Option (Addr × Bytes) → Option DepartWorld
  | none => some w
  | some (src, buf) =>
    match w.inbox with
    | [] => none
    | p :: inbox =>
      if src = ⟨p.src.text, p.src_port⟩ ∧ buf = p.data.take size then
        some { w with inbox := inbox, received := w.received ++ [p] }
      else none

/-- A call of the listener. -/
def listen (w : DepartWorld) : (c : UdpCall) → c.Ret → Option DepartWorld
  | .sock _, _ => some w
  | .load _, _ => some w
  | .recvfrom _ size, got => w.recvfrom size got
  | .sendto _ _ _, _ => some w
  | .peerListAdd ip port, _ => some { w with peers := peerListAdd ip port w.clock w.peers }
  | .peerListTouch ip, _ => some { w with peers := peerListTouch ip w.clock w.peers }
  | .peerListRemove ip, _ => some { w with
      peers := peerListRemove ip w.peers
      departed := w.departed || w.byeReceived }

end DepartWorld

namespace Departure

variable (N : Departure)

/-- The departing node. -/
def node : NodeId := ⟨N.ip.text, N.port⟩

def call (w : DepartWorld) (_ : ℕ) : (c : DepartCall) → c.Ret → Option DepartWorld
  | .sender c, r => w.send c r
  | .receiver c, r => w.listen c r

def env (w : DepartWorld) : DepartEnv → Option DepartWorld
  | .deliver =>
    match w.wire with
    | [] => none
    | data :: wire => some { w with
        wire := wire
        inbox := w.inbox ++ [⟨N.ip, N.src_port, data, true⟩] }
  | .stranger src src_port data =>
    if src.text ≠ N.ip.text then
      some { w with inbox := w.inbox ++ [⟨src, src_port, data, false⟩] }
    else none
  | .neighbour a =>
    if a.node ≠ N.node then
      some { w with inbox := w.inbox ++ [⟨a.ip, a.src_port, a.data, false⟩] }
    else none
  | .updateLoad ip resp =>
    some { w with peers := peerListUpdateLoad ip.text resp w.clock w.peers }
  | .reapStale now => some { w with peers := peerListReapStale now w.peers }
  | .clock now => some { w with clock := now }

def sys : Conc DepartCall DepartCall.Ret DepartWorld DepartEnv where
  call := call
  env := N.env
  spawn := fun _ _ => none

/-- The announcer and the end of `main` of the departing node, and the listener of the receiver. -/
def start (announces rounds : ℕ) (clock : ℤ) : Conf DepartCall DepartCall.Ret DepartWorld where
  threads :=
    [(announcerThread N.bcast_fd N.port announces).embed .sender fun _ r => r,
      (mainEnd N.bcast_fd N.port).embed .sender fun _ r => r,
      (listenerThread N.local_ip rounds).embed .receiver fun _ r => r]
  world := { clock := clock }

/-- A HELLO is sent only while no BYE was sent. -/
def HelloBeforeBye (w : DepartWorld) : Move DepartCall DepartCall.Ret DepartEnv → Prop
  | .call _ (.sender (.sendto _ _ data)) _ =>
    headerType data = msgHello → ∀ d ∈ w.sent, headerType d ≠ msgBye
  | _ => True

instance : ∀ w m, Decidable (HelloBeforeBye w m)
  | w, .call _ (.sender (.sendto _ _ data)) _ =>
    inferInstanceAs (Decidable (headerType data = msgHello → ∀ d ∈ w.sent, headerType d ≠ msgBye))
  | _, .call _ (.sender .gethostname) _ => .isTrue trivial
  | _, .call _ (.sender (.sleep _)) _ => .isTrue trivial
  | _, .call _ (.sender .exit) _ => .isTrue trivial
  | _, .call _ (.receiver _) _ => .isTrue trivial
  | _, .env _ => .isTrue trivial

end Departure

/-! ### What the operations make of the listed nodes -/

/-- The node that an operation enters. -/
def PeerOp.enters : PeerOp → Option NodeId
  | .add ip port _ => some ⟨ip.text, port⟩
  | _ => none

section Listed

variable {t : PeerTable} {m : PeerMap} {n : NodeId} (h : peerSlots.Represents t m)
include h

/-- A listed node was entered by the operation or was listed before. -/
lemma listed_onTable {op : PeerOp} (hn : n ∈ listedNodes (op.onTable t)) :
    op.enters = some n ∨ n ∈ listedNodes t := by
  rw [mem_listedNodes (represents_step h op)] at hn
  rw [mem_listedNodes h]
  have hmodify : ∀ (ip : Ip) (f : PeerRec → PeerRec), (∀ r, (f r).port = r.port) →
      ((m.modify ip.text f).get n.ip).map PeerRec.port = some n.port →
      (m.get n.ip).map PeerRec.port = some n.port := by
    intro ip f hf hget
    rw [BoundedMap.get_modify] at hget
    split at hget
    · rw [Option.map_map] at hget
      simpa only [Function.comp_def, hf] using hget
    · exact hget
  cases op with
  | add ip port now =>
    have hnew : n.ip = ip.text → port = n.port →
        (PeerOp.add ip port now).enters = some n := by
      rintro hip hport
      obtain ⟨ip', port'⟩ := n
      cases hip
      cases hport
      rfl
    simp only [PeerOp.onMap] at hn
    split at hn
    · rw [BoundedMap.get_modify] at hn
      split at hn
      · rename_i hip
        rw [Option.map_map] at hn
        obtain ⟨r, -, hport⟩ := Option.map_eq_some_iff.1 hn
        exact .inl (hnew hip hport)
      · exact .inr hn
    · by_cases hroom : m.size < maxPeers
      · rw [BoundedMap.get_insert hroom] at hn
        split at hn
        · rename_i hip
          exact .inl (hnew hip (Option.some.inj hn))
        · exact .inr hn
      · rw [BoundedMap.insert_full hroom] at hn
        exact .inr hn
  | remove ip =>
    rw [PeerOp.onMap, BoundedMap.get_erase] at hn
    split at hn
    · cases hn
    · exact .inr hn
  | updateLoad ip resp now => exact .inr (hmodify ip (·.setLoad resp now) (fun _ => rfl) hn)
  | touch ip now => exact .inr (hmodify ip (·.seen now) (fun _ => rfl) hn)
  | reapStale now =>
    obtain ⟨r, hr, hport⟩ := Option.map_eq_some_iff.1 hn
    rw [PeerOp.onMap, BoundedMap.get_filter, Option.filter_eq_some_iff] at hr
    right
    rw [hr.1, Option.map_some, hport]

lemma not_listed_remove {ip : Ip} (hip : n.ip = ip.text) :
    n ∉ listedNodes (peerListRemove ip.text t) := by
  rw [mem_listedNodes (represents_remove h ip), PeerOp.onMap, BoundedMap.get_erase, if_pos hip]
  simp

end Listed

/-! ### The departing node -/

/-- Where a thread of the departing node is; `ready` with the packet that it is about to send. -/
inductive SendPhase where
  | announcing
  | helloReady (data : Bytes)
  | leaving
  | byeReady (data : Bytes)
  | said
  | gone
  | bad

namespace SendPhase

variable (N : Departure)

def auto : Kernel BcastCall BcastCall.Ret SendPhase
  | .announcing, .gethostname, (name : Bytes) =>
    some (.helloReady (broadcastPacket msgHello N.port name))
  | .announcing, .sleep _, _ => some .announcing
  | .helloReady d, .sendto _ _ data, _ => some (if data = d then .announcing else .bad)
  | .leaving, .gethostname, (name : Bytes) =>
    some (.byeReady (broadcastPacket msgBye N.port name))
  | .leaving, .exit, _ => some .gone
  | .byeReady d, .sendto _ _ data, _ => some (if data = d then .said else .bad)
  | .said, .exit, _ => some .gone
  | _, _, _ => some .bad

def Good (q : SendPhase) : Prop := q ≠ .bad

variable {N}

lemma always_announcerThread (announces : ℕ) :
    (announcerThread N.bcast_fd N.port announces).Always (auto N) Good (fun _ _ => True)
      .announcing := by
  have hsleep : ∀ rounds, (announcerThread N.bcast_fd N.port rounds).Always (auto N) Good
      (fun _ _ => True) .announcing →
      (BcastCall.doSleep discoveryInterval >>= fun _ =>
        announcerThread N.bcast_fd N.port rounds).Always (auto N) Good (fun _ _ => True)
        .announcing := by
    intro rounds ih
    refine ⟨nofun, fun _ q hq => ?_⟩
    cases hq
    exact ih
  induction announces with
  | zero => exact nofun
  | succ announces ih =>
    rw [announcerThread, sendBroadcast]
    by_cases hfd : N.bcast_fd < 0
    · rw [if_pos hfd]
      exact hsleep _ ih
    · rw [if_neg hfd]
      refine ⟨nofun, fun name q hq => ?_⟩
      cases hq
      refine ⟨nofun, fun _ q hq => ?_⟩
      simp only [auto, if_true] at hq
      cases hq
      exact hsleep _ ih

lemma always_mainEnd :
    (mainEnd N.bcast_fd N.port).Always (auto N) Good (fun _ _ => True) .leaving := by
  rw [mainEnd, sendBroadcast]
  by_cases hfd : N.bcast_fd < 0
  · rw [if_pos hfd]
    refine ⟨nofun, fun _ q hq => ?_⟩
    cases hq
    exact ⟨nofun, trivial⟩
  · rw [if_neg hfd]
    refine ⟨nofun, fun name q hq => ?_⟩
    cases hq
    refine ⟨nofun, fun _ q hq => ?_⟩
    simp only [auto, if_true] at hq
    cases hq
    refine ⟨nofun, fun _ q hq => ?_⟩
    cases hq
    exact ⟨nofun, trivial⟩

end SendPhase

/-! ### The datagrams on their way -/

lemma ownData_append (ps qs : List Packet) : ownData (ps ++ qs) = ownData ps ++ ownData qs := by
  rw [ownData, List.filter_append, List.map_append, ownData, ownData]

lemma mem_ownData {ps : List Packet} {p : Packet} (hp : p ∈ ps) (hown : p.own = true) :
    p.data ∈ ownData ps :=
  List.mem_map_of_mem (List.mem_filter.2 ⟨hp, hown⟩)

/-- What the listener does with a datagram that does not announce the departing node. -/
def Unrelated (N : Departure) (p : Packet) : Prop :=
  ListenPhase.after N.local_ip (some (⟨p.src.text, p.src_port⟩, p.data.take listenBufSize)) ≠
    .adding N.ip.text N.port

namespace Departure

variable (N : Departure)

/-- The datagrams of the departing node arrive in the order sent, and the BYE was sent last. -/
structure Stream (w : DepartWorld) : Prop where
  eq : ownData (w.received ++ w.inbox) ++ w.wire = w.sent
  packets : ∀ d ∈ w.sent, ∃ (type : AnnounceType) (name : Bytes),
    d = broadcastPacket type.msgType N.port name
  last : ∀ d ∈ w.sent.dropLast, headerType d ≠ msgBye
  src : ∀ p ∈ w.inbox, p.own = true → p.src = N.ip
  others : ∀ p ∈ w.inbox, p.own = false → Unrelated N p

/-- The table is well formed, and the node that has departed is not listed. -/
structure Final (w : DepartWorld) : Prop where
  table : ∃ m, peerSlots.Represents w.peers m
  gone : w.departed = true →
    N.node ∉ listedNodes w.peers ∧ ∃ d ∈ ownData w.received, headerType d = msgBye

variable {N} {w : DepartWorld}

namespace Stream

/-- After the BYE nothing of the departing node is on its way. -/
lemma nothing_left (h : N.Stream w) (hbye : ∃ d ∈ ownData w.received, headerType d = msgBye) :
    ownData w.inbox = [] ∧ w.wire = [] := by
  obtain ⟨d, hd, htype⟩ := hbye
  have heq := h.eq
  rw [ownData_append, List.append_assoc] at heq
  by_contra hne
  have hrest : ownData w.inbox ++ w.wire ≠ [] := by
    intro he
    exact hne (List.append_eq_nil_iff.1 he)
  have hmem : d ∈ w.sent.dropLast := by
    rw [← heq, List.dropLast_append_of_ne_nil hrest]
    exact List.mem_append_left _ hd
  exact h.last d hmem htype

/-- Sending while no BYE was sent. -/
lemma send (h : N.Stream w) (type : AnnounceType) (name : Bytes)
    (hbye : ∀ d ∈ w.sent, headerType d ≠ msgBye) :
    N.Stream { w with
      sent := w.sent ++ [broadcastPacket type.msgType N.port name]
      wire := w.wire ++ [broadcastPacket type.msgType N.port name] } where
  eq := by
    simp only
    rw [← List.append_assoc, h.eq]
  packets := by
    intro d hd
    rcases List.mem_append.1 hd with hd | hd
    · exact h.packets d hd
    · exact ⟨type, name, List.mem_singleton.1 hd⟩
  last := by
    intro d hd
    rw [List.dropLast_concat] at hd
    exact hbye d hd
  src := h.src
  others := h.others

/-- The next datagram arrives. -/
lemma deliver (h : N.Stream w) {data : Bytes} {wire : List Bytes} (hw : w.wire = data :: wire) :
    N.Stream { w with
      wire := wire
      inbox := w.inbox ++ [⟨N.ip, N.src_port, data, true⟩] } where
  eq := by
    have heq := h.eq
    rw [hw] at heq
    simp only
    rw [← List.append_assoc, ownData_append, ← heq, List.append_assoc]
    rfl
  packets := h.packets
  last := h.last
  src := by
    intro p hp hown
    rcases List.mem_append.1 hp with hp | hp
    · exact h.src p hp hown
    · rw [List.mem_singleton.1 hp]
  others := by
    intro p hp hown
    rcases List.mem_append.1 hp with hp | hp
    · exact h.others p hp hown
    · rw [List.mem_singleton.1 hp] at hown
      cases hown

/-- A datagram of another node arrives. -/
lemma other (h : N.Stream w) {p : Packet} (hown : p.own = false) (hp : Unrelated N p) :
    N.Stream { w with inbox := w.inbox ++ [p] } where
  eq := by
    have heq := h.eq
    have hnil : ownData [p] = [] := by
      rw [ownData, List.filter_cons_of_neg (by simp [hown])]
      rfl
    simp only
    rw [← List.append_assoc, ownData_append, hnil, List.append_nil]
    exact heq
  packets := h.packets
  last := h.last
  src := by
    intro p' hp' hown'
    rcases List.mem_append.1 hp' with hp' | hp'
    · exact h.src p' hp' hown'
    · rw [List.mem_singleton.1 hp', hown] at hown'
      cases hown'
  others := by
    intro p' hp' hown'
    rcases List.mem_append.1 hp' with hp' | hp'
    · exact h.others p' hp' hown'
    · rw [List.mem_singleton.1 hp']
      exact hp

/-- The listener receives the first datagram. -/
lemma receive (h : N.Stream w) {p : Packet} {inbox : List Packet} (hw : w.inbox = p :: inbox) :
    N.Stream { w with inbox := inbox, received := w.received ++ [p] } where
  eq := by
    have heq := h.eq
    rw [hw] at heq
    simp only
    rw [List.append_assoc]
    exact heq
  packets := h.packets
  last := h.last
  src := by
    intro p' hp' hown
    exact h.src p' (hw ▸ List.mem_cons_of_mem p hp') hown
  others := by
    intro p' hp' hown
    exact h.others p' (hw ▸ List.mem_cons_of_mem p hp') hown

/-- What was sent and has not been received is a packet of the departing node. -/
lemma packet_of_inbox (h : N.Stream w) {p : Packet} (hp : p ∈ w.inbox) (hown : p.own = true) :
    p.src = N.ip ∧ ∃ (type : AnnounceType) (name : Bytes),
      p.data = broadcastPacket type.msgType N.port name := by
  refine ⟨h.src p hp hown, h.packets _ ?_⟩
  rw [← h.eq]
  exact List.mem_append_left _ (mem_ownData (List.mem_append_right _ hp) hown)

end Stream

namespace Final

/-- An operation on the table that does not enter the departing node. -/
lemma perform (h : N.Final w) (op : PeerOp) (hop : w.departed = true → op.enters ≠ some N.node) :
    N.Final { w with peers := op.onTable w.peers } where
  table := by
    obtain ⟨m, hm⟩ := h.table
    exact ⟨_, represents_step hm op⟩
  gone := by
    intro hd
    obtain ⟨m, hm⟩ := h.table
    obtain ⟨hnot, hbye⟩ := h.gone hd
    refine ⟨fun hn => ?_, hbye⟩
    rcases listed_onTable hm hn with hin | hin
    · exact hop hd hin
    · exact hnot hin

/-- The listener removes an entry. -/
lemma remove (h : N.Final w) (ip : Ip) (hip : w.byeReceived = true → ip.text = N.ip.text) :
    N.Final { w with
      peers := peerListRemove ip.text w.peers
      departed := w.departed || w.byeReceived } where
  table := (h.perform (.remove ip) fun _ => nofun).table
  gone := by
    intro hd
    obtain ⟨m, hm⟩ := h.table
    rcases Bool.or_eq_true_iff.1 hd with hd | hlast
    · exact (h.perform (.remove ip) fun _ => nofun).gone hd
    · refine ⟨not_listed_remove hm (hip hlast).symm, ?_⟩
      obtain ⟨p, hp, hbye⟩ := (Option.any_eq_true _ _).1 hlast
      obtain ⟨hown, htype⟩ : p.IsBye := of_decide_eq_true hbye
      exact ⟨p.data, mem_ownData (List.mem_of_getLast? hp) hown, htype⟩

lemma receive (h : N.Final w) (p : Packet) (inbox : List Packet) :
    N.Final { w with inbox := inbox, received := w.received ++ [p] } where
  table := h.table
  gone := by
    intro hd
    obtain ⟨hnot, d, hmem, hbye⟩ := h.gone hd
    refine ⟨hnot, d, ?_, hbye⟩
    rw [ownData_append]
    exact List.mem_append_left _ hmem

end Final

/-- What the listener is about to do with the table. -/
def Listens (N : Departure) (w : DepartWorld) : ListenPhase → Prop
  | .waiting => True
  | .adding ip port =>
    (∃ a : Ip, ip = a.text) ∧ (w.departed = true → NodeId.mk ip port ≠ N.node)
  | .touching ip => ∃ a : Ip, ip = a.text
  | .removing ip => (∃ a : Ip, ip = a.text) ∧ (w.byeReceived = true → ip = N.ip.text)
  | .bad => False

lemma Listens.congr {w' : DepartWorld} {q : ListenPhase} (h : Listens N w q)
    (hr : w'.received = w.received) (hd : w'.departed = w.departed) : Listens N w' q := by
  cases q with
  | adding ip port => exact ⟨h.1, hd ▸ h.2⟩
  | removing ip =>
    refine ⟨h.1, fun hbye => h.2 ?_⟩
    rwa [DepartWorld.byeReceived, hr] at hbye
  | _ => exact h

/-- What the listener is about to do with any datagram. -/
lemma after_cases (local_ip : Bytes) (src : Addr) (buf : Bytes) :
    ListenPhase.after local_ip (some (src, buf)) = .waiting ∨
      (∃ port, ListenPhase.after local_ip (some (src, buf)) = .adding src.ip port) ∨
      ListenPhase.after local_ip (some (src, buf)) = .removing src.ip := by
  simp only [ListenPhase.after]
  split
  · exact .inl rfl
  split
  · exact .inl rfl
  split
  · exact .inl rfl
  split
  · split
    · exact .inl rfl
    · exact .inr (.inl ⟨_, rfl⟩)
  split
  · exact .inr (.inr rfl)
  · exact .inl rfl

lemma listens_receive (hs : N.Stream w) (hf : N.Final w) {p : Packet} {inbox : List Packet}
    (hw : w.inbox = p :: inbox) :
    Listens N { w with inbox := inbox, received := w.received ++ [p] }
      (.after N.local_ip (some (⟨p.src.text, p.src_port⟩, p.data.take listenBufSize))) := by
  have hp : p ∈ w.inbox := hw ▸ List.mem_cons_self
  cases hown : p.own with
  | true =>
    obtain ⟨hsrc, type, name, hdata⟩ := hs.packet_of_inbox hp hown
    rw [hdata, take_broadcastPacket, hsrc]
    cases type with
    | hello =>
      rw [AnnounceType.msgType, ListenPhase.after_hello ⟨N.ip.text, p.src_port⟩ name
        N.remote N.port_lt]
      refine ⟨⟨N.ip, rfl⟩, fun hd => ?_⟩
      -- nothing of the departing node is received after its BYE
      have hnil := (hs.nothing_left (hf.gone hd).2).1
      have := mem_ownData hp hown
      rw [hnil] at this
      cases this
    | bye =>
      rw [AnnounceType.msgType,
        ListenPhase.after_bye ⟨N.ip.text, p.src_port⟩ name N.remote]
      exact ⟨⟨N.ip, rfl⟩, fun _ => rfl⟩
  | false =>
    have hother := hs.others p hp hown
    rcases after_cases N.local_ip ⟨p.src.text, p.src_port⟩ (p.data.take listenBufSize) with
      he | ⟨port, he⟩ | he
    · rw [he]
      trivial
    · rw [Unrelated, he] at hother
      rw [he]
      refine ⟨⟨p.src, rfl⟩, fun _ hnode => hother ?_⟩
      have hip : p.src.text = N.ip.text := congrArg NodeId.ip hnode
      have hport : port = N.port := congrArg NodeId.port hnode
      rw [hip, hport]
    · rw [he]
      refine ⟨⟨p.src, rfl⟩, fun hbye => ?_⟩
      simp [DepartWorld.byeReceived, Packet.IsBye, hown] at hbye

/-! ### Every run -/

end Departure

/-- Where a thread of one of the two nodes is. -/
inductive DepartPhase where
  | sender (q : SendPhase)
  | listener (q : ListenPhase)

namespace DepartPhase

variable (N : Departure)

def auto : Kernel DepartCall DepartCall.Ret DepartPhase
  | .sender q, .sender c, r => (SendPhase.auto N q c r).map .sender
  | .listener q, .receiver c, r => (ListenPhase.auto N.local_ip q c r).map .listener
  | _, _, _ => some (.sender .bad)

def Good : DepartPhase → Prop
  | .sender q => q.Good
  | .listener q => q.Good

/-- The announcer. -/
def Announces : SendPhase → Prop
  | .announcing => True
  | .helloReady d => ∃ name, d = broadcastPacket msgHello N.port name
  | _ => False

/-- The end of `main`: no BYE was sent before its own. -/
def Leaves (w : DepartWorld) : SendPhase → Prop
  | .leaving => ∀ d ∈ w.sent, headerType d ≠ msgBye
  | .byeReady d => (∀ d ∈ w.sent, headerType d ≠ msgBye) ∧
      ∃ name, d = broadcastPacket msgBye N.port name
  | .said => True
  | .gone => True
  | _ => False

structure Inv (qs : List DepartPhase) (w : DepartWorld) : Prop where
  threads : ∃ qa qm ql, qs = [.sender qa, .sender qm, .listener ql] ∧ Announces N qa ∧
    Leaves N w qm ∧ N.Listens w ql
  stream : N.Stream w
  final : N.Final w

variable {N}

lemma always_sender {p : BcastProg Unit} {q : SendPhase}
    (h : p.Always (SendPhase.auto N) SendPhase.Good (fun _ _ => True) q) :
    (p.embed DepartCall.sender fun _ r => r).Always (auto N) Good (fun _ _ => True)
      (.sender q) := by
  apply (h.embed (auto N) Good .sender ?_ fun _ hg => hg).mono
  · exact fun _ _ _ => trivial
  · intro s c r t' hr
    obtain ⟨t, hq, rfl⟩ := Option.map_eq_some_iff.1 hr
    exact ⟨t, hq, rfl⟩

lemma always_listener {p : UdpProg Unit} {q : ListenPhase}
    (h : p.Always (ListenPhase.auto N.local_ip) ListenPhase.Good (fun _ q => q = .waiting) q) :
    (p.embed DepartCall.receiver fun _ r => r).Always (auto N) Good (fun _ _ => True)
      (.listener q) := by
  apply (h.embed (auto N) Good .listener ?_ fun _ hg => hg).mono
  · exact fun _ _ _ => trivial
  · intro s c r t' hr
    obtain ⟨t, hq, rfl⟩ := Option.map_eq_some_iff.1 hr
    exact ⟨t, hq, rfl⟩

lemma Leaves.congr {w w' : DepartWorld} {q : SendPhase} (h : Leaves N w q)
    (hs : w'.sent = w.sent) : Leaves N w' q := by
  cases q with
  | leaving => exact fun d hd => h d (hs ▸ hd)
  | byeReady d => exact ⟨fun d hd => h.1 d (hs ▸ hd), h.2⟩
  | _ => exact h

/-- A HELLO is not a BYE. -/
lemma Leaves.hello {w w' : DepartWorld} {q : SendPhase} (h : Leaves N w q) {name : Bytes}
    (hs : w'.sent = w.sent ++ [broadcastPacket msgHello N.port name]) : Leaves N w' q := by
  have hsent : (∀ d ∈ w.sent, headerType d ≠ msgBye) → ∀ d ∈ w'.sent, headerType d ≠ msgBye := by
    intro hbye d hd
    rw [hs, List.mem_append, List.mem_singleton] at hd
    rcases hd with hd | rfl
    · exact hbye d hd
    · rw [headerType_broadcastPacket]
      decide
  cases q with
  | leaving => exact hsent h
  | byeReady d => exact ⟨hsent h.1, h.2⟩
  | _ => exact h

section Calls

variable {w w' : DepartWorld} {qa qm : SendPhase} {ql : ListenPhase}

/-- The departing node has sent a datagram. -/
lemma inv_sent (hs : N.Stream w) (hf : N.Final w) (hl : N.Listens w ql) (type : AnnounceType)
    (name : Bytes) (hbye : ∀ d ∈ w.sent, headerType d ≠ msgBye)
    (hw : w' = { w with
      sent := w.sent ++ [broadcastPacket type.msgType N.port name]
      wire := w.wire ++ [broadcastPacket type.msgType N.port name] })
    (ha : Announces N qa) (hm : Leaves N w' qm) :
    Inv N [.sender qa, .sender qm, .listener ql] w' := by
  subst hw
  exact ⟨⟨qa, qm, ql, rfl, ha, hm, hl.congr rfl rfl⟩, hs.send type name hbye, hf.table, hf.gone⟩

/-- A call of the announcer. -/
lemma announcer_call {c : BcastCall} {r : c.Ret} {i : ℕ}
    (h : Inv N [.sender qa, .sender qm, .listener ql] w) (ha : Announces N qa)
    (hm : Leaves N w qm) (hl : N.Listens w ql)
    (hok : Departure.HelloBeforeBye w (.call i (.sender c) r)) (hw : w.send c r = some w') :
    ∃ q', SendPhase.auto N qa c r = some q' ∧
      (q'.Good → Inv N [.sender q', .sender qm, .listener ql] w') := by
  have hbad : SendPhase.bad.Good → Inv N [.sender .bad, .sender qm, .listener ql] w' :=
    fun hb => absurd rfl hb
  have hkeep : ∀ q', Announces N q' → Inv N [.sender q', .sender qm, .listener ql] w :=
    fun q' hq' => ⟨⟨q', qm, ql, rfl, hq', hm, hl⟩, h.stream, h.final⟩
  cases qa with
  | announcing =>
    cases c with
    | gethostname =>
      simp only [DepartWorld.send] at hw
      split at hw
      · cases hw
      · cases hw
        exact ⟨_, rfl, fun _ => hkeep _ ⟨r, rfl⟩⟩
    | sleep secs =>
      simp only [DepartWorld.send] at hw
      split at hw
      · cases hw
      · cases hw
        exact ⟨_, rfl, fun _ => hkeep _ trivial⟩
    | _ => exact ⟨.bad, rfl, hbad⟩
  | helloReady d =>
    cases c with
    | sendto fd dst data =>
      refine ⟨_, rfl, fun hgood => ?_⟩
      simp only [DepartWorld.send] at hw
      split at hw
      · cases hw
      · by_cases hdata : data = d
        · obtain ⟨name, rfl⟩ := ha
          subst hdata
          rw [if_pos rfl]
          have hbye := hok (headerType_broadcastPacket _ _ _)
          obtain rfl := Option.some.inj hw
          exact inv_sent h.stream h.final hl .hello name hbye rfl trivial (hm.hello rfl)
        · rw [if_neg hdata] at hgood
          exact absurd rfl hgood
    | _ => exact ⟨.bad, rfl, hbad⟩
  | _ => exact ha.elim

/-- A call of `main`. -/
lemma main_call {c : BcastCall} {r : c.Ret} (h : Inv N [.sender qa, .sender qm, .listener ql] w)
    (ha : Announces N qa) (hm : Leaves N w qm) (hl : N.Listens w ql)
    (hw : w.send c r = some w') :
    ∃ q', SendPhase.auto N qm c r = some q' ∧
      (q'.Good → Inv N [.sender qa, .sender q', .listener ql] w') := by
  have hbad : SendPhase.bad.Good → Inv N [.sender qa, .sender .bad, .listener ql] w' :=
    fun hb => absurd rfl hb
  have hexit : Inv N [.sender qa, .sender .gone, .listener ql] { w with exited := true } :=
    ⟨⟨qa, .gone, ql, rfl, ha, trivial, hl.congr rfl rfl⟩,
      ⟨h.stream.eq, h.stream.packets, h.stream.last, h.stream.src, h.stream.others⟩,
      ⟨h.final.table, h.final.gone⟩⟩
  cases qm with
  | leaving =>
    cases c with
    | gethostname =>
      simp only [DepartWorld.send] at hw
      split at hw
      · cases hw
      · cases hw
        exact ⟨_, rfl, fun _ => ⟨⟨qa, _, ql, rfl, ha, ⟨hm, r, rfl⟩, hl⟩, h.stream, h.final⟩⟩
    | exit =>
      cases hw
      exact ⟨_, rfl, fun _ => hexit⟩
    | _ => exact ⟨.bad, rfl, hbad⟩
  | byeReady d =>
    cases c with
    | sendto fd dst data =>
      refine ⟨_, rfl, fun hgood => ?_⟩
      simp only [DepartWorld.send] at hw
      split at hw
      · cases hw
      · by_cases hdata : data = d
        · obtain ⟨hbye, name, rfl⟩ := hm
          subst hdata
          rw [if_pos rfl]
          obtain rfl := Option.some.inj hw
          exact inv_sent h.stream h.final hl .bye name hbye rfl ha trivial
        · rw [if_neg hdata] at hgood
          exact absurd rfl hgood
    | _ => exact ⟨.bad, rfl, hbad⟩
  | said =>
    cases c with
    | exit =>
      cases hw
      exact ⟨_, rfl, fun _ => hexit⟩
    | _ => exact ⟨.bad, rfl, hbad⟩
  | gone => exact ⟨.bad, by cases c <;> rfl, hbad⟩
  | _ => exact hm.elim

lemma recvfrom_cases {size : ℕ} {got : Option (Addr × Bytes)}
    (h : w.recvfrom size got = some w') :
    (got = none ∧ w' = w) ∨ ∃ p inbox, w.inbox = p :: inbox ∧
      got = some (⟨p.src.text, p.src_port⟩, p.data.take size) ∧
      w' = { w with inbox := inbox, received := w.received ++ [p] } := by
  cases got with
  | none =>
    cases h
    exact .inl ⟨rfl, rfl⟩
  | some x =>
    obtain ⟨src, buf⟩ := x
    cases hin : w.inbox with
    | nil => simp [DepartWorld.recvfrom, hin] at h
    | cons p inbox =>
      simp only [DepartWorld.recvfrom, hin] at h
      split at h
      · rename_i hsb
        cases h
        exact .inr ⟨p, inbox, rfl, by rw [hsb.1, hsb.2], rfl⟩
      · cases h

/-- A call of the listener. -/
lemma listener_call {c : UdpCall} {r : c.Ret} (h : Inv N [.sender qa, .sender qm, .listener ql] w)
    (ha : Announces N qa) (hm : Leaves N w qm) (hl : N.Listens w ql)
    (hw : w.listen c r = some w') :
    ∃ q', ListenPhase.auto N.local_ip ql c r = some q' ∧
      (q'.Good → Inv N [.sender qa, .sender qm, .listener q'] w') := by
  have hbad : ListenPhase.bad.Good → Inv N [.sender qa, .sender qm, .listener .bad] w' :=
    fun hb => absurd rfl hb
  obtain ⟨-, hs, hf⟩ := h
  have hstream : ∀ peers departed,
      N.Stream { w with peers := peers, departed := departed } := fun _ _ =>
    ⟨hs.eq, hs.packets, hs.last, hs.src, hs.others⟩
  cases ql with
  | bad => exact hl.elim
  | waiting =>
    cases c with
    | sock c =>
      cases hw
      exact ⟨.waiting, rfl, fun _ => ⟨⟨qa, qm, _, rfl, ha, hm, trivial⟩, hs, hf⟩⟩
    | recvfrom fd size =>
      refine ⟨_, rfl, fun hgood => ?_⟩
      by_cases hsize : size = listenBufSize
      · rw [if_pos hsize]
        subst hsize
        rcases recvfrom_cases hw with ⟨rfl, rfl⟩ | ⟨p, inbox, hin, rfl, rfl⟩
        · exact ⟨⟨qa, qm, _, rfl, ha, hm, trivial⟩, hs, hf⟩
        · exact ⟨⟨qa, qm, _, rfl, ha, hm.congr rfl, Departure.listens_receive hs hf hin⟩,
            hs.receive hin, hf.receive p inbox⟩
      · rw [if_neg hsize] at hgood
        exact absurd rfl hgood
    | _ => exact ⟨.bad, rfl, hbad⟩
  | adding ip port =>
    cases c with
    | peerListAdd ip' port' =>
      cases hw
      refine ⟨_, rfl, fun hgood => ?_⟩
      by_cases he : ip' = ip ∧ port' = port
      · obtain ⟨rfl, rfl⟩ := he
        obtain ⟨⟨a, rfl⟩, hother⟩ := hl
        rw [if_pos ⟨rfl, rfl⟩]
        refine ⟨⟨qa, qm, _, rfl, ha, hm.congr rfl, a, rfl⟩, hstream _ _, ?_⟩
        exact hf.perform (.add a port' w.clock) fun hd he => hother hd (Option.some.inj he)
      · rw [if_neg he] at hgood
        exact absurd rfl hgood
    | _ => exact ⟨.bad, rfl, hbad⟩
  | touching ip =>
    cases c with
    | peerListTouch ip' =>
      cases hw
      refine ⟨_, rfl, fun hgood => ?_⟩
      by_cases he : ip' = ip
      · obtain rfl := he
        obtain ⟨a, rfl⟩ := hl
        rw [if_pos rfl]
        exact ⟨⟨qa, qm, _, rfl, ha, hm.congr rfl, trivial⟩, hstream _ _,
          hf.perform (.touch a w.clock) fun _ => nofun⟩
      · rw [if_neg he] at hgood
        exact absurd rfl hgood
    | _ => exact ⟨.bad, rfl, hbad⟩
  | removing ip =>
    cases c with
    | peerListRemove ip' =>
      cases hw
      refine ⟨_, rfl, fun hgood => ?_⟩
      by_cases he : ip' = ip
      · obtain rfl := he
        obtain ⟨⟨a, rfl⟩, hbye⟩ := hl
        rw [if_pos rfl]
        exact ⟨⟨qa, qm, _, rfl, ha, hm.congr rfl, trivial⟩, hstream _ _, hf.remove a hbye⟩
      · rw [if_neg he] at hgood
        exact absurd rfl hgood
    | _ => exact ⟨.bad, rfl, hbad⟩

end Calls

/-- What comes from another address does not announce the departing node. -/
lemma unrelated_stranger {src : Ip} (h : src.text ≠ N.ip.text) (src_port : ℕ) (data : Bytes) :
    Unrelated N ⟨src, src_port, data, false⟩ := by
  intro he
  rcases Departure.after_cases N.local_ip ⟨src.text, src_port⟩ (data.take listenBufSize) with
    h' | ⟨port, h'⟩ | h'
  · rw [h'] at he
    cases he
  · rw [h'] at he
    exact h (ListenPhase.adding.inj he).1
  · rw [h'] at he
    cases he

/-- Nor does the announcement of another node. -/
lemma unrelated_neighbour {a : Announcement} (h : a.node ≠ N.node) :
    Unrelated N ⟨a.ip, a.src_port, a.data, false⟩ := by
  intro he
  rw [Announcement.data, take_broadcastPacket] at he
  by_cases hlocal : a.ip.text = N.local_ip
  · rw [ListenPhase.after_own ⟨a.ip.text, a.src_port⟩ hlocal] at he
    cases he
  · cases htype : a.type with
    | hello =>
      rw [htype, AnnounceType.msgType,
        ListenPhase.after_hello ⟨a.ip.text, a.src_port⟩ _ hlocal a.port_lt] at he
      obtain ⟨hip, hport⟩ := ListenPhase.adding.inj he
      apply h
      rw [Announcement.node, Departure.node, NodeId.mk.injEq]
      exact ⟨hip, hport⟩
    | bye =>
      rw [htype, AnnounceType.msgType,
        ListenPhase.after_bye ⟨a.ip.text, a.src_port⟩ _ hlocal] at he
      cases he

/-- What happens by itself. -/
lemma Inv.env {w w' : DepartWorld} {qs : List DepartPhase} {e : DepartEnv} (h : Inv N qs w)
    (hw : N.env w e = some w') : Inv N qs w' := by
  obtain ⟨⟨qa, qm, ql, rfl, ha, hm, hl⟩, hs, hf⟩ := h
  have hthreads : ∀ {w'}, w'.sent = w.sent → w'.received = w.received →
      w'.departed = w.departed → ∃ qa' qm' ql', [sender qa, sender qm, listener ql] =
        [.sender qa', .sender qm', .listener ql'] ∧ Announces N qa' ∧ Leaves N w' qm' ∧
          N.Listens w' ql' := fun h₁ h₂ h₃ =>
    ⟨qa, qm, ql, rfl, ha, hm.congr h₁, hl.congr h₂ h₃⟩
  have hstream : ∀ peers clock, N.Stream { w with peers := peers, clock := clock } := fun _ _ =>
    ⟨hs.eq, hs.packets, hs.last, hs.src, hs.others⟩
  cases e with
  | deliver =>
    cases hwire : w.wire with
    | nil => simp [Departure.env, hwire] at hw
    | cons data wire =>
      simp only [Departure.env, hwire] at hw
      cases hw
      exact ⟨hthreads rfl rfl rfl, hs.deliver hwire, hf.table, hf.gone⟩
  | stranger src src_port data =>
    simp only [Departure.env] at hw
    split at hw
    · rename_i hsrc
      cases hw
      exact ⟨hthreads rfl rfl rfl, hs.other rfl (unrelated_stranger hsrc src_port data),
        hf.table, hf.gone⟩
    · cases hw
  | neighbour a =>
    simp only [Departure.env] at hw
    split at hw
    · rename_i hnode
      cases hw
      exact ⟨hthreads rfl rfl rfl, hs.other rfl (unrelated_neighbour hnode), hf.table, hf.gone⟩
    · cases hw
  | updateLoad ip resp =>
    cases hw
    exact ⟨hthreads rfl rfl rfl, hstream _ _,
      hf.perform (.updateLoad ip resp w.clock) fun _ => nofun⟩
  | reapStale now =>
    cases hw
    exact ⟨hthreads rfl rfl rfl, hstream _ _, hf.perform (.reapStale now) fun _ => nofun⟩
  | clock now =>
    cases hw
    exact ⟨hthreads rfl rfl rfl, hstream _ _, hf.table, hf.gone⟩

/-- A call of one of the three threads. -/
lemma Inv.call {w w' : DepartWorld} {qs : List DepartPhase} {i : ℕ} {q : DepartPhase}
    {c : DepartCall} {r : c.Ret} (h : Inv N qs w) (hq : qs[i]? = some q)
    (hok : Departure.HelloBeforeBye w (.call i c r)) (hw : Departure.call w i c r = some w') :
    ∃ q', auto N q c r = some q' ∧ (Good q' → Inv N (qs.set i q') w') := by
  have h' := h
  obtain ⟨⟨qa, qm, ql, rfl, ha, hm, hl⟩, -, -⟩ := h
  have hbad : Good (.sender .bad) → Inv N ([sender qa, sender qm, listener ql].set i
      (.sender .bad)) w' := fun hb => absurd rfl hb
  match i with
  | 0 =>
    cases hq
    cases c with
    | sender c =>
      obtain ⟨q', hq', hinv⟩ := announcer_call h' ha hm hl hok hw
      exact ⟨.sender q', congrArg (Option.map _) hq', hinv⟩
    | receiver c => exact ⟨_, rfl, hbad⟩
  | 1 =>
    cases hq
    cases c with
    | sender c =>
      obtain ⟨q', hq', hinv⟩ := main_call h' ha hm hl hw
      exact ⟨.sender q', congrArg (Option.map _) hq', hinv⟩
    | receiver c => exact ⟨_, rfl, hbad⟩
  | 2 =>
    cases hq
    cases c with
    | sender c => exact ⟨_, rfl, hbad⟩
    | receiver c =>
      obtain ⟨q', hq', hinv⟩ := listener_call h' ha hm hl hw
      exact ⟨.listener q', congrArg (Option.map _) hq', hinv⟩
  | i + 3 => cases hq

variable (N)

/-- The outline of the two nodes. -/
def outline : Conc.Outline N.sys Departure.HelloBeforeBye DepartPhase where
  auto := auto N
  good := Good
  fin := fun _ => True
  fresh := fun _ _ => .sender .bad
  inv := Inv N
  spawned := nofun
  call := by
    intro qs w i q c r w' h hq _ hok hw
    obtain ⟨q', hq', hinv⟩ := h.call hq hok hw
    refine ⟨q', hq', fun hgood => ?_⟩
    simpa [Departure.sys] using hinv hgood
  env := fun h _ hw => h.env hw

lemma holds_start (announces rounds : ℕ) (clock : ℤ) :
    (outline N).Holds (N.start announces rounds clock)
      [.sender .announcing, .sender .leaving, .listener .waiting] := by
  constructor
  · apply List.Forall₂.cons (always_sender (SendPhase.always_announcerThread announces))
    apply List.Forall₂.cons (always_sender SendPhase.always_mainEnd)
    exact .cons (always_listener (ListenPhase.always_listenerThread rounds)) .nil
  · refine ⟨⟨_, _, _, rfl, trivial, fun _ hd => absurd hd List.not_mem_nil, trivial⟩, ?_, ?_⟩
    · exact ⟨rfl, fun _ hd => absurd hd List.not_mem_nil, fun _ hd => absurd hd List.not_mem_nil,
        fun _ hp => absurd hp List.not_mem_nil, fun _ hp => absurd hp List.not_mem_nil⟩
    · exact ⟨⟨_, SlotView.Represents.blank⟩, nofun⟩

end DepartPhase

/-- In every run in which the departing node sends no HELLO after its BYE: once the listener has
removed the entry because of the BYE, the node is not listed, whatever the other nodes announce and
the dispatcher and the reaper do. -/
theorem departure_final (N : Departure) (announces rounds : ℕ) (clock : ℤ)
    {s : Conf DepartCall DepartCall.Ret DepartWorld}
    (hr : Conc.Reach N.sys Departure.HelloBeforeBye (N.start announces rounds clock) s)
    (hd : s.world.departed = true) : N.node ∉ listedNodes s.world.peers := by
  obtain ⟨qs, -, hinv⟩ :=
    (DepartPhase.outline N).reach (DepartPhase.holds_start N announces rounds clock) hr
  exact (hinv.final.gone hd).1

/-! ### One departure -/

/-- The node `10.0.0.2` on port 7777, seen from `10.0.0.1`. -/
def leavingNode : Departure where
  ip := hostIp
  port := 7777
  src_port := 40000
  bcast_fd := 4
  local_ip := twoTerminals.local_ip
  port_lt := by decide
  remote := by decide

namespace Departure

/-- Thread `i` of the departing node asks for the name of the host and sends a packet. -/
def nameMove (i : ℕ) : Move DepartCall DepartCall.Ret DepartEnv :=
  .call i (.sender .gethostname) ([104] : Bytes)

def sendMove (i : ℕ) (type : MsgType) : Move DepartCall DepartCall.Ret DepartEnv :=
  .call i (.sender (.sendto 4 ⟨inaddrBroadcast, discoveryPort⟩ (broadcastPacket type 7777 [104])))
    ()

/-- The next packet arrives and is received. -/
def arriveMoves (type : MsgType) : List (Move DepartCall DepartCall.Ret DepartEnv) :=
  [.env .deliver, .call 2 (.receiver (.recvfrom 5 listenBufSize))
    (some (⟨hostIp.text, 40000⟩, broadcastPacket type 7777 [104]))]

def addMoves : List (Move DepartCall DepartCall.Ret DepartEnv) :=
  arriveMoves msgHello ++ [.call 2 (.receiver (.peerListAdd hostIp.text 7777)) (),
    .call 2 (.receiver (.peerListTouch hostIp.text)) ()]

def removeMoves : List (Move DepartCall DepartCall.Ret DepartEnv) :=
  arriveMoves msgBye ++ [.call 2 (.receiver (.peerListRemove hostIp.text)) ()]

def listenMoves : List (Move DepartCall DepartCall.Ret DepartEnv) :=
  [.call 2 (.receiver (.sock (.socket .dgram))) (5 : ℤ),
    .call 2 (.receiver (.sock (.setsockopt 5 .broadcast))) (),
    .call 2 (.receiver (.sock (.setsockopt 5 .reuseaddr))) (),
    .call 2 (.receiver (.sock (.setsockopt 5 .reuseport))) (),
    .call 2 (.receiver (.sock (.bind 5 discoveryPort))) (0 : ℤ)]

end Departure

open Departure in
theorem departure_final_one : ∃ s,
    Conc.Reach leavingNode.sys Departure.HelloBeforeBye (leavingNode.start 2 4 0) s ∧
      s.world.departed = true ∧ s.world.sent.map headerType = [msgHello, msgBye] ∧
      leavingNode.node ∉ listedNodes s.world.peers := by
  have hplay : ((leavingNode.sys.play Departure.HelloBeforeBye
      (listenMoves ++ [nameMove 0, sendMove 0 msgHello] ++ addMoves ++
        [nameMove 1, sendMove 1 msgBye] ++ removeMoves)
      (leavingNode.start 2 4 0)).map fun s =>
        (s.world.departed, s.world.sent.map headerType)) = some (true, [msgHello, msgBye]) := by
    decide +kernel
  obtain ⟨s, hr, hw⟩ := Conc.exists_reach_of_play _ hplay
  obtain ⟨hd, hsent⟩ := Prod.mk.inj hw
  exact ⟨s, hr, hd, hsent, departure_final leavingNode 2 4 0 hr hd⟩

open Departure in
/-- The announcer sends a HELLO between the BYE and the end of the process, and the node is listed
again. -/
theorem departed_listed_again : ∃ s,
    Conc.Reach leavingNode.sys Conc.anyMove (leavingNode.start 2 4 0) s ∧
      s.world.departed = true ∧ s.world.exited = true ∧
      leavingNode.node ∈ listedNodes s.world.peers := by
  have hplay : ((leavingNode.sys.play Conc.anyMove
      (listenMoves ++ [nameMove 1, sendMove 1 msgBye, nameMove 0, sendMove 0 msgHello,
        .call 1 (.sender .exit) ()] ++ removeMoves ++ addMoves)
      (leavingNode.start 2 4 0)).map fun s => (s.world.departed, s.world.exited,
        (s.world.peers ⟨0, by decide⟩).valid, (s.world.peers ⟨0, by decide⟩).ip,
        (s.world.peers ⟨0, by decide⟩).port)) = some (true, true, true, hostIp.text, 7777) := by
    decide +kernel
  obtain ⟨s, hr, hw⟩ := Conc.exists_reach_of_play _ hplay
  obtain ⟨hd, hexit, hv, hip, hport⟩ : _ ∧ _ ∧ _ ∧ _ ∧ _ := by simpa only [Prod.mk.injEq] using hw
  exact ⟨s, hr, hd, hexit, _, hv, hip, hport⟩

end P2PNode
