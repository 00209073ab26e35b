import P2PNode.Lib.Interleave
import P2PNode.Node.Listener
import P2PNode.Peers.Refinement

/-!
# Which nodes are listed

The announcements of any nodes, several of which may have one address, against the table that the
listener makes of them. The table has one entry for an address; a node is an address and a port.
-/

namespace P2PNode

open Effect

/-! ### Nodes and their announcements -/

/-- A node as it announces itself. -/
structure NodeId where
  ip : Bytes
  port : ℕ
  deriving DecidableEq

inductive AnnounceType where
  | hello
  | bye
  deriving DecidableEq

def AnnounceType.msgType : AnnounceType → MsgType
  | .hello => msgHello
  | .bye   => msgBye

/-- A broadcast of the node at `ip` with the worker port `port`. -/
structure Announcement where
  type : AnnounceType
  ip : Ip
  port : ℕ
  src_port : ℕ
  hostname : Bytes
  port_lt : port < 2 ^ 16

namespace Announcement

def node (a : Announcement) : NodeId := ⟨a.ip.text, a.port⟩

def src (a : Announcement) : Addr := ⟨a.ip.text, a.src_port⟩

def data (a : Announcement) : Bytes := broadcastPacket a.type.msgType a.port a.hostname

end Announcement

/-- The last announcement that `p` holds of. -/
def lastWhere (p : Announcement → Bool) (anns : List Announcement) : Option Announcement :=
  (anns.filter p).getLast?

/-- The last announcement of a node. -/
def lastOf (n : NodeId) : List Announcement → Option Announcement := lastWhere fun a => a.node = n

/-- The last announcement from an address. -/
def lastFrom (ip : Bytes) : List Announcement → Option Announcement :=
  lastWhere fun a => a.ip.text = ip

/-- The nodes whose last announcement was a HELLO. -/
def upNodes (anns : List Announcement) : Set NodeId :=
  {n | ∃ a, lastOf n anns = some a ∧ a.type = .hello}

/-- The nodes in the table. -/
def listedNodes (t : PeerTable) : Set NodeId :=
  {n | ∃ j, (t j).valid ∧ (t j).ip = n.ip ∧ (t j).port = n.port}

/-- Whenever a node was announced, the last announcement from its address before was its own, or a
BYE. -/
def OneByOne (anns : List Announcement) : Prop :=
  ∀ i : Fin anns.length, ∀ b ∈ lastFrom anns[i].ip.text (anns.take i),
    b.type = .hello → b.node = anns[i].node

instance (anns : List Announcement) : Decidable (OneByOne anns) := by
  unfold OneByOne
  infer_instance

/-- The port under which an address was announced last, if it was not withdrawn. -/
def portFrom (ip : Bytes) (anns : List Announcement) : Option ℕ :=
  (lastFrom ip anns).bind fun a => if a.type = .hello then some a.port else none

/-! ### The receiving node -/

/-- The address of the receiving node, and the other nodes. -/
structure Neighbourhood where
  local_ip : Bytes
  nodes : Finset NodeId
  card_le : nodes.card ≤ maxPeers
  remote : ∀ n ∈ nodes, n.ip ≠ local_ip

/-- The announcements waiting at the socket and those received, each in their order; the clock and
the table, and what the table was before each announcement that was received. -/
structure ListenWorld where
  inbox : List Announcement := []
  received : List Announcement := []
  clock : ℤ
  peers : PeerTable := peerListInit
  tables : List PeerTable := []

/-- The listener receives the first announcement that is waiting. -/
def ListenWorld.receive (w : ListenWorld) (a : Announcement) (inbox : List Announcement) :
    ListenWorld :=
  { w with
    inbox := inbox
    received := w.received ++ [a]
    tables := w.tables ++ [w.peers] }

/-- The table before and after each announcement. -/
def ListenWorld.history (w : ListenWorld) : List PeerTable := w.tables ++ [w.peers]

/-- No announcement has removed or re-addressed the entry of another node. -/
def ListenWorld.OthersKept (w : ListenWorld) : Prop :=
  ∀ i a t t', w.received[i]? = some a → w.history[i]? = some t → w.history[i + 1]? = some t' →
    ∀ n ∈ listedNodes t, n ≠ a.node → n ∈ listedNodes t'

/-- The nodes are tracked one by one: those in the table are those whose last announcement was a
HELLO, and none of them has changed the entry of another one. -/
structure ListenWorld.Tracks (w : ListenWorld) : Prop where
  listed : listedNodes w.peers = upNodes w.received
  kept : w.OthersKept

/-- What happens around the listener: an announcement arrives, or time passes. -/
inductive ListenEnv where
  | deliver (a : Announcement)
  | clock (now : ℤ)

namespace Neighbourhood

def recvfrom (w : ListenWorld) (size : ℕ) : Option (Addr × Bytes) → Option ListenWorld
  | none => some w
  | some (src, buf) =>
    match w.inbox with
    | [] => none
    | a :: inbox =>
      if src = a.src ∧ buf = a.data.take size then some (w.receive a inbox) else none

def call (w : ListenWorld) (_ : ℕ) : (c : UdpCall) → c.Ret → Option ListenWorld
  | .sock _, _ => some w
  | .load _, _ => some w
  | .recvfrom _ size, got => recvfrom w size got
  | .sendto _ _ _, _ => some w
  | .peerListAdd ip port, _ => some { w with peers := peerListAdd ip port w.clock w.peers }
  | .peerListTouch ip, _ => some { w with peers := peerListTouch ip w.clock w.peers }
  | .peerListRemove ip, _ => some { w with peers := peerListRemove ip w.peers }

variable (N : Neighbourhood)

def env (w : ListenWorld) : ListenEnv → Option ListenWorld
  | .deliver a => if a.node ∈ N.nodes then some { w with inbox := w.inbox ++ [a] } else none
  | .clock now => some { w with clock := now }

def sys : Conc UdpCall UdpCall.Ret ListenWorld ListenEnv where
  call := call
  env := N.env
  spawn := fun _ _ => none

/-- The listener before its first step. -/
def start (rounds : ℕ) (clock : ℤ) : Conf UdpCall UdpCall.Ret ListenWorld where
  threads := [listenerThread N.local_ip rounds]
  world := { clock := clock }

end Neighbourhood

/-! ### The last announcements -/

lemma lastWhere_concat (p : Announcement → Bool) (anns : List Announcement) (a : Announcement) :
    lastWhere p (anns ++ [a]) = if p a then some a else lastWhere p anns := by
  rw [lastWhere, List.filter_append]
  cases h : p a with
  | true => simp [h]
  | false => simp [h, lastWhere]

lemma of_lastWhere {p : Announcement → Bool} {anns : List Announcement} {a : Announcement}
    (h : lastWhere p anns = some a) : a ∈ anns ∧ p a := by
  rw [lastWhere] at h
  exact List.mem_filter.1 (List.mem_of_getLast? h)

/-- A node that announced itself last from its address was not heard later. -/
lemma lastOf_of_lastFrom {anns : List Announcement} {a : Announcement} {n : NodeId}
    (h : lastFrom n.ip anns = some a) (hn : a.node = n) : lastOf n anns = some a := by
  induction anns using List.reverseRecOn with
  | nil => cases h
  | append_singleton anns b ih =>
    rw [lastFrom, lastWhere_concat] at h
    rw [lastOf, lastWhere_concat]
    by_cases hb : b.ip.text = n.ip
    · rw [if_pos (decide_eq_true hb)] at h
      cases h
      rw [if_pos (decide_eq_true hn)]
    · have hbn : b.node ≠ n := fun he => hb (congrArg NodeId.ip he)
      rw [if_neg (by simpa using hb)] at h
      rw [if_neg (by simpa using hbn)]
      exact ih h

lemma oneByOne_iff {anns : List Announcement} :
    OneByOne anns ↔ ∀ i a, anns[i]? = some a → ∀ b ∈ lastFrom a.ip.text (anns.take i),
      b.type = .hello → b.node = a.node := by
  constructor
  · intro h i a ha
    obtain ⟨hi, rfl⟩ := List.getElem?_eq_some_iff.1 ha
    exact h ⟨i, hi⟩
  · intro h i
    exact h i _ (List.getElem?_eq_getElem i.isLt)

lemma oneByOne_concat {anns : List Announcement} {a : Announcement} (h : OneByOne (anns ++ [a])) :
    OneByOne anns ∧ ∀ b ∈ lastFrom a.ip.text anns, b.type = .hello → b.node = a.node := by
  rw [oneByOne_iff] at h
  constructor
  · rw [oneByOne_iff]
    intro i b hb
    have hi := (List.getElem?_eq_some_iff.1 hb).1
    have hlast := h i b (getElem?_append_of_some hb _)
    rwa [List.take_append_of_le_length hi.le] at hlast
  · have hlast := h anns.length a (by simp)
    rwa [List.take_left] at hlast

/-- A node whose last announcement was a HELLO was announced last from its address. -/
lemma OneByOne.last_of_up {anns : List Announcement} (h : OneByOne anns) {n : NodeId}
    (hn : n ∈ upNodes anns) : (lastFrom n.ip anns).map Announcement.node = some n := by
  induction anns using List.reverseRecOn with
  | nil =>
    obtain ⟨a, ha, -⟩ := hn
    cases ha
  | append_singleton anns a ih =>
    obtain ⟨hanns, hlast⟩ := oneByOne_concat h
    obtain ⟨b, hb, htype⟩ := hn
    rw [lastOf, lastWhere_concat] at hb
    rw [lastFrom, lastWhere_concat]
    by_cases ha : a.node = n
    · have hip : a.ip.text = n.ip := congrArg NodeId.ip ha
      rw [if_pos (decide_eq_true hip), Option.map_some, ha]
    · rw [if_neg (by simpa using ha)] at hb
      have hfrom := ih hanns ⟨b, hb, htype⟩
      by_cases hip : a.ip.text = n.ip
      · -- the announcement before it from this address was the HELLO of the node
        obtain ⟨c, hc, hnode⟩ := Option.map_eq_some_iff.1 hfrom
        obtain rfl : b = c := Option.some.inj (hb.symm.trans (lastOf_of_lastFrom hc hnode))
        rw [hip] at hlast
        exact absurd ((hlast b hc htype).symm.trans hnode) ha
      · rw [if_neg (by simpa using hip)]
        exact hfrom

lemma portFrom_concat (ip : Bytes) (anns : List Announcement) (a : Announcement) :
    portFrom ip (anns ++ [a]) =
      if a.ip.text = ip then (if a.type = .hello then some a.port else none)
      else portFrom ip anns := by
  rw [portFrom, lastFrom, lastWhere_concat]
  by_cases h : a.ip.text = ip
  · simp [h]
  · simp [h, portFrom, lastFrom]

/-- The nodes that were announced last from their addresses are up. -/
lemma portFrom_eq_some {anns : List Announcement} {n : NodeId} :
    portFrom n.ip anns = some n.port ↔
      n ∈ upNodes anns ∧ (lastFrom n.ip anns).map Announcement.node = some n := by
  constructor
  · intro h
    obtain ⟨a, ha, hport⟩ := Option.bind_eq_some_iff.1 h
    have hip : a.ip.text = n.ip := by simpa using (of_lastWhere ha).2
    split at hport
    · rename_i htype
      have hnode : a.node = n := by
        cases n
        cases hip
        cases hport
        rfl
      refine ⟨⟨a, lastOf_of_lastFrom ha hnode, htype⟩, ?_⟩
      rw [ha, Option.map_some, hnode]
    · cases hport
  · rintro ⟨⟨a, ha, htype⟩, hlast⟩
    obtain ⟨b, hb, hnode⟩ := Option.map_eq_some_iff.1 hlast
    have hab : a = b := Option.some.inj (ha.symm.trans (lastOf_of_lastFrom hb hnode))
    rw [portFrom, hb, Option.bind_some, ← hab, if_pos htype, hab, ← hnode]
    rfl

/-! ### The table and the last announcements -/

lemma mem_listedNodes {t : PeerTable} {m : PeerMap} (h : peerSlots.Represents t m) {n : NodeId} :
    n ∈ listedNodes t ↔ (m.get n.ip).map PeerRec.port = some n.port := by
  rw [Option.map_eq_some_iff]
  constructor
  · rintro ⟨j, hv, hip, hp⟩
    have hget := h.get_of_live (i := j) hv
    exact ⟨(t j).record, hip ▸ hget, hp⟩
  · rintro ⟨r, hget, hp⟩
    rw [← h.read_eq, h.ok.read_eq_some] at hget
    obtain ⟨j, hv, hip, rfl⟩ := hget
    exact ⟨j, hv, hip, hp⟩

/-- The table has the address and the port of every address that was not withdrawn. -/
def Agrees (t : PeerTable) (anns : List Announcement) : Prop :=
  ∃ m : PeerMap, peerSlots.Represents t m ∧
    ∀ ip, (m.get ip).map PeerRec.port = portFrom ip anns

namespace Agrees

variable {N : Neighbourhood} {t : PeerTable} {anns : List Announcement} {a : Announcement}

lemma mem_listed (h : Agrees t anns) {n : NodeId} :
    n ∈ listedNodes t ↔ portFrom n.ip anns = some n.port := by
  obtain ⟨m, hm, hport⟩ := h
  rw [mem_listedNodes hm, hport]

/-- With at most `MAX_PEERS` nodes there is room for a new address. -/
lemma room {m : PeerMap} (hport : ∀ ip, (m.get ip).map PeerRec.port = portFrom ip anns)
    (hmem : ∀ b ∈ anns ++ [a], b.node ∈ N.nodes) (hnone : m.get a.ip.text = none) :
    m.size < maxPeers := by
  have hsub : m.dom ⊆ (N.nodes.image NodeId.ip : Finset Bytes) := by
    intro ip hip
    obtain ⟨r, hr⟩ := Option.isSome_iff_exists.1 hip
    have hp := hport ip
    rw [hr, Option.map_some] at hp
    obtain ⟨b, hb, -⟩ := Option.bind_eq_some_iff.1 hp.symm
    obtain ⟨hbmem, hbip⟩ := of_lastWhere hb
    rw [Finset.mem_coe, Finset.mem_image]
    exact ⟨b.node, hmem b (List.mem_append_left _ hbmem), of_decide_eq_true hbip⟩
  have hnew : a.ip.text ∈ (N.nodes.image NodeId.ip : Finset Bytes) := by
    rw [Finset.mem_image]
    exact ⟨a.node, hmem a (List.mem_append_right _ (List.mem_singleton_self a)), rfl⟩
  have hlt : m.dom ⊂ (N.nodes.image NodeId.ip : Finset Bytes) := by
    refine Set.ssubset_iff_subset_ne.2 ⟨hsub, fun he => ?_⟩
    have : a.ip.text ∈ m.dom := he ▸ Finset.mem_coe.2 hnew
    rw [BoundedMap.mem_dom, hnone] at this
    cases this
  calc m.size
      < (N.nodes.image NodeId.ip : Set Bytes).ncard :=
        Set.ncard_lt_ncard hlt (Finset.finite_toSet _)
    _ = (N.nodes.image NodeId.ip).card := Set.ncard_coe_finset _
    _ ≤ N.nodes.card := Finset.card_image_le
    _ ≤ maxPeers := N.card_le

/-- What `peer_list_add` makes of the ports, if there is room for a new address. -/
lemma port_onMap_add {m : PeerMap} {ip : Ip} (hroom : m.get ip.text = none → m.size < maxPeers)
    (port : ℕ) (now : ℤ) (ip' : Bytes) :
    (((PeerOp.add ip port now).onMap m).get ip').map PeerRec.port =
      if ip.text = ip' then some port else (m.get ip').map PeerRec.port := by
  rw [PeerOp.onMap]
  cases hget : m.get ip.text with
  | some r =>
    simp only [Option.isSome_some, if_true, BoundedMap.get_modify]
    by_cases hip : ip.text = ip'
    · rw [if_pos hip.symm, if_pos hip, ← hip, hget]
      rfl
    · rw [if_neg fun he => hip he.symm, if_neg hip]
  | none =>
    simp only [Option.isSome_none, Bool.false_eq_true, if_false]
    rw [BoundedMap.get_insert (hroom hget)]
    by_cases hip : ip.text = ip'
    · rw [if_pos hip.symm, if_pos hip]
      rfl
    · rw [if_neg fun he => hip he.symm, if_neg hip]

lemma add (h : Agrees t anns) (hmem : ∀ b ∈ anns ++ [a], b.node ∈ N.nodes)
    (htype : a.type = .hello) (now : ℤ) :
    Agrees (peerListAdd a.ip.text a.port now t) (anns ++ [a]) := by
  obtain ⟨m, hm, hport⟩ := h
  refine ⟨_, represents_add hm a.ip a.port now, fun ip => ?_⟩
  rw [port_onMap_add (room hport hmem), portFrom_concat, if_pos htype, hport]

lemma touch (h : Agrees t anns) (ip : Ip) (now : ℤ) :
    Agrees (peerListTouch ip.text now t) anns := by
  obtain ⟨m, hm, hport⟩ := h
  refine ⟨_, represents_touch hm ip now, fun ip' => ?_⟩
  rw [← hport, PeerOp.onMap, BoundedMap.get_modify]
  split
  · cases m.get ip' <;> rfl
  · rfl

lemma remove (h : Agrees t anns) (htype : a.type = .bye) :
    Agrees (peerListRemove a.ip.text t) (anns ++ [a]) := by
  obtain ⟨m, hm, hport⟩ := h
  refine ⟨_, represents_remove hm a.ip, fun ip => ?_⟩
  have hne : a.type ≠ .hello := by
    rw [htype]
    exact nofun
  rw [portFrom_concat, if_neg hne, PeerOp.onMap, BoundedMap.get_erase]
  by_cases hip : a.ip.text = ip
  · rw [if_pos hip.symm, if_pos hip]
    rfl
  · rw [if_neg fun he => hip he.symm, if_neg hip, hport]

end Agrees

lemma agrees_nil : Agrees peerListInit [] :=
  ⟨BoundedMap.empty, SlotView.Represents.blank, fun _ => rfl⟩

/-! ### Every run -/

namespace Neighbourhood

variable (N : Neighbourhood)

/-- The table, the announcements received and the phase of the listener. -/
def Follows (w : ListenWorld) : ListenPhase → Prop
  | .waiting => Agrees w.peers w.received
  | .adding ip port => ∃ anns a, w.received = anns ++ [a] ∧ Agrees w.peers anns ∧
      a.type = .hello ∧ ip = a.ip.text ∧ port = a.port
  | .touching ip => Agrees w.peers w.received ∧ ∃ a : Announcement, ip = a.ip.text
  | .removing ip => ∃ anns a, w.received = anns ++ [a] ∧ Agrees w.peers anns ∧
      a.type = .bye ∧ ip = a.ip.text
  | .bad => False

/-- Each of the tables was what the announcements before it made of the table. -/
structure Recorded (tables : List PeerTable) (anns : List Announcement) : Prop where
  length : tables.length = anns.length
  agrees : ∀ i t, tables[i]? = some t → Agrees t (anns.take i)

structure Inv (qs : List ListenPhase) (w : ListenWorld) : Prop where
  one : ∃ q, qs = [q] ∧ Follows w q
  known : ∀ a ∈ w.received ++ w.inbox, a.node ∈ N.nodes
  recorded : Recorded w.tables w.received

variable {N}

lemma Follows.good {w : ListenWorld} {q : ListenPhase} (h : Follows w q) : q.Good := by
  rintro rfl
  exact h

/-- Receiving an announcement. -/
lemma follows_receive {w : ListenWorld} {a : Announcement} {inbox : List Announcement}
    (h : Agrees w.peers w.received) (ha : a.ip.text ≠ N.local_ip) :
    Follows (w.receive a inbox) (.after N.local_ip (some (a.src, a.data.take listenBufSize))) := by
  rw [Announcement.data, take_broadcastPacket]
  cases htype : a.type with
  | hello =>
    rw [AnnounceType.msgType, ListenPhase.after_hello _ _ ha a.port_lt]
    exact ⟨w.received, a, rfl, h, htype, rfl, rfl⟩
  | bye =>
    rw [AnnounceType.msgType, ListenPhase.after_bye _ _ ha]
    exact ⟨w.received, a, rfl, h, htype, rfl⟩

lemma Recorded.concat {tables : List PeerTable} {anns : List Announcement} {t : PeerTable}
    (h : Recorded tables anns) (ht : Agrees t anns) (a : Announcement) :
    Recorded (tables ++ [t]) (anns ++ [a]) := by
  refine ⟨?_, fun i t' ht' => ?_⟩
  · rw [List.length_append, List.length_append, h.length, List.length_singleton,
      List.length_singleton]
  · have hle : i ≤ anns.length := by
      have hi := (List.getElem?_eq_some_iff.1 ht').1
      rw [List.length_append, h.length, List.length_singleton] at hi
      exact Nat.le_of_lt_succ hi
    rw [List.take_append_of_le_length hle]
    rcases hle.lt_or_eq with hlt | rfl
    · rw [List.getElem?_append_left (h.length ▸ hlt)] at ht'
      exact h.agrees i t' ht'
    · rw [← h.length, List.getElem?_concat_length] at ht'
      cases ht'
      rwa [List.take_length]

/-- What `recvfrom` does to the socket. -/
lemma recvfrom_cases {w w' : ListenWorld} {size : ℕ} {got : Option (Addr × Bytes)}
    (h : recvfrom w size got = some w') :
    (got = none ∧ w' = w) ∨ ∃ a inbox, w.inbox = a :: inbox ∧
      got = some (a.src, a.data.take size) ∧ w' = w.receive a inbox := by
  cases got with
  | none =>
    cases h
    exact .inl ⟨rfl, rfl⟩
  | some x =>
    obtain ⟨src, buf⟩ := x
    cases hin : w.inbox with
    | nil => simp [recvfrom, hin] at h
    | cons a inbox =>
      simp only [recvfrom, hin] at h
      split at h
      · rename_i hsb
        cases h
        exact .inr ⟨a, inbox, rfl, by rw [hsb.1, hsb.2], rfl⟩
      · cases h

/-- A call of the listener. -/
lemma Inv.call {qs : List ListenPhase} {w w' : ListenWorld} {i : ℕ} {q : ListenPhase} {c : UdpCall}
    {r : c.Ret} (h : N.Inv qs w) (hq : qs[i]? = some q)
    (hw : Neighbourhood.call w i c r = some w') :
    ∃ q', ListenPhase.auto N.local_ip q c r = some q' ∧ (q'.Good → N.Inv (qs.set i q') w') := by
  obtain ⟨⟨q₀, rfl, hfollows⟩, hknown, hrecorded⟩ := h
  obtain ⟨rfl, rfl⟩ : i = 0 ∧ q₀ = q := by
    cases i with
    | zero => exact ⟨rfl, Option.some.inj hq⟩
    | succ i => cases hq
  have hbad : ∀ {w}, ListenPhase.bad.Good → N.Inv ([q₀].set 0 .bad) w := fun hb => absurd rfl hb
  cases q₀ with
  | bad => exact hfollows.elim
  | waiting =>
    cases c with
    | sock c =>
      cases hw
      exact ⟨.waiting, rfl, fun _ => ⟨⟨_, rfl, hfollows⟩, hknown, hrecorded⟩⟩
    | recvfrom fd size =>
      refine ⟨_, rfl, fun hgood => ?_⟩
      by_cases hsize : size = listenBufSize
      · rw [if_pos hsize]
        rcases recvfrom_cases hw with ⟨rfl, rfl⟩ | ⟨a, inbox, hin, rfl, rfl⟩
        · exact ⟨⟨_, rfl, hfollows⟩, hknown, hrecorded⟩
        · have ha : a.node ∈ N.nodes := by
            apply hknown
            rw [hin]
            simp
          subst hsize
          refine ⟨⟨_, rfl, follows_receive hfollows (N.remote _ ha)⟩, ?_,
            hrecorded.concat hfollows a⟩
          simpa [ListenWorld.receive, hin] using hknown
      · rw [if_neg hsize] at hgood
        exact absurd rfl hgood
    | _ => exact ⟨.bad, rfl, hbad⟩
  | adding ip port =>
    cases c with
    | peerListAdd ip' port' =>
      cases hw
      refine ⟨_, rfl, fun hgood => ?_⟩
      by_cases he : ip' = ip ∧ port' = port
      · obtain ⟨rfl, rfl⟩ := he
        obtain ⟨anns, a, hrec, hagrees, htype, rfl, rfl⟩ := hfollows
        rw [if_pos ⟨rfl, rfl⟩]
        refine ⟨⟨_, rfl, ?_, a, rfl⟩, hknown, hrecorded⟩
        have hmem : ∀ b ∈ anns ++ [a], b.node ∈ N.nodes := fun b hb =>
          hknown b (List.mem_append_left _ (hrec ▸ hb))
        rw [hrec]
        exact hagrees.add hmem htype _
      · rw [if_neg he] at hgood
        exact absurd rfl hgood
    | _ => exact ⟨.bad, rfl, hbad⟩
  | touching ip =>
    cases c with
    | peerListTouch ip' =>
      cases hw
      refine ⟨_, rfl, fun hgood => ?_⟩
      by_cases he : ip' = ip
      · obtain rfl := he
        obtain ⟨hagrees, a, rfl⟩ := hfollows
        rw [if_pos rfl]
        exact ⟨⟨_, rfl, hagrees.touch a.ip _⟩, hknown, hrecorded⟩
      · rw [if_neg he] at hgood
        exact absurd rfl hgood
    | _ => exact ⟨.bad, rfl, hbad⟩
  | removing ip =>
    cases c with
    | peerListRemove ip' =>
      cases hw
      refine ⟨_, rfl, fun hgood => ?_⟩
      by_cases he : ip' = ip
      · obtain rfl := he
        obtain ⟨anns, a, hrec, hagrees, htype, rfl⟩ := hfollows
        rw [if_pos rfl]
        refine ⟨⟨_, rfl, ?_⟩, hknown, hrecorded⟩
        rw [Follows, hrec]
        exact hagrees.remove htype
      · rw [if_neg he] at hgood
        exact absurd rfl hgood
    | _ => exact ⟨.bad, rfl, hbad⟩

/-- What happens around the listener. -/
lemma Inv.env {qs : List ListenPhase} {w w' : ListenWorld} {e : ListenEnv} (h : N.Inv qs w)
    (hw : N.env w e = some w') : N.Inv qs w' := by
  obtain ⟨⟨q, rfl, hfollows⟩, hknown, hrecorded⟩ := h
  cases e with
  | deliver a =>
    simp only [Neighbourhood.env] at hw
    split at hw
    · rename_i ha
      cases hw
      refine ⟨⟨q, rfl, ?_⟩, ?_, hrecorded⟩
      · cases q <;> exact hfollows
      · intro b hb
        rw [← List.append_assoc, List.mem_append, List.mem_singleton] at hb
        rcases hb with hb | rfl
        · exact hknown b hb
        · exact ha
    · cases hw
  | clock now =>
    cases hw
    refine ⟨⟨q, rfl, ?_⟩, hknown, hrecorded⟩
    cases q <;> exact hfollows

variable (N)

/-- The outline of the listener. -/
def outline : Conc.Outline N.sys Conc.anyMove ListenPhase where
  auto := ListenPhase.auto N.local_ip
  good := ListenPhase.Good
  fin := fun q => q = .waiting
  fresh := fun _ _ => .bad
  inv := N.Inv
  spawned := nofun
  call := by
    intro qs w i q c r w' h hq _ _ hw
    obtain ⟨q', hq', hinv⟩ := h.call hq hw
    refine ⟨q', hq', fun hgood => ?_⟩
    simpa [sys] using hinv hgood
  env := fun h _ hw => h.env hw

lemma holds_start (rounds : ℕ) (clock : ℤ) : N.outline.Holds (N.start rounds clock) [.waiting] :=
  ⟨.cons (ListenPhase.always_listenerThread rounds) .nil, ⟨.waiting, rfl, agrees_nil⟩,
    fun _ ha => absurd ha List.not_mem_nil, rfl, nofun⟩

/-- The listener is at its `recvfrom`: it has handled all that it has received. -/
def Receiving (s : Conf UdpCall UdpCall.Ret ListenWorld) : Prop :=
  ∃ fd size k, s.threads[0]? = some (.call (.recvfrom fd size) k)

variable {N}

/-- Where the listener receives, each table so far is what the announcements before it made of the
table. -/
lemma agrees_of_receiving {rounds : ℕ} {clock : ℤ} {s : Conf UdpCall UdpCall.Ret ListenWorld}
    (hr : Conc.Reach N.sys Conc.anyMove (N.start rounds clock) s) (hs : Receiving s) {i : ℕ}
    {t : PeerTable} (ht : s.world.history[i]? = some t) : Agrees t (s.world.received.take i) := by
  obtain ⟨qs, hts, ⟨q, rfl, hfollows⟩, -, hrecorded⟩ :=
    N.outline.reach (N.holds_start rounds clock) hr
  obtain ⟨fd, size, k, hk⟩ := hs
  obtain ⟨p, ps, hA, -, hp⟩ := List.forall₂_cons_right_iff.1 hts
  rw [hp] at hk
  obtain rfl := Option.some.inj hk
  obtain rfl := ListenPhase.waiting_of_recvfrom hA
  rcases lt_or_ge i s.world.tables.length with hi | hi
  · rw [ListenWorld.history, List.getElem?_append_left hi] at ht
    exact hrecorded.agrees i t ht
  · have hlt := (List.getElem?_eq_some_iff.1 ht).1
    rw [ListenWorld.history, List.length_append, List.length_singleton] at hlt
    obtain rfl : i = s.world.tables.length := by omega
    rw [ListenWorld.history, List.getElem?_concat_length] at ht
    cases ht
    rw [hrecorded.length, List.take_length]
    exact hfollows

lemma length_history {rounds : ℕ} {clock : ℤ} {s : Conf UdpCall UdpCall.Ret ListenWorld}
    (hr : Conc.Reach N.sys Conc.anyMove (N.start rounds clock) s) :
    s.world.history.length = s.world.received.length + 1 := by
  obtain ⟨qs, -, -, -, hrecorded⟩ := N.outline.reach (N.holds_start rounds clock) hr
  rw [ListenWorld.history, List.length_append, hrecorded.length, List.length_singleton]

/-- The table at the end. -/
lemma agrees_peers {rounds : ℕ} {clock : ℤ} {s : Conf UdpCall UdpCall.Ret ListenWorld}
    (hr : Conc.Reach N.sys Conc.anyMove (N.start rounds clock) s) (hs : Receiving s) :
    Agrees s.world.peers s.world.received := by
  have hlast : s.world.history[s.world.received.length]? = some s.world.peers := by
    have hlen := length_history hr
    rw [ListenWorld.history, List.length_append, List.length_singleton, Nat.add_right_cancel_iff]
      at hlen
    rw [ListenWorld.history, ← hlen, List.getElem?_concat_length]
  simpa using agrees_of_receiving hr hs hlast

end Neighbourhood

/-- An announcement leaves the other nodes of a table as they are if and only if the last
announcement from its address was its own, or a BYE. -/
lemma kept_iff {t t' : PeerTable} {anns : List Announcement} {a : Announcement}
    (ht : Agrees t anns) (ht' : Agrees t' (anns ++ [a])) :
    (∀ n ∈ listedNodes t, n ≠ a.node → n ∈ listedNodes t') ↔
      ∀ b ∈ lastFrom a.ip.text anns, b.type = .hello → b.node = a.node := by
  constructor
  · intro h b hb htype
    by_contra hne
    have hip : b.ip.text = a.ip.text := by simpa using (of_lastWhere hb).2
    have hlisted : b.node ∈ listedNodes t := by
      rw [ht.mem_listed, portFrom, Announcement.node, hip, hb, Option.bind_some, if_pos htype]
    have hstill := h b.node hlisted hne
    rw [ht'.mem_listed, portFrom_concat, Announcement.node, if_pos hip.symm] at hstill
    split at hstill
    · have hport : a.port = b.port := Option.some.inj hstill
      exact hne (by rw [Announcement.node, Announcement.node, hip, hport])
    · cases hstill
  · intro h n hn hne
    rw [ht.mem_listed] at hn
    rw [ht'.mem_listed, portFrom_concat]
    by_cases hip : a.ip.text = n.ip
    · obtain ⟨-, hlast⟩ := portFrom_eq_some.1 hn
      obtain ⟨b, hb, hnode⟩ := Option.map_eq_some_iff.1 hlast
      rw [portFrom, hb, Option.bind_some] at hn
      split at hn
      · rename_i htype
        rw [hip] at h
        exact absurd (hnode.symm.trans (h b hb htype)) hne
      · cases hn
    · rw [if_neg hip]
      exact hn

/-- For at most `MAX_PEERS` other nodes and their announcements in any order: where the listener
receives, the nodes in the table are those whose last announcement was a HELLO, and no announcement
has changed the entry of another node, if and only if, whenever a node was announced, the last
announcement from its address before was its own or a BYE. -/
theorem nodes_listed_iff (N : Neighbourhood) (rounds : ℕ) (clock : ℤ)
    {s : Conf UdpCall UdpCall.Ret ListenWorld}
    (hr : Conc.Reach N.sys Conc.anyMove (N.start rounds clock) s)
    (hs : Neighbourhood.Receiving s) : s.world.Tracks ↔ OneByOne s.world.received := by
  have hstep {i : ℕ} {a : Announcement} {t t' : PeerTable} (ha : s.world.received[i]? = some a)
      (ht : s.world.history[i]? = some t) (ht' : s.world.history[i + 1]? = some t') :
      (∀ n ∈ listedNodes t, n ≠ a.node → n ∈ listedNodes t') ↔
        ∀ b ∈ lastFrom a.ip.text (s.world.received.take i), b.type = .hello → b.node = a.node := by
    refine kept_iff (Neighbourhood.agrees_of_receiving hr hs ht) ?_
    obtain ⟨hi, rfl⟩ := List.getElem?_eq_some_iff.1 ha
    rw [List.take_append_getElem hi]
    exact Neighbourhood.agrees_of_receiving hr hs ht'
  constructor
  · rintro ⟨-, hkept⟩
    rw [oneByOne_iff]
    intro i a ha
    have hi := (List.getElem?_eq_some_iff.1 ha).1
    have hlen := Neighbourhood.length_history hr
    have ht := List.getElem?_eq_getElem (l := s.world.history) (i := i) (by omega)
    have ht' := List.getElem?_eq_getElem (l := s.world.history) (i := i + 1) (by omega)
    exact (hstep ha ht ht').1 (hkept i a _ _ ha ht ht')
  · intro hone
    refine ⟨?_, fun i a t t' ha ht ht' => (hstep ha ht ht').2 (oneByOne_iff.1 hone i a ha)⟩
    ext n
    rw [(Neighbourhood.agrees_peers hr hs).mem_listed, portFrom_eq_some]
    exact ⟨fun h => h.1, fun h => ⟨h, hone.last_of_up h⟩⟩

/-! ### Two nodes on one machine -/

/-- The address `10.0.0.2`. -/
def hostIp : Ip where
  text := [49, 48, 46, 48, 46, 48, 46, 50]
  ne_nil := by decide
  no_nul := by decide
  length_le := by decide

/-- A listener at `10.0.0.1`, and two nodes on the machine `10.0.0.2`. -/
def twoTerminals : Neighbourhood where
  local_ip := [49, 48, 46, 48, 46, 48, 46, 49]
  nodes := {⟨hostIp.text, 7777⟩, ⟨hostIp.text, 7778⟩}
  card_le := by decide
  remote := by decide

/-- An announcement of one of the two. -/
def fromHost (type : AnnounceType) (port : Fin (2 ^ 16)) : Announcement where
  type := type
  ip := hostIp
  port := port
  src_port := 40000
  hostname := [104]
  port_lt := port.isLt

/-- The listener makes its socket. -/
def openMoves : List (Move UdpCall UdpCall.Ret ListenEnv) :=
  [.call 0 (.sock (.socket .dgram)) (5 : ℤ), .call 0 (.sock (.setsockopt 5 .broadcast)) (),
    .call 0 (.sock (.setsockopt 5 .reuseaddr)) (), .call 0 (.sock (.setsockopt 5 .reuseport)) (),
    .call 0 (.sock (.bind 5 discoveryPort)) (0 : ℤ)]

/-- An announcement arrives and is received. -/
def receiveMoves (a : Announcement) : List (Move UdpCall UdpCall.Ret ListenEnv) :=
  [.env (.deliver a), .call 0 (.recvfrom 5 listenBufSize) (some (a.src, a.data))]

/-- The listener handles a HELLO. -/
def helloMoves (port : Fin (2 ^ 16)) : List (Move UdpCall UdpCall.Ret ListenEnv) :=
  receiveMoves (fromHost .hello port) ++
    [.call 0 (.peerListAdd hostIp.text port) (), .call 0 (.peerListTouch hostIp.text) ()]

/-- The listener handles a BYE. -/
def byeMoves (port : Fin (2 ^ 16)) : List (Move UdpCall UdpCall.Ret ListenEnv) :=
  receiveMoves (fromHost .bye port) ++ [.call 0 (.peerListRemove hostIp.text) ()]

/-- One of the two nodes leaves before the other one announces itself. -/
theorem nodes_listed_one : ∃ s,
    Conc.Reach twoTerminals.sys Conc.anyMove (twoTerminals.start 4 0) s ∧
      Neighbourhood.Receiving s ∧
      s.world.received.map (fun a => (a.type, a.port)) =
        [(.hello, 7777), (.bye, 7777), (.hello, 7778)] ∧ s.world.Tracks := by
  have hplay : ((twoTerminals.sys.play Conc.anyMove
      (openMoves ++ helloMoves 7777 ++ byeMoves 7777 ++ helloMoves 7778)
      (twoTerminals.start 4 0)).bind fun s =>
        (twoTerminals.sys.next s (.call 0 (.recvfrom 5 listenBufSize) none)).map fun _ =>
          (s.world.received.map fun a => (a.type, a.port), decide (OneByOne s.world.received))) =
      some ([(.hello, 7777), (.bye, 7777), (.hello, 7778)], true) := by
    decide +kernel
  obtain ⟨s, hs, ht⟩ := Option.bind_eq_some_iff.1 hplay
  obtain ⟨t, ht, hw⟩ := Option.map_eq_some_iff.1 ht
  obtain ⟨k, hk⟩ := Conc.at_call ht
  have hr := Conc.Reach.play .start _ hs
  have hrecv : Neighbourhood.Receiving s := ⟨_, _, k, hk⟩
  obtain ⟨hreceived, hone⟩ := Prod.mk.inj hw
  exact ⟨s, hr, hrecv, hreceived,
    (nodes_listed_iff twoTerminals 4 0 hr hrecv).2 (of_decide_eq_true hone)⟩

/-- The BYE of one of the two nodes removes the entry of the other one. -/
theorem bye_removes_other : ∃ s,
    Conc.Reach twoTerminals.sys Conc.anyMove (twoTerminals.start 4 0) s ∧
      Neighbourhood.Receiving s ∧
      s.world.received.map (fun a => (a.type, a.port)) =
        [(.hello, 7777), (.hello, 7778), (.bye, 7777)] ∧
      ¬ s.world.Tracks := by
  have hplay : ((twoTerminals.sys.play Conc.anyMove
      (openMoves ++ helloMoves 7777 ++ helloMoves 7778 ++ byeMoves 7777)
      (twoTerminals.start 4 0)).bind fun s =>
        (twoTerminals.sys.next s (.call 0 (.recvfrom 5 listenBufSize) none)).map fun _ =>
          (s.world.received.map fun a => (a.type, a.port),
            (lastOf ⟨hostIp.text, 7778⟩ s.world.received).map Announcement.type,
            portFrom hostIp.text s.world.received)) =
      some ([(.hello, 7777), (.hello, 7778), (.bye, 7777)], some .hello, none) := by
    decide +kernel
  obtain ⟨s, hs, ht⟩ := Option.bind_eq_some_iff.1 hplay
  obtain ⟨t, ht, hw⟩ := Option.map_eq_some_iff.1 ht
  obtain ⟨k, hk⟩ := Conc.at_call ht
  have hr := Conc.Reach.play .start _ hs
  have hrecv : Neighbourhood.Receiving s := ⟨_, _, k, hk⟩
  simp only [Prod.mk.injEq] at hw
  obtain ⟨hreceived, hlast, hport⟩ := hw
  obtain ⟨a, ha, htype⟩ := Option.map_eq_some_iff.1 hlast
  have hup : ⟨hostIp.text, 7778⟩ ∈ upNodes s.world.received := ⟨a, ha, htype⟩
  refine ⟨s, hr, hrecv, hreceived, fun htracks => ?_⟩
  rw [← htracks.listed, (Neighbourhood.agrees_peers hr hrecv).mem_listed, hport] at hup
  cases hup

end P2PNode
