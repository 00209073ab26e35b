import P2PNode.Node.Departure
import P2PNode.Peers.Reaper

/-!
# The nodes of a network

Any number of nodes on one network, each with its announcer, the end of its `main`, its listener and
its reaper. A datagram that was sent can arrive at any node, any number of times and at any time, or
never; other datagrams, which are no announcements, can arrive as well. The dispatcher of a node
stores loads at any time, and its clock can be set back.
-/

namespace P2PNode

open Effect

/-! ### The network -/

/-- `ip` is the address from which the broadcasts of the node are sent, and `local_ip` the one that
`discovery_get_local_ip` has given, which its listener ignores. -/
structure LanNode where
  ip : Ip
  local_ip : Bytes
  port : ℕ
  src_port : ℕ
  bcast_fd : Fd
  port_lt : port < 2 ^ 16

/-- The node as it appears in tables. -/
def LanNode.id (x : LanNode) : NodeId := ⟨x.ip.text, x.port⟩

/-- The source of its broadcasts. -/
def LanNode.src (x : LanNode) : Addr := ⟨x.ip.text, x.src_port⟩

/-- The address that the listener ignores is that of the node's own broadcasts. -/
def LanNode.OneAddress (x : LanNode) : Prop := x.local_ip = x.ip.text

abbrev Lan (n : ℕ) := Fin n → LanNode

/-- The calls of the threads, each with its node. -/
inductive LanCall (n : ℕ) where
  | bcast (i : Fin n) (c : BcastCall)
  | udp (i : Fin n) (c : UdpCall)
  | reap (i : Fin n) (c : ReapCall)
  deriving DecidableEq

@[reducible] def LanCall.Ret {n : ℕ} : LanCall n → Type
  | .bcast _ c => c.Ret
  | .udp _ c   => c.Ret
  | .reap _ c  => c.Ret

/-- The broadcasts so far, each with its sender; for each node the datagrams waiting at its socket,
its clock, whether this was never set back, its table, and whether it has ended. `heard` gives the
time at which the listener entered an address last, if it has not removed it since. -/
structure LanWorld (n : ℕ) where
  wire : List (Fin n × Bytes) := []
  inbox : Fin n → List (Addr × Bytes) := fun _ => []
  clock : Fin n → ℤ
  steady : Fin n → Bool := fun _ => true
  peers : Fin n → PeerTable := fun _ => peerListInit
  exited : Fin n → Bool := fun _ => false
  heard : Fin n → Bytes → Option ℤ := fun _ _ => none

/-- What happens by itself: a broadcast arrives at a node; another datagram does; time passes, or
the clock is set; a dispatcher stores a load. -/
inductive LanEnv (n : ℕ) where
  | deliver (k : ℕ) (i : Fin n)
  | noise (i : Fin n) (src : Addr) (data : Bytes)
  | tick (i : Fin n) (secs : ℤ)
  | updateLoad (i : Fin n) (ip : Ip) (resp : LoadResp)

namespace LanWorld

variable {n : ℕ}

def setPeers (w : LanWorld n) (i : Fin n) (t : PeerTable) : LanWorld n :=
  { w with peers := Function.update w.peers i t }

def setHeard (w : LanWorld n) (i : Fin n) (ip : Bytes) (τ : Option ℤ) : LanWorld n :=
  { w with heard := Function.update w.heard i (Function.update (w.heard i) ip τ) }

def setInbox (w : LanWorld n) (i : Fin n) (inbox : List (Addr × Bytes)) : LanWorld n :=
  { w with inbox := Function.update w.inbox i inbox }

def bcast (w : LanWorld n) (i : Fin n) : (c : BcastCall) → c.Ret → Option (LanWorld n)
  | .gethostname, _ => some w
  | .sendto _ _ data, _ => some { w with wire := w.wire ++ [(i, data)] }
  | .sleep _, _ => some w
  | .exit, _ => some { w with exited := Function.update w.exited i true }

def recvfrom (w : LanWorld n) (i : Fin n) (size : ℕ) : Option (Addr × Bytes) → Option (LanWorld n)
  | none => some w
  | some (src, buf) =>
    match w.inbox i with
    | [] => none
    | d :: inbox => if src = d.1 ∧ buf = d.2.take size then some (w.setInbox i inbox) else none

def udp (w : LanWorld n) (i : Fin n) : (c : UdpCall) → c.Ret → Option (LanWorld n)
  | .sock _, _ => some w
  | .load _, _ => some w
  | .recvfrom _ size, got => w.recvfrom i size got
  | .sendto _ _ _, _ => some w
  | .peerListAdd ip port, _ =>
    some ((w.setPeers i (peerListAdd ip port (w.clock i) (w.peers i))).setHeard i ip
      (some (w.clock i)))
  | .peerListTouch ip, _ => some (w.setPeers i (peerListTouch ip (w.clock i) (w.peers i)))
  | .peerListRemove ip, _ =>
    some ((w.setPeers i (peerListRemove ip (w.peers i))).setHeard i ip none)

def reap (w : LanWorld n) (i : Fin n) : (c : ReapCall) → c.Ret → Option (LanWorld n)
  | .sleep _, _ => some w
  | .time, (now : ℤ) => if now = w.clock i then some w else none
  | .sweep now, _ => some (w.setPeers i (peerListReapStale now (w.peers i)))

/-- A call; the threads of a node end with it. -/
def call (w : LanWorld n) (_ : ℕ) : (c : LanCall n) → c.Ret → Option (LanWorld n)
  | .bcast i c, r => if w.exited i then none else w.bcast i c r
  | .udp i c, r   => if w.exited i then none else w.udp i c r
  | .reap i c, r  => if w.exited i then none else w.reap i c r

end LanWorld

namespace Lan

variable {n : ℕ} (N : Lan n)

def env (w : LanWorld n) : LanEnv n → Option (LanWorld n)
  | .deliver k i => (w.wire[k]?).map fun d => w.setInbox i (w.inbox i ++ [((N d.1).src, d.2)])
  | .noise i src data =>
    if headerType data ≠ msgHello ∧ headerType data ≠ msgBye then
      some (w.setInbox i (w.inbox i ++ [(src, data)]))
    else none
  | .tick i secs =>
    some { w with
      clock := Function.update w.clock i (w.clock i + secs)
      steady := Function.update w.steady i (w.steady i && decide (0 ≤ secs)) }
  | .updateLoad i ip resp =>
    some (w.setPeers i (peerListUpdateLoad ip.text resp (w.clock i) (w.peers i)))

def sys : Conc (LanCall n) LanCall.Ret (LanWorld n) (LanEnv n) where
  call := LanWorld.call
  env := N.env
  spawn := fun _ _ => none

/-- The threads of a node; the loops are run for some number of rounds. -/
def nodeThreads (rounds : ℕ) (i : Fin n) : List (Prog (LanCall n) LanCall.Ret Unit) :=
  [(announcerThread (N i).bcast_fd (N i).port rounds).embed (.bcast i) fun _ r => r,
    (mainEnd (N i).bcast_fd (N i).port).embed (.bcast i) fun _ r => r,
    (listenerThread (N i).local_ip rounds).embed (.udp i) fun _ r => r,
    (reaperThread rounds).embed (.reap i) fun _ r => r]

def start (rounds : ℕ) (clock : Fin n → ℤ) : Conf (LanCall n) LanCall.Ret (LanWorld n) where
  threads := (List.finRange n).flatMap (N.nodeThreads rounds)
  world := { clock := clock }

end Lan

/-! ### What an announcement says -/

/-- The bytes are those of a HELLO or BYE with the port. -/
structure Announces (port : ℕ) (data : Bytes) : Prop where
  type : headerType data = msgHello ∨ headerType data = msgBye
  length : data.length = headerSize + helloSize
  len : headerLen data = helloSize
  port : ofBe ((data.drop headerSize).take 2) = port

instance (port : ℕ) (data : Bytes) : Decidable (Announces port data) :=
  decidable_of_iff ((headerType data = msgHello ∨ headerType data = msgBye) ∧
      data.length = headerSize + helloSize ∧ headerLen data = helloSize ∧
      ofBe ((data.drop headerSize).take 2) = port)
    ⟨fun ⟨h₁, h₂, h₃, h₄⟩ => ⟨h₁, h₂, h₃, h₄⟩, fun h => ⟨h.type, h.length, h.len, h.port⟩⟩

lemma announces_broadcastPacket {type : MsgType} (htype : type = msgHello ∨ type = msgBye)
    {port : ℕ} (hport : port < 2 ^ 16) (name : Bytes) :
    Announces port (broadcastPacket type port name) where
  type := htype
  length := length_broadcastPacket type port name
  len := headerLen_broadcastPacket type port name
  port := port_broadcastPacket type hport name

/-- What a thread of a node with the port sends is an announcement of it. -/
def BcastCall.Says (port : ℕ) : BcastCall → Prop
  | .sendto _ _ data => Announces port data
  | _ => True

instance (port : ℕ) : ∀ c : BcastCall, Decidable (c.Says port)
  | .sendto _ _ data => inferInstanceAs (Decidable (Announces port data))
  | .gethostname     => .isTrue trivial
  | .sleep _         => .isTrue trivial
  | .exit            => .isTrue trivial

section Says

variable {bcast_fd : Fd} {port : ℕ} (hport : port < 2 ^ 16)
include hport

lemma says_sendBroadcast {type : MsgType} (htype : type = msgHello ∨ type = msgBye) :
    (sendBroadcast bcast_fd port type).Only (BcastCall.Says port) := by
  rw [sendBroadcast]
  split
  · trivial
  · exact ⟨trivial, fun name => ⟨announces_broadcastPacket htype hport name, fun _ => trivial⟩⟩

lemma says_announcerThread (rounds : ℕ) :
    (announcerThread bcast_fd port rounds).Only (BcastCall.Says port) := by
  induction rounds with
  | zero => trivial
  | succ rounds ih =>
    exact (says_sendBroadcast hport (.inl rfl)).bind fun _ => ⟨trivial, fun _ => ih⟩

lemma says_mainEnd : (mainEnd bcast_fd port).Only (BcastCall.Says port) :=
  (says_sendBroadcast hport (.inr rfl)).bind fun _ => ⟨trivial, fun _ => trivial⟩

end Says

section After

variable {local_ip : Bytes} {src : Addr} {data : Bytes}

/-- What the listener does with an announcement. -/
lemma after_announces {port : ℕ} (h : Announces port data) :
    ListenPhase.after local_ip (some (src, data.take listenBufSize)) =
      if src.ip = local_ip then .waiting
      else if headerType data = msgHello then .adding src.ip port else .removing src.ip := by
  have hle : data.length ≤ listenBufSize := by
    rw [h.length, listenBufSize]
    exact Nat.le_add_right _ _
  have hhdr : ¬ data.length < headerSize := by
    rw [h.length]
    exact Nat.not_lt.2 (Nat.le_add_right _ _)
  have hlen : ¬ data.length < headerSize + headerLen data := by
    rw [h.length, h.len]
    exact lt_irrefl _
  have hplen : ¬ headerLen data < helloSize := by
    rw [h.len]
    exact lt_irrefl _
  rw [List.take_of_length_le hle, ListenPhase.after, if_neg hhdr, if_neg hlen, if_neg hplen, h.port]
  split
  · rfl
  · split
    · rfl
    · rename_i hne
      rw [if_pos (h.type.resolve_left hne)]

/-- The listener ignores what is no announcement. -/
lemma after_noise (h : headerType data ≠ msgHello ∧ headerType data ≠ msgBye) :
    ListenPhase.after local_ip (some (src, data.take listenBufSize)) = .waiting := by
  have htype : headerType (data.take listenBufSize) = headerType data := headerType_take (by decide)
  rw [ListenPhase.after, htype, if_neg h.1, if_neg h.2]
  simp

end After

/-! ### What a node knows -/

namespace LanWorld

variable {n : ℕ} (N : Lan n)

/-- Node `j` has announced itself. -/
def Announced (w : LanWorld n) (j : Fin n) : Prop :=
  ∃ data, (j, data) ∈ w.wire ∧ headerType data = msgHello

/-- The address and the port are those of a node that has announced itself, from another address
than the one that node `i` ignores. -/
def IsOther (w : LanWorld n) (i : Fin n) (ip : Bytes) (port : ℕ) : Prop :=
  ∃ j, w.Announced j ∧ ip = (N j).ip.text ∧ port = (N j).port ∧ ip ≠ (N i).local_ip

/-- A datagram at a socket. -/
def Arrived (w : LanWorld n) (d : Addr × Bytes) : Prop :=
  (∃ j data, (j, data) ∈ w.wire ∧ d = ((N j).src, data)) ∨
    headerType d.2 ≠ msgHello ∧ headerType d.2 ≠ msgBye

/-- The table of node `i`, as the map `m`: its records are of other nodes, and those of addresses
heard of not long ago are in it. -/
structure View (w : LanWorld n) (i : Fin n) (m : PeerMap) : Prop where
  represents : peerSlots.Represents (w.peers i) m
  known : ∀ ip r, m.get ip = some r → w.IsOther N i ip r.port
  past : w.steady i = true → ∀ ip τ, w.heard i ip = some τ → τ ≤ w.clock i
  fresh : n ≤ maxPeers + 1 → (N i).OneAddress → w.steady i = true → ∀ ip τ,
    w.heard i ip = some τ → w.clock i ≤ τ + peerTimeoutSecs →
      ∃ r, m.get ip = some r ∧ τ ≤ r.last_seen

structure Inv (w : LanWorld n) : Prop where
  wire : ∀ j data, (j, data) ∈ w.wire → Announces (N j).port data
  inbox : ∀ i, ∀ d ∈ w.inbox i, w.Arrived N d
  view : ∀ i, ∃ m, w.View N i m

variable {N} {w w' : LanWorld n} {i : Fin n} {m : PeerMap}

/-! ### Which part of the world counts -/

/-- The clock of a node that was never set back has gone on. -/
def Later (w w' : LanWorld n) (i : Fin n) : Prop :=
  w'.steady i = true → w.steady i = true ∧ w.clock i ≤ w'.clock i

lemma Later.refl (w : LanWorld n) (i : Fin n) : w.Later w i := fun h => ⟨h, le_rfl⟩

/-- Time passes at a node, or its clock is set. -/
lemma later_tick (w : LanWorld n) (i : Fin n) (secs : ℤ) (j : Fin n) :
    w.Later { w with
      clock := Function.update w.clock i (w.clock i + secs)
      steady := Function.update w.steady i (w.steady i && decide (0 ≤ secs)) } j := by
  intro hsteady
  by_cases hj : j = i
  · subst hj
    simp only [Function.update_self, Bool.and_eq_true, decide_eq_true_eq] at hsteady ⊢
    exact ⟨hsteady.1, le_add_of_nonneg_right hsteady.2⟩
  · simp only [Function.update_of_ne hj] at hsteady ⊢
    exact ⟨hsteady, le_rfl⟩

lemma IsOther.mono {ip : Bytes} {port : ℕ} (h : w.IsOther N i ip port)
    (hwire : ∀ d ∈ w.wire, d ∈ w'.wire) : w'.IsOther N i ip port := by
  obtain ⟨j, ⟨data, hdata, htype⟩, h⟩ := h
  exact ⟨j, ⟨data, hwire _ hdata, htype⟩, h⟩

lemma Arrived.mono {d : Addr × Bytes} (h : w.Arrived N d) (hwire : ∀ d ∈ w.wire, d ∈ w'.wire) :
    w'.Arrived N d := by
  rcases h with ⟨j, data, hdata, rfl⟩ | h
  · exact .inl ⟨j, data, hwire _ hdata, rfl⟩
  · exact .inr h

/-- The view of a node depends on its own state and on what was sent. -/
lemma View.mono (h : w.View N i m) (hwire : ∀ d ∈ w.wire, d ∈ w'.wire)
    (hpeers : w'.peers i = w.peers i) (hheard : w'.heard i = w.heard i)
    (hclock : w.Later w' i) : w'.View N i m where
  represents := hpeers ▸ h.represents
  known ip r hr := (h.known ip r hr).mono hwire
  past hsteady ip τ hτ :=
    (h.past (hclock hsteady).1 ip τ (hheard ▸ hτ)).trans (hclock hsteady).2
  fresh hn hone hsteady ip τ hτ hle :=
    h.fresh hn hone (hclock hsteady).1 ip τ (hheard ▸ hτ) ((hclock hsteady).2.trans hle)

/-! ### The operations on the table of a node -/

/-- With one record for each other address there is room for all. -/
lemma View.room (h : w.View N i m) (hn : n ≤ maxPeers + 1) (hone : (N i).OneAddress)
    {ip : Bytes} {port : ℕ} (hother : w.IsOther N i ip port) (hnone : m.get ip = none) :
    m.size < maxPeers := by
  obtain ⟨others, hothers⟩ : ∃ others : Finset Bytes, others =
    (Finset.univ.image fun j => (N j).ip.text).erase (N i).ip.text := ⟨_, rfl⟩
  have hmem {ip : Bytes} {port : ℕ} (ho : w.IsOther N i ip port) : ip ∈ others := by
    obtain ⟨j, -, rfl, -, hne⟩ := ho
    rw [hothers, Finset.mem_erase]
    exact ⟨hone ▸ hne, Finset.mem_image_of_mem _ (Finset.mem_univ j)⟩
  have hcard : others.card ≤ maxPeers := by
    have himage : (Finset.univ.image fun j => (N j).ip.text).card ≤ n := by
      simpa using Finset.card_image_le (s := (Finset.univ : Finset (Fin n)))
        (f := fun j => (N j).ip.text)
    rw [hothers, Finset.card_erase_of_mem (Finset.mem_image_of_mem _ (Finset.mem_univ i))]
    omega
  have hlt : m.dom ⊂ (others : Set Bytes) := by
    refine Set.ssubset_iff_subset_ne.2 ⟨?_, ?_⟩
    · intro x hx
      obtain ⟨r, hr⟩ := Option.isSome_iff_exists.1 hx
      exact hmem (h.known x r hr)
    · intro he
      have hip : ip ∈ m.dom := he ▸ hmem hother
      rw [BoundedMap.mem_dom, hnone] at hip
      cases hip
  calc m.size
      < (others : Set Bytes).ncard := Set.ncard_lt_ncard hlt (Finset.finite_toSet _)
    _ = others.card := Set.ncard_coe_finset _
    _ ≤ maxPeers := hcard

/-- What `peer_list_add` makes of the records. -/
lemma get_onMap_add (m : PeerMap) (ip : Ip) (port : ℕ) (now : ℤ) (ip' : Bytes) :
    ((PeerOp.add ip port now).onMap m).get ip' =
      if ip' = ip.text then
        match m.get ip.text with
        | some r => some (r.announce port now)
        | none   => if m.size < maxPeers then some (.fresh port now) else none
      else m.get ip' := by
  rw [PeerOp.onMap]
  cases hget : m.get ip.text with
  | some r =>
    simp only [Option.isSome_some, if_true, BoundedMap.get_modify]
    split
    · rename_i hip
      rw [hip, hget]
      rfl
    · rfl
  | none =>
    simp only [Option.isSome_none, Bool.false_eq_true, if_false]
    by_cases hroom : m.size < maxPeers
    · rw [BoundedMap.get_insert hroom, if_pos hroom]
    · rw [BoundedMap.insert_full hroom, if_neg hroom]
      split
      · rename_i hip
        rw [hip, hget]
      · rfl

/-- A record that was entered or announced anew, or an old one. -/
lemma get_add_cases {m : PeerMap} {ip : Ip} {port : ℕ} {now : ℤ} {ip' : Bytes} {r : PeerRec}
    (h : ((PeerOp.add ip port now).onMap m).get ip' = some r) :
    (ip' = ip.text ∧ r.port = port) ∨ m.get ip' = some r := by
  rw [get_onMap_add] at h
  split at h
  · rename_i hip
    left
    refine ⟨hip, ?_⟩
    split at h
    · cases h
      rfl
    · split at h
      · cases h
        rfl
      · cases h
  · exact .inr h

/-- An address is entered if there is room. -/
lemma exists_get_add {m : PeerMap} {ip : Ip} (port : ℕ) (now : ℤ)
    (hroom : m.get ip.text = none → m.size < maxPeers) :
    ∃ r, ((PeerOp.add ip port now).onMap m).get ip.text = some r ∧ r.last_seen = now := by
  rw [get_onMap_add, if_pos rfl]
  cases hget : m.get ip.text with
  | some r => exact ⟨_, rfl, rfl⟩
  | none => exact ⟨_, if_pos (hroom hget), rfl⟩

/-- The listener enters another node. -/
lemma View.add (h : w.View N i m) {ip : Ip} {port : ℕ} (hother : w.IsOther N i ip.text port) :
    ∃ m', ((w.setPeers i (peerListAdd ip.text port (w.clock i) (w.peers i))).setHeard i ip.text
      (some (w.clock i))).View N i m' := by
  refine ⟨(PeerOp.add ip port (w.clock i)).onMap m, ?_, ?_, ?_, ?_⟩
  · simpa [setPeers, setHeard] using represents_add h.represents ip port (w.clock i)
  · intro ip' r hr
    rcases get_add_cases hr with ⟨rfl, rfl⟩ | hr
    · exact hother
    · exact h.known ip' r hr
  · intro hsteady ip' τ hτ
    simp only [setHeard, Function.update_self] at hτ
    by_cases hip : ip' = ip.text
    · rw [hip, Function.update_self] at hτ
      cases hτ
      exact le_rfl
    · rw [Function.update_of_ne hip] at hτ
      exact h.past hsteady ip' τ hτ
  · intro hn hone hsteady ip' τ hτ hle
    simp only [setHeard, Function.update_self] at hτ
    by_cases hip : ip' = ip.text
    · rw [hip, Function.update_self] at hτ
      cases hτ
      obtain ⟨r, hr, hseen⟩ :=
        exists_get_add port (w.clock i) fun hnone => h.room hn hone hother hnone
      exact ⟨r, hip ▸ hr, hseen.ge⟩
    · rw [Function.update_of_ne hip] at hτ
      obtain ⟨r, hr, hseen⟩ := h.fresh hn hone hsteady ip' τ hτ hle
      refine ⟨r, ?_, hseen⟩
      rw [get_onMap_add, if_neg hip]
      exact hr

/-- A sign of life is recorded. -/
lemma View.seen (h : w.View N i m) {ip : Bytes} {f : PeerRec → PeerRec}
    (hport : ∀ r, (f r).port = r.port) (hseen : ∀ r, (f r).last_seen = w.clock i) {t : PeerTable}
    (ht : peerSlots.Represents t (m.modify ip f)) :
    (w.setPeers i t).View N i (m.modify ip f) := by
  refine ⟨?_, ?_, h.past, ?_⟩
  · simpa [setPeers] using ht
  · intro ip' r hr
    rw [BoundedMap.get_modify] at hr
    split at hr
    · obtain ⟨r₀, hr₀, rfl⟩ := Option.map_eq_some_iff.1 hr
      rw [hport]
      exact h.known ip' r₀ hr₀
    · exact h.known ip' r hr
  · intro hn hone hsteady ip' τ hτ hle
    obtain ⟨r, hr, hτr⟩ := h.fresh hn hone hsteady ip' τ hτ hle
    rw [BoundedMap.get_modify]
    split
    · refine ⟨f r, by rw [hr]; rfl, ?_⟩
      rw [hseen]
      exact h.past hsteady ip' τ hτ
    · exact ⟨r, hr, hτr⟩

lemma View.touch (h : w.View N i m) (ip : Ip) :
    ∃ m', (w.setPeers i (peerListTouch ip.text (w.clock i) (w.peers i))).View N i m' :=
  ⟨_, h.seen (f := PeerRec.seen (w.clock i)) (fun _ => rfl) (fun _ => rfl)
    (represents_touch h.represents ip (w.clock i))⟩

lemma View.updateLoad (h : w.View N i m) (ip : Ip) (resp : LoadResp) :
    ∃ m', (w.setPeers i (peerListUpdateLoad ip.text resp (w.clock i) (w.peers i))).View N i m' :=
  ⟨_, h.seen (f := PeerRec.setLoad resp (w.clock i)) (fun _ => rfl) (fun _ => rfl)
    (represents_updateLoad h.represents ip resp (w.clock i))⟩

/-- The listener removes an address. -/
lemma View.remove (h : w.View N i m) (ip : Ip) :
    ∃ m', ((w.setPeers i (peerListRemove ip.text (w.peers i))).setHeard i ip.text none).View
      N i m' := by
  refine ⟨(PeerOp.remove ip).onMap m, ?_, ?_, ?_, ?_⟩
  · simpa [setPeers, setHeard] using represents_remove h.represents ip
  · intro ip' r hr
    rw [PeerOp.onMap, BoundedMap.get_erase] at hr
    split at hr
    · cases hr
    · exact h.known ip' r hr
  · intro hsteady ip' τ hτ
    simp only [setHeard, Function.update_self, Function.update_apply] at hτ
    split at hτ
    · cases hτ
    · exact h.past hsteady ip' τ hτ
  · intro hn hone hsteady ip' τ hτ hle
    simp only [setHeard, Function.update_self, Function.update_apply] at hτ
    split at hτ
    · cases hτ
    · rename_i hip
      obtain ⟨r, hr, hseen⟩ := h.fresh hn hone hsteady ip' τ hτ hle
      refine ⟨r, ?_, hseen⟩
      rw [PeerOp.onMap, BoundedMap.get_erase, if_neg hip]
      exact hr

/-- The reaper sweeps with a time in the past: what was heard of not long ago is left. -/
lemma View.sweep (h : w.View N i m) {now : ℤ} (hnow : w.steady i = true → now ≤ w.clock i) :
    ∃ m', (w.setPeers i (peerListReapStale now (w.peers i))).View N i m' := by
  refine ⟨(PeerOp.reapStale now).onMap m, ?_, ?_, h.past, ?_⟩
  · simpa [setPeers] using represents_reapStale h.represents now
  · intro ip' r hr
    rw [PeerOp.onMap, BoundedMap.get_filter, Option.filter_eq_some_iff] at hr
    exact h.known ip' r hr.1
  · intro hn hone hsteady ip' τ hτ hle
    obtain ⟨r, hr, hseen⟩ := h.fresh hn hone hsteady ip' τ hτ hle
    refine ⟨r, ?_, hseen⟩
    rw [PeerOp.onMap, BoundedMap.get_filter, Option.filter_eq_some_iff]
    refine ⟨hr, decide_eq_true ?_⟩
    have hle : w.clock i ≤ τ + peerTimeoutSecs := hle
    have hnow : now ≤ w.clock i := hnow hsteady
    omega

/-! ### One step of the network -/

/-- A step of node `i`: nothing else is different for the other nodes. -/
lemma Inv.of_view (h : w.Inv N) (hwire : w'.wire = w.wire) (hinbox : w'.inbox = w.inbox)
    (hothers : ∀ j, j ≠ i → w'.peers j = w.peers j ∧ w'.heard j = w.heard j ∧ w.Later w' j)
    (hview : ∃ m, w'.View N i m) : w'.Inv N where
  wire := hwire ▸ h.wire
  inbox := by
    intro j d hd
    rw [hinbox] at hd
    exact (h.inbox j d hd).mono fun d hd => hwire ▸ hd
  view := by
    intro j
    by_cases hj : j = i
    · rw [hj]
      exact hview
    · obtain ⟨m, hm⟩ := h.view j
      obtain ⟨hpeers, hheard, hclock⟩ := hothers j hj
      exact ⟨m, hm.mono (fun d hd => hwire ▸ hd) hpeers hheard hclock⟩

lemma setPeers_others {t : PeerTable} (j : Fin n) (hj : j ≠ i) :
    (w.setPeers i t).peers j = w.peers j ∧ (w.setPeers i t).heard j = w.heard j ∧
      w.Later (w.setPeers i t) j :=
  ⟨Function.update_of_ne hj _ _, rfl, .refl w j⟩

lemma setHeard_others {t : PeerTable} {ip : Bytes} {τ : Option ℤ} (j : Fin n) (hj : j ≠ i) :
    ((w.setPeers i t).setHeard i ip τ).peers j = w.peers j ∧
      ((w.setPeers i t).setHeard i ip τ).heard j = w.heard j ∧
      w.Later ((w.setPeers i t).setHeard i ip τ) j :=
  ⟨Function.update_of_ne hj _ _, Function.update_of_ne hj _ _, .refl w j⟩

/-- A datagram arrives at a node, or is received by it. -/
lemma Inv.setInbox (h : w.Inv N) {inbox : List (Addr × Bytes)}
    (hinbox : ∀ d ∈ inbox, w.Arrived N d) : (w.setInbox i inbox).Inv N where
  wire := h.wire
  inbox := by
    intro j d hd
    by_cases hj : j = i
    · subst hj
      simp only [LanWorld.setInbox, Function.update_self] at hd
      exact hinbox d hd
    · simp only [LanWorld.setInbox, Function.update_of_ne hj] at hd
      exact h.inbox j d hd
  view := fun j => (h.view j).imp fun _ hm => hm.mono (fun _ hd => hd) rfl rfl (.refl w j)

/-- A node sends an announcement. -/
lemma Inv.send (h : w.Inv N) {data : Bytes} (hdata : Announces (N i).port data) :
    Inv N { w with wire := w.wire ++ [(i, data)] } where
  wire := by
    intro j d hd
    rcases List.mem_append.1 hd with hd | hd
    · exact h.wire j d hd
    · cases List.mem_singleton.1 hd
      exact hdata
  inbox := fun j d hd => (h.inbox j d hd).mono fun d hd => List.mem_append_left _ hd
  view := fun j => (h.view j).imp fun _ hm =>
    hm.mono (fun d hd => List.mem_append_left _ hd) rfl rfl (.refl w j)

/-- A call of the announcer or of the end of `main`. -/
lemma Inv.bcast (h : w.Inv N) {c : BcastCall} {r : c.Ret} (hc : c.Says (N i).port)
    (hw : w.bcast i c r = some w') :
    w'.Inv N ∧ (∀ d ∈ w.wire, d ∈ w'.wire) ∧ ∀ j, w.Later w' j := by
  cases c with
  | sendto fd dst data =>
    cases hw
    exact ⟨h.send hc, fun d hd => List.mem_append_left _ hd, .refl w⟩
  | exit =>
    cases hw
    exact ⟨⟨h.wire, h.inbox, fun j => (h.view j).imp fun _ hm =>
      hm.mono (fun _ hd => hd) rfl rfl (.refl w j)⟩, fun _ hd => hd, .refl w⟩
  | gethostname =>
    cases hw
    exact ⟨h, fun _ hd => hd, .refl w⟩
  | sleep secs =>
    cases hw
    exact ⟨h, fun _ hd => hd, .refl w⟩

/-- The listener receives a datagram. -/
lemma Inv.recvfrom (h : w.Inv N) {size : ℕ} {src : Addr} {buf : Bytes}
    (hw : w.recvfrom i size (some (src, buf)) = some w') :
    w'.Inv N ∧ w'.wire = w.wire ∧ (∀ j, w.Later w' j) ∧
      ∃ data, w.Arrived N (src, data) ∧ buf = data.take size := by
  simp only [LanWorld.recvfrom] at hw
  cases hin : w.inbox i with
  | nil =>
    rw [hin] at hw
    cases hw
  | cons d inbox =>
    rw [hin] at hw
    simp only at hw
    split at hw
    · rename_i heq
      obtain ⟨rfl, rfl⟩ := heq
      cases hw
      have harrived := h.inbox i
      rw [hin] at harrived
      refine ⟨h.setInbox fun d' hd' => harrived d' (List.mem_cons_of_mem d hd'), rfl, .refl w,
        d.2, harrived d List.mem_cons_self, rfl⟩
    · cases hw

end LanWorld

/-! ### The threads -/

/-- Where a thread is, with its node. -/
inductive LanPhase (n : ℕ) where
  | sender (i : Fin n)
  | listener (i : Fin n) (q : ListenPhase)
  | reaper (i : Fin n) (q : ReapState)
  | bad

namespace LanPhase

variable {n : ℕ} (N : Lan n)

/-- Each thread makes the calls of its node, in the order of its automaton. -/
def auto : Kernel (LanCall n) LanCall.Ret (LanPhase n)
  | .sender i, .bcast j c, _ =>
    some (if j = i ∧ c.Says (N i).port then .sender i else .bad)
  | .listener i q, .udp j c, r =>
    if j = i then (ListenPhase.auto (N i).local_ip q c r).map (.listener i) else some .bad
  | .reaper i q, .reap j c, r =>
    if j = i then (ReapState.auto q c r).map (.reaper i) else some .bad
  | _, _, _ => some .bad

def Good : LanPhase n → Prop
  | .sender _ => True
  | .listener _ q => q.Good
  | .reaper _ q => q.Good
  | .bad => False

/-- What is behind the next call of a thread. -/
def Holds (w : LanWorld n) : LanPhase n → Prop
  | .listener i (.adding ip port) => w.IsOther N i ip port
  | .listener _ (.touching ip) => ∃ a : Ip, ip = a.text
  | .listener _ (.removing ip) => ∃ a : Ip, ip = a.text
  | .reaper i (.sampled now) => w.steady i = true → now ≤ w.clock i
  | _ => True

structure Inv (qs : List (LanPhase n)) (w : LanWorld n) : Prop where
  world : w.Inv N
  threads : ∀ q ∈ qs, q.Holds N w

variable {N}

lemma always_sender {i : Fin n} {p : BcastProg Unit} (h : p.Only (BcastCall.Says (N i).port)) :
    (p.embed (LanCall.bcast i) fun _ r => r).Always (auto N) Good (fun _ _ => True)
      (.sender i) := by
  induction p with
  | ret a => exact ⟨trivial, trivial⟩
  | call c k ih =>
    refine ⟨trivial, fun r q hq => ?_⟩
    simp only [auto, true_and, if_pos h.1] at hq
    cases hq
    exact ih r (h.2 r)
  | spin => trivial

lemma always_listener (i : Fin n) (rounds : ℕ) :
    ((listenerThread (N i).local_ip rounds).embed (LanCall.udp i) fun _ r => r).Always (auto N)
      Good (fun _ _ => True) (.listener i .waiting) := by
  apply ((ListenPhase.always_listenerThread rounds).embed (auto N) Good (.listener i) ?_
    fun _ hg => hg).mono
  · exact fun _ _ _ => trivial
  · intro s c r t' hr
    simp only [auto, if_true] at hr
    obtain ⟨t, hq, rfl⟩ := Option.map_eq_some_iff.1 hr
    exact ⟨t, hq, rfl⟩

lemma always_reaper (i : Fin n) (rounds : ℕ) :
    ((reaperThread rounds).embed (LanCall.reap i) fun _ r => r).Always (auto N)
      Good (fun _ _ => True) (.reaper i .idle) := by
  apply ((ReapState.always_reaperThread rounds).embed (auto N) Good (.reaper i) ?_
    fun _ hg => hg).mono
  · exact fun _ _ _ => trivial
  · intro s c r t' hr
    simp only [auto, if_true] at hr
    obtain ⟨t, hq, rfl⟩ := Option.map_eq_some_iff.1 hr
    exact ⟨t, hq, rfl⟩

variable {w w' : LanWorld n} {i : Fin n}

lemma Holds.mono {q : LanPhase n} (h : q.Holds N w) (hwire : ∀ d ∈ w.wire, d ∈ w'.wire)
    (hclock : ∀ i, w.Later w' i) : q.Holds N w' := by
  cases q with
  | listener i q =>
    cases q with
    | adding ip port => exact LanWorld.IsOther.mono h hwire
    | _ => exact h
  | reaper i q =>
    cases q with
    | sampled now => exact fun hsteady => (h (hclock i hsteady).1).trans (hclock i hsteady).2
    | _ => exact h
  | _ => exact h

/-- What the listener is about to do with a datagram. -/
lemma holds_after (h : w.Inv N) {src : Addr} {data : Bytes} (hd : w.Arrived N (src, data)) :
    (LanPhase.listener i (ListenPhase.after (N i).local_ip
      (some (src, data.take listenBufSize)))).Holds N w := by
  rcases hd with ⟨j, data', hsent, he⟩ | hnoise
  · cases he
    rw [after_announces (h.wire j data hsent)]
    split
    · trivial
    · rename_i hne
      split
      · rename_i htype
        exact ⟨j, ⟨data, hsent, htype⟩, rfl, rfl, hne⟩
      · exact ⟨(N j).ip, rfl⟩
  · rw [after_noise hnoise]
    trivial

/-- A call of a listener. -/
lemma udp_call {q q' : ListenPhase} {c : UdpCall} {r : c.Ret} (h : w.Inv N)
    (hq : (LanPhase.listener i q).Holds N w) (hw : w.udp i c r = some w')
    (hq' : ListenPhase.auto (N i).local_ip q c r = some q') (hgood : q'.Good) :
    w'.Inv N ∧ (LanPhase.listener i q').Holds N w' ∧ w'.wire = w.wire ∧
      ∀ j, w.Later w' j := by
  have hbad {P : Prop} (he : ListenPhase.bad = q') : P := absurd he.symm hgood
  cases q with
  | waiting =>
    cases c with
    | sock c =>
      cases hw
      cases hq'
      exact ⟨h, trivial, rfl, .refl w⟩
    | recvfrom fd size =>
      obtain ⟨hsize, rfl⟩ := eq_of_ite_ne (Option.some.inj hq') hgood
      subst hsize
      cases r with
      | none =>
        cases hw
        exact ⟨h, trivial, rfl, .refl w⟩
      | some d =>
        obtain ⟨src, buf⟩ := d
        obtain ⟨hinv, hwire, hclock, data, hdata, rfl⟩ := h.recvfrom hw
        refine ⟨hinv, (holds_after h hdata).mono ?_ ?_, hwire, hclock⟩
        · exact fun d hd => hwire ▸ hd
        · exact hclock
    | _ => exact hbad (Option.some.inj hq')
  | adding ip port =>
    cases c with
    | peerListAdd ip' port' =>
      obtain ⟨⟨rfl, rfl⟩, rfl⟩ := eq_of_ite_ne (Option.some.inj hq') hgood
      cases hw
      obtain ⟨m, hm⟩ := h.view i
      obtain ⟨j, -, hip, -⟩ := id hq
      subst hip
      refine ⟨?_, ⟨_, rfl⟩, rfl, .refl w⟩
      exact h.of_view (i := i) rfl rfl (fun j hj => LanWorld.setHeard_others j hj) (hm.add hq)
    | _ => exact hbad (Option.some.inj hq')
  | touching ip =>
    cases c with
    | peerListTouch ip' =>
      obtain ⟨rfl, rfl⟩ := eq_of_ite_ne (Option.some.inj hq') hgood
      cases hw
      obtain ⟨m, hm⟩ := h.view i
      obtain ⟨a, rfl⟩ := id hq
      refine ⟨?_, trivial, rfl, .refl w⟩
      exact h.of_view (i := i) rfl rfl (fun j hj => LanWorld.setPeers_others j hj) (hm.touch a)
    | _ => exact hbad (Option.some.inj hq')
  | removing ip =>
    cases c with
    | peerListRemove ip' =>
      obtain ⟨rfl, rfl⟩ := eq_of_ite_ne (Option.some.inj hq') hgood
      cases hw
      obtain ⟨m, hm⟩ := h.view i
      obtain ⟨a, rfl⟩ := id hq
      refine ⟨?_, trivial, rfl, .refl w⟩
      exact h.of_view (i := i) rfl rfl (fun j hj => LanWorld.setHeard_others j hj) (hm.remove a)
    | _ => exact hbad (Option.some.inj hq')
  | bad => exact hbad (Option.some.inj hq')

/-- A call of a reaper. -/
lemma reap_call {q q' : ReapState} {c : ReapCall} {r : c.Ret} (h : w.Inv N)
    (hq : (LanPhase.reaper i q).Holds N w) (hw : w.reap i c r = some w')
    (hq' : ReapState.auto q c r = some q') (hgood : q'.Good) :
    w'.Inv N ∧ (LanPhase.reaper i q').Holds N w' ∧ w'.wire = w.wire ∧ ∀ j, w.Later w' j := by
  have hbad {P : Prop} (he : ReapState.bad = q') : P := absurd he.symm hgood
  cases q with
  | idle =>
    cases c with
    | sleep secs =>
      cases hw
      cases hq'
      exact ⟨h, trivial, rfl, .refl w⟩
    | time =>
      simp only [LanWorld.reap] at hw
      split at hw
      · rename_i hnow
        cases hw
        cases hq'
        exact ⟨h, fun _ => le_of_eq hnow, rfl, .refl w⟩
      · cases hw
    | sweep now => exact hbad (Option.some.inj hq')
  | sampled now =>
    cases c with
    | sweep now' =>
      obtain ⟨rfl, rfl⟩ := eq_of_ite_ne (Option.some.inj hq') hgood
      cases hw
      obtain ⟨m, hm⟩ := h.view i
      refine ⟨?_, trivial, rfl, .refl w⟩
      exact h.of_view (i := i) rfl rfl (fun j hj => LanWorld.setPeers_others j hj) (hm.sweep hq)
    | _ => exact hbad (Option.some.inj hq')
  | bad => exact hbad (Option.some.inj hq')

/-- What one call makes of the calling thread and of the world. -/
lemma call_step {q q' : LanPhase n} {i : ℕ} {c : LanCall n} {r : c.Ret} (h : w.Inv N)
    (hq : q.Holds N w) (hw : w.call i c r = some w') (hq' : auto N q c r = some q')
    (hgood : q'.Good) :
    w'.Inv N ∧ q'.Holds N w' ∧ (∀ d ∈ w.wire, d ∈ w'.wire) ∧ ∀ j, w.Later w' j := by
  cases q with
  | sender i =>
    cases c with
    | bcast j c =>
      simp only [LanWorld.call] at hw
      split at hw
      · cases hw
      · simp only [auto] at hq'
        split at hq'
        · rename_i hc
          obtain ⟨rfl, hsays⟩ := hc
          cases hq'
          obtain ⟨hinv, hwire, hclock⟩ := h.bcast hsays hw
          exact ⟨hinv, trivial, hwire, hclock⟩
        · cases hq'
          exact hgood.elim
    | _ =>
      cases hq'
      exact hgood.elim
  | listener i q =>
    cases c with
    | udp j c =>
      simp only [LanWorld.call] at hw
      split at hw
      · cases hw
      · simp only [auto] at hq'
        split at hq'
        · rename_i hj
          subst hj
          obtain ⟨p, hp, rfl⟩ := Option.map_eq_some_iff.1 hq'
          obtain ⟨hinv, hholds, hwire, hclock⟩ := udp_call h hq hw hp hgood
          exact ⟨hinv, hholds, fun d hd => hwire ▸ hd, hclock⟩
        · cases hq'
          exact hgood.elim
    | _ =>
      cases hq'
      exact hgood.elim
  | reaper i q =>
    cases c with
    | reap j c =>
      simp only [LanWorld.call] at hw
      split at hw
      · cases hw
      · simp only [auto] at hq'
        split at hq'
        · rename_i hj
          subst hj
          obtain ⟨p, hp, rfl⟩ := Option.map_eq_some_iff.1 hq'
          obtain ⟨hinv, hholds, hwire, hclock⟩ := reap_call h hq hw hp hgood
          exact ⟨hinv, hholds, fun d hd => hwire ▸ hd, hclock⟩
        · cases hq'
          exact hgood.elim
    | _ =>
      cases hq'
      exact hgood.elim
  | bad =>
    cases hq'
    exact hgood.elim

lemma exists_listen_auto (local_ip : Bytes) (q : ListenPhase) (c : UdpCall) (r : c.Ret) :
    ∃ q', ListenPhase.auto local_ip q c r = some q' := by
  cases q with
  | _ => cases c with
    | _ => exact ⟨_, rfl⟩

lemma exists_reap_auto (q : ReapState) (c : ReapCall) (r : c.Ret) :
    ∃ q', ReapState.auto q c r = some q' := by
  cases q with
  | _ => cases c with
    | _ => exact ⟨_, rfl⟩

/-- The automaton accepts every call; the wrong ones make it bad. -/
lemma exists_auto (q : LanPhase n) (c : LanCall n) (r : c.Ret) :
    ∃ q', auto N q c r = some q' := by
  cases q with
  | sender i =>
    cases c with
    | _ => exact ⟨_, rfl⟩
  | listener i q =>
    cases c with
    | udp j c =>
      obtain ⟨q', hq'⟩ := exists_listen_auto (N i).local_ip q c r
      simp only [auto, hq']
      split
      · exact ⟨_, rfl⟩
      · exact ⟨_, rfl⟩
    | _ => exact ⟨_, rfl⟩
  | reaper i q =>
    cases c with
    | reap j c =>
      obtain ⟨q', hq'⟩ := exists_reap_auto q c r
      simp only [auto, hq']
      split
      · exact ⟨_, rfl⟩
      · exact ⟨_, rfl⟩
    | _ => exact ⟨_, rfl⟩
  | bad => exact ⟨_, rfl⟩

lemma Inv.call {qs : List (LanPhase n)} {i : ℕ} {q : LanPhase n} {c : LanCall n} {r : c.Ret}
    (h : Inv N qs w) (hq : qs[i]? = some q) (hw : w.call i c r = some w') :
    ∃ q', auto N q c r = some q' ∧ (q'.Good → Inv N (qs.set i q') w') := by
  obtain ⟨q', hq'⟩ := exists_auto (N := N) q c r
  refine ⟨q', hq', fun hgood => ?_⟩
  obtain ⟨hinv, hholds, hwire, hclock⟩ :=
    call_step h.world (h.threads q (List.mem_of_getElem? hq)) hw hq' hgood
  refine ⟨hinv, fun p hp => ?_⟩
  rcases List.mem_or_eq_of_mem_set hp with hp | rfl
  · exact (h.threads p hp).mono hwire hclock
  · exact hholds

/-- What happens by itself. -/
lemma Inv.env {qs : List (LanPhase n)} {e : LanEnv n} (h : Inv N qs w)
    (hw : N.env w e = some w') : Inv N qs w' := by
  cases e with
  | deliver k i =>
    obtain ⟨d, hd, rfl⟩ := Option.map_eq_some_iff.1 hw
    refine ⟨h.world.setInbox fun d' hd' => ?_, h.threads⟩
    rcases List.mem_append.1 hd' with hd' | hd'
    · exact h.world.inbox i d' hd'
    · rw [List.mem_singleton.1 hd']
      exact .inl ⟨d.1, d.2, List.mem_of_getElem? hd, rfl⟩
  | noise i src data =>
    simp only [Lan.env] at hw
    split at hw
    · rename_i htype
      cases hw
      refine ⟨h.world.setInbox fun d' hd' => ?_, h.threads⟩
      rcases List.mem_append.1 hd' with hd' | hd'
      · exact h.world.inbox i d' hd'
      · rw [List.mem_singleton.1 hd']
        exact .inr htype
    · cases hw
  | tick i secs =>
    cases hw
    have hclock := LanWorld.later_tick w i secs
    refine ⟨⟨h.world.wire, h.world.inbox, fun j => ?_⟩, fun q hq => ?_⟩
    · exact (h.world.view j).imp fun _ hm => hm.mono (fun _ hd => hd) rfl rfl (hclock j)
    · exact (h.threads q hq).mono (fun _ hd => hd) hclock
  | updateLoad i ip resp =>
    cases hw
    obtain ⟨m, hm⟩ := h.world.view i
    refine ⟨?_, fun q hq => (h.threads q hq).mono (fun _ hd => hd) (.refl w)⟩
    exact h.world.of_view (i := i) rfl rfl (fun j hj => LanWorld.setPeers_others j hj)
      (hm.updateLoad ip resp)

/-- The outline of the network. -/
def outline (N : Lan n) : Conc.Outline N.sys Conc.anyMove (LanPhase n) where
  auto := auto N
  good := Good
  fin := fun _ => True
  fresh := fun _ _ => .bad
  inv := Inv N
  spawned := nofun
  call := by
    intro qs w i q c r w' h hq _ _ hw
    obtain ⟨q', hq', hinv⟩ := h.call hq hw
    refine ⟨q', hq', fun hgood => ?_⟩
    simpa [Lan.sys] using hinv hgood
  env := fun h _ hw => h.env hw

/-- Where the threads of a node start. -/
def starts (i : Fin n) : List (LanPhase n) :=
  [.sender i, .sender i, .listener i .waiting, .reaper i .idle]

lemma holds_start (N : Lan n) (rounds : ℕ) (clock : Fin n → ℤ) :
    (outline N).Holds (N.start rounds clock) ((List.finRange n).flatMap starts) := by
  refine ⟨?_, ⟨⟨nofun, nofun, fun i => ?_⟩, ?_⟩⟩
  · have hsame : List.Forall₂ Eq (List.finRange n) (List.finRange n) :=
      List.forall₂_same.2 fun _ _ => rfl
    refine List.rel_flatMap hsame ?_
    rintro i _ rfl
    refine .cons ?_ (.cons ?_ (.cons ?_ (.cons ?_ .nil)))
    · exact always_sender (says_announcerThread (N i).port_lt rounds)
    · exact always_sender (says_mainEnd (N i).port_lt)
    · exact always_listener i rounds
    · exact always_reaper i rounds
  · exact ⟨.empty, represents_run [], nofun, fun _ => nofun, fun _ _ _ => nofun⟩
  · intro q hq
    obtain ⟨i, -, hq⟩ := List.mem_flatMap.1 hq
    simp only [starts, List.mem_cons, List.not_mem_nil, or_false] at hq
    rcases hq with rfl | rfl | rfl | rfl
    · trivial
    · trivial
    · trivial
    · trivial

end LanPhase

/-! ### Every run -/

namespace Lan

variable {n : ℕ} {N : Lan n}

lemma inv_of_reach {rounds : ℕ} {clock : Fin n → ℤ}
    {s : Conf (LanCall n) LanCall.Ret (LanWorld n)}
    (hr : Conc.Reach N.sys Conc.anyMove (N.start rounds clock) s) : s.world.Inv N := by
  obtain ⟨qs, -, hinv⟩ := (LanPhase.outline N).reach (LanPhase.holds_start N rounds clock) hr
  exact hinv.world

/-- A node that is listed is another node. -/
lemma listed_isOther {w : LanWorld n} (h : w.Inv N) {i : Fin n} {x : NodeId}
    (hx : x ∈ listedNodes (w.peers i)) : w.IsOther N i x.ip x.port := by
  obtain ⟨m, hm⟩ := h.view i
  rw [mem_listedNodes hm.represents] at hx
  obtain ⟨r, hr, hport⟩ := Option.map_eq_some_iff.1 hx
  exact hport ▸ hm.known x.ip r hr

end Lan

/-- In every run of a network, whatever its datagrams do, a node that is listed at a node has sent a
HELLO, and is listed under its address and its port; this address is not the one that the listener
ignores. So a node that has one address lists only others. -/
theorem lan_lists_announced {n : ℕ} (N : Lan n) (rounds : ℕ) (clock : Fin n → ℤ)
    {s : Conf (LanCall n) LanCall.Ret (LanWorld n)}
    (hr : Conc.Reach N.sys Conc.anyMove (N.start rounds clock) s) (i : Fin n) :
    (∀ x ∈ listedNodes (s.world.peers i), ∃ j, x = (N j).id ∧ (N j).ip.text ≠ (N i).local_ip ∧
      ∃ data, (j, data) ∈ s.world.wire ∧ headerType data = msgHello) ∧
    ((N i).OneAddress → ∀ x ∈ listedNodes (s.world.peers i),
      ∃ j, j ≠ i ∧ x = (N j).id ∧ (N j).ip ≠ (N i).ip) := by
  have hlisted : ∀ x ∈ listedNodes (s.world.peers i), ∃ j, x = (N j).id ∧
      (N j).ip.text ≠ (N i).local_ip ∧
      ∃ data, (j, data) ∈ s.world.wire ∧ headerType data = msgHello := by
    rintro ⟨ip, port⟩ hx
    obtain ⟨j, hsent, rfl, rfl, hne⟩ := Lan.listed_isOther (Lan.inv_of_reach hr) hx
    exact ⟨j, rfl, hne, hsent⟩
  refine ⟨hlisted, fun hone x hx => ?_⟩
  obtain ⟨j, hid, hne, -⟩ := hlisted x hx
  have hip : (N j).ip ≠ (N i).ip := fun he => hne (he ▸ hone.symm)
  exact ⟨j, fun hj => hip (hj ▸ rfl), hid, hip⟩

/-- In a network of at most `MAX_PEERS + 1` nodes with different addresses, a node that has one
address, and whose clock was never set back, lists every node whose HELLO its listener entered
within the last `PEER_TIMEOUT_SECS` and did not remove since; if it has heard of all other nodes in
that time, it lists these and nothing else. -/
theorem lan_lists_recent {n : ℕ} (N : Lan n) (hn : n ≤ maxPeers + 1)
    (hips : ∀ j k, (N j).ip.text = (N k).ip.text → j = k) (rounds : ℕ) (clock : Fin n → ℤ)
    {s : Conf (LanCall n) LanCall.Ret (LanWorld n)}
    (hr : Conc.Reach N.sys Conc.anyMove (N.start rounds clock) s) (i : Fin n)
    (hone : (N i).OneAddress) (hsteady : s.world.steady i = true) :
    (∀ j τ, s.world.heard i (N j).ip.text = some τ →
      s.world.clock i ≤ τ + peerTimeoutSecs → (N j).id ∈ listedNodes (s.world.peers i)) ∧
    ((∀ j, j ≠ i → ∃ τ, s.world.heard i (N j).ip.text = some τ ∧
        s.world.clock i ≤ τ + peerTimeoutSecs) →
      listedNodes (s.world.peers i) = {x | ∃ j, j ≠ i ∧ x = (N j).id}) := by
  have hinv := Lan.inv_of_reach hr
  have hrecent : ∀ j τ, s.world.heard i (N j).ip.text = some τ →
      s.world.clock i ≤ τ + peerTimeoutSecs → (N j).id ∈ listedNodes (s.world.peers i) := by
    intro j τ hτ hle
    obtain ⟨m, hm⟩ := hinv.view i
    obtain ⟨r, hr, -⟩ := hm.fresh hn hone hsteady _ τ hτ hle
    obtain ⟨k, -, hip, hport, -⟩ := hm.known _ r hr
    obtain rfl := hips j k hip
    rw [mem_listedNodes hm.represents]
    exact Option.map_eq_some_iff.2 ⟨r, hr, hport⟩
  refine ⟨hrecent, fun hall => Set.ext fun x => ⟨fun hx => ?_, ?_⟩⟩
  · obtain ⟨ip, port⟩ := x
    obtain ⟨j, -, hip, hport, hne⟩ := Lan.listed_isOther hinv hx
    refine ⟨j, ?_, ?_⟩
    · rintro rfl
      exact hne (hip.trans hone.symm)
    · rw [LanNode.id, ← hip, ← hport]
  · rintro ⟨j, hj, rfl⟩
    obtain ⟨τ, hτ, hle⟩ := hall j hj
    exact hrecent j τ hτ hle

/-! ### Two nodes -/

def terminalIp : Ip := ⟨twoTerminals.local_ip, by decide, by decide, by decide⟩

lemma terminalPort_lt : 7777 < 2 ^ 16 := by decide

/-- The nodes `10.0.0.1` and `10.0.0.2`. -/
def twoNodes : Lan 2 := fun i =>
  { ip := if i = 0 then terminalIp else hostIp
    local_ip := if i = 0 then terminalIp.text else hostIp.text
    port := 7777
    src_port := 40000
    bcast_fd := 4
    port_lt := terminalPort_lt }

namespace Lan

/-- The listener of node `i` sets its socket up. -/
def bindMoves (i : Fin 2) (t : ℕ) : List (Move (LanCall 2) LanCall.Ret (LanEnv 2)) :=
  [.call t (.udp i (.sock (.socket .dgram))) (5 : ℤ),
    .call t (.udp i (.sock (.setsockopt 5 .broadcast))) (),
    .call t (.udp i (.sock (.setsockopt 5 .reuseaddr))) (),
    .call t (.udp i (.sock (.setsockopt 5 .reuseport))) (),
    .call t (.udp i (.sock (.bind 5 discoveryPort))) (0 : ℤ)]

/-- Node `10.0.0.2` announces itself, and node `10.0.0.1` enters it. -/
def greetMoves : List (Move (LanCall 2) LanCall.Ret (LanEnv 2)) :=
  [.call 4 (.bcast 1 .gethostname) ([104] : Bytes),
    .call 4 (.bcast 1 (.sendto 4 ⟨inaddrBroadcast, discoveryPort⟩
      (broadcastPacket msgHello 7777 [104]))) (),
    .env (.deliver 0 0),
    .call 2 (.udp 0 (.recvfrom 5 listenBufSize))
      (some (⟨hostIp.text, 40000⟩, broadcastPacket msgHello 7777 [104])),
    .call 2 (.udp 0 (.peerListAdd hostIp.text 7777)) (),
    .call 2 (.udp 0 (.peerListTouch hostIp.text)) ()]

end Lan

open Lan in
theorem lan_lists_announced_one : ∃ s,
    Conc.Reach twoNodes.sys Conc.anyMove (twoNodes.start 4 fun _ => 0) s ∧
      (s.world.peers 0 ⟨0, by decide⟩).valid = true ∧
      (∀ x ∈ listedNodes (s.world.peers 0), ∃ j, x = (twoNodes j).id ∧
        (twoNodes j).ip.text ≠ (twoNodes 0).local_ip ∧
        ∃ data, (j, data) ∈ s.world.wire ∧ headerType data = msgHello) ∧
      ((twoNodes 0).OneAddress → ∀ x ∈ listedNodes (s.world.peers 0),
        ∃ j, j ≠ 0 ∧ x = (twoNodes j).id ∧ (twoNodes j).ip ≠ (twoNodes 0).ip) := by
  have hplay : ((twoNodes.sys.play Conc.anyMove (bindMoves 0 2 ++ greetMoves)
      (twoNodes.start 4 fun _ => 0)).map fun s => (s.world.peers 0 ⟨0, by decide⟩).valid) =
      some true := by
    decide +kernel
  obtain ⟨s, hr, hv⟩ := Conc.exists_reach_of_play _ hplay
  exact ⟨s, hr, hv, lan_lists_announced twoNodes 4 (fun _ => 0) hr 0⟩

open Lan in
/-- The reaper sweeps 20 seconds later; the other node is still listed. -/
theorem lan_lists_recent_one : ∃ s,
    Conc.Reach twoNodes.sys Conc.anyMove (twoNodes.start 4 fun _ => 0) s ∧
      s.world.clock 0 = 20 ∧ listedNodes (s.world.peers 0) = {x | ∃ j, j ≠ 0 ∧
        x = (twoNodes j).id} := by
  have hplay : ((twoNodes.sys.play Conc.anyMove
      (bindMoves 0 2 ++ greetMoves ++ [.env (.tick 0 20), .env (.tick 1 (-7)),
        .call 3 (.reap 0 (.sleep 15)) (), .call 3 (.reap 0 .time) (20 : ℤ),
        .call 3 (.reap 0 (.sweep 20)) ()])
      (twoNodes.start 4 fun _ => 0)).map fun s =>
        (s.world.clock 0, s.world.steady 0, s.world.heard 0 hostIp.text)) =
          some (20, true, some 0) := by
    decide +kernel
  obtain ⟨s, hr, hw⟩ := Conc.exists_reach_of_play _ hplay
  obtain ⟨hclock, hw⟩ := Prod.mk.inj hw
  obtain ⟨hsteady, hheard⟩ := Prod.mk.inj hw
  refine ⟨s, hr, hclock,
    (lan_lists_recent twoNodes (by decide) (by decide) 4 (fun _ => 0) hr 0 rfl hsteady).2 ?_⟩
  intro j hj
  refine ⟨0, ?_, ?_⟩
  · obtain rfl : j = 1 := by omega
    exact hheard
  · rw [hclock]
    decide

end P2PNode
