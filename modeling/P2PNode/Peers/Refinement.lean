import P2PNode.Lib.SlotTable
import P2PNode.Peers.PeerList

/-!
# The peer table as a map

What the peer table is for: a map of bounded size from addresses to records. `PeerOp.onMap` states
the operations on the map, `PeerOp.onTable` is the code; every run of the second is a run of the
first.
-/

namespace P2PNode

/-! ### The map of peers -/

/-- What is known of a peer. -/
structure PeerRec where
  port : ℕ
  load_pct : ℕ
  active_tasks : ℕ
  total_tasks : ℕ
  num_cores : ℕ
  last_seen : ℤ
  deriving DecidableEq

abbrev PeerMap := BoundedMap Bytes PeerRec maxPeers

/-- The record of a peer that was just discovered. -/
def PeerRec.fresh (port : ℕ) (now : ℤ) : PeerRec where
  port := port
  load_pct := 0
  active_tasks := 0
  total_tasks := 0
  num_cores := 1
  last_seen := now

def PeerRec.announce (port : ℕ) (now : ℤ) (r : PeerRec) : PeerRec :=
  { r with port := port, last_seen := now }

def PeerRec.seen (now : ℤ) (r : PeerRec) : PeerRec := { r with last_seen := now }

def PeerRec.setLoad (resp : LoadResp) (now : ℤ) (r : PeerRec) : PeerRec :=
  { r with
    load_pct := resp.load_pct
    active_tasks := resp.active_tasks
    total_tasks := resp.total_tasks
    num_cores := resp.num_cores
    last_seen := now }

/-- An address as `inet_ntop` yields it. -/
structure Ip where
  text : Bytes
  ne_nil : text ≠ []
  no_nul : 0 ∉ text
  length_le : text.length ≤ inetAddrStrLen - 1

/-- The calls that change the table, with the clock value they read. -/
inductive PeerOp where
  | add (ip : Ip) (port : ℕ) (now : ℤ)
  | remove (ip : Ip)
  | updateLoad (ip : Ip) (resp : LoadResp) (now : ℤ)
  | touch (ip : Ip) (now : ℤ)
  | reapStale (now : ℤ)

namespace PeerOp

noncomputable def onMap : PeerOp → PeerMap → PeerMap
  | .add ip port now, m =>
    if (m.get ip.text).isSome then m.modify ip.text (·.announce port now)
    else m.insert ip.text (.fresh port now)
  | .remove ip, m              => m.erase ip.text
  | .updateLoad ip resp now, m => m.modify ip.text (·.setLoad resp now)
  | .touch ip now, m           => m.modify ip.text (·.seen now)
  | .reapStale now, m          => m.filter fun _ r => now - r.last_seen ≤ peerTimeoutSecs

def onTable : PeerOp → PeerTable → PeerTable
  | .add ip port now, t        => peerListAdd ip.text port now t
  | .remove ip, t              => peerListRemove ip.text t
  | .updateLoad ip resp now, t => peerListUpdateLoad ip.text resp now t
  | .touch ip now, t           => peerListTouch ip.text now t
  | .reapStale now, t          => peerListReapStale now t

/-- The map after a sequence of calls. -/
noncomputable def runMap (ops : List PeerOp) : PeerMap :=
  ops.foldl (fun m op => op.onMap m) BoundedMap.empty

/-- The table after a sequence of calls. -/
def runTable (ops : List PeerOp) : PeerTable :=
  ops.foldl (fun t op => op.onTable t) peerListInit

end PeerOp

/-! ### Reading the table -/

def PeerInfo.record (p : PeerInfo) : PeerRec where
  port := p.port
  load_pct := p.load_pct
  active_tasks := p.active_tasks
  total_tasks := p.total_tasks
  num_cores := p.num_cores
  last_seen := p.last_seen

/-- The record under an address. -/
def PeerTable.lookup (t : PeerTable) (ip : Bytes) : Option PeerRec :=
  (findSlot ip t).map fun i => (t i).record

def peerSlots : SlotView PeerInfo Bytes PeerRec where
  live := PeerInfo.valid
  key := PeerInfo.ip
  val := PeerInfo.record
  blank := {}
  live_blank := rfl

lemma peerListGetAll_eq (max : ℤ) (t : PeerTable) :
    peerListGetAll max t = (peerSlots.entries t).take max.toNat := by
  simp [peerListGetAll, getAllLoop_eq, SlotView.entries, peerSlots]

/-! ### One step -/

section Step

variable {t : PeerTable} {m : PeerMap} (h : peerSlots.Represents t m)
include h

lemma represents_add (ip : Ip) (port : ℕ) (now : ℤ) :
    peerSlots.Represents (peerListAdd ip.text port now t) (PeerOp.onMap (.add ip port now) m) := by
  rw [peerListAdd, PeerOp.onMap]
  cases hf : findSlot ip.text t with
  | some idx =>
    have hm := h.get_of_find hf
    rw [if_pos (by simp [hm])]
    have hv : (t idx).valid := SlotView.live_of_find (V := peerSlots) hf
    have hk : (t idx).ip = ip.text := SlotView.key_of_find (V := peerSlots) hf
    exact h.overwrite hf (s := { t idx with port := port, last_seen := now }) hv hk rfl
  | none =>
    have hm := h.get_of_not_find hf
    rw [if_neg (by simp [hm])]
    have hkey : ip.text.take (inetAddrStrLen - 1) = ip.text := List.take_of_length_le ip.length_le
    cases hfree : findFreeSlot t with
    | none => exact h.full hfree _ _
    | some idx =>
      obtain ⟨s, hs⟩ : ∃ s : PeerInfo, s =
        { newSlot ip.text with port := port, last_seen := now } := ⟨_, rfl⟩
      have hk : peerSlots.key s = ip.text := by
        rw [hs]
        exact hkey
      have hv : peerSlots.val s = .fresh port now := by
        rw [hs]
        rfl
      have hfill := h.fill (s := s) (by rw [hs]; rfl) (by rw [hk]; exact hf) hfree
      rwa [hk, hv, hs] at hfill

lemma represents_remove (ip : Ip) :
    peerSlots.Represents (peerListRemove ip.text t) (PeerOp.onMap (.remove ip) m) := by
  rw [peerListRemove, PeerOp.onMap]
  cases hf : findSlot ip.text t with
  | some idx => exact h.clear hf
  | none => rwa [BoundedMap.erase_absent (h.get_of_not_find hf)]

lemma represents_updateLoad (ip : Ip) (resp : LoadResp) (now : ℤ) :
    peerSlots.Represents (peerListUpdateLoad ip.text resp now t)
      (PeerOp.onMap (.updateLoad ip resp now) m) := by
  rw [peerListUpdateLoad, PeerOp.onMap]
  cases hf : findSlot ip.text t with
  | some idx =>
    have hv : (t idx).valid := SlotView.live_of_find (V := peerSlots) hf
    have hk : (t idx).ip = ip.text := SlotView.key_of_find (V := peerSlots) hf
    exact h.overwrite hf (s := { t idx with
      load_pct := resp.load_pct
      active_tasks := resp.active_tasks
      total_tasks := resp.total_tasks
      num_cores := resp.num_cores
      last_seen := now }) hv hk (f := (·.setLoad resp now)) rfl
  | none => rwa [BoundedMap.modify_absent (h.get_of_not_find hf)]

lemma represents_touch (ip : Ip) (now : ℤ) :
    peerSlots.Represents (peerListTouch ip.text now t) (PeerOp.onMap (.touch ip now) m) := by
  rw [peerListTouch, PeerOp.onMap]
  cases hf : findSlot ip.text t with
  | some idx =>
    have hv : (t idx).valid := SlotView.live_of_find (V := peerSlots) hf
    have hk : (t idx).ip = ip.text := SlotView.key_of_find (V := peerSlots) hf
    exact h.overwrite hf (s := { t idx with last_seen := now }) hv hk rfl
  | none => rwa [BoundedMap.modify_absent (h.get_of_not_find hf)]

lemma represents_reapStale (now : ℤ) :
    peerSlots.Represents (peerListReapStale now t) (PeerOp.onMap (.reapStale now) m) := by
  refine h.sweep fun i hi => ?_
  have hv : (t i).valid = true := hi
  simp [peerSlots, PeerInfo.record, hv, ← decide_not]

lemma represents_step (op : PeerOp) : peerSlots.Represents (op.onTable t) (op.onMap m) := by
  cases op with
  | add ip port now => exact represents_add h ip port now
  | remove ip => exact represents_remove h ip
  | updateLoad ip resp now => exact represents_updateLoad h ip resp now
  | touch ip now => exact represents_touch h ip now
  | reapStale now => exact represents_reapStale h now

lemma length_peerListGetAll (max : ℤ) :
    (peerListGetAll max t).length = min max.toNat m.size := by
  rw [peerListGetAll_eq, List.length_take, h.size_eq]

lemma mem_peerListGetAll {max : ℤ} {p : PeerInfo} (hp : p ∈ peerListGetAll max t) :
    p.valid ∧ m.get p.ip = some p.record := by
  rw [peerListGetAll_eq] at hp
  have he := List.mem_of_mem_take hp
  exact ⟨(SlotView.mem_entries.1 he).1, h.get_of_mem_entries he⟩

lemma nodup_peerListGetAll (max : ℤ) : ((peerListGetAll max t).map PeerInfo.ip).Nodup := by
  rw [peerListGetAll_eq, List.map_take]
  exact h.ok.nodup_keys.sublist (List.take_sublist _ _)

end Step

/-! ### Every run -/

lemma represents_run (ops : List PeerOp) :
    peerSlots.Represents (PeerOp.runTable ops) (PeerOp.runMap ops) := by
  have hrun : ∀ (t : PeerTable) (m : PeerMap), peerSlots.Represents t m →
      peerSlots.Represents (ops.foldl (fun t op => op.onTable t) t)
        (ops.foldl (fun m op => op.onMap m) m) := by
    induction ops with
    | nil => intro t m h; exact h
    | cons op ops ih => intro t m h; exact ih _ _ (represents_step h op)
  exact hrun _ _ SlotView.Represents.blank

/-- The peer table is a bounded map: after any sequence of calls the valid slots have distinct
addresses and the others are zero, the table is read as the map after the same operations, and
`peer_list_get_all` returns as many entries of the map as fit, none twice. -/
theorem peer_table_refines_map (ops : List PeerOp) :
    (∀ i j, (PeerOp.runTable ops i).valid → (PeerOp.runTable ops j).valid →
        (PeerOp.runTable ops i).ip = (PeerOp.runTable ops j).ip → i = j) ∧
      (∀ i, (PeerOp.runTable ops i).valid = false → PeerOp.runTable ops i = {}) ∧
      (∀ ip, (PeerOp.runTable ops).lookup ip = (PeerOp.runMap ops).get ip) ∧
      ∀ max : ℤ,
        (peerListGetAll max (PeerOp.runTable ops)).length =
            min max.toNat (PeerOp.runMap ops).size ∧
          (∀ p ∈ peerListGetAll max (PeerOp.runTable ops),
            p.valid ∧ (PeerOp.runMap ops).get p.ip = some p.record) ∧
          ((peerListGetAll max (PeerOp.runTable ops)).map PeerInfo.ip).Nodup := by
  have h := represents_run ops
  refine ⟨h.ok.key_inj, h.ok.dead_blank, h.read_eq, fun max => ⟨?_, ?_, ?_⟩⟩
  · exact length_peerListGetAll h max
  · intro p hp
    exact mem_peerListGetAll h hp
  · exact nodup_peerListGetAll h max

end P2PNode
