import Mathlib.Data.List.FinRange
import P2PNode.Net.Common

/-!
# The peer table (`peer_list.c`)

The operations on `g_peers`, each one under its lock and therefore one step. The clock value is an
argument of the operations that call `time`.
-/

namespace P2PNode

/-- `g_peers`. -/
abbrev PeerTable := Fin maxPeers → PeerInfo

def firstSlot : Fin maxPeers := ⟨0, by decide⟩

def peerListInit : PeerTable := fun _ => {}

def findSlot (ip : Bytes) (peers : PeerTable) : Option (Fin maxPeers) :=
  (List.finRange maxPeers).find? fun i => (peers i).valid && decide ((peers i).ip = ip)

def findFreeSlot (peers : PeerTable) : Option (Fin maxPeers) :=
  (List.finRange maxPeers).find? fun i => !(peers i).valid

/-- A slot taken for the address `ip`. -/
def newSlot (ip : Bytes) : PeerInfo :=
  { ip := ip.take (inetAddrStrLen - 1), valid := true, num_cores := 1 }

def peerListAdd (ip : Bytes) (port : ℕ) (now : ℤ) (peers : PeerTable) : PeerTable :=
  match findSlot ip peers with
  | some idx => Function.update peers idx { peers idx with port := port, last_seen := now }
  | none =>
    match findFreeSlot peers with
    | none => peers
    | some idx => Function.update peers idx { newSlot ip with port := port, last_seen := now }

def peerListRemove (ip : Bytes) (peers : PeerTable) : PeerTable :=
  match findSlot ip peers with
  | some idx => Function.update peers idx {}
  | none => peers

def peerListUpdateLoad (ip : Bytes) (resp : LoadResp) (now : ℤ) (peers : PeerTable) : PeerTable :=
  match findSlot ip peers with
  | some idx => Function.update peers idx { peers idx with
      load_pct := resp.load_pct
      active_tasks := resp.active_tasks
      total_tasks := resp.total_tasks
      num_cores := resp.num_cores
      last_seen := now }
  | none => peers

def peerListTouch (ip : Bytes) (now : ℤ) (peers : PeerTable) : PeerTable :=
  match findSlot ip peers with
  | some idx => Function.update peers idx { peers idx with last_seen := now }
  | none => peers

/-- The loop of `peer_list_get_all`: `out` holds the entries copied so far. -/
def getAllLoop (max : ℤ) : List PeerInfo → List PeerInfo → List PeerInfo
  | [], out => out
  | peer :: peers, out =>
    if (out.length : ℤ) < max then
      getAllLoop max peers (if peer.valid then out ++ [peer] else out)
    else out

def peerListGetAll (max : ℤ) (peers : PeerTable) : List PeerInfo :=
  getAllLoop max ((List.finRange maxPeers).map peers) []

def peerListReapStale (now : ℤ) (peers : PeerTable) : PeerTable := fun i =>
  if (peers i).valid && decide (now - (peers i).last_seen > peerTimeoutSecs) then {} else peers i

lemma getAllLoop_eq (max : ℤ) (peers out : List PeerInfo) :
    getAllLoop max peers out = out ++ (peers.filter (·.valid)).take (max.toNat - out.length) := by
  induction peers generalizing out with
  | nil => simp [getAllLoop]
  | cons peer peers ih =>
    rw [getAllLoop]
    split
    · rename_i hlt
      rw [ih]
      cases hv : peer.valid with
      | false => simp [hv]
      | true =>
        obtain ⟨room, hroom⟩ : ∃ room, max.toNat - out.length = room + 1 :=
          ⟨max.toNat - out.length - 1, by omega⟩
        have hroom' : max.toNat - (out ++ [peer]).length = room := by
          rw [List.length_append, List.length_singleton]
          omega
        rw [if_pos rfl, hroom', hroom, List.filter_cons_of_pos hv, List.take_succ_cons,
          List.append_assoc, List.singleton_append]
    · rename_i hlt
      have hroom : max.toNat - out.length = 0 := by omega
      simp [hroom]

end P2PNode
