import P2PNode.Lib.RwLock
import P2PNode.Peers.Refinement

/-!
# The lock of the peer table (`peer_list.c`)

The functions of `peer_list.c` access by access, each one between its lock and its unlock of
`g_lock`, for any number of threads. A slot is read as a whole and written field by field. The model
of `P2PNode.Peers.PeerList`, in which each function is one step, is what these sections amount to.
-/

namespace P2PNode

open Effect

/-! ### The accesses -/

/-- An assignment to a slot; `clear` is `memset`. -/
inductive SlotAssign where
  | clear
  | ip (text : Bytes)
  | valid
  | numCores (n : ℕ)
  | port (n : ℕ)
  | lastSeen (now : ℤ)
  | loadPct (bits : ℕ)
  | activeTasks (n : ℕ)
  | totalTasks (n : ℕ)
  deriving DecidableEq

def SlotAssign.apply (p : PeerInfo) : SlotAssign → PeerInfo
  | .clear         => {}
  | .ip text       => { p with ip := text }
  | .valid         => { p with valid := true }
  | .numCores n    => { p with num_cores := n }
  | .port n        => { p with port := n }
  | .lastSeen now  => { p with last_seen := now }
  | .loadPct bits  => { p with load_pct := bits }
  | .activeTasks n => { p with active_tasks := n }
  | .totalTasks n  => { p with total_tasks := n }

inductive TableAccess where
  | read (i : Fin maxPeers)
  | assign (i : Fin maxPeers) (f : SlotAssign)
  | time
  deriving DecidableEq

@[reducible] def TableAccess.Ret : TableAccess → Type
  | .read _     => PeerInfo
  | .assign _ _ => Unit
  | .time       => ℤ

instance : ∀ a : TableAccess, DecidableEq a.Ret
  | .read _     => inferInstanceAs (DecidableEq PeerInfo)
  | .assign _ _ => inferInstanceAs (DecidableEq Unit)
  | .time       => inferInstanceAs (DecidableEq ℤ)

abbrev TableProg := Prog TableAccess TableAccess.Ret

namespace TableAccess

def doRead (i : Fin maxPeers) : TableProg PeerInfo := Prog.perform (TableAccess.read i)
def doAssign (i : Fin maxPeers) (f : SlotAssign) : TableProg Unit :=
  Prog.perform (TableAccess.assign i f)
def doTime : TableProg ℤ := Prog.perform TableAccess.time

/-- What an access does while the clock shows `now`. -/
def onTable (now : ℤ) : (a : TableAccess) → PeerTable → a.Ret × PeerTable
  | .read i, t     => (t i, t)
  | .assign i f, t => ((), Function.update t i (f.apply (t i)))
  | .time, t       => (now, t)

/-- The answer is that of the clock. -/
def isTime : TableAccess → Bool
  | .time => true
  | _     => false

end TableAccess

open TableAccess

/-! ### The sections -/

def findSlotLoop (ip : Bytes) : List (Fin maxPeers) → TableProg (Option (Fin maxPeers))
  | [] => return none
  | i :: is => do
    let peer ← doRead i
    if peer.valid && decide (peer.ip = ip) then return some i else findSlotLoop ip is

def findFreeSlotLoop : List (Fin maxPeers) → TableProg (Option (Fin maxPeers))
  | [] => return none
  | i :: is => do
    let peer ← doRead i
    if !peer.valid then return some i else findFreeSlotLoop is

def findSlotSection (ip : Bytes) : TableProg (Option (Fin maxPeers)) :=
  findSlotLoop ip (List.finRange maxPeers)

/-- The end of `peer_list_add`. -/
def announceSection (idx : Fin maxPeers) (port : ℕ) : TableProg Unit := do
  doAssign idx (.port port)
  let now ← doTime
  doAssign idx (.lastSeen now)

def addSection (ip : Bytes) (port : ℕ) : TableProg Unit := do
  match ← findSlotSection ip with
  | some idx => announceSection idx port
  | none =>
    match ← findFreeSlotLoop (List.finRange maxPeers) with
    | none => return ()
    | some idx =>
      doAssign idx .clear
      doAssign idx (.ip (ip.take (inetAddrStrLen - 1)))
      doAssign idx .valid
      doAssign idx (.numCores 1)
      announceSection idx port

def removeSection (ip : Bytes) : TableProg Unit := do
  match ← findSlotSection ip with
  | some idx => doAssign idx .clear
  | none => return ()

def updateLoadSection (ip : Bytes) (resp : LoadResp) : TableProg Unit := do
  match ← findSlotSection ip with
  | some idx =>
    doAssign idx (.loadPct resp.load_pct)
    doAssign idx (.activeTasks resp.active_tasks)
    doAssign idx (.totalTasks resp.total_tasks)
    doAssign idx (.numCores resp.num_cores)
    let now ← doTime
    doAssign idx (.lastSeen now)
  | none => return ()

def touchSection (ip : Bytes) : TableProg Unit := do
  match ← findSlotSection ip with
  | some idx =>
    let now ← doTime
    doAssign idx (.lastSeen now)
  | none => return ()

/-- The loop of `peer_list_init`, the bytes of a slot being set at once. -/
def initSection : List (Fin maxPeers) → TableProg Unit
  | [] => return ()
  | i :: is => do
    doAssign i .clear
    initSection is

def getAllSection (max : ℤ) : List (Fin maxPeers) → List PeerInfo → TableProg (List PeerInfo)
  | [], out => return out
  | i :: is, out =>
    if (out.length : ℤ) < max then do
      let peer ← doRead i
      getAllSection max is (if peer.valid then out ++ [peer] else out)
    else return out

def sweepSection (now : ℤ) : List (Fin maxPeers) → TableProg Unit
  | [] => return ()
  | i :: is => do
    let peer ← doRead i
    if peer.valid && decide (now - peer.last_seen > peerTimeoutSecs) then
      doAssign i .clear
      sweepSection now is
    else sweepSection now is

/-- The slots whose rows `peer_list_print` prints, in their order. -/
def printSection : List (Fin maxPeers) → TableProg (List PeerInfo)
  | [] => return []
  | i :: is => do
    let peer ← doRead i
    let peers ← printSection is
    return if peer.valid then peer :: peers else peers

/-! ### The functions -/

/-- The functions that lock the table; `sweep` is the part of `peer_list_reap_stale` under the lock,
`now` being read before. -/
inductive TableOp where
  | init
  | add (ip : Bytes) (port : ℕ)
  | remove (ip : Bytes)
  | updateLoad (ip : Bytes) (resp : LoadResp)
  | touch (ip : Bytes)
  | sweep (now : ℤ)
  | getAll (max : ℤ)
  | print
  deriving DecidableEq

@[reducible] def TableOp.Ret : TableOp → Type
  | .init           => Unit
  | .add _ _        => Unit
  | .remove _       => Unit
  | .updateLoad _ _ => Unit
  | .touch _        => Unit
  | .sweep _        => Unit
  | .getAll _       => List PeerInfo
  | .print          => List PeerInfo

instance : ∀ o : TableOp, DecidableEq o.Ret
  | .init           => inferInstanceAs (DecidableEq Unit)
  | .add _ _        => inferInstanceAs (DecidableEq Unit)
  | .remove _       => inferInstanceAs (DecidableEq Unit)
  | .updateLoad _ _ => inferInstanceAs (DecidableEq Unit)
  | .touch _        => inferInstanceAs (DecidableEq Unit)
  | .sweep _        => inferInstanceAs (DecidableEq Unit)
  | .getAll _       => inferInstanceAs (DecidableEq (List PeerInfo))
  | .print          => inferInstanceAs (DecidableEq (List PeerInfo))

namespace TableOp

/-- `pthread_rwlock_rdlock` or `pthread_rwlock_wrlock`. -/
def mode : TableOp → LockMode
  | .getAll _ => .read
  | .print    => .read
  | _         => .write

def body : (o : TableOp) → TableProg o.Ret
  | .init               => initSection (List.finRange maxPeers)
  | .add ip port        => addSection ip port
  | .remove ip          => removeSection ip
  | .updateLoad ip resp => updateLoadSection ip resp
  | .touch ip           => touchSection ip
  | .sweep now          => sweepSection now (List.finRange maxPeers)
  | .getAll max         => getAllSection max (List.finRange maxPeers) []
  | .print              => printSection (List.finRange maxPeers)

/-- The function as one step. -/
def atomic (now : ℤ) : (o : TableOp) → PeerTable → o.Ret × PeerTable
  | .init, _               => ((), peerListInit)
  | .add ip port, t        => ((), peerListAdd ip port now t)
  | .remove ip, t          => ((), peerListRemove ip t)
  | .updateLoad ip resp, t => ((), peerListUpdateLoad ip resp now t)
  | .touch ip, t           => ((), peerListTouch ip now t)
  | .sweep now', t         => ((), peerListReapStale now' t)
  | .getAll max, t         => (peerListGetAll max t, t)
  | .print, t              => (peerSlots.entries t, t)

end TableOp

/-! ### What the sections do -/

/-- The accesses while the clock shows `now`. -/
def tableHandle (now : ℤ) (a : TableAccess) (t : PeerTable) : Option (a.Ret × PeerTable) :=
  some (a.onTable now t)

section Sections

variable (now : ℤ) (t : PeerTable)

@[simp] lemma run_doRead (i : Fin maxPeers) :
    (doRead i).run (tableHandle now) t = some (t i, t) := rfl

@[simp] lemma run_doAssign (i : Fin maxPeers) (f : SlotAssign) :
    (doAssign i f).run (tableHandle now) t = some ((), Function.update t i (f.apply (t i))) := rfl

@[simp] lemma run_doTime : doTime.run (tableHandle now) t = some (now, t) := rfl

lemma run_findSlotLoop (ip : Bytes) (is : List (Fin maxPeers)) :
    (findSlotLoop ip is).run (tableHandle now) t =
      some (is.find? fun i => (t i).valid && decide ((t i).ip = ip), t) := by
  induction is with
  | nil => rfl
  | cons i is ih =>
    rw [findSlotLoop, Prog.run_bind, run_doRead, Option.bind_some, List.find?_cons]
    cases (t i).valid && decide ((t i).ip = ip) with
    | true => rfl
    | false => exact ih

@[simp] lemma run_findSlotSection (ip : Bytes) :
    (findSlotSection ip).run (tableHandle now) t = some (findSlot ip t, t) :=
  run_findSlotLoop now t ip _

lemma run_findFreeSlotLoop (is : List (Fin maxPeers)) :
    (findFreeSlotLoop is).run (tableHandle now) t = some (is.find? fun i => !(t i).valid, t) := by
  induction is with
  | nil => rfl
  | cons i is ih =>
    rw [findFreeSlotLoop, Prog.run_bind, run_doRead, Option.bind_some, List.find?_cons]
    cases !(t i).valid with
    | true => rfl
    | false => exact ih

lemma run_announceSection (idx : Fin maxPeers) (port : ℕ) :
    (announceSection idx port).run (tableHandle now) t =
      some ((), Function.update t idx { t idx with port := port, last_seen := now }) := by
  simp [announceSection, SlotAssign.apply]

lemma run_addSection (ip : Bytes) (port : ℕ) :
    (addSection ip port).run (tableHandle now) t = some ((), peerListAdd ip port now t) := by
  rw [addSection, Prog.run_bind, run_findSlotSection, Option.bind_some, peerListAdd]
  cases hf : findSlot ip t with
  | some idx => exact run_announceSection now t idx port
  | none =>
    simp only [Prog.run_bind, run_findFreeSlotLoop, Option.bind_some]
    have hfree : (List.finRange maxPeers).find? (fun i => !(t i).valid) = findFreeSlot t := rfl
    rw [hfree]
    cases findFreeSlot t with
    | none => rfl
    | some idx =>
      simp only [Prog.run_bind, run_doAssign, Option.bind_some, run_announceSection,
        Function.update_self, Function.update_idem]
      rfl

lemma run_removeSection (ip : Bytes) :
    (removeSection ip).run (tableHandle now) t = some ((), peerListRemove ip t) := by
  rw [removeSection, Prog.run_bind, run_findSlotSection, Option.bind_some, peerListRemove]
  cases findSlot ip t with
  | some idx => rfl
  | none => rfl

lemma run_updateLoadSection (ip : Bytes) (resp : LoadResp) :
    (updateLoadSection ip resp).run (tableHandle now) t =
      some ((), peerListUpdateLoad ip resp now t) := by
  rw [updateLoadSection, Prog.run_bind, run_findSlotSection, Option.bind_some, peerListUpdateLoad]
  cases findSlot ip t with
  | some idx => simp [SlotAssign.apply]
  | none => rfl

lemma run_touchSection (ip : Bytes) :
    (touchSection ip).run (tableHandle now) t = some ((), peerListTouch ip now t) := by
  rw [touchSection, Prog.run_bind, run_findSlotSection, Option.bind_some, peerListTouch]
  cases findSlot ip t with
  | some idx => rfl
  | none => rfl

lemma run_initSection (is : List (Fin maxPeers)) :
    (initSection is).run (tableHandle now) t = some ((), fun i => if i ∈ is then {} else t i) := by
  induction is generalizing t with
  | nil => simp [initSection]
  | cons i is ih =>
    rw [initSection, Prog.run_bind, run_doAssign, Option.bind_some, ih]
    congr 2
    funext j
    by_cases hj : j = i
    · simp [hj, SlotAssign.apply]
    · simp [hj]

lemma run_sweepSection (now' : ℤ) (is : List (Fin maxPeers)) :
    (sweepSection now' is).run (tableHandle now) t =
      some ((), fun i => if i ∈ is then peerListReapStale now' t i else t i) := by
  induction is generalizing t with
  | nil => simp [sweepSection]
  | cons i is ih =>
    rw [sweepSection, Prog.run_bind, run_doRead, Option.bind_some]
    by_cases h : ((t i).valid && decide (now' - (t i).last_seen > peerTimeoutSecs)) = true
    · rw [if_pos h, Prog.run_bind, run_doAssign, Option.bind_some, ih]
      congr 2
      funext j
      by_cases hj : j = i
      · subst hj
        simp [SlotAssign.apply, peerListReapStale, h]
      · simp [hj, peerListReapStale]
    · rw [if_neg h, ih]
      congr 2
      funext j
      by_cases hj : j = i
      · subst hj
        simp [peerListReapStale, h]
      · simp [hj]

lemma run_getAllSection (max : ℤ) (is : List (Fin maxPeers)) (out : List PeerInfo) :
    (getAllSection max is out).run (tableHandle now) t =
      some (getAllLoop max (is.map t) out, t) := by
  induction is generalizing out with
  | nil => rfl
  | cons i is ih =>
    rw [getAllSection, List.map_cons, getAllLoop]
    split
    · rw [Prog.run_bind, run_doRead, Option.bind_some, ih]
    · rfl

lemma run_printSection (is : List (Fin maxPeers)) :
    (printSection is).run (tableHandle now) t =
      some ((is.map t).filter fun p => p.valid, t) := by
  induction is with
  | nil => rfl
  | cons i is ih =>
    simp only [printSection, Prog.run_bind, run_doRead, Option.bind_some, ih, Prog.pure_def,
      Prog.run_ret]
    cases hv : (t i).valid with
    | true => simp [hv]
    | false => simp [hv]

/-- Each section does what the function does as one step. -/
lemma run_body (o : TableOp) :
    o.body.run (tableHandle now) t = some (o.atomic now t) := by
  cases o with
  | init =>
    simp only [TableOp.body, TableOp.atomic, run_initSection, List.mem_finRange, if_true]
    rfl
  | add ip port => exact run_addSection now t ip port
  | remove ip => exact run_removeSection now t ip
  | updateLoad ip resp => exact run_updateLoadSection now t ip resp
  | touch ip => exact run_touchSection now t ip
  | sweep now' => simp [TableOp.body, TableOp.atomic, run_sweepSection]
  | getAll max => exact run_getAllSection now t max _ _
  | print => exact run_printSection now t _

end Sections

/-! ### Which accesses the sections make -/

/-- The access reads a slot. -/
def TableAccess.IsRead : TableAccess → Prop
  | .read _ => True
  | _       => False

namespace TableAccess

lemma IsRead.not_time {a : TableAccess} (h : a.IsRead) : ¬ a.isTime = true := by
  cases a with
  | read i => exact Bool.false_ne_true
  | _ => exact h.elim

lemma IsRead.quiet {a : TableAccess} (h : a.IsRead) (now : ℤ) (t : PeerTable) :
    (a.onTable now t).2 = t := by
  cases a with
  | read i => rfl
  | _ => exact h.elim

/-- The clock is read once at most. -/
abbrev TimedOnce {α : Type} (p : TableProg α) : Prop := p.Once fun a => a.isTime = true

/-- The clock is not read. -/
abbrev Untimed {α : Type} (p : TableProg α) : Prop := p.Only fun a => ¬ a.isTime = true

end TableAccess

section Calls

variable {ip : Bytes}

lemma only_findSlotLoop (is : List (Fin maxPeers)) : (findSlotLoop ip is).Only IsRead := by
  induction is with
  | nil => trivial
  | cons i is ih =>
    refine (Prog.only_perform trivial).bind fun peer => ?_
    split
    · trivial
    · exact ih

lemma only_findFreeSlotLoop (is : List (Fin maxPeers)) : (findFreeSlotLoop is).Only IsRead := by
  induction is with
  | nil => trivial
  | cons i is ih =>
    refine (Prog.only_perform trivial).bind fun peer => ?_
    split
    · trivial
    · exact ih

lemma only_getAllSection (max : ℤ) (is : List (Fin maxPeers)) (out : List PeerInfo) :
    (getAllSection max is out).Only IsRead := by
  induction is generalizing out with
  | nil => trivial
  | cons i is ih =>
    rw [getAllSection]
    split
    · exact (Prog.only_perform trivial).bind fun peer => ih _
    · trivial

lemma only_printSection (is : List (Fin maxPeers)) : (printSection is).Only IsRead := by
  induction is with
  | nil => trivial
  | cons i is ih => exact (Prog.only_perform trivial).bind fun peer => ih.bind fun peers => trivial

lemma untimed_doRead (i : Fin maxPeers) : Untimed (doRead i) :=
  Prog.only_perform Bool.false_ne_true

lemma untimed_doAssign (i : Fin maxPeers) (f : SlotAssign) : Untimed (doAssign i f) :=
  Prog.only_perform Bool.false_ne_true

lemma timedOnce_announceSection (idx : Fin maxPeers) (port : ℕ) :
    TimedOnce (announceSection idx port) :=
  (untimed_doAssign _ _).bind_once fun _ => .inr fun _ => untimed_doAssign _ _

lemma untimed_sweepSection (now : ℤ) (is : List (Fin maxPeers)) :
    Untimed (sweepSection now is) := by
  induction is with
  | nil => trivial
  | cons i is ih =>
    refine (untimed_doRead i).bind fun peer => ?_
    split
    · exact (untimed_doAssign _ _).bind fun _ => ih
    · exact ih

lemma untimed_initSection (is : List (Fin maxPeers)) : Untimed (initSection is) := by
  induction is with
  | nil => trivial
  | cons i is ih => exact (untimed_doAssign _ _).bind fun _ => ih

lemma timedOnce_addSection (ip : Bytes) (port : ℕ) : TimedOnce (addSection ip port) := by
  refine ((only_findSlotLoop _).mono fun _ h => h.not_time).bind_once fun idx => ?_
  cases idx with
  | some idx => exact timedOnce_announceSection idx port
  | none =>
    refine ((only_findFreeSlotLoop _).mono fun _ h => h.not_time).bind_once fun idx => ?_
    cases idx with
    | none => trivial
    | some idx =>
      refine (untimed_doAssign _ _).bind_once fun _ => (untimed_doAssign _ _).bind_once fun _ => ?_
      refine (untimed_doAssign _ _).bind_once fun _ => (untimed_doAssign _ _).bind_once fun _ => ?_
      exact timedOnce_announceSection idx port

lemma timedOnce_updateLoadSection (ip : Bytes) (resp : LoadResp) :
    TimedOnce (updateLoadSection ip resp) := by
  refine ((only_findSlotLoop _).mono fun _ h => h.not_time).bind_once fun idx => ?_
  cases idx with
  | none => trivial
  | some idx =>
    refine (untimed_doAssign _ _).bind_once fun _ => (untimed_doAssign _ _).bind_once fun _ => ?_
    refine (untimed_doAssign _ _).bind_once fun _ => (untimed_doAssign _ _).bind_once fun _ => ?_
    exact .inr fun _ => untimed_doAssign _ _

lemma timedOnce_touchSection (ip : Bytes) : TimedOnce (touchSection ip) := by
  refine ((only_findSlotLoop _).mono fun _ h => h.not_time).bind_once fun idx => ?_
  cases idx with
  | none => trivial
  | some idx => exact .inr fun _ => untimed_doAssign _ _

lemma untimed_removeSection (ip : Bytes) : Untimed (removeSection ip) := by
  refine ((only_findSlotLoop _).mono fun _ h => h.not_time).bind fun idx => ?_
  cases idx with
  | none => trivial
  | some idx => exact untimed_doAssign _ _

/-- No function reads the clock twice. -/
lemma timedOnce_body (o : TableOp) : TimedOnce o.body := by
  cases o with
  | init => exact (untimed_initSection _).once
  | add ip port => exact timedOnce_addSection ip port
  | remove ip => exact (untimed_removeSection ip).once
  | updateLoad ip resp => exact timedOnce_updateLoadSection ip resp
  | touch ip => exact timedOnce_touchSection ip
  | sweep now => exact (untimed_sweepSection now _).once
  | getAll max => exact ((only_getAllSection max _ _).mono fun _ h => h.not_time).once
  | print => exact ((only_printSection _).mono fun _ h => h.not_time).once

/-- Under the lock for reading the table is only read. -/
lemma only_body_of_read {o : TableOp} (h : o.mode = .read) : o.body.Only IsRead := by
  cases o with
  | getAll max => exact only_getAllSection max _ _
  | print => exact only_printSection _
  | _ => cases h

end Calls

/-! ### The table and its threads -/

/-- What a thread asks the clock outside of the lock: the reaper does before it sweeps. -/
inductive ClockLook where
  | time
  deriving DecidableEq

/-- `g_peers` under `g_lock`; the world is the clock, which may be set to any time. -/
def lockedTable : LockObject TableAccess TableAccess.Ret TableOp TableOp.Ret ClockLook (fun _ => ℤ)
    PeerTable ℤ ℤ where
  access now a t := a.onTable now t
  samples := TableAccess.isTime
  look now _ := now
  env _ now := some now
  mode := TableOp.mode
  body := TableOp.body
  atomic now o t := o.atomic now t
  steady := by
    intro a ha now now' t
    cases a with
    | time => cases ha
    | _ => rfl
  spec now o t := run_body now t o
  once := timedOnce_body
  quiet o ho := (only_body_of_read ho).mono fun _ h now t => h.quiet now t

/-- Threads that use the table: any programs of calls of its functions. -/
abbrev TableUsers := LockObject.Users TableOp ClockLook TableOp.Ret (fun _ => ℤ)

/-- The threads before their first step. -/
abbrev tableStart (users : TableUsers) (clock : ℤ) :=
  lockedTable.fineStart users clock peerListInit

/-- The same threads, each function being one step. -/
abbrev tableStepStart (users : TableUsers) (clock : ℤ) :
    Conf (UserCall TableOp ClockLook) (UserCall.Ret TableOp.Ret fun _ => ℤ)
      (Unlocked PeerTable ℤ) :=
  LockObject.coarseStart users clock peerListInit

section Runs

variable {users : TableUsers} {clock : ℤ}
  {s : Conf (LockCall TableAccess ClockLook) (LockCall.Ret TableAccess.Ret fun _ => ℤ)
    (Locked PeerTable ℤ)}

/-- Each function is one step: whatever is reached access by access is reached function by function,
with the same clock, with the same table while no thread writes, and with the same left to do for
each thread outside of its sections. -/
theorem peer_list_functions_atomic
    (hr : lockedTable.fine.Reach Conc.anyMove (tableStart users clock) s) :
    ∃ t, lockedTable.coarse.Reach Conc.anyMove (tableStepStart users clock) t ∧
      t.world.world = s.world.world ∧ (s.world.writer = none → t.world.mem = s.world.mem) ∧
      ∀ i p, s.threads[i]? = some p → i ∉ s.world.readers → s.world.writer ≠ some i →
        ∃ q, t.threads[i]? = some q ∧ p = q.expand lockedTable.code := by
  obtain ⟨t, ht, hsim⟩ := LockObject.simulates hr
  refine ⟨t, ht, hsim.world, hsim.sound.mem, ?_⟩
  intro i p hp hr hw
  obtain ⟨q, hq, hmatch⟩ := hsim.exists_thread hp
  exact ⟨q, hq, hmatch.eq_expand hr hw⟩

lemma SlotAssign.exists_apply_ne (f : SlotAssign) : ∃ p, f.apply p ≠ p := by
  cases f with
  | clear => exact ⟨{ valid := true }, by simp [SlotAssign.apply]⟩
  | ip text => exact ⟨{ ip := 0 :: text }, by simp [SlotAssign.apply]⟩
  | valid => exact ⟨{}, by simp [SlotAssign.apply]⟩
  | numCores n => exact ⟨{ num_cores := n + 1 }, by simp [SlotAssign.apply]⟩
  | port n => exact ⟨{ port := n + 1 }, by simp [SlotAssign.apply]⟩
  | lastSeen now => exact ⟨{ last_seen := now + 1 }, by simp [SlotAssign.apply]⟩
  | loadPct bits => exact ⟨{ load_pct := bits + 1 }, by simp [SlotAssign.apply]⟩
  | activeTasks n => exact ⟨{ active_tasks := n + 1 }, by simp [SlotAssign.apply]⟩
  | totalTasks n => exact ⟨{ total_tasks := n + 1 }, by simp [SlotAssign.apply]⟩

/-- An assignment changes some table. -/
lemma not_assign_of_quiet {a : TableAccess} (h : lockedTable.Quiet a) (i : Fin maxPeers)
    (f : SlotAssign) : a ≠ .assign i f := by
  rintro rfl
  obtain ⟨p, hp⟩ := f.exists_apply_ne
  have hsame := congrFun (h 0 fun _ => p) i
  simp only [lockedTable, onTable, Function.update_self] at hsame
  exact hp hsame

/-- Two threads: one discovers the peer `1`, the other takes the peers down. -/
def twoUsers : TableUsers :=
  [.call (.op (.add [49] 7777)) fun _ => .ret (), .call (.op (.getAll maxPeers)) fun _ => .ret ()]

/-- The first thread is inside of its section, and the clock has changed. -/
theorem peer_list_functions_atomic_inside : ∃ s,
    lockedTable.fine.Reach Conc.anyMove (tableStart twoUsers 1000) s ∧
      (s.world.writer = some 0 ∧ s.world.world = 1001) ∧
      ∃ t, lockedTable.coarse.Reach Conc.anyMove (tableStepStart twoUsers 1000) t ∧
        t.world.world = s.world.world ∧ (s.world.writer = none → t.world.mem = s.world.mem) ∧
        ∀ i p, s.threads[i]? = some p → i ∉ s.world.readers → s.world.writer ≠ some i →
          ∃ q, t.threads[i]? = some q ∧ p = q.expand lockedTable.code := by
  have hplay : (lockedTable.fine.play Conc.anyMove
      [.call 0 (.lock .write) (), .call 0 (.access (.read ⟨0, by decide⟩)) {}, .env (1001 : ℤ)]
      (tableStart twoUsers 1000)).map (fun s => (s.world.writer, s.world.world)) =
        some (some 0, 1001) := by decide +kernel
  obtain ⟨s, hs, hb⟩ := Conc.exists_reach_of_play _ hplay
  exact ⟨s, hs, Prod.mk.inj hb, peer_list_functions_atomic hs⟩

/-- No two threads are about to access the table while one of them writes. -/
theorem peer_list_no_data_race
    (hr : lockedTable.fine.Reach Conc.anyMove (tableStart users clock) s) {i j : ℕ} (hij : i ≠ j)
    {a b : TableAccess} {f : a.Ret → Prog (LockCall TableAccess ClockLook) _ Unit}
    {g : b.Ret → Prog (LockCall TableAccess ClockLook) _ Unit}
    (hi : s.threads[i]? = some (.call (.access a) f))
    (hj : s.threads[j]? = some (.call (.access b) g)) :
    ∀ k h, a ≠ .assign k h ∧ b ≠ .assign k h := by
  obtain ⟨t, -, hsim⟩ := LockObject.simulates hr
  obtain ⟨ha, hb⟩ := hsim.quiet_of_two hij hi hj
  exact fun k h => ⟨not_assign_of_quiet ha k h, not_assign_of_quiet hb k h⟩

/-- Two threads that read the table at the same time. -/
def twoReaders : TableUsers :=
  [.call (.op .print) fun _ => .ret (), .call (.op (.getAll maxPeers)) fun _ => .ret ()]

/-- Both readers are about to read the first slot. -/
theorem peer_list_no_data_race_reading : ∃ s a b,
    lockedTable.fine.Reach Conc.anyMove (tableStart twoReaders 1000) s ∧
      (∃ f g, s.threads[0]? = some (.call (.access a) f) ∧
        s.threads[1]? = some (.call (.access b) g)) ∧
      ∀ k h, a ≠ .assign k h ∧ b ≠ .assign k h := by
  have h₀ : lockedTable.fine.Reach Conc.anyMove (tableStart twoReaders 1000) _ :=
    .move .start trivial (Conc.next_call (i := 0) (c := .lock .read) (r := ()) rfl rfl rfl)
  have h₁ := h₀.move trivial (Conc.next_call (i := 1) (c := .lock .read) (r := ()) rfl rfl rfl)
  exact ⟨_, _, _, h₁, ⟨_, _, rfl, rfl⟩, peer_list_no_data_race h₁ Nat.zero_ne_one rfl rfl⟩

/-- As long as some thread is not done, some thread can go on. -/
theorem peer_list_no_deadlock
    (hr : lockedTable.fine.Reach Conc.anyMove (tableStart users clock) s) {i : ℕ}
    {p : Prog (LockCall TableAccess ClockLook) _ Unit} (hi : s.threads[i]? = some p)
    (hret : p ≠ .ret ()) (hspin : p ≠ .spin) :
    ∃ j c r s', lockedTable.fine.next s (.call j c r) = some s' := by
  obtain ⟨t, -, hsim⟩ := LockObject.simulates hr
  exact hsim.exists_next hi hret hspin

/-- One thread is inside of its section, the other waits for the lock. -/
theorem peer_list_no_deadlock_waiting : ∃ s,
    lockedTable.fine.Reach Conc.anyMove (tableStart twoUsers 1000) s ∧
      (∃ f, s.threads[1]? = some (.call (.lock .read) f) ∧
        lockedTable.fine.next s (.call 1 (.lock .read) ()) = none) ∧
      ∃ j c r s', lockedTable.fine.next s (.call j c r) = some s' := by
  have h₀ : lockedTable.fine.Reach Conc.anyMove (tableStart twoUsers 1000) _ :=
    .move .start trivial (Conc.next_call (i := 0) (c := .lock .write) (r := ()) rfl rfl rfl)
  exact ⟨_, h₀, ⟨_, rfl, rfl⟩, peer_list_no_deadlock (i := 1) h₀ rfl nofun nofun⟩

end Runs

/-! ### The table as a map -/

/-- The call names addresses as `inet_ntop` yields them. -/
def TableOp.Named : UserCall TableOp ClockLook → Prop
  | .op (.add ip _)        => ∃ x : Ip, x.text = ip
  | .op (.remove ip)       => ∃ x : Ip, x.text = ip
  | .op (.updateLoad ip _) => ∃ x : Ip, x.text = ip
  | .op (.touch ip)        => ∃ x : Ip, x.text = ip
  | _                      => True

/-- A function makes of the table what one operation does, or nothing, or sets it back. -/
lemma exists_ops_atomic {o : TableOp} (h : TableOp.Named (.op o)) (now : ℤ) (ops : List PeerOp) :
    ∃ ops', (o.atomic now (PeerOp.runTable ops)).2 = PeerOp.runTable ops' := by
  have hstep (op : PeerOp) : ∃ ops', op.onTable (PeerOp.runTable ops) = PeerOp.runTable ops' :=
    ⟨ops ++ [op], by rw [PeerOp.runTable, PeerOp.runTable, List.foldl_append]; rfl⟩
  cases o with
  | init => exact ⟨[], rfl⟩
  | add ip port =>
    obtain ⟨x, rfl⟩ := h
    exact hstep (.add x port now)
  | remove ip =>
    obtain ⟨x, rfl⟩ := h
    exact hstep (.remove x)
  | updateLoad ip resp =>
    obtain ⟨x, rfl⟩ := h
    exact hstep (.updateLoad x resp now)
  | touch ip =>
    obtain ⟨x, rfl⟩ := h
    exact hstep (.touch x now)
  | sweep now' => exact hstep (.reapStale now')
  | getAll max => exact ⟨ops, rfl⟩
  | print => exact ⟨ops, rfl⟩

/-- Access by access, whatever the threads do: while no thread writes the table is a bounded map,
that of some sequence of whole operations. -/
theorem peer_table_is_map {users : TableUsers} {clock : ℤ}
    {s : Conf (LockCall TableAccess ClockLook) (LockCall.Ret TableAccess.Ret fun _ => ℤ)
      (Locked PeerTable ℤ)}
    (hnamed : ∀ p ∈ users, p.Only TableOp.Named)
    (hr : lockedTable.fine.Reach Conc.anyMove (tableStart users clock) s)
    (hw : s.world.writer = none) :
    ∃ ops, s.world.mem = PeerOp.runTable ops ∧
      (∀ ip, s.world.mem.lookup ip = (PeerOp.runMap ops).get ip) ∧
      (∀ i j, (s.world.mem i).valid → (s.world.mem j).valid →
        (s.world.mem i).ip = (s.world.mem j).ip → i = j) ∧
      ∀ i, (s.world.mem i).valid = false → s.world.mem i = {} := by
  obtain ⟨t, ht, hsim⟩ := LockObject.simulates hr
  have hcoarse : ∃ ops, t.world.mem = PeerOp.runTable ops := by
    refine (ht.of_only (I := fun w => ∃ ops, w.mem = PeerOp.runTable ops) (fun _ _ => rfl) hnamed
      ⟨[], rfl⟩ ?_ ?_).2
    · rintro w i c r w' ⟨ops, hops⟩ hc hcall
      cases c with
      | look x =>
        simp only [LockObject.coarse, LockObject.unlockedCall] at hcall
        split at hcall
        · cases hcall
          exact ⟨ops, hops⟩
        · cases hcall
      | op o =>
        simp only [LockObject.coarse, LockObject.unlockedCall] at hcall
        split at hcall
        · cases hcall
          rw [hops]
          exact exists_ops_atomic hc _ ops
        · cases hcall
    · rintro w e w' ⟨ops, hops⟩ henv
      cases henv
      exact ⟨ops, hops⟩
  obtain ⟨ops, hops⟩ := hcoarse
  have hmem : s.world.mem = PeerOp.runTable ops := (hsim.sound.mem hw).symm.trans hops
  have hrep := represents_run ops
  rw [← hmem] at hrep
  exact ⟨ops, hmem, hrep.read_eq, hrep.ok.key_inj, hrep.ok.dead_blank⟩

/-- The first thread has added its peer and left its section. -/
def addMoves : List (Move (LockCall TableAccess ClockLook)
    (LockCall.Ret TableAccess.Ret fun _ => ℤ) ℤ) :=
  .call 0 (.lock .write) () ::
    ((List.finRange maxPeers).map (fun i => .call 0 (.access (.read i)) {}) ++
      [.call 0 (.access (.read firstSlot)) {}, .call 0 (.access (.assign firstSlot .clear)) (),
        .call 0 (.access (.assign firstSlot (.ip [49]))) (),
        .call 0 (.access (.assign firstSlot .valid)) (),
        .call 0 (.access (.assign firstSlot (.numCores 1))) (),
        .call 0 (.access (.assign firstSlot (.port 7777))) (), .call 0 (.access .time) (1000 : ℤ),
        .call 0 (.access (.assign firstSlot (.lastSeen 1000))) (), .call 0 .unlock ()])

/-- The second thread is inside of its section and finds the peer that the first one added. -/
theorem peer_table_is_map_inside : ∃ s,
    lockedTable.fine.Reach Conc.anyMove (tableStart twoUsers 1000) s ∧
      (s.world.writer = none ∧ s.world.readers = [1]) ∧
      s.world.mem firstSlot =
        { valid := true, ip := [49], port := 7777, num_cores := 1, last_seen := 1000 } ∧
      ∃ ops, s.world.mem = PeerOp.runTable ops ∧
        (∀ ip, s.world.mem.lookup ip = (PeerOp.runMap ops).get ip) ∧
        (∀ i j, (s.world.mem i).valid → (s.world.mem j).valid →
          (s.world.mem i).ip = (s.world.mem j).ip → i = j) ∧
        ∀ i, (s.world.mem i).valid = false → s.world.mem i = {} := by
  have hnamed : ∀ p ∈ twoUsers, p.Only TableOp.Named := by
    intro p hp
    rcases List.mem_cons.1 hp with rfl | hp
    · exact ⟨⟨⟨[49], by decide, by decide, by decide⟩, rfl⟩, fun _ => trivial⟩
    · rw [List.mem_singleton.1 hp]
      exact ⟨trivial, fun _ => trivial⟩
  have hplay : (lockedTable.fine.play Conc.anyMove (addMoves ++ [.call 1 (.lock .read) ()])
      (tableStart twoUsers 1000)).map
        (fun s => ((s.world.writer, s.world.readers), s.world.mem firstSlot)) =
      some ((none, [1]),
        { valid := true, ip := [49], port := 7777, num_cores := 1, last_seen := 1000 }) := by
    decide +kernel
  obtain ⟨s, hs, hb⟩ := Conc.exists_reach_of_play _ hplay
  obtain ⟨hlock, hmem⟩ := Prod.mk.inj hb
  exact ⟨s, hs, Prod.mk.inj hlock, hmem, peer_table_is_map hnamed hs (Prod.mk.inj hlock).1⟩

end P2PNode
