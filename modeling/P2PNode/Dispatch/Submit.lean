import P2PNode.Dispatch.Client
import P2PNode.Net.Framing
import P2PNode.Worker.Host
import Mathlib.Data.List.TakeWhile

/-!
# Submitting a task

How `run_repl` builds a task (`main.c`), and the way of the task to the worker: `send_task_file`
sends one frame, and `handle_connection` takes it apart into the same file name and data.
-/

namespace P2PNode

open Effect

/-! ### Building the task -/

/-- The bytes that `strncpy(dst, src, n)` writes. -/
def strncpy (src : Bytes) (n : ℕ) : Bytes :=
  (cstr src).take n ++ List.replicate (n - ((cstr src).take n).length) 0

/-- The size check of `read_file`. -/
def readFile (contents : Bytes) : Option Bytes :=
  if contents.length = 0 ∨ maxFileSize < contents.length then none else some contents

/-- What follows the last slash. -/
def basename (path : Bytes) : Bytes := (path.reverse.takeWhile (· ≠ 47)).reverse

/-- The task that `run_repl` fills in: the array is zeroed and then written by `strncpy`. -/
def fillTask (name data : Bytes) : Task where
  filename := strncpy name (maxFilenameLen - 1) ++ [0]
  file_data := data
  file_size := data.length

lemma cstr_append_zeros {s : Bytes} (hs : 0 ∉ s) (t : Bytes) : cstr (s ++ 0 :: t) = s := by
  rw [cstr, List.takeWhile_append_of_pos fun b hb => by
    simpa using fun h : b = 0 => hs (h ▸ hb)]
  simp

lemma cstr_of_not_mem {s : Bytes} (hs : 0 ∉ s) : cstr s = s :=
  List.takeWhile_eq_self_iff.mpr fun b hb => by simpa using fun h : b = 0 => hs (h ▸ hb)

/-- The file name of the task is the name, cut to the array. -/
lemma cstr_filename {name : Bytes} (hn : 0 ∉ name) (data : Bytes) :
    cstr (fillTask name data).filename = name.take (maxFilenameLen - 1) := by
  have hz : List.replicate (maxFilenameLen - 1 - (name.take (maxFilenameLen - 1)).length)
      (0 : UInt8) ++ [0] = 0 :: List.replicate
        (maxFilenameLen - 1 - (name.take (maxFilenameLen - 1)).length) 0 := by
    rw [← List.replicate_succ', List.replicate_succ]
  rw [fillTask, strncpy, cstr_of_not_mem hn, List.append_assoc, hz,
    cstr_append_zeros fun h => hn (List.mem_of_mem_take h)]

/-! ### The payload -/

/-- The layout of a `MSG_TASK_FILE` payload. -/
def taskFileLayout (name data : Bytes) : Bytes :=
  be16 name.length ++ name ++ be32 data.length ++ data

lemma length_taskFileLayout (name data : Bytes) :
    (taskFileLayout name data).length = 2 + name.length + 4 + data.length := by
  simp [taskFileLayout]
  omega

/-- The decoder gives back what the layout was made from; bytes behind it do not matter. -/
lemma decodeTaskFile_layout {name data : Bytes} (hn : name.length < maxFilenameLen)
    (hd : data.length ≤ maxFileSize) (rest : Bytes) {plen : ℕ}
    (hp : (taskFileLayout name data).length ≤ plen) :
    decodeTaskFile (taskFileLayout name data ++ rest) plen = some (name, data) := by
  rw [length_taskFileLayout] at hp
  have hn16 : name.length < 2 ^ 16 := hn.trans (by decide)
  have hd32 : data.length < 2 ^ 32 := hd.trans_lt (by decide)
  have h1 : (taskFileLayout name data ++ rest).take 2 = be16 name.length := by
    simp [taskFileLayout, List.append_assoc]
  have h2 : (taskFileLayout name data ++ rest).drop 2 =
      name ++ (be32 data.length ++ (data ++ rest)) := by
    simp [taskFileLayout, List.append_assoc]
  have h3 : (taskFileLayout name data ++ rest).drop (2 + name.length) =
      be32 data.length ++ (data ++ rest) := by
    rw [← List.drop_drop, h2, List.drop_left]
  have h4 : (taskFileLayout name data ++ rest).drop (2 + name.length + 4) = data ++ rest := by
    rw [← List.drop_drop, h3, List.drop_left' (length_be32 _)]
  simp only [decodeTaskFile, h1, ofBe_be16 hn16]
  rw [if_neg (by omega), if_neg (by omega), h3, List.take_left' (length_be32 _), ofBe_be32 hd32,
    if_neg (by omega), h2, h4, List.take_left, List.take_left]

/-- What `send_task_file` computes for a task of the REPL: the length does not wrap, and the bytes
written are the layout. -/
lemma taskFile_fillTask {name data : Bytes} (hn : 0 ∉ name) (hd : data.length ≤ maxFileSize) :
    taskFileTotal (fillTask name data) =
        2 + (name.take (maxFilenameLen - 1)).length + 4 + data.length ∧
      taskFilePayload (fillTask name data) =
        taskFileLayout (name.take (maxFilenameLen - 1)) data := by
  obtain ⟨s, hs⟩ : ∃ s, s = name.take (maxFilenameLen - 1) := ⟨_, rfl⟩
  have hlen : s.length ≤ 255 := by
    rw [hs, List.length_take]
    exact Nat.min_le_left _ _
  have hmax : maxFileSize = 4194304 := rfl
  have hmod : s.length % 2 ^ 16 = s.length := Nat.mod_eq_of_lt (by omega)
  have hfile : (fillTask name data).filename.take s.length = s := by
    rw [fillTask, strncpy, cstr_of_not_mem hn, ← hs, List.append_assoc, List.take_left]
  rw [taskFileTotal, taskFilePayload, cstr_filename hn, ← hs]
  simp only [hmod, hfile]
  constructor
  · exact Nat.mod_eq_of_lt (by simp only [fillTask]; omega)
  · simp [taskFileLayout, fillTask]

/-! ### The way to the worker -/

/-- What `send_task_file` does with a task of the REPL, unless the schedule ends first. -/
lemma run_sendTaskFile {name data : Bytes} (hn : 0 ∉ name) (hd : data.length ≤ maxFileSize)
    (s : Client) (hs : s.conn.Reliable) :
    let payload := taskFileLayout (name.take (maxFilenameLen - 1)) data
    ((sendTaskFile s.fd (fillTask name data)).run Client.handle s = none ∧
        s.conn.sched.countP SendEvent.moves < (frame msgTaskFile payload).length) ∨
      ∃ conn', (sendTaskFile s.fd (fillTask name data)).run Client.handle s =
        some (0, { s with conn := conn' }) ∧ s.conn.Sent (frame msgTaskFile payload) conn' := by
  intro payload
  obtain ⟨htotal, hpay⟩ := taskFile_fillTask hn hd
  have htake : (taskFilePayload (fillTask name data)).take (taskFileTotal (fillTask name data)) =
      payload := by
    rw [hpay, htotal, ← length_taskFileLayout, List.take_length]
  rcases s.conn.transmit_cases hs s.fd msgTaskFile payload with ⟨h, hst⟩ | ⟨conn', h, hsent⟩
  · refine .inl ⟨?_, hst⟩
    simp [sendTaskFile, DispCall.doMalloc, DispCall.doSendMsg, Client.handle, Client.transmit,
      htake, h]
  · refine .inr ⟨conn', ?_, hsent⟩
    simp [sendTaskFile, DispCall.doMalloc, DispCall.doSendMsg, DispCall.doFree, Client.handle,
      Client.transmit, htake, h]

/-- What `handle_connection` does behind a received task: the task, then the clean-up. -/
def behindTask (body : WorkProg Unit) (payload : Ptr) (cfd : Fd) : WorkProg Unit := do
  body
  WorkCall.doFree (some payload)
  WorkCall.doFree none
  WorkCall.doClose cfd

/-- Whatever `compile_and_stream` does, `handle_connection` is that of this name and this data, with
nothing but the receiving before it and the clean-up behind it. -/
def Host.HandsOver (T : Tools) (h : Host) (ca : ConnArgs) (name data : Bytes) : Prop :=
  ∃ p inb', ∀ body, (handleConnectionWith body ca).run (Host.handle T) h =
    (behindTask (body h.cfd name data) p h.cfd).run (Host.handle T) { h with inb := inb' }

/-- `handle_connection` on the frame of a task: it is blocked in `recv_msg`, or hands exactly the
name and the data to `compile_and_stream`. -/
lemma run_handleConnection_frame {name data : Bytes} (hn : name.length < maxFilenameLen)
    (hd : data.length ≤ maxFileSize) (T : Tools) (ca : ConnArgs) (h : Host)
    (hc : ca.client_fd = h.cfd) (ho : h.connOpen = true)
    (hp : h.inb.pending = frame msgTaskFile (taskFileLayout name data)) :
    ((∀ body, (handleConnectionWith body ca).run (Host.handle T) h = none) ∧
        h.inb.sched.countP RecvEvent.moves ≤ h.inb.pending.length) ∨
      h.HandsOver T ca name data := by
  have hle : (taskFileLayout name data).length ≤ maxPayload := by
    rw [length_taskFileLayout, maxPayload]
    omega
  obtain ⟨hret, hcar, -⟩ := recvResult_of_unframe h.inb.next {}
    (unframe_frame ⟨msgTaskFile, taskFileLayout name data, hle⟩ [])
  rw [List.append_nil] at hret hcar
  have hne : taskFileLayout name data ≠ [] := fun h => by
    simpa [length_taskFileLayout] using congrArg List.length h
  obtain ⟨out, hout⟩ : ∃ out, out = (recvResult h.inb.pending h.inb.next {}).2 := ⟨_, rfl⟩
  rw [← hp] at hret hcar
  rw [← hout] at hcar
  obtain ⟨htype, hlen, hblock⟩ := hcar
  simp only [hne, if_false, Option.map_eq_some_iff] at hblock
  obtain ⟨b, hb, hbytes⟩ := hblock
  have hdec : decodeTaskFile b.bytes out.len = some (name, data) := by
    rw [hbytes, hlen]
    exact decodeTaskFile_layout hn hd [0] le_rfl
  rcases h.inb.receive_cases h.cfd with ⟨hr, hst⟩ | ⟨inb', hr, -⟩
  · refine .inl ⟨fun body => ?_, hst⟩
    simp [handleConnectionWith, WorkCall.doFree, WorkCall.doRecvMsg, Host.handle, Host.receive, hc,
      ho, hr]
  · refine .inr ⟨b.addr, inb', fun body => ?_⟩
    have hres : recvResult h.inb.pending h.inb.next {} = (0, out) := by
      rw [hout, ← hret]
    rw [hres] at hr
    simp [handleConnectionWith, taskFileCase, behindTask, WorkCall.doFree, WorkCall.doRecvMsg,
      Host.handle, Host.receive, hc, ho, hr, htype, hb, hdec]

lemma readFile_eq_some {contents data : Bytes} (h : readFile contents = some data) :
    data = contents ∧ 0 < data.length ∧ data.length ≤ maxFileSize := by
  simp only [readFile] at h
  split at h
  · exact absurd h (by simp)
  · rename_i hc
    obtain rfl : contents = data := Option.some.inj h
    exact ⟨rfl, by omega, by omega⟩

/-- **Task submission round trip.** For a task filled in by the REPL, the payload length does not
wrap, is the number of bytes written and passes the guard of `recv_msg`; the bytes sent make the
worker hand exactly the task's file name and data to `compile_and_stream`. -/
theorem task_submission_round_trip (name contents data : Bytes) (hn : 0 ∉ name)
    (hr : readFile contents = some data) :
    let t := fillTask name data
    let filename := cstr t.filename
    (filename = name.take (maxFilenameLen - 1) ∧ t.file_data = data ∧ t.file_size = data.length) ∧
    (taskFileTotal t = 2 + filename.length + 4 + t.file_size ∧
      taskFileTotal t = (taskFilePayload t).length ∧ taskFileTotal t ≤ maxPayload) ∧
    ∀ s : Client, s.conn.Reliable → s.conn.wire = [] →
      (headerSize + taskFileTotal t ≤ s.conn.sched.countP SendEvent.moves →
        ((sendTaskFile s.fd t).run Client.handle s).isSome) ∧
      ∀ ret s', (sendTaskFile s.fd t).run Client.handle s = some (ret, s') →
        ret = 0 ∧ s'.conn.wire.length = headerSize + taskFileTotal t ∧
        ∀ (T : Tools) (ca : ConnArgs) (h : Host), ca.client_fd = h.cfd → h.connOpen = true →
          h.inb.pending = s'.conn.wire →
          ((∀ body, (handleConnectionWith body ca).run (Host.handle T) h = none) ∧
              h.inb.sched.countP RecvEvent.moves ≤ s'.conn.wire.length) ∨
            h.HandsOver T ca filename t.file_data := by
  intro t filename
  obtain ⟨rfl, -, hd⟩ := readFile_eq_some hr
  obtain ⟨htotal, hpay⟩ := taskFile_fillTask hn hd
  have hname : filename = name.take (maxFilenameLen - 1) := cstr_filename hn data
  have hlen : filename.length < maxFilenameLen := by
    have : maxFilenameLen = 256 := rfl
    rw [hname, List.length_take]
    omega
  rw [← hname] at htotal hpay
  have hmax : maxPayload = maxFileSize + maxFilenameLen + 8 := rfl
  have hframe : (frame msgTaskFile (taskFileLayout filename data)).length =
      headerSize + taskFileTotal t := by
    rw [length_frame, length_taskFileLayout, htotal]
  refine ⟨⟨hname, rfl, rfl⟩, ⟨htotal, ?_, ?_⟩,
    fun s hs hw => ⟨fun hmoves => ?_, fun ret s' hrun => ?_⟩⟩
  · rw [hpay, htotal, length_taskFileLayout]
  · rw [htotal]
    omega
  · rcases run_sendTaskFile hn hd s hs with ⟨-, hst⟩ | ⟨conn', h, -⟩
    · rw [← hname, hframe] at hst
      omega
    · rw [h]
      rfl
  · rcases run_sendTaskFile hn hd s hs with ⟨h, -⟩ | ⟨conn', h, hsent⟩
    · exact absurd (h.symm.trans hrun) (by simp)
    · obtain ⟨rfl, rfl⟩ : 0 = ret ∧ { s with conn := conn' } = s' := by
        simpa using h.symm.trans hrun
      have hwire : conn'.wire = frame msgTaskFile (taskFileLayout filename data) := by
        rw [hsent.wire, hw, List.nil_append, hname]
      refine ⟨rfl, by rw [hwire, hframe], fun T ca g hc ho hp => ?_⟩
      rw [← hp]
      exact run_handleConnection_frame hlen hd T ca g hc ho (hp.trans hwire)

/-- A one-letter file, sent in pieces and received in others. -/
theorem task_submission_round_trip_one :
    let t := fillTask [97, 46, 99] [120]
    let s : Client := {
      fd := 3
      conn := { sched := .intr :: List.replicate 18 (.accept 3) }
      inb := { sched := [], pending := [] } }
    let T : Tools := {
      gcc := fun _ => { out := [], status := .exited 0, bin := some [1], wrote := fun _ => rfl }
      run := fun _ => { out := [], status := .exited 0 } }
    let h (wire : Bytes) : Host := {
      pid := 1, cfd := 4, fopens := [], fwrites := [], pipes := [], forks := [], waits := []
      kills := [], stray := [], reads := [], files := fun _ => none
      conn := { sched := [] }
      inb := { sched := .intr :: List.replicate 19 (.deliver 1), pending := wire } }
    taskFileTotal t = 10 ∧ ∃ s', (sendTaskFile 3 t).run Client.handle s = some (0, s') ∧
      s'.conn.wire.length = 18 ∧ (h s'.conn.wire).HandsOver T ⟨32, 4⟩ [97, 46, 99] [120] := by
  intro t s T h
  obtain ⟨-, ⟨htotal, -, -⟩, hrun⟩ := task_submission_round_trip [97, 46, 99] [120] [120]
    (by decide) (by decide)
  have ht : taskFileTotal t = 10 := htotal
  obtain ⟨hret, hall⟩ := hrun s (by simp [Outbound.Reliable, s]) rfl
  obtain ⟨⟨ret, s'⟩, hs'⟩ := Option.isSome_iff_exists.mp (hret (by decide))
  obtain ⟨rfl, hwire, hworker⟩ := hall ret s' hs'
  have hwire : s'.conn.wire.length = 18 := hwire
  refine ⟨ht, s', hs', hwire, ?_⟩
  -- the schedule of the receiving end is too long for the handler to be blocked
  rcases hworker T ⟨32, 4⟩ (h s'.conn.wire) rfl rfl rfl with ⟨-, hst⟩ | hover
  · rw [hwire] at hst
    exact absurd (show 19 ≤ 18 from hst) (by decide)
  · exact hover

end P2PNode
