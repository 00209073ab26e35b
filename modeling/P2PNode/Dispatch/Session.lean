import P2PNode.Dispatch.Verdict
import P2PNode.Lib.Channel
import P2PNode.Lib.RwLock
import P2PNode.Net.Exchange
import P2PNode.Worker.Streaming

/-!
# A session of a dispatcher and a worker

The two ends of a task connection at the same time: `dispatch` from the connection on, and
`handle_connection`, each call of `send_msg` and `recv_msg` being carried out send by send and
receive by receive. Each direction of the connection holds a bounded number of bytes. What the
compiler and the binary write, how they end, and how the other calls end is left open.
-/

namespace P2PNode

open Effect

/-! ### The programs -/

/-- `dispatch` from the connection on. -/
def runTask (rounds : ℕ) (fd : Fd) (task : Task) : DispProg ℤ := do
  let send_ret ← sendTaskFile fd task
  if send_ret < 0 then
    DispCall.doClose fd
    return -1
  else
    let exit_code ← receiveOutput rounds fd
    DispCall.doClose fd
    return exit_code

lemma deliver_eq (rounds : ℕ) (task : Task) (use_local : Bool) (best : Best) (local_ip : Bytes)
    (own_port : ℕ) :
    deliver rounds task use_local best local_ip own_port =
      connectTarget use_local best local_ip own_port >>= fun fd =>
        if fd < 0 then return -1 else runTask rounds fd task := rfl

/-- The two ends. -/
inductive Party where
  | dispatcher
  | worker
  deriving DecidableEq

/-- The calls on the connection and on the memory for messages, each with its party; the other calls
of the two; the `fwrite` to the standard output of the dispatcher, which returns how many bytes it
has written; the line with the exit code in `run_repl`. -/
inductive SessCall where
  | net (p : Party) (c : NetCall)
  | disp (c : DispCall)
  | work (c : WorkCall)
  | print (data : Bytes)
  | segfault
  | printExit (rc : ℤ)
  deriving DecidableEq

@[reducible] def SessCall.Ret : SessCall → Type
  | .net _ c     => c.Ret
  | .disp c      => c.Ret
  | .work c      => c.Ret
  | .print _     => ℕ
  | .segfault    => Unit
  | .printExit _ => Unit

abbrev SessProg := Prog SessCall SessCall.Ret

/-- A program of one of the parties that works on the connection itself. -/
def onNet {α : Type} (p : Party) (prog : NetProg α) : SessProg α := prog.embed (.net p) fun _ r => r

/-- The calls of the dispatcher; what `fwrite` returns is ignored. -/
def dispCall (rounds : ℕ) : (c : DispCall) → SessProg c.Ret
  | .sendMsg fd type payload =>
    onNet .dispatcher (sendMsg rounds fd type (some payload) payload.length)
  | .recvMsg fd => onNet .dispatcher (recvMsg rounds fd {})
  | .fwriteStdout data => .call (.print data) fun _ => .ret ()
  | c => .call (.disp c) .ret

/-- The calls of the worker. -/
def workCall (rounds : ℕ) : (c : WorkCall) → SessProg c.Ret
  | .sendMsg fd type payload =>
    onNet .worker (sendMsg rounds fd type (some payload) payload.length)
  | .recvMsg fd => onNet .worker (recvMsg rounds fd {})
  | .segfault => .call .segfault fun _ => .spin
  | c => .call (.work c) .ret

/-! ### The connection -/

/-- The task, the descriptors of the connection on either side, and the number of bytes that each
direction holds. -/
structure Session where
  task : Task
  fd : Fd
  ca : ConnArgs
  upCap : ℕ
  downCap : ℕ

/-- The two directions of the connection; what the dispatcher has passed to `fwrite` for its
standard output, what this has written, and the exit code that was printed; what the worker has read
from its children so far, read by read, and the exit code that it has made of its last `waitpid`;
the child that it has not waited for, and how the last child that it waited for has ended. -/
structure SessWorld where
  up : Channel UInt8
  down : Channel UInt8
  passed : Bytes := []
  stdout : Bytes := []
  exit_code : Option ℤ := none
  output : List Bytes := []
  made : Option ℤ := none
  child : Option ℤ := none
  status : Option ℤ := none

/-- `send` on a direction; an error is final. -/
def sendOn (c : Channel UInt8) (buf : Bytes) : SendRet → Option (Channel UInt8)
  | .intr   => some c
  | .err    => some { c with dead := true }
  | .sent n => if n ≤ buf.length then c.put (buf.take n) else none

/-- `recv` on a direction; it waits until there are bytes or the sender has closed its end. -/
def recvOn (c : Channel UInt8) (len : ℕ) : RecvRet → Option (Channel UInt8)
  | .intr      => some c
  | .err       => some c
  | .data []   => if c.transit = [] ∧ c.closed = true then some c else none
  | .data (b :: bs) => if (b :: bs).length ≤ len then c.take (b :: bs) else none

/-- `fwrite` writes the beginning of the bytes, all of them unless it fails. -/
def SessWorld.print (w : SessWorld) (data : Bytes) (n : ℕ) : Option SessWorld :=
  if n ≤ data.length then
    some { w with passed := w.passed ++ data, stdout := w.stdout ++ data.take n }
  else none

/-- `waitpid` for a child gives the word with which it ends; without one it fails, and the word is
any. -/
def SessWorld.waitpid (w : SessWorld) (pid : ℤ) (word : ℕ) : SessWorld :=
  { w with
    made := some (childExit word)
    child := if w.child = some pid then none else w.child
    status := if w.child = some pid then some (childExit word) else w.status }

namespace Session

variable (S : Session)

def net (w : SessWorld) : Party → (c : NetCall) → c.Ret → Option SessWorld
  | .dispatcher, .send fd buf, r =>
    if fd = S.fd then (sendOn w.up buf r).map fun c => { w with up := c } else none
  | .dispatcher, .recv fd len, r =>
    if fd = S.fd then (recvOn w.down len r).map fun c => { w with down := c } else none
  | .worker, .send fd buf, r =>
    if fd = S.ca.client_fd then (sendOn w.down buf r).map fun c => { w with down := c } else none
  | .worker, .recv fd len, r =>
    if fd = S.ca.client_fd then (recvOn w.up len r).map fun c => { w with up := c } else none
  | _, .malloc _, _ => some w
  | _, .free _, _   => some w

def disp (w : SessWorld) : (c : DispCall) → c.Ret → Option SessWorld
  | .sock (.close fd), _ =>
    if fd = S.fd then
      some { w with up := { w.up with closed := true }, down := { w.down with gone := true } }
    else some w
  | _, _ => some w

/-- The pipes of the worker are other descriptors than the connection, on which the programs that it
runs write nothing. -/
def work (w : SessWorld) : (c : WorkCall) → c.Ret → Option SessWorld
  | .read _ size, .data bs =>
    if bs.length ≤ size then
      some (if bs = [] then w else { w with output := w.output ++ [bs] })
    else none
  | .fork _, (pid : ℤ) => some { w with child := if 0 < pid then some pid else none }
  | .waitpid pid, (word : ℕ) => some (w.waitpid pid word)
  | .pipe, pipefd =>
    if pipefd.rd ≠ S.ca.client_fd ∧ pipefd.wr ≠ S.ca.client_fd then some w else none
  | .close fd, _ =>
    if fd = S.ca.client_fd then
      some { w with down := { w.down with closed := true }, up := { w.up with gone := true } }
    else some w
  | _, _ => some w

def call (w : SessWorld) (_ : ℕ) : (c : SessCall) → c.Ret → Option SessWorld
  | .net p c, r      => S.net w p c r
  | .disp c, r       => S.disp w c r
  | .work c, r       => S.work w c r
  | .print data, n   => w.print data n
  | .segfault, _     => some w
  | .printExit rc, _ => some { w with exit_code := some rc }

def sys : Conc SessCall SessCall.Ret SessWorld Empty where
  call := S.call
  env := fun _ e => e.elim
  spawn := fun _ _ => none

/-- The dispatcher, with the line that `run_repl` prints at the end. -/
def dispatcher (rounds : ℕ) : SessProg Unit := do
  let rc ← (runTask rounds S.fd S.task).expand (dispCall rounds)
  Prog.perform (SessCall.printExit rc)

def worker (rounds : ℕ) : SessProg Unit :=
  (handleConnection rounds S.ca).expand (workCall rounds)

/-- The connection was accepted, and nothing was sent yet. -/
def start (rounds : ℕ) : Conf SessCall SessCall.Ret SessWorld where
  threads := [S.dispatcher rounds, S.worker rounds]
  world := { up := { cap := S.upCap }, down := { cap := S.downCap } }

/-! ### What does not fail -/

/-- No `fork` fails. -/
def Forks (_ : SessWorld) : Move SessCall SessCall.Ret Empty → Prop
  | .call _ (.work (.fork _)) (pid : ℤ) => 0 < pid
  | _ => True

instance (w : SessWorld) (m : Move SessCall SessCall.Ret Empty) : Decidable (Forks w m) := by
  unfold Forks
  split
  · exact Int.decLt _ _
  · exact .isTrue trivial

/-- Every `fwrite` to the standard output of the dispatcher writes all bytes. -/
def Writes (_ : SessWorld) : Move SessCall SessCall.Ret Empty → Prop
  | .call _ (.print data) (n : ℕ) => n = data.length
  | _ => True

instance (w : SessWorld) (m : Move SessCall SessCall.Ret Empty) : Decidable (Writes w m) := by
  unfold Writes
  split
  · exact Nat.decEq _ _
  · exact .isTrue trivial

/-- No `fork` fails, and `fwrite` writes all bytes. -/
def Runs (w : SessWorld) (m : Move SessCall SessCall.Ret Empty) : Prop := Forks w m ∧ Writes w m

instance (w : SessWorld) (m : Move SessCall SessCall.Ret Empty) : Decidable (Runs w m) :=
  inferInstanceAs (Decidable (_ ∧ _))

/-! ### What a call can do -/

section Cases

variable {S} {w w' : SessWorld}

/-- A call on the connection changes only its two directions. -/
lemma net_cases {p : Party} {c : NetCall} {r : c.Ret} (hw : S.net w p c r = some w') :
    ∃ up down, w' = { w with up := up, down := down } := by
  cases c with
  | malloc size =>
    cases p with
    | _ => exact ⟨w.up, w.down, (Option.some.inj hw).symm⟩
  | free ptr =>
    cases p with
    | _ => exact ⟨w.up, w.down, (Option.some.inj hw).symm⟩
  | _ =>
    cases p with
    | _ =>
      simp only [net] at hw
      split at hw
      · obtain ⟨c', -, rfl⟩ := Option.map_eq_some_iff.1 hw
        exact ⟨_, _, rfl⟩
      · cases hw

/-- The other calls of the dispatcher do nothing, or close its end of the connection. -/
lemma disp_cases {c : DispCall} {r : c.Ret} (hw : S.disp w c r = some w') : w' = w ∨
    w' = { w with up := { w.up with closed := true }, down := { w.down with gone := true } } := by
  cases c with
  | sock c =>
    cases c with
    | close fd =>
      simp only [disp] at hw
      split at hw
      · exact .inr (Option.some.inj hw).symm
      · exact .inl (Option.some.inj hw).symm
    | _ => exact .inl (Option.some.inj hw).symm
  | _ => exact .inl (Option.some.inj hw).symm

/-- The calls of the worker that have nothing to do with a child itself do nothing, read from a
child, or close the worker's end of the connection. -/
lemma work_cases {c : WorkCall} {r : c.Ret} (hfork : ∀ code, c ≠ .fork code)
    (hwait : ∀ pid, c ≠ .waitpid pid) (hw : S.work w c r = some w') :
    w' = w ∨ (∃ bs, w' = { w with output := w.output ++ [bs] }) ∨
      w' = { w with down := { w.down with closed := true }, up := { w.up with gone := true } } := by
  cases c with
  | fork code => exact absurd rfl (hfork code)
  | waitpid pid => exact absurd rfl (hwait pid)
  | read fd size =>
    cases r with
    | data bs =>
      simp only [work] at hw
      split at hw
      · cases hw
        split
        · exact .inl rfl
        · exact .inr (.inl ⟨bs, rfl⟩)
      · cases hw
    | _ => exact .inl (Option.some.inj hw).symm
  | pipe =>
    simp only [work] at hw
    split at hw
    · exact .inl (Option.some.inj hw).symm
    · cases hw
  | close fd =>
    simp only [work] at hw
    split at hw
    · exact .inr (.inr (Option.some.inj hw).symm)
    · exact .inl (Option.some.inj hw).symm
  | _ => exact .inl (Option.some.inj hw).symm

end Cases

end Session
end P2PNode
