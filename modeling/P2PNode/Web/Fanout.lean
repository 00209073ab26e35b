import Mathlib.Data.Finset.Basic
import P2PNode.Lib.Interleave
import P2PNode.Web.Forwarding

/-!
# The dashboards (`web/server.py`)

`pipe_output`, `spawn_p2p` and any number of `ws_handler`s as tasks of one event loop. A task runs
alone from one `await` to the next; `suspend` stands where it gives the loop back. `asyncio.gather`
makes one more task for each of its sends, and these run in any order. A dashboard may be lost at
any time.
-/

namespace P2PNode

open Effect

/-! ### Messages -/

/-- A message to a dashboard. -/
inductive WsOut where
  | pipe (msg : BridgeMsg)
  | exited
  | error
  | status (alive : Bool)
  deriving DecidableEq

/-- The text of a message of type `output`. -/
def WsOut.line? : WsOut → Option PyStr
  | .pipe msg => msg.line?
  | _         => none

/-- A frame from a dashboard; `other` is an object of another type. -/
inductive WsFrame where
  | notJson
  | notObject
  | msg (m : WsMsg)
  | status
  | other

/-- The string `stdout`. -/
def stdoutKind : PyStr := PyStr.ofChars ['s', 't', 'd', 'o', 'u', 't']

/-! ### The calls -/

/-- Dashboards are numbered in the order in which they connect. -/
inductive FanCall where
  | suspend
  | read (n : ℕ)
  | logAppend (text : PyStr)
  | waitNode
  | anyClient
  | listClients
  | gather (targets : List ℕ) (msg : WsOut)
  | gathered
  | accept
  | add (d : ℕ)
  | logSlice (n : ℕ)
  | send (d : ℕ) (msg : WsOut)
  | recvFrame (d : ℕ)
  | nodeAlive
  | bridge (b : BridgeCall)
  | discard (d : ℕ)
  deriving DecidableEq

/-- The answer to each call; `send` is answered by `false` when it raises `ConnectionClosed`, and
`recvFrame` by `none` when the connection is closed. -/
@[reducible] def FanCall.Ret : FanCall → Type
  | .suspend     => Unit
  | .read _      => Bytes
  | .logAppend _ => Unit
  | .waitNode    => Unit
  | .anyClient   => Bool
  | .listClients => List ℕ
  | .gather _ _  => Unit
  | .gathered    => Unit
  | .accept      => ℕ
  | .add _       => Unit
  | .logSlice _  => List PyStr
  | .send _ _    => Bool
  | .recvFrame _ => Option WsFrame
  | .nodeAlive   => Bool
  | .bridge b    => b.Ret
  | .discard _   => Unit

abbrev FanProg := Prog FanCall FanCall.Ret

namespace FanCall

def doSuspend : FanProg Unit := Prog.perform FanCall.suspend
def doRead (n : ℕ) : FanProg Bytes := Prog.perform (FanCall.read n)
def doLogAppend (text : PyStr) : FanProg Unit := Prog.perform (FanCall.logAppend text)
def doWaitNode : FanProg Unit := Prog.perform FanCall.waitNode
def doAnyClient : FanProg Bool := Prog.perform FanCall.anyClient
def doListClients : FanProg (List ℕ) := Prog.perform FanCall.listClients
def doGather (targets : List ℕ) (msg : WsOut) : FanProg Unit :=
  Prog.perform (FanCall.gather targets msg)
def doGathered : FanProg Unit := Prog.perform FanCall.gathered
def doAccept : FanProg ℕ := Prog.perform FanCall.accept
def doAdd (d : ℕ) : FanProg Unit := Prog.perform (FanCall.add d)
def doLogSlice (n : ℕ) : FanProg (List PyStr) := Prog.perform (FanCall.logSlice n)
def doSend (d : ℕ) (msg : WsOut) : FanProg Bool := Prog.perform (FanCall.send d msg)
def doRecvFrame (d : ℕ) : FanProg (Option WsFrame) := Prog.perform (FanCall.recvFrame d)
def doNodeAlive : FanProg Bool := Prog.perform FanCall.nodeAlive
def doBridge (b : BridgeCall) : FanProg b.Ret := Prog.perform (FanCall.bridge b)
def doDiscard (d : ℕ) : FanProg Unit := Prog.perform (FanCall.discard d)

end FanCall

open FanCall

/-! ### `broadcast`, `pipe_output` and `spawn_p2p` -/

def broadcast (msg : WsOut) : FanProg Unit := do
  if ← doAnyClient then
    let targets ← doListClients
    doGather targets msg
    doSuspend
    doGathered
  else return ()

def pipeCall : (c : PipeCall) → FanProg c.Ret
  | .read n         => do
    doSuspend
    doRead n
  | .logAppend text => doLogAppend text
  | .broadcast msg  => broadcast (.pipe msg)

/-- `pipe_output` of the standard output, into which the standard error goes as well. -/
def pipeTask (rounds : ℕ) : FanProg Unit := do
  (pipeOutput stdoutKind rounds).expand pipeCall
  doSuspend

/-- `spawn_p2p` from the start of the node on. -/
def spawnTask : FanProg Unit := do
  doSuspend
  doWaitNode
  broadcast .exited
  doSuspend

/-! ### `ws_handler` -/

def awaitSend (d : ℕ) (msg : WsOut) : FanProg Bool := do
  let ok ← doSend d msg
  doSuspend
  return ok

def sendBacklog (d : ℕ) : List PyStr → FanProg Bool
  | []            => return true
  | line :: lines => do
    if ← awaitSend d (.pipe (.output stdoutKind line)) then sendBacklog d lines
    else return false

/-- The calls for a command or an upload; an error message that cannot be sent raises. -/
def handlerCall (d : ℕ) : (b : BridgeCall) → FanProg (Option b.Ret)
  | .sendError       => do
    if ← awaitSend d .error then return some () else return none
  | .writeStdin data => do
    let ok ← doBridge (.writeStdin data)
    doSuspend
    return some ok
  | b                => do
    let r ← doBridge b
    return some r

/-- `none` is an exception that leaves the loop. -/
def wsFrame (base : PurePath) (d : ℕ) : WsFrame → FanProg (Option Unit)
  | .notJson   => return some ()
  | .notObject => return none
  | .msg m     => (wsMessage base m).attempt (handlerCall d)
  | .status    => do
    let alive ← doNodeAlive
    if ← awaitSend d (.status alive) then return some () else return none
  | .other     => return some ()

/-- The loop, with the `finally` behind it. -/
def wsLoop (base : PurePath) (d : ℕ) : ℕ → FanProg Unit
  | 0          => .spin
  | rounds + 1 => do
    doSuspend
    match ← doRecvFrame d with
    | none       => doDiscard d
    | some frame =>
      match ← wsFrame base d frame with
      | none    => doDiscard d
      | some () => wsLoop base d rounds

/-- How much of `OUTPUT_LOG` a new dashboard is sent. -/
def backlogSize : ℕ := 200

/-- The backlog is sent before the `try`. -/
def wsHandler (base : PurePath) (rounds : ℕ) (d : ℕ) : FanProg Unit := do
  doAdd d
  let backlog ← doLogSlice backlogSize
  if ← sendBacklog d backlog then
    wsLoop base d rounds
    doSuspend
  else return ()

/-- `ws_serve`: a task for each connection. -/
def serveLoop : ℕ → FanProg Unit
  | 0          => .spin
  | rounds + 1 => do
    doSuspend
    let _ ← doAccept
    serveLoop rounds

/-! ### The event loop -/

/-- Who has sent a message to a dashboard. -/
inductive Sender where
  | handler
  | broadcast
  deriving DecidableEq

/-- The task that runs, `OUTPUT_LOG`, `connected_clients`, and for each task the message of its
`gather` with the dashboards to which it was not sent yet; for each dashboard, what it was sent,
whether a `send` to it has failed, and what `OUTPUT_LOG` was when it was added. -/
structure Fanout where
  running : Option ℕ := none
  log : List PyStr := []
  clients : Finset ℕ := ∅
  gathering : ℕ → Option (WsOut × Finset ℕ) := fun _ => none
  accepted : ℕ := 0
  sent : ℕ → List (Sender × WsOut) := fun _ => []
  failed : ℕ → Bool := fun _ => false
  seen : ℕ → List PyStr := fun _ => []

namespace Fanout

/-- A message reaches a dashboard, or the `send` raises. -/
def deliver (w : Fanout) (d : ℕ) (by' : Sender) (msg : WsOut) (ok : Bool) : Option Fanout :=
  if ok = false then some { w with failed := Function.update w.failed d true }
  else if w.failed d = false then
    some { w with sent := Function.update w.sent d (w.sent d ++ [(by', msg)]) }
  else none

/-- `OUTPUT_LOG[-n:]`. -/
def lastLines (n : ℕ) (log : List PyStr) : List PyStr := log.drop (log.length - n)

def act (w : Fanout) (i : ℕ) : (c : FanCall) → c.Ret → Option Fanout
  | .read n, bs          => if bs.length ≤ n then some w else none
  | .logAppend text, _   => some { w with log := w.log ++ [text] }
  | .anyClient, b        => if b = decide (w.clients ≠ ∅) then some w else none
  | .listClients, ds     => if ds.Nodup ∧ ds.toFinset = w.clients then some w else none
  | .gather ds msg, _    =>
    some { w with gathering := Function.update w.gathering i (some (msg, ds.toFinset)) }
  | .gathered, _         =>
    if (w.gathering i).map Prod.snd = some ∅ then
      some { w with gathering := Function.update w.gathering i none }
    else none
  | .accept, d           => if d = w.accepted then some { w with accepted := d + 1 } else none
  | .add d, _            =>
    some { w with clients := insert d w.clients, seen := Function.update w.seen d w.log }
  | .logSlice n, lines   => if lines = lastLines n w.log then some w else none
  | .send d msg, ok      => w.deliver d .handler msg ok
  | .discard d, _        => some { w with clients := w.clients.erase d }
  | _, _                 => some w

/-- Only the task that runs makes calls, until it gives the loop back. -/
def call (w : Fanout) (i : ℕ) (c : FanCall) (r : c.Ret) : Option Fanout :=
  if w.running = none ∨ w.running = some i then
    (w.act i c r).map fun v => { v with running := if c = .suspend then none else some i }
  else none

/-- A task of the `gather` of task `i` sends to a dashboard. -/
inductive Sending where
  | sends (i d : ℕ) (ok : Bool)

def env (w : Fanout) : Sending → Option Fanout
  | .sends i d ok =>
    match w.gathering i with
    | none             => none
    | some (msg, left) =>
      if w.running = none ∧ d ∈ left then
        (w.deliver d .broadcast msg ok).map fun v =>
          { v with gathering := Function.update v.gathering i (some (msg, left.erase d)) }
      else none

def sys (base : PurePath) (rounds : ℕ) : Conc FanCall FanCall.Ret Fanout Sending where
  call := call
  env := env
  spawn
    | .accept, d => some (wsHandler base rounds d)
    | _, _       => none

/-- The node was started; no dashboard is connected. -/
def start (rounds : ℕ) : Conf FanCall FanCall.Ret Fanout where
  threads := [pipeTask rounds, spawnTask, serveLoop rounds]
  world := {}

end Fanout
end P2PNode
