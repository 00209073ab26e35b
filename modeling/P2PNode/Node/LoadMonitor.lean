import P2PNode.Lib.ExtRat
import P2PNode.Lib.Prog

/-!
# Task counters and system load (`load_monitor.c`)

The two counters are atomic; each operation on one of them is a call of its own. Loads are numbers
with exact arithmetic.
-/

namespace P2PNode

open Effect

/-- The atomic counters `g_active_tasks` and `g_total_tasks`. -/
inductive Counter where
  | activeTasks
  | totalTasks
  deriving DecidableEq

inductive LoadCall where
  | fetchAdd (c : Counter)
  | fetchSub (c : Counter)
  | atomicLoad (c : Counter)
  | readLoadavg
  | nprocessorsOnln
  deriving DecidableEq

/-- `/proc/loadavg` when it is opened and scanned. -/
inductive LoadavgRet where
  | noFile
  | badFormat
  | values (load1 load5 load15 : ExtRat)

@[reducible] def LoadCall.Ret : LoadCall → Type
  | .fetchAdd _      => Unit
  | .fetchSub _      => Unit
  | .atomicLoad _    => ℕ
  | .readLoadavg     => LoadavgRet
  | .nprocessorsOnln => ℤ

abbrev LoadProg := Prog LoadCall LoadCall.Ret

namespace LoadCall

def doFetchAdd (c : Counter) : LoadProg Unit := Prog.perform (LoadCall.fetchAdd c)
def doFetchSub (c : Counter) : LoadProg Unit := Prog.perform (LoadCall.fetchSub c)
def doAtomicLoad (c : Counter) : LoadProg ℕ := Prog.perform (LoadCall.atomicLoad c)
def doReadLoadavg : LoadProg LoadavgRet := Prog.perform LoadCall.readLoadavg
def doNprocessorsOnln : LoadProg ℤ := Prog.perform LoadCall.nprocessorsOnln

end LoadCall

open LoadCall

/-- The result and the three variables it sets. -/
def loadGet : LoadProg (ℤ × ExtRat × ExtRat × ExtRat) := do
  match ← doReadLoadavg with
  | .noFile          => return (-1, .fin 99, .fin 99, .fin 99)
  | .badFormat       => return (-1, .fin 99, .fin 99, .fin 99)
  | .values l1 l5 l15 => return (0, l1, l5, l15)

def loadTaskStart : LoadProg Unit := do
  doFetchAdd .activeTasks
  doFetchAdd .totalTasks

def loadTaskDone : LoadProg Unit := doFetchSub .activeTasks

def loadGetActiveTasks : LoadProg ℕ := doAtomicLoad .activeTasks

def loadGetTotalTasks : LoadProg ℕ := doAtomicLoad .totalTasks

def loadGetCoreCount : LoadProg ℕ := do
  let n_cores ← doNprocessorsOnln
  if n_cores < 1 then return 1 else return n_cores.toNat % 2 ^ 32

def loadGetPercentage : LoadProg ExtRat := do
  let (ret, l1, _, _) ← loadGet
  if ret ≠ 0 then return .fin 0
  else
    let cores ← loadGetCoreCount
    let pct := (l1.scale (1 / cores)).scale 100
    if .fin 100 < pct then return .fin 100 else return pct

def loadScoreLocal : LoadProg ExtRat := do
  let lp ← loadGetPercentage
  let active ← loadGetActiveTasks
  return lp + .fin (10 * active)

end P2PNode
