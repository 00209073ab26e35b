import P2PNode.Web.Bridge

/-!
# Forwarding the output of the node (`web/server.py`)

`pipe_output` reads what the node writes in pieces, decodes each piece by itself, keeps the text and
sends it to the dashboards. The texts together are the decoding of all the bytes if and only if no
piece ends inside a character.
-/

namespace P2PNode

open Effect

/-- A message to the dashboards. -/
inductive BridgeMsg where
  | output (kind line : PyStr)
  | done (stream : PyStr)
  deriving DecidableEq

/-- The text of a message of type `output`. -/
def BridgeMsg.line? : BridgeMsg → Option PyStr
  | .output _ line => some line
  | .done _        => none

/-! ### The calls -/

inductive PipeCall where
  | read (n : ℕ)
  | logAppend (text : PyStr)
  | broadcast (msg : BridgeMsg)
  deriving DecidableEq

/-- The answer to each call; no bytes are the end of the stream. -/
@[reducible] def PipeCall.Ret : PipeCall → Type
  | .read _      => Bytes
  | .logAppend _ => Unit
  | .broadcast _ => Unit

abbrev PipeProg := Prog PipeCall PipeCall.Ret

namespace PipeCall

def doRead (n : ℕ) : PipeProg Bytes := Prog.perform (PipeCall.read n)
def doLogAppend (text : PyStr) : PipeProg Unit := Prog.perform (PipeCall.logAppend text)
def doBroadcast (msg : BridgeMsg) : PipeProg Unit := Prog.perform (PipeCall.broadcast msg)

end PipeCall

open PipeCall

/-! ### `pipe_output` -/

/-- The argument of `stream.read`. -/
def readSize : ℕ := 1024

def pipeOutput (kind : PyStr) : ℕ → PipeProg Unit
  | 0          => .spin
  | rounds + 1 => do
    let raw ← doRead readSize
    if raw = [] then doBroadcast (.done kind)
    else
      let text := Utf8.decode raw
      doLogAppend text
      doBroadcast (.output kind text)
      pipeOutput kind rounds

/-- The pieces that are still to be read, `OUTPUT_LOG`, and the messages sent. -/
structure Pipe where
  reads : List Bytes
  log : List PyStr
  sent : List BridgeMsg := []

namespace Pipe

/-- The calls of `pipe_output`. A read returns the next piece, of at most `n` bytes. -/
def handle : (c : PipeCall) → Pipe → Option (c.Ret × Pipe)
  | .read n, p =>
    match p.reads with
    | []         => some ([], p)
    | s :: reads => if s ≠ [] ∧ s.length ≤ n then some (s, { p with reads := reads }) else none
  | .logAppend text, p => some ((), { p with log := p.log ++ [text] })
  | .broadcast msg, p  => some ((), { p with sent := p.sent ++ [msg] })

/-- The texts that were sent, and those added to `OUTPUT_LOG`, are the decoding of the bytes. -/
def Forwarded (p : Pipe) (log : List PyStr) (bytes : Bytes) : Prop :=
  (p.sent.filterMap BridgeMsg.line?).flatten = Utf8.decode bytes ∧
    ∃ texts, p.log = log ++ texts ∧ texts.flatten = Utf8.decode bytes

end Pipe

/-- The messages for the pieces. -/
def outputMsgs (kind : PyStr) (reads : List Bytes) : List BridgeMsg :=
  reads.map fun s => .output kind (Utf8.decode s)

lemma flatten_outputMsgs (kind : PyStr) (reads : List Bytes) :
    ((outputMsgs kind reads ++ [BridgeMsg.done kind]).filterMap BridgeMsg.line?).flatten =
      reads.flatMap Utf8.decode := by
  induction reads with
  | nil => rfl
  | cons s reads ih => simpa [outputMsgs, BridgeMsg.line?] using ih

/-- Each piece becomes one message and one entry of the log. -/
lemma run_pipeOutput (kind : PyStr) {reads : List Bytes} {rounds : ℕ} (log : List PyStr)
    (sent : List BridgeMsg) (hreads : ∀ s ∈ reads, s ≠ [] ∧ s.length ≤ readSize)
    (hrounds : reads.length < rounds) :
    (pipeOutput kind rounds).run Pipe.handle ⟨reads, log, sent⟩ = some ((), {
      reads := []
      log := log ++ reads.map Utf8.decode
      sent := sent ++ (outputMsgs kind reads ++ [.done kind]) }) := by
  induction reads generalizing rounds log sent with
  | nil =>
    cases rounds with
    | zero => cases hrounds
    | succ rounds => simp [pipeOutput, doRead, doBroadcast, Pipe.handle, outputMsgs]
  | cons s reads ih =>
    cases rounds with
    | zero => cases hrounds
    | succ rounds =>
      have hs := hreads s List.mem_cons_self
      have ih := ih (log ++ [Utf8.decode s]) (sent ++ [.output kind (Utf8.decode s)])
        (fun t ht => hreads t (List.mem_cons_of_mem _ ht)) (Nat.lt_of_succ_lt_succ hrounds)
      simp [pipeOutput, doRead, doLogAppend, doBroadcast, Pipe.handle, hs, ih, outputMsgs]

/-- `pipe_output` comes to the end of the stream, and it has forwarded the decoding of all its bytes
if and only if no read ends inside a character. -/
theorem pipeOutput_forwarded_iff (kind : PyStr) (log : List PyStr) (reads : List Bytes)
    {rounds : ℕ} (hreads : ∀ s ∈ reads, s ≠ [] ∧ s.length ≤ readSize)
    (hrounds : reads.length < rounds) :
    ∃ p, (pipeOutput kind rounds).run Pipe.handle { reads := reads, log := log } = some ((), p) ∧
      (p.Forwarded log reads.flatten ↔ reads.IsChain fun s t => ¬ Utf8.Cut s t) := by
  refine ⟨_, run_pipeOutput kind log [] hreads hrounds, ?_⟩
  rw [← Utf8.flatMap_decode_eq_iff fun s hs => (hreads s hs).1]
  constructor
  · rintro ⟨hsent, -⟩
    rw [List.nil_append, flatten_outputMsgs] at hsent
    exact hsent
  · intro h
    refine ⟨?_, reads.map Utf8.decode, rfl, ?_⟩
    · rw [List.nil_append, flatten_outputMsgs]
      exact h
    · rw [← List.flatMap_def]
      exact h

/-- Two reads, with the three bytes of a character of the banner in the first of them. -/
theorem pipeOutput_forwarded_whole :
    ∃ p, (pipeOutput [] 3).run Pipe.handle { reads := [[0xE2, 0x94, 0x80], [0x0A]], log := [] } =
        some ((), p) ∧ p.Forwarded [] [0xE2, 0x94, 0x80, 0x0A] := by
  have hrounds : [[0xE2, 0x94, 0x80], [0x0A]].length < 3 := by decide
  obtain ⟨p, hp, hiff⟩ :=
    pipeOutput_forwarded_iff [] [] [[0xE2, 0x94, 0x80], [0x0A]] (by decide) hrounds
  refine ⟨p, hp, hiff.2 ?_⟩
  rw [List.isChain_pair, Utf8.cut_iff]
  rintro ⟨q, x, hq, hx, hn⟩
  cases hq

/-- Read one byte and then the other two, the character is replaced by three others. -/
theorem pipeOutput_not_forwarded :
    (∀ s ∈ ([[0xE2], [0x94, 0x80]] : List Bytes), s ≠ [] ∧ s.length ≤ readSize) ∧
    ∃ p, (pipeOutput [] 3).run Pipe.handle { reads := [[0xE2], [0x94, 0x80]], log := [] } =
        some ((), p) ∧ ¬ p.Forwarded [] [0xE2, 0x94, 0x80] := by
  refine ⟨by decide, _, run_pipeOutput [] [] [] (by decide) (by decide), ?_⟩
  rintro ⟨h, -⟩
  revert h
  decide

end P2PNode
