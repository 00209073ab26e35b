import P2PNode.Lib.Always
import P2PNode.Lib.Lines
import P2PNode.Node.Repl
import P2PNode.Web.Bridge

/-!
# Commands from the web

The bytes that the bridge writes for a sequence of messages, and the lines that the command loop
reads from them. The loop reads one line for each message as long as the lines have no newline and
no `NUL` inside and leave room for their end in its buffer.
-/

namespace P2PNode

open Effect Lines

/-! ### What the bridge writes -/

/-- What becomes of saving an uploaded file. -/
structure Saving where
  opened : Bool
  written : Bool
  closed : Bool

namespace Saving

def saved (o : Saving) : Bool := o.opened && (o.written && o.closed)

/-- The calls of one message while the node runs; the state are the bytes written to it. -/
def handle (o : Saving) : (c : BridgeCall) → Bytes → Option (c.Ret × Bytes)
  | .hasStdin, out        => some (true, out)
  | .openW _, out         => some (o.opened, out)
  | .writeText _, out     => some (o.written, out)
  | .closeFile, out       => some (o.closed, out)
  | .writeStdin data, out => some (true, out ++ data)
  | .sendError, out       => some ((), out)

end Saving

/-- The bytes written to the node after a sequence of messages. -/
def sendMessages (base : PurePath) : List (WsMsg × Saving) → Bytes → Option Bytes
  | [], out      => some out
  | m :: ms, out =>
    ((wsMessage base m.1).run m.2.handle out).bind fun x => sendMessages base ms x.2

/-- The line of a message: the stripped command, or `submit` and the saved path. There is none
when nothing is written to the node. -/
def WsMsg.line (base : PurePath) (o : Saving) : WsMsg → Option Bytes
  | .command cmd           => if (cmd.getD []).strip = [] then none else (cmd.getD []).strip.encode
  | .fileUpload filename _ =>
    if o.saved then (submitPrefix ++ uploadPath base filename).encode else none

/-- The lines of the messages. -/
def messageLines (base : PurePath) (msgs : List (WsMsg × Saving)) : List Bytes :=
  msgs.filterMap fun m => m.1.line base m.2

lemma encode_line (text : PyStr) :
    (text ++ [newlineChar]).encode = text.encode.map fun l => l ++ [newline] := by
  have hnl : PyStr.encode [newlineChar] = some [newline] := by decide
  rw [PyStr.encode_append, hnl]
  cases text.encode with
  | none => rfl
  | some l => rfl

lemma run_writeLine (o : Saving) (text : PyStr) (out : Bytes) :
    (writeLine text).run o.handle out =
      some ((), out ++ (text.encode.map fun l => l ++ [newline]).getD []) := by
  cases he : text.encode with
  | none =>
    simp [writeLine, BridgeCall.doHasStdin, BridgeCall.doSendError, Saving.handle, encode_line, he]
  | some l =>
    simp [writeLine, BridgeCall.doHasStdin, BridgeCall.doWriteStdin, Saving.handle, encode_line, he]

/-- For one message the bridge writes its line, if it has one. -/
lemma run_wsMessage (base : PurePath) (m : WsMsg) (o : Saving) (out : Bytes) :
    (wsMessage base m).run o.handle out =
      some ((), out ++ ((m.line base o).map fun l => l ++ [newline]).getD []) := by
  cases m with
  | command cmd =>
    by_cases hs : (cmd.getD []).strip = []
    · simp [wsMessage, wsCommand, WsMsg.line, hs]
    · simp [wsMessage, wsCommand, WsMsg.line, hs, run_writeLine]
  | fileUpload filename content =>
    cases ho : o.opened with
    | false =>
      simp [wsMessage, wsUpload, WsMsg.line, BridgeCall.doOpenW, BridgeCall.doSendError,
        Saving.handle, Saving.saved, ho]
    | true =>
      by_cases hw : o.written = true ∧ o.closed = true
      · simp [wsMessage, wsUpload, WsMsg.line, BridgeCall.doOpenW, BridgeCall.doWriteText,
          BridgeCall.doCloseFile, Saving.handle, Saving.saved, ho, hw, run_writeLine]
      · simp [wsMessage, wsUpload, WsMsg.line, BridgeCall.doOpenW, BridgeCall.doWriteText,
          BridgeCall.doCloseFile, BridgeCall.doSendError, Saving.handle, Saving.saved, ho, hw]

/-- A line is never empty. -/
lemma line_ne_nil {base : PurePath} {m : WsMsg} {o : Saving} {l : Bytes}
    (h : m.line base o = some l) : l ≠ [] := by
  cases m with
  | command cmd =>
    rw [WsMsg.line] at h
    split at h
    · cases h
    · rename_i hs
      exact PyStr.encode_ne_nil hs h
  | fileUpload filename content =>
    rw [WsMsg.line] at h
    split at h
    · exact PyStr.encode_ne_nil (List.append_ne_nil_of_left_ne_nil (by decide) _) h
    · cases h

/-- The bytes written are the lines of the messages, each with its newline. -/
lemma sendMessages_eq (base : PurePath) (msgs : List (WsMsg × Saving)) (out : Bytes) :
    sendMessages base msgs out = some (out ++ wire newline (messageLines base msgs)) := by
  induction msgs generalizing out with
  | nil => simp [sendMessages, messageLines]
  | cons m msgs ih =>
    rw [sendMessages, run_wsMessage, Option.bind_some, ih]
    cases hl : m.1.line base m.2 with
    | none => simp [messageLines, hl]
    | some l => simp [messageLines, hl]

/-! ### What the loop reads -/

/-- The lines that end the loop. -/
def Quits (line : Bytes) : Prop := line = cmdQuit ∨ line = cmdExit

instance (line : Bytes) : Decidable (Quits line) := inferInstanceAs (Decidable (_ ∨ _))

/-- The lines up to the first one that ends the loop. -/
def upToQuit : List Bytes → List Bytes
  | []      => []
  | l :: ls => l :: if Quits l then [] else upToQuit ls

/-- The lines that the loop reads from the given bytes. -/
def replLines (input : Bytes) : List Bytes :=
  if h : input = [] then []
  else
    stripNewline (readLine newline (lineSize - 1) input).1 ::
      if Quits (stripNewline (readLine newline (lineSize - 1) input).1) then []
      else replLines (readLine newline (lineSize - 1) input).2
termination_by input.length
decreasing_by exact length_readLine_lt (by decide) h

@[simp] lemma replLines_nil : replLines [] = [] := by
  rw [replLines]
  rfl

lemma replLines_of_ne {input : Bytes} (h : input ≠ []) : replLines input =
    stripNewline (readLine newline (lineSize - 1) input).1 ::
      if Quits (stripNewline (readLine newline (lineSize - 1) input).1) then []
      else replLines (readLine newline (lineSize - 1) input).2 := by
  rw [replLines, dif_neg h]

/-- The standard input of the node: the bytes not yet read, and what the calls of `fgets` gave. -/
structure Stdin where
  input : Bytes
  raws : List Bytes := []

namespace Stdin

/-- What `fgets` gives. -/
def fgets (size : ℕ) (s : Stdin) : Option Bytes × Stdin :=
  if s.input = [] then (none, s)
  else
    (some (readLine newline (size - 1) s.input).1,
      ⟨(readLine newline (size - 1) s.input).2,
        s.raws ++ [(readLine newline (size - 1) s.input).1]⟩)

/-- The host of the loop: nothing is known of the other calls, and no signal stops the loop. -/
def kernel : Kernel ReplCall ReplCall.Ret Stdin
  | s, .running, (go : Bool) => if go then some s else none
  | s, .fgets size, (r : Option Bytes) =>
    if r = (s.fgets size).1 then some (s.fgets size).2 else none
  | s, _, _ => some s

/-- The lines read. -/
def lines (s : Stdin) : List Bytes := s.raws.map stripNewline

lemma kernel_fgets {s t : Stdin} {size : ℕ} {r : Option Bytes}
    (h : kernel s (.fgets size) r = some t) : r = (s.fgets size).1 ∧ t = (s.fgets size).2 := by
  simp only [kernel] at h
  split at h
  · rename_i hr
    exact ⟨hr, (Option.some.inj h).symm⟩
  · cases h

end Stdin

/-! ### The loop reads its lines -/

/-- The calls that have nothing to do with the standard input. -/
def ReplCall.Elsewhere : ReplCall → Prop
  | .running => False
  | .fgets _ => False
  | _        => True

namespace Stdin

lemma eq_of_elsewhere (s : Stdin) {c : ReplCall} (hc : c.Elsewhere) (r : c.Ret) (t : Stdin)
    (h : kernel s c r = some t) : t = s := by
  cases c
  case running => exact hc.elim
  case fgets size => exact hc.elim
  all_goals exact (Option.some.inj h).symm

lemma only_readFileBlock (path : Bytes) : (readFileBlock path).Only ReplCall.Elsewhere := by
  refine (Prog.only_perform trivial).bind fun f => ?_
  cases f with
  | none => trivial
  | some f =>
    refine (Prog.only_perform trivial).bind fun sz => ?_
    split
    · exact (Prog.only_perform trivial).bind fun _ => trivial
    · refine (Prog.only_perform trivial).bind fun data => ?_
      cases data with
      | none => exact (Prog.only_perform trivial).bind fun _ => trivial
      | some data =>
        refine (Prog.only_perform trivial).bind fun got => ?_
        split
        · refine (Prog.only_perform trivial).bind fun _ => ?_
          exact (Prog.only_perform trivial).bind fun _ => trivial
        · exact (Prog.only_perform trivial).bind fun _ => trivial

lemma only_submitFile (path : Bytes) : (submitFile path).Only ReplCall.Elsewhere := by
  refine (only_readFileBlock path).bind fun got => ?_
  cases got with
  | none => trivial
  | some got =>
    refine (Prog.only_perform trivial).bind fun _ => ?_
    refine (Prog.only_perform trivial).bind fun rc => ?_
    refine (Prog.only_perform trivial).bind fun _ => ?_
    exact Prog.only_perform trivial

/-- A line is carried out without a look at the standard input; the loop goes on unless the line
ends it. -/
lemma always_execLine (line : Bytes) (s : Stdin) :
    (execLine line).Always kernel (fun _ => True)
      (fun go t => t = s ∧ (go = true ↔ ¬ Quits line)) s := by
  have hother {p : ReplProg Unit} (hp : p.Only ReplCall.Elsewhere) (hq : ¬ Quits line) :
      (p >>= fun _ => .ret true).Always kernel (fun _ => True)
        (fun go t => t = s ∧ (go = true ↔ ¬ Quits line)) s := by
    apply Prog.Always.bind
    refine Prog.Always.of_only hp ?_ trivial fun _ => ⟨trivial, rfl, by simpa using hq⟩
    intro c hc r t ht
    exact s.eq_of_elsewhere hc r t ht
  rw [execLine]
  split
  · rename_i hnil
    have hq : ¬ Quits line := by
      rw [hnil]
      decide
    exact ⟨trivial, rfl, by simpa using hq⟩
  · split
    · rename_i hpeers
      apply hother (Prog.only_perform trivial)
      rw [hpeers]
      decide
    · split
      · rename_i hquit
        have hq : Quits line := hquit
        refine ⟨trivial, fun _ t ht => ?_⟩
        cases ht
        exact ⟨trivial, rfl, by simpa using hq⟩
      · rename_i hquit
        split
        · split
          · exact hother (Prog.only_perform trivial) hquit
          · exact hother (only_submitFile _) hquit
        · exact hother (Prog.only_perform trivial) hquit

/-- Where the loop ends, it has read the lines of its input. -/
lemma always_runRepl (rounds : ℕ) (s : Stdin) :
    (runRepl rounds).Always kernel (fun _ => True)
      (fun _ t => t.lines = s.lines ++ replLines s.input) s := by
  induction rounds generalizing s with
  | zero => trivial
  | succ rounds ih =>
    refine ⟨trivial, fun go t ht => ?_⟩
    obtain ⟨rfl, rfl⟩ : go = true ∧ t = s := by
      cases go with
      | true => exact ⟨rfl, (Option.some.inj ht).symm⟩
      | false => cases ht
    refine ⟨trivial, fun _ t' ht' => ?_⟩
    cases ht'
    refine ⟨trivial, fun r t' ht' => ?_⟩
    obtain ⟨rfl, rfl⟩ := kernel_fgets ht'
    by_cases hnil : t.input = []
    · simp only [fgets, if_pos hnil]
      exact ⟨trivial, by rw [hnil, replLines_nil, List.append_nil]⟩
    · simp only [fgets, if_neg hnil]
      apply Prog.Always.bind (p := execLine _)
      apply (always_execLine _ _).mono
      rintro go u ⟨rfl, hgo⟩
      rw [replLines_of_ne hnil]
      by_cases hq : Quits (stripNewline (readLine newline (lineSize - 1) t.input).1)
      · have hstop : ¬ go = true := fun h => hgo.1 h hq
        rw [if_neg hstop, if_pos hq]
        exact ⟨trivial, by simp [lines]⟩
      · rw [if_pos (hgo.2 hq), if_neg hq]
        apply (ih _).mono
        intro _ u hu
        rw [hu]
        simp [lines]

lemma exec_execLine (line : Bytes) (s : Stdin) :
    Exec kernel (execLine line) s (.ret (!decide (Quits line))) s := by
  have hsubmit (path : Bytes) : Exec kernel (submitFile path) s (.ret ()) s :=
    .step (c := ReplCall.fopen path) none s rfl (.refl _ _)
  rw [execLine]
  split
  · rename_i hnil
    subst hnil
    exact .refl _ _
  · split
    · rename_i hpeers
      subst hpeers
      exact .step (c := ReplCall.peerListPrint) () s rfl (.refl _ _)
    · split
      · rename_i hquit
        have hq : Quits line := hquit
        rw [decide_eq_true hq]
        exact .step (c := ReplCall.stopRunning) () s rfl (.refl _ _)
      · rename_i hquit
        have hq : ¬ Quits line := hquit
        rw [decide_eq_false hq]
        split
        · split
          · exact .step (c := ReplCall.printf .usage) () s rfl (.refl _ _)
          · exact (hsubmit _).bind _
        · exact .step (c := ReplCall.printf .unknown) () s rfl (.refl _ _)

/-- With enough rounds the loop comes to its end. -/
lemma exec_runRepl (rounds : ℕ) (s : Stdin) (h : (replLines s.input).length < rounds) :
    ∃ t, Exec kernel (runRepl rounds) s (.ret ()) t := by
  induction rounds generalizing s with
  | zero => exact absurd h (Nat.not_lt_zero _)
  | succ rounds ih =>
    by_cases hnil : s.input = []
    · have hget : (s.fgets lineSize).1 = none := by rw [fgets, if_pos hnil]
      refine ⟨(s.fgets lineSize).2, ?_⟩
      apply Exec.step (c := ReplCall.running) true s rfl
      apply Exec.step (c := ReplCall.printf .prompt) () s rfl
      apply Exec.step (c := ReplCall.fgets lineSize) none (s.fgets lineSize).2
      · simp [kernel, hget]
      · exact .refl _ _
    · rw [replLines_of_ne hnil] at h
      obtain ⟨raw, hraw⟩ : ∃ raw, raw = (readLine newline (lineSize - 1) s.input).1 := ⟨_, rfl⟩
      obtain ⟨u, hu⟩ : ∃ u : Stdin, u =
        ⟨(readLine newline (lineSize - 1) s.input).2, s.raws ++ [raw]⟩ := ⟨_, rfl⟩
      have hget : s.fgets lineSize = (some raw, u) := by rw [fgets, if_neg hnil, hu, hraw]
      suffices hrest : ∃ t, Exec kernel
          (execLine (stripNewline raw) >>= fun go => if go then runRepl rounds else .ret ()) u
          (.ret ()) t by
        obtain ⟨t, ht⟩ := hrest
        refine ⟨t, ?_⟩
        apply Exec.step (c := ReplCall.running) true s rfl
        apply Exec.step (c := ReplCall.printf .prompt) () s rfl
        apply Exec.step (c := ReplCall.fgets lineSize) (some raw) u
        · simp [kernel, hget]
        · exact ht
      have hline := (exec_execLine (stripNewline raw) u).bind
        fun go => if go then runRepl rounds else .ret ()
      rw [← hraw] at h
      by_cases hq : Quits (stripNewline raw)
      · rw [decide_eq_true hq] at hline
        exact ⟨u, hline⟩
      · rw [decide_eq_false hq] at hline
        rw [if_neg hq, List.length_cons] at h
        have hinput : u.input = (readLine newline (lineSize - 1) s.input).2 := by rw [hu]
        obtain ⟨t, ht⟩ := ih u (by rw [hinput]; omega)
        exact ⟨t, hline.trans ht⟩

end Stdin

/-! ### Lines that are read as they were written -/

/-- A line without newline and `NUL` that leaves room for its end in the buffer of the loop. -/
structure Clean (l : Bytes) : Prop where
  newline : newline ∉ l
  nul : 0 ∉ l
  short : l.length < lineSize - 1

lemma nul_not_mem_cstr (raw : Bytes) : 0 ∉ cstr raw := by
  intro h
  have hne := List.mem_takeWhile_imp h
  simp at hne

lemma nul_not_mem_stripNewline (raw : Bytes) : 0 ∉ stripNewline raw := by
  rw [stripNewline]
  split
  · exact fun h => nul_not_mem_cstr raw (List.dropLast_subset _ h)
  · exact nul_not_mem_cstr raw

lemma length_cstr_le (raw : Bytes) : (cstr raw).length ≤ raw.length :=
  (List.takeWhile_prefix _).length_le

lemma length_stripNewline_le (raw : Bytes) : (stripNewline raw).length ≤ raw.length := by
  rw [stripNewline]
  split
  · rw [List.length_dropLast]
    exact (Nat.sub_le _ _).trans (length_cstr_le raw)
  · exact length_cstr_le raw

/-- Of a line with its newline no more than the line is left. -/
lemma length_stripNewline_line_le (l : Bytes) :
    (stripNewline (l ++ [newline])).length ≤ l.length := by
  have hle := length_cstr_le (l ++ [newline])
  rw [List.length_append, List.length_singleton] at hle
  rw [stripNewline]
  split
  · rw [List.length_dropLast]
    omega
  · rename_i hlast
    rcases Nat.lt_or_ge l.length (cstr (l ++ [newline])).length with hlt | hge
    · have hall : cstr (l ++ [newline]) = l ++ [newline] :=
        (List.takeWhile_prefix _).eq_of_length_le (by
          rw [List.length_append, List.length_singleton]
          exact hlt)
      rw [hall] at hlast
      exact absurd List.getLast?_concat hlast
    · exact hge

lemma Clean.stripNewline {l : Bytes} (h : Clean l) : stripNewline (l ++ [P2PNode.newline]) = l := by
  have hnul : (0 : UInt8) ∉ l ++ [P2PNode.newline] := by
    intro hmem
    rcases List.mem_append.1 hmem with hmem | hmem
    · exact h.nul hmem
    · cases List.mem_singleton.1 hmem
  rw [P2PNode.stripNewline, cstr_of_not_mem hnul, List.getLast?_concat, if_pos rfl,
    List.dropLast_concat]

/-- A line that is read back in one piece has no newline and no `NUL`, and fits into the buffer. -/
lemma clean_of_stripNewline {l s : Bytes}
    (h : stripNewline (readLine newline (lineSize - 1) (l ++ newline :: s)).1 = l) :
    newline ∉ l ∧ 0 ∉ l ∧ l.length ≤ lineSize - 1 := by
  refine ⟨?_, ?_, ?_⟩
  · intro hmem
    obtain ⟨a, b, rfl, ha⟩ := List.eq_append_cons_of_mem hmem
    have hlen := congrArg List.length h
    rw [List.append_assoc, List.cons_append] at hlen
    rcases Nat.lt_or_ge a.length (lineSize - 1) with hlt | hge
    · rw [readLine_of_lt ha hlt] at hlen
      have hle := length_stripNewline_line_le a
      simp only [List.length_append, List.length_cons] at hlen
      omega
    · rw [readLine_of_le ha hge] at hlen
      have hle := length_stripNewline_le (a.take (lineSize - 1))
      have htake := List.length_take_le' (lineSize - 1) a
      simp only [List.length_append, List.length_cons] at hlen
      omega
  · rw [← h]
    exact nul_not_mem_stripNewline _
  · rw [← h]
    exact (length_stripNewline_le _).trans (length_readLine_le _ _)

lemma replLines_cons {l : Bytes} (h : Clean l) (s : Bytes) :
    replLines (l ++ newline :: s) = l :: if Quits l then [] else replLines s := by
  rw [replLines_of_ne (by simp), readLine_of_lt h.newline h.short, h.stripNewline]

lemma length_of_quits {l : Bytes} (h : Quits l) : l.length = 4 := by
  rcases h with rfl | rfl
  · rfl
  · rfl

/-- The lines up to the end of the loop are read as they were written, if and only if each of them
is clean. -/
lemma replLines_wire_iff (ls : List Bytes) (hne : ∀ l ∈ ls, l ≠ []) :
    replLines (wire newline ls) = upToQuit ls ↔ ∀ l ∈ upToQuit ls, Clean l := by
  induction ls with
  | nil => simp [upToQuit]
  | cons l ls ih =>
    have htail := ih fun m hm => hne m (List.mem_cons_of_mem _ hm)
    rw [wire_cons, upToQuit]
    by_cases hc : Clean l
    · rw [replLines_cons hc]
      by_cases hq : Quits l
      · simp [hq, hc]
      · simp [hq, hc, htail]
    · constructor
      · intro h
        rw [replLines_of_ne (by simp)] at h
        obtain ⟨hhead, hrest⟩ := List.cons.inj h
        obtain ⟨hnl, hnul, hle⟩ := clean_of_stripNewline hhead
        have hlen : l.length = lineSize - 1 :=
          le_antisymm hle (not_lt.1 fun hlt => hc ⟨hnl, hnul, hlt⟩)
        have hq : ¬ Quits l := by
          intro hq
          rw [length_of_quits hq] at hlen
          cases hlen
        -- the buffer is full without the newline, which is read as an empty line of its own
        have hfull : readLine newline (lineSize - 1) (l ++ newline :: wire newline ls) =
            (l, newline :: wire newline ls) := by
          rw [readLine_of_le hnl hlen.ge, ← hlen, List.take_length, List.drop_length,
            List.nil_append]
        have hempty : Clean [] := ⟨by simp, by simp, by decide⟩
        have hnext := replLines_cons hempty (wire newline ls)
        rw [hhead, if_neg hq, if_neg hq, hfull] at hrest
        rw [List.nil_append] at hnext
        rw [hnext] at hrest
        cases ls with
        | nil => cases hrest
        | cons m ls => exact absurd (List.cons.inj hrest).1.symm (hne m (by simp))
      · intro h
        exact absurd (h l List.mem_cons_self) hc

/-- Only the last line that is read ends the loop. -/
lemma not_quits_of_mem_dropLast (input : Bytes) : ∀ l ∈ (replLines input).dropLast, ¬ Quits l := by
  induction input using replLines.induct with
  | case1 => simp
  | case2 input hne ih =>
    rw [replLines_of_ne hne]
    by_cases hq : Quits (stripNewline (readLine newline (lineSize - 1) input).1)
    · simp [hq]
    · rw [if_neg hq]
      intro l hl
      cases hrest : replLines (readLine newline (lineSize - 1) input).2 with
      | nil => simp [hrest] at hl
      | cons m ls =>
        rw [hrest, List.dropLast_cons_of_ne_nil (by simp)] at hl
        rcases List.mem_cons.1 hl with rfl | hl
        · exact hq
        · exact ih l (by rwa [hrest])

lemma upToQuit_eq_self {ls : List Bytes} (h : ∀ l ∈ ls.dropLast, ¬ Quits l) : upToQuit ls = ls := by
  induction ls with
  | nil => rfl
  | cons l ls ih =>
    rw [upToQuit]
    cases ls with
    | nil => simp [upToQuit]
    | cons m ls =>
      rw [List.dropLast_cons_of_ne_nil (by simp)] at h
      have htail := ih fun k hk => h k (List.mem_cons_of_mem _ hk)
      rw [if_neg (h l List.mem_cons_self), htail]

/-! ### One message, one line -/

lemma messageLines_ne_nil {base : PurePath} {msgs : List (WsMsg × Saving)} :
    ∀ l ∈ messageLines base msgs, l ≠ [] := by
  intro l hl
  obtain ⟨m, -, hm⟩ := List.mem_filterMap.1 hl
  exact line_ne_nil hm

/-- Every message has a line if and only if the lines are those of all messages. -/
lemma map_some_messageLines_iff {base : PurePath} {msgs : List (WsMsg × Saving)} {ls : List Bytes} :
    ls.map some = msgs.map (fun m => m.1.line base m.2) ↔
      (∀ m ∈ msgs, (m.1.line base m.2).isSome) ∧ ls = messageLines base msgs := by
  induction msgs generalizing ls with
  | nil => simp [messageLines]
  | cons m msgs ih =>
    cases hl : m.1.line base m.2 with
    | none =>
      cases ls with
      | nil => simp [hl]
      | cons l ls => simp [hl]
    | some k =>
      cases ls with
      | nil => simp [messageLines, hl]
      | cons l ls =>
        have htail := @ih ls
        simp only [messageLines] at htail
        simp only [List.map_cons, List.cons.injEq, hl, htail, List.forall_mem_cons,
          Option.isSome_some, true_and, messageLines, List.filterMap_cons, Option.some.injEq]
        constructor
        · rintro ⟨rfl, hsome, rfl⟩
          exact ⟨hsome, rfl, rfl⟩
        · rintro ⟨hsome, rfl, rfl⟩
          exact ⟨rfl, hsome, rfl⟩

/-- Where the loop ends, it has read the lines in the bytes that it was sent. -/
lemma lines_of_exec {bytes : Bytes} {rounds : ℕ} {t : Stdin}
    (h : Exec Stdin.kernel (runRepl rounds) ⟨bytes, []⟩ (.ret ()) t) :
    t.lines = replLines bytes := by
  have hret := (Stdin.always_runRepl rounds ⟨bytes, []⟩).exec h
  simpa [Stdin.lines] using hret.2

/-- **One message, one line**: the loop reads exactly one line for each message, the one that the
bridge wrote for it, if and only if every message is written, none but the last is `quit` or `exit`,
and every line is clean. Of any sequence of messages it reads the lines that are written up to the
first `quit` or `exit`, if and only if these are clean. -/
theorem one_line_per_message_iff (base : PurePath) (msgs : List (WsMsg × Saving)) :
    ∃ bytes, sendMessages base msgs [] = some bytes ∧
      (∃ rounds t, Exec Stdin.kernel (runRepl rounds) ⟨bytes, []⟩ (.ret ()) t) ∧
      ∀ rounds t, Exec Stdin.kernel (runRepl rounds) ⟨bytes, []⟩ (.ret ()) t →
        (t.lines.map some = msgs.map (fun m => m.1.line base m.2) ↔
          (∀ m ∈ msgs, (m.1.line base m.2).isSome) ∧
            (∀ l ∈ (messageLines base msgs).dropLast, ¬ Quits l) ∧
              ∀ l ∈ messageLines base msgs, Clean l) ∧
        (t.lines = upToQuit (messageLines base msgs) ↔
          ∀ l ∈ upToQuit (messageLines base msgs), Clean l) := by
  obtain ⟨bytes, hbytes⟩ : ∃ bytes, bytes = wire newline (messageLines base msgs) := ⟨_, rfl⟩
  refine ⟨bytes, ?_, ?_, fun rounds t hx => ?_⟩
  · rw [sendMessages_eq, List.nil_append, hbytes]
  · exact ⟨_, Stdin.exec_runRepl _ ⟨bytes, []⟩ (Nat.lt_succ_self _)⟩
  · have hiff := replLines_wire_iff (messageLines base msgs) messageLines_ne_nil
    rw [lines_of_exec hx, hbytes, map_some_messageLines_iff]
    refine ⟨⟨?_, ?_⟩, hiff⟩
    · rintro ⟨hsome, hall⟩
      have hquit : ∀ l ∈ (messageLines base msgs).dropLast, ¬ Quits l := by
        rw [← hall]
        exact not_quits_of_mem_dropLast _
      rw [upToQuit_eq_self hquit] at hiff
      exact ⟨hsome, hquit, hiff.1 hall⟩
    · rintro ⟨hsome, hquit, hclean⟩
      rw [upToQuit_eq_self hquit] at hiff
      exact ⟨hsome, hiff.2 hclean⟩

/-- The command `a`, newline, `b`. -/
def splitCommand : WsMsg × Saving :=
  (.command (some (PyStr.ofChars ['a', '\n', 'b'])), ⟨true, true, true⟩)

/-- It is read as two lines. -/
theorem one_message_two_lines : ∃ bytes t,
    sendMessages ⟨true, []⟩ [splitCommand] [] = some bytes ∧
    Exec Stdin.kernel (runRepl 3) ⟨bytes, []⟩ (.ret ()) t ∧
    messageLines ⟨true, []⟩ [splitCommand] = [[97, 10, 98]] ∧ t.lines = [[97], [98]] := by
  have hline : messageLines ⟨true, []⟩ [splitCommand] = [[97, 10, 98]] := by decide
  have hlines : replLines [97, 10, 98, 10] = [[97], [98]] := by
    have ha : Clean [97] := ⟨by decide, by decide, by decide⟩
    have hb : Clean [98] := ⟨by decide, by decide, by decide⟩
    have hread : replLines ([97] ++ newline :: ([98] ++ newline :: [])) = [[97], [98]] := by
      rw [replLines_cons ha, replLines_cons hb, replLines_nil]
      decide
    exact hread
  obtain ⟨t, hx⟩ := Stdin.exec_runRepl 3 ⟨[97, 10, 98, 10], []⟩ (by rw [hlines]; decide)
  refine ⟨[97, 10, 98, 10], t, ?_, hx, hline, by rw [lines_of_exec hx, hlines]⟩
  rw [sendMessages_eq, hline]
  rfl

end P2PNode
