import P2PNode.Dispatch.SessionPhases

/-!
# Single calls of a session

What the bytes on the connection, the output of the dispatcher and the output of the children have
to do with each other where the two parties are, and that each call keeps it.
-/

namespace P2PNode

open Effect

/-! ### One call on the connection -/

section Connection

variable {c c' : Channel UInt8} {fd fd' : Fd}

lemma sendOn_frame {buf : Bytes} {r : SendRet} (h : sendOn c buf r = some c') :
    c'.rcvd = c.rcvd ∧ c'.closed = c.closed ∧ c'.gone = c.gone ∧ (c.Ordered → c'.Ordered) := by
  cases r with
  | intr =>
    cases h
    exact ⟨rfl, rfl, rfl, id⟩
  | err =>
    cases h
    exact ⟨rfl, rfl, rfl, id⟩
  | sent n =>
    simp only [sendOn] at h
    split at h
    · have hord : c.Ordered → c'.Ordered := fun ho => ho.put h
      obtain ⟨rfl, -, -⟩ := Channel.put_eq_some h
      exact ⟨rfl, rfl, rfl, hord⟩
    · cases h

lemma recvOn_frame {len : ℕ} {r : RecvRet} (h : recvOn c len r = some c') :
    c'.sent = c.sent ∧ c'.dead = c.dead ∧ c'.closed = c.closed ∧ c'.gone = c.gone ∧
      (c.Ordered → c'.Ordered) := by
  cases r with
  | intr =>
    cases h
    exact ⟨rfl, rfl, rfl, rfl, id⟩
  | err =>
    cases h
    exact ⟨rfl, rfl, rfl, rfl, id⟩
  | data bs =>
    cases bs with
    | nil =>
      simp only [recvOn] at h
      split at h
      · cases h
        exact ⟨rfl, rfl, rfl, rfl, id⟩
      · cases h
    | cons b bs =>
      simp only [recvOn] at h
      split at h
      · have hord : c.Ordered → c'.Ordered := fun ho => ho.take h
        obtain ⟨rfl, -⟩ := Channel.take_eq_some h
        exact ⟨rfl, rfl, rfl, rfl, hord⟩
      · cases h

/-- What a `send` makes of a message and of the connection. -/
lemma sendOn_sending (todo : Bytes) {buf : Bytes} {r : SendRet} (h : sendOn c buf r = some c') :
    ∃ q, MsgPhase.auto fd (.sending todo) (.send fd' buf) r = some q ∧ (q.Sends →
      (∃ todo', q = .sending todo' ∧ c'.sent ++ todo' = c.sent ++ todo) ∨
        q = .unsent ∧ c'.sent = c.sent ∧ c'.dead = true) := by
  simp only [MsgPhase.auto]
  split
  · rename_i hok
    cases r with
    | intr =>
      cases h
      exact ⟨_, rfl, fun _ => .inl ⟨todo, rfl, rfl⟩⟩
    | err =>
      cases h
      exact ⟨_, rfl, fun _ => .inr ⟨rfl, rfl, rfl⟩⟩
    | sent n =>
      simp only [sendOn] at h
      split at h
      · rename_i hn
        obtain ⟨rfl, hne, -⟩ := Channel.put_eq_some h
        have hpos : 0 < n := by
          rw [Nat.pos_iff_ne_zero]
          rintro rfl
          exact hne List.take_zero
        refine ⟨_, if_pos ⟨hpos, hn⟩, fun _ => .inl ⟨_, rfl, ?_⟩⟩
        obtain ⟨rest, rfl⟩ := hok.2.2
        rw [List.append_assoc, List.drop_append_of_le_length hn, ← List.append_assoc (buf.take n),
          List.take_append_drop]
      · cases h
  · exact ⟨_, rfl, False.elim⟩

lemma sendOn_unsent {buf : Bytes} {r : SendRet} (hdead : c.dead = true)
    (h : sendOn c buf r = some c') :
    ∃ q, MsgPhase.auto fd .unsent (.send fd' buf) r = some q ∧ c'.sent = c.sent ∧
      c'.dead = true := by
  simp only [MsgPhase.auto]
  cases r with
  | intr =>
    cases h
    split
    · exact ⟨_, rfl, rfl, hdead⟩
    · exact ⟨_, rfl, rfl, hdead⟩
  | err =>
    cases h
    split
    · exact ⟨_, rfl, rfl, rfl⟩
    · exact ⟨_, rfl, rfl, rfl⟩
  | sent n =>
    simp only [sendOn] at h
    split at h
    · obtain ⟨-, -, hlive⟩ := Channel.put_eq_some h
      rw [hdead] at hlive
      cases hlive
    · cases h

/-- What a `recv` makes of a message and of the connection. -/
lemma recvOn_receiving (got : Bytes) {len : ℕ} {r : RecvRet} (h : recvOn c len r = some c') :
    ∃ q, MsgPhase.auto fd (.receiving got) (.recv fd' len) r = some q ∧ (q.Receives →
      (∃ bs, q = .receiving (got ++ bs) ∧ c'.rcvd = c.rcvd ++ bs) ∨
        q = .unreceived ∧ c'.rcvd = c.rcvd) := by
  simp only [MsgPhase.auto]
  split
  · cases r with
    | intr =>
      cases h
      exact ⟨_, rfl, fun _ => .inl ⟨[], by rw [List.append_nil], by rw [List.append_nil]⟩⟩
    | err =>
      cases h
      exact ⟨_, rfl, fun _ => .inr ⟨rfl, rfl⟩⟩
    | data bs =>
      cases bs with
      | nil =>
        simp only [recvOn] at h
        split at h
        · cases h
          exact ⟨_, rfl, fun _ => .inr ⟨rfl, rfl⟩⟩
        · cases h
      | cons b bs =>
        simp only [recvOn] at h
        split at h
        · rename_i hlen
          obtain ⟨rfl, -⟩ := Channel.take_eq_some h
          exact ⟨_, if_pos hlen, fun _ => .inl ⟨b :: bs, rfl, rfl⟩⟩
        · cases h
  · exact ⟨_, rfl, False.elim⟩

end Connection

/-! ### The two ends -/

/-- What the dispatcher has to do with of the world. -/
structure DispEnd where
  sent : Bytes
  dead : Bool
  closed : Bool
  gone : Bool
  rcvd : Bytes
  passed : Bytes
  exit_code : Option ℤ

/-- What the worker has to do with. -/
structure WorkEnd where
  sent : Bytes
  dead : Bool
  closed : Bool
  gone : Bool
  rcvd : Bytes
  output : List Bytes
  made : Option ℤ

def SessWorld.dispatcher (w : SessWorld) : DispEnd :=
  ⟨w.up.sent, w.up.dead, w.up.closed, w.down.gone, w.down.rcvd, w.passed, w.exit_code⟩

def SessWorld.worker (w : SessWorld) : WorkEnd :=
  ⟨w.down.sent, w.down.dead, w.down.closed, w.up.gone, w.up.rcvd, w.output, w.made⟩

namespace DispEnd

variable (v : DispEnd)

/-- The dispatcher has not closed its end. -/
def Open : Prop := v.closed = false ∧ v.gone = false

/-- What was printed is the output in the messages received. -/
def Printed : Prop := ∃ ms, frames ms <+: v.rcvd ∧ v.passed = outputOf ms

/-- The task is given up, or its last message was received and has the exit code. -/
def Result (rc : ℤ) : Prop :=
  rc = -1 ∧ v.Printed ∨ ∃ ms m, frames (ms ++ [m]) <+: v.rcvd ∧ m.type = msgTaskDone ∧
    rc = returnedExit (some m) ∧ v.passed = outputOf ms

end DispEnd

namespace DispSide

/-- What is true where the dispatcher is. -/
def Holds (task : Task) (v : DispEnd) : DispSide → Prop
  | .sending q => v.Open ∧ v.rcvd = [] ∧ v.passed = [] ∧ v.exit_code = none ∧
      (∀ todo, q = .sending todo → v.sent ++ todo = taskFrame task) ∧
      (q = .unsent → v.sent <+: taskFrame task ∧ v.dead = true)
  | .reading ms q => v.Open ∧ v.sent = taskFrame task ∧ v.passed = outputOf ms ∧
      v.exit_code = none ∧ frames ms <+: v.rcvd ∧
      ∀ got, q = .receiving got → v.rcvd = frames ms ++ got
  | .printed ms => v.Open ∧ v.sent = taskFrame task ∧ v.passed = outputOf ms ∧
      v.exit_code = none ∧ v.rcvd = frames ms
  | .ending rc => v.Open ∧ v.sent <+: taskFrame task ∧ v.exit_code = none ∧ v.Result rc
  | .closed rc => v.closed = true ∧ v.gone = true ∧ v.sent <+: taskFrame task ∧
      v.exit_code = none ∧ v.Result rc
  | .done => v.closed = true ∧ v.gone = true ∧ v.sent <+: taskFrame task ∧
      ∃ rc, v.exit_code = some rc ∧ v.Result rc
  | .bad => False

end DispSide

namespace WorkEnd

variable (v : WorkEnd)

/-- The worker has not closed its end, and has received a message whole. -/
def Engaged : Prop := v.closed = false ∧ v.gone = false ∧ (unframe v.rcvd).isSome

/-- What was sent is the beginning of the output and of the exit code. -/
def Spoken : Prop :=
  v.sent <+: outputFrames v.output ∨ ∃ exit, v.made = some exit ∧
    v.sent <+: outputFrames v.output ++ (WorkMsg.done exit).frame

/-- The message is the one to be sent behind the chunks. -/
def Next (cs : List Bytes) : WorkMsg → Prop
  | .output chunk => v.output = cs ++ [chunk]
  | .done exit    => v.output = cs ∧ v.made = some exit

end WorkEnd

namespace WorkSide

/-- What is true where the worker is. -/
def Holds (v : WorkEnd) : WorkSide → Prop
  | .reading q => v.closed = false ∧ v.gone = false ∧ v.output = [] ∧ v.sent = [] ∧
      ∀ got, q = .receiving got → v.rcvd = got
  | .working cs => v.Engaged ∧ v.output = cs ∧ v.sent = outputFrames cs
  | .sending cs m todo => v.Engaged ∧ v.Next cs m ∧ todo ≠ [] ∧
      v.sent ++ todo = outputFrames cs ++ m.frame
  | .lost false => v.Engaged ∧ v.dead = true ∧ v.sent <+: outputFrames v.output
  | .lost true => v.Engaged ∧ v.dead = true ∧ ∃ exit, v.made = some exit ∧
      v.sent <+: outputFrames v.output ++ (WorkMsg.done exit).frame
  | .ended => v.Engaged ∧ ∃ exit, v.made = some exit ∧
      v.sent = outputFrames v.output ++ (WorkMsg.done exit).frame
  | .closed => v.closed = true ∧ v.gone = true ∧ v.Spoken
  | .bad => False

lemma sends_of_good {cs : List Bytes} {m : WorkMsg} {q : MsgPhase} (h : Good (ofPhase cs m q)) :
    q.Sends := by
  cases q with
  | sending todo => trivial
  | unsent => trivial
  | _ => exact h.elim

lemma outputFrames_append (cs cs' : List Bytes) :
    outputFrames (cs ++ cs') = outputFrames cs ++ outputFrames cs' := List.flatMap_append

lemma outputFrames_concat (cs : List Bytes) (chunk : Bytes) :
    outputFrames (cs ++ [chunk]) = outputFrames cs ++ (WorkMsg.output chunk).frame := by
  rw [outputFrames_append]
  simp [outputFrames, WorkMsg.frame, WorkMsg.type, WorkMsg.payload]

/-- Wherever the worker is, it has not said anything else. -/
lemma Holds.spoken {v : WorkEnd} {q : WorkSide} (h : q.Holds v) : v.Spoken := by
  cases q with
  | reading q =>
    obtain ⟨-, -, -, hsent, -⟩ := h
    rw [WorkEnd.Spoken, hsent]
    exact .inl List.nil_prefix
  | working cs =>
    obtain ⟨-, hout, hsent⟩ := h
    rw [WorkEnd.Spoken, hsent, hout]
    exact .inl (List.prefix_refl _)
  | sending cs m todo =>
    obtain ⟨-, hnext, -, heq⟩ := h
    have hpre : v.sent <+: outputFrames cs ++ m.frame := ⟨todo, heq⟩
    cases m with
    | output chunk =>
      left
      rw [show v.output = cs ++ [chunk] from hnext, outputFrames_concat]
      exact hpre
    | done exit =>
      obtain ⟨hout, hstatus⟩ := hnext
      right
      rw [hout]
      exact ⟨exit, hstatus, hpre⟩
  | lost final =>
    cases final with
    | false => exact .inl h.2.2
    | true => exact .inr h.2.2
  | ended =>
    obtain ⟨-, exit, hstatus, hsent⟩ := h
    exact .inr ⟨exit, hstatus, hsent ▸ List.prefix_refl _⟩
  | closed => exact h.2.2
  | bad => exact h.elim

end WorkSide

/-! ### Calls on the connection -/

namespace Session

variable {S : Session} {w w' : SessWorld}

/-- A call of the dispatcher on the connection is nothing to the worker. -/
lemma net_dispatcher_frame {c : NetCall} {r : c.Ret} (h : S.net w .dispatcher c r = some w') :
    w'.worker = w.worker ∧ (w.up.Ordered → w'.up.Ordered) ∧ (w.down.Ordered → w'.down.Ordered) := by
  cases c with
  | send fd buf =>
    simp only [net] at h
    split at h
    · obtain ⟨c', hc, rfl⟩ := Option.map_eq_some_iff.1 h
      obtain ⟨hrcvd, -, hgone, hord⟩ := sendOn_frame hc
      exact ⟨by simp only [SessWorld.worker, hrcvd, hgone], hord, id⟩
    · cases h
  | recv fd len =>
    simp only [net] at h
    split at h
    · obtain ⟨c', hc, rfl⟩ := Option.map_eq_some_iff.1 h
      obtain ⟨hsent, hdead, hclosed, -, hord⟩ := recvOn_frame hc
      exact ⟨by simp only [SessWorld.worker, hsent, hdead, hclosed], id, hord⟩
    · cases h
  | malloc size =>
    cases h
    exact ⟨rfl, id, id⟩
  | free p =>
    cases h
    exact ⟨rfl, id, id⟩

/-- A call of the worker on the connection is nothing to the dispatcher. -/
lemma net_worker_frame {c : NetCall} {r : c.Ret} (h : S.net w .worker c r = some w') :
    w'.dispatcher = w.dispatcher ∧ (w.up.Ordered → w'.up.Ordered) ∧
      (w.down.Ordered → w'.down.Ordered) := by
  cases c with
  | send fd buf =>
    simp only [net] at h
    split at h
    · obtain ⟨c', hc, rfl⟩ := Option.map_eq_some_iff.1 h
      obtain ⟨hrcvd, -, hgone, hord⟩ := sendOn_frame hc
      exact ⟨by simp only [SessWorld.dispatcher, hrcvd, hgone], id, hord⟩
    · cases h
  | recv fd len =>
    simp only [net] at h
    split at h
    · obtain ⟨c', hc, rfl⟩ := Option.map_eq_some_iff.1 h
      obtain ⟨hsent, hdead, hclosed, -, hord⟩ := recvOn_frame hc
      exact ⟨by simp only [SessWorld.dispatcher, hsent, hdead, hclosed], hord, id⟩
    · cases h
  | malloc size =>
    cases h
    exact ⟨rfl, id, id⟩
  | free p =>
    cases h
    exact ⟨rfl, id, id⟩

/-- The dispatcher sends or receives. -/
lemma disp_net {q : DispSide} (hgood : q.Good) (h : q.Holds S.task w.dispatcher) {c : NetCall}
    {r : c.Ret} (hw : S.net w .dispatcher c r = some w') :
    ∃ q', q.onNet S.fd c r = some q' ∧ (q'.Good → q'.Holds S.task w'.dispatcher) := by
  cases q with
  | sending q =>
    obtain ⟨hopen, hrcvd, hout, hexit, htodo, hunsent⟩ := h
    cases q with
    | sending todo =>
      cases c with
      | send fd buf =>
        simp only [net] at hw
        split at hw
        · obtain ⟨c', hc, rfl⟩ := Option.map_eq_some_iff.1 hw
          obtain ⟨-, hclosed, -, -⟩ := sendOn_frame hc
          obtain ⟨q', hq', hto⟩ := sendOn_sending todo hc
          refine ⟨.sending q', Option.map_eq_some_iff.2 ⟨q', hq', rfl⟩, fun hsends => ?_⟩
          have hopen' : c'.closed = false ∧ w.down.gone = false := hclosed ▸ hopen
          rcases hto hsends with ⟨todo', rfl, heq⟩ | ⟨rfl, hsent, hdead⟩
          · refine ⟨hopen', hrcvd, hout, hexit, ?_, by simp⟩
            rintro _ ⟨⟩
            exact heq.trans (htodo todo rfl)
          · refine ⟨hopen', hrcvd, hout, hexit, by simp, fun _ => ⟨?_, hdead⟩⟩
            rw [← htodo todo rfl]
            exact ⟨todo, congrArg (· ++ todo) hsent⟩
        · cases hw
      | _ => exact ⟨_, rfl, False.elim⟩
    | unsent =>
      cases c with
      | send fd buf =>
        simp only [net] at hw
        split at hw
        · obtain ⟨c', hc, rfl⟩ := Option.map_eq_some_iff.1 hw
          obtain ⟨-, hclosed, -, -⟩ := sendOn_frame hc
          obtain ⟨hpre, hdead⟩ := hunsent rfl
          obtain ⟨q', hq', hsent, hdead'⟩ := sendOn_unsent hdead hc
          refine ⟨.sending q', Option.map_eq_some_iff.2 ⟨q', hq', rfl⟩, fun hsends => ?_⟩
          have hopen' : c'.closed = false ∧ w.down.gone = false := hclosed ▸ hopen
          rcases MsgPhase.auto_unsent hq' with rfl | rfl
          · have hpre' : c'.sent <+: DispSide.taskFrame S.task := hsent ▸ hpre
            exact ⟨hopen', hrcvd, hout, hexit, by simp, fun _ => ⟨hpre', hdead'⟩⟩
          · exact hsends.elim
        · cases hw
      | _ => exact ⟨_, rfl, False.elim⟩
    | _ => exact hgood.elim
  | reading ms q =>
    obtain ⟨hopen, hsent, hout, hexit, hms, hgot⟩ := h
    cases q with
    | receiving got =>
      cases c with
      | recv fd len =>
        simp only [net] at hw
        split at hw
        · obtain ⟨c', hc, rfl⟩ := Option.map_eq_some_iff.1 hw
          obtain ⟨-, -, -, hgone, -⟩ := recvOn_frame hc
          obtain ⟨q', hq', hto⟩ := recvOn_receiving got hc
          refine ⟨.reading ms q', Option.map_eq_some_iff.2 ⟨q', hq', rfl⟩, fun hreceives => ?_⟩
          have hopen' : w.up.closed = false ∧ c'.gone = false := hgone ▸ hopen
          rcases hto hreceives with ⟨bs, rfl, heq⟩ | ⟨rfl, heq⟩
          · refine ⟨hopen', hsent, hout, hexit, ?_, ?_⟩
            · exact hms.trans ⟨bs, heq.symm⟩
            · rintro _ ⟨⟩
              rw [← List.append_assoc, ← hgot got rfl]
              exact heq
          · have hms' : frames ms <+: c'.rcvd := heq ▸ hms
            exact ⟨hopen', hsent, hout, hexit, hms', by simp⟩
        · cases hw
      | malloc size =>
        cases hw
        cases r with
        | none => exact ⟨_, rfl, fun _ => ⟨hopen, hsent, hout, hexit, hms, by simp⟩⟩
        | some p => exact ⟨_, rfl, fun _ => ⟨hopen, hsent, hout, hexit, hms, hgot⟩⟩
      | _ => exact ⟨_, rfl, False.elim⟩
    | unreceived =>
      cases c with
      | free p =>
        cases hw
        exact ⟨_, rfl, fun _ => ⟨hopen, hsent, hout, hexit, hms, by simp⟩⟩
      | _ => exact ⟨_, rfl, False.elim⟩
    | _ => exact hgood.elim
  | _ => exact ⟨.bad, rfl, False.elim⟩

/-- The worker sends or receives. -/
lemma work_net {q : WorkSide} (hgood : q.Good) (h : q.Holds w.worker) {c : NetCall}
    {r : c.Ret} (hw : S.net w .worker c r = some w') :
    ∃ q', q.onNet S.ca.client_fd c r = some q' ∧ (q'.Good → q'.Holds w'.worker) := by
  cases q with
  | reading q =>
    obtain ⟨hclosed, hgone, hout, hsent, hgot⟩ := h
    cases q with
    | receiving got =>
      cases c with
      | recv fd len =>
        simp only [net] at hw
        split at hw
        · obtain ⟨c', hc, rfl⟩ := Option.map_eq_some_iff.1 hw
          obtain ⟨-, -, -, hgone', -⟩ := recvOn_frame hc
          obtain ⟨q', hq', hto⟩ := recvOn_receiving got hc
          refine ⟨.reading q', Option.map_eq_some_iff.2 ⟨q', hq', rfl⟩, fun hreceives => ?_⟩
          refine ⟨hclosed, hgone'.trans hgone, hout, hsent, ?_⟩
          rcases hto hreceives with ⟨bs, rfl, heq⟩ | ⟨rfl, heq⟩
          · rintro _ ⟨⟩
            rw [← hgot got rfl]
            exact heq
          · simp
        · cases hw
      | malloc size =>
        cases hw
        cases r with
        | none => exact ⟨_, rfl, fun _ => ⟨hclosed, hgone, hout, hsent, by simp⟩⟩
        | some p => exact ⟨_, rfl, fun _ => ⟨hclosed, hgone, hout, hsent, hgot⟩⟩
      | _ => exact ⟨_, rfl, False.elim⟩
    | unreceived =>
      cases c with
      | free p =>
        cases hw
        exact ⟨_, rfl, fun _ => ⟨hclosed, hgone, hout, hsent, by simp⟩⟩
      | _ => exact ⟨_, rfl, False.elim⟩
    | _ => exact hgood.elim
  | sending cs m todo =>
    obtain ⟨⟨hclosed, hgone, harrived⟩, hnext, hne, heq⟩ := h
    cases c with
    | send fd buf =>
      simp only [net] at hw
      split at hw
      · obtain ⟨c', hc, rfl⟩ := Option.map_eq_some_iff.1 hw
        obtain ⟨-, hclosed', -, -⟩ := sendOn_frame hc
        obtain ⟨q', hq', hto⟩ := sendOn_sending todo hc
        refine ⟨.ofPhase cs m q', Option.map_eq_some_iff.2 ⟨q', hq', rfl⟩, fun hgood' => ?_⟩
        have hengaged : c'.closed = false ∧ w.up.gone = false ∧ (unframe w.up.rcvd).isSome :=
          ⟨hclosed'.trans hclosed, hgone, harrived⟩
        rcases hto (WorkSide.sends_of_good hgood') with ⟨todo', rfl, heq'⟩ | ⟨rfl, hsent, hdead⟩
        · have hwhole : c'.sent ++ todo' = outputFrames cs ++ m.frame := heq'.trans heq
          cases todo' with
          | nil =>
            rw [List.append_nil] at hwhole
            cases m with
            | output chunk =>
              refine ⟨hengaged, hnext, ?_⟩
              rw [WorkSide.outputFrames_concat]
              exact hwhole
            | done exit =>
              obtain ⟨hout, hstatus⟩ := hnext
              refine ⟨hengaged, exit, hstatus, ?_⟩
              exact hwhole.trans (by rw [← hout]; rfl)
          | cons b todo' => exact ⟨hengaged, hnext, List.cons_ne_nil _ _, hwhole⟩
        · have hpre : c'.sent <+: outputFrames cs ++ m.frame := by
            rw [hsent]
            exact ⟨todo, heq⟩
          cases m with
          | output chunk =>
            have hout : w.output = cs ++ [chunk] := hnext
            refine ⟨hengaged, hdead, ?_⟩
            rw [← WorkSide.outputFrames_concat, ← hout] at hpre
            exact hpre
          | done exit =>
            obtain ⟨hout, hstatus⟩ := hnext
            refine ⟨hengaged, hdead, exit, hstatus, ?_⟩
            rw [← hout] at hpre
            exact hpre
      · cases hw
    | _ => exact ⟨_, rfl, False.elim⟩
  | lost final =>
    cases c with
    | send fd buf =>
      simp only [net] at hw
      split at hw
      · obtain ⟨c', hc, rfl⟩ := Option.map_eq_some_iff.1 hw
        obtain ⟨-, hclosed', -, -⟩ := sendOn_frame hc
        have hdead : w.down.dead = true := by
          cases final with
          | false => exact h.2.1
          | true => exact h.2.1
        obtain ⟨q', hq', hsent, hdead'⟩ := sendOn_unsent hdead hc
        refine ⟨.ofUnsent final q', Option.map_eq_some_iff.2 ⟨q', hq', rfl⟩, fun hgood' => ?_⟩
        rcases MsgPhase.auto_unsent hq' with rfl | rfl
        · cases final with
          | false =>
            obtain ⟨⟨hclosed, hgone, harrived⟩, -, hpre⟩ := h
            have hpre' : c'.sent <+: outputFrames w.output := hsent ▸ hpre
            exact ⟨⟨hclosed'.trans hclosed, hgone, harrived⟩, hdead', hpre'⟩
          | true =>
            obtain ⟨⟨hclosed, hgone, harrived⟩, -, exit, hstatus, hpre⟩ := h
            have hpre' : c'.sent <+: outputFrames w.output ++ (WorkMsg.done exit).frame :=
              hsent ▸ hpre
            exact ⟨⟨hclosed'.trans hclosed, hgone, harrived⟩, hdead', exit, hstatus, hpre'⟩
        · exact hgood'.elim
      · cases hw
    | _ => exact ⟨_, rfl, False.elim⟩
  | _ => exact ⟨.bad, rfl, False.elim⟩

/-! ### The other calls -/

lemma disp_frame {c : DispCall} {r : c.Ret} (h : S.disp w c r = some w') :
    w'.worker = w.worker ∧ (w.up.Ordered → w'.up.Ordered) ∧ (w.down.Ordered → w'.down.Ordered) := by
  rcases disp_cases h with rfl | rfl
  · exact ⟨rfl, id, id⟩
  · exact ⟨rfl, id, id⟩

lemma work_frame {c : WorkCall} {r : c.Ret} (h : S.work w c r = some w') :
    w'.dispatcher = w.dispatcher ∧ (w.up.Ordered → w'.up.Ordered) ∧
      (w.down.Ordered → w'.down.Ordered) := by
  cases c with
  | fork code =>
    cases h
    exact ⟨rfl, id, id⟩
  | waitpid pid =>
    cases h
    exact ⟨rfl, id, id⟩
  | _ =>
    rcases work_cases (by simp) (by simp) h with rfl | ⟨bs, rfl⟩ | rfl
    · exact ⟨rfl, id, id⟩
    · exact ⟨rfl, id, id⟩
    · exact ⟨rfl, id, id⟩

lemma outputOf_append (ms ms' : List WireMsg) :
    outputOf (ms ++ ms') = outputOf ms ++ outputOf ms' := by
  rw [outputOf, List.filter_append, List.flatMap_append, outputOf, outputOf]

lemma outputOf_concat (ms : List WireMsg) (m : WireMsg) :
    outputOf (ms ++ [m]) = outputOf ms ++ if m.type = msgOutput then m.payload else [] := by
  rw [outputOf_append]
  by_cases htype : m.type = msgOutput
  · simp [outputOf, htype]
  · simp [outputOf, htype]

lemma frames_append (ms ms' : List WireMsg) : frames (ms ++ ms') = frames ms ++ frames ms' :=
  frameCode.encAll_append ms ms'

lemma frames_singleton (m : WireMsg) : frames [m] = frameCode.enc m := by
  rw [frames, frameCode.encAll_cons, frameCode.encAll_nil, List.append_nil]

/-- A whole message of the stream. -/
lemma frames_concat {ms ms' : List WireMsg} {m : WireMsg} {got : Bytes}
    (h : frames ms ++ got <+: frames ms') (hun : unframe got = some (m, [])) :
    frames (ms ++ [m]) = frames ms ++ got := by
  obtain ⟨rest, rfl⟩ := frameCode.prefix_of_encAll ((List.prefix_append _ _).trans h)
  have hgot : got <+: frames rest := by
    rw [frames_append] at h
    exact (List.prefix_append_right_inj _).1 h
  have heq := frameCode.eq_of_dec_prefix hgot hun
  rw [List.append_nil] at heq
  rw [frames_append, frames_singleton, heq]

section Disp

variable {task : Task} {v : DispEnd} {q : DispSide}

lemma holds_onMalloc (h : q.Holds task v) (hgood : q.Good) (ok : Bool)
    (hgood' : (q.onMalloc ok).Good) : (q.onMalloc ok).Holds task v := by
  cases q with
  | sending q =>
    cases ok with
    | false =>
      obtain ⟨hopen, hrcvd, hout, hexit, htodo, hunsent⟩ := h
      refine ⟨hopen, ?_, hexit, .inl ⟨rfl, [], List.nil_prefix, hout⟩⟩
      cases q with
      | sending todo => exact ⟨todo, htodo todo rfl⟩
      | unsent => exact (hunsent rfl).1
      | _ => exact hgood.elim
    | true => exact h
  | _ => exact hgood'.elim

/-- The message that was received is the next one of the stream. -/
lemma frames_received {ms : List WireMsg} {m : WireMsg} {got : Bytes}
    (hstream : ∃ ms, v.rcvd <+: frames ms) (hrcvd : v.rcvd = frames ms ++ got)
    (hun : unframe got = some (m, [])) : v.rcvd = frames (ms ++ [m]) := by
  obtain ⟨ms', hstream⟩ := hstream
  rw [hrcvd] at hstream ⊢
  exact (frames_concat hstream hun).symm

lemma holds_onFree (h : q.Holds task v) (hstream : ∃ ms, v.rcvd <+: frames ms)
    (hgood' : q.onFree.Good) : q.onFree.Holds task v := by
  cases q with
  | sending q =>
    obtain ⟨hopen, hrcvd, hout, hexit, htodo, hunsent⟩ := h
    cases q with
    | sending todo =>
      cases todo with
      | nil =>
        have hsent := htodo [] rfl
        rw [List.append_nil] at hsent
        refine ⟨hopen, hsent, hout, hexit, List.nil_prefix, ?_⟩
        rintro _ ⟨⟩
        exact hrcvd
      | cons b todo => exact hgood'.elim
    | unsent => exact ⟨hopen, (hunsent rfl).1, hexit, .inl ⟨rfl, [], List.nil_prefix, hout⟩⟩
    | _ => exact hgood'.elim
  | reading ms q =>
    obtain ⟨hopen, hsent, hout, hexit, hms, hgot⟩ := h
    have hpre : v.sent <+: DispSide.taskFrame task := hsent ▸ List.prefix_refl _
    cases q with
    | receiving got =>
      simp only [DispSide.onFree, DispSide.afterMsg] at hgood' ⊢
      cases hun : unframe got with
      | none => exact ⟨hopen, hpre, hexit, .inl ⟨rfl, ms, hms, hout⟩⟩
      | some x =>
        obtain ⟨m, rest⟩ := x
        rw [hun] at hgood'
        cases rest with
        | nil =>
          have hrcvd := frames_received hstream (hgot got rfl) hun
          simp only at hgood' ⊢
          by_cases htype : m.type = msgOutput
          · rw [if_pos htype] at hgood'
            exact hgood'.elim
          rw [if_neg htype] at hgood' ⊢
          by_cases hdone : m.type = msgTaskDone
          · rw [if_pos hdone] at hgood' ⊢
            exact ⟨hopen, hpre, hexit, .inr ⟨ms, m, hrcvd ▸ List.prefix_refl _, hdone, rfl, hout⟩⟩
          · rw [if_neg hdone] at hgood' ⊢
            refine ⟨hopen, hsent, ?_, hexit, hrcvd ▸ List.prefix_refl _, ?_⟩
            · rw [hout, outputOf_concat, if_neg htype, List.append_nil]
            · rintro _ ⟨⟩
              rw [List.append_nil]
              exact hrcvd
        | cons b rest => exact hgood'.elim
    | unreceived => exact ⟨hopen, hpre, hexit, .inl ⟨rfl, ms, hms, hout⟩⟩
    | _ => exact hgood'.elim
  | printed ms =>
    obtain ⟨hopen, hsent, hout, hexit, hrcvd⟩ := h
    refine ⟨hopen, hsent, hout, hexit, hrcvd ▸ List.prefix_refl _, ?_⟩
    rintro _ ⟨⟩
    rw [List.append_nil]
    exact hrcvd
  | _ => exact hgood'.elim

lemma holds_onPrint (h : q.Holds task v) (hstream : ∃ ms, v.rcvd <+: frames ms) (data : Bytes)
    (hgood' : (q.onPrint data).Good) :
    (q.onPrint data).Holds task { v with passed := v.passed ++ data } := by
  cases q with
  | reading ms q =>
    obtain ⟨hopen, hsent, hout, hexit, hms, hgot⟩ := h
    cases q with
    | receiving got =>
      simp only [DispSide.onPrint] at hgood' ⊢
      cases hun : unframe got with
      | none =>
        rw [hun] at hgood'
        exact hgood'.elim
      | some x =>
        obtain ⟨m, rest⟩ := x
        rw [hun] at hgood'
        cases rest with
        | nil =>
          have hrcvd := frames_received hstream (hgot got rfl) hun
          simp only at hgood' ⊢
          by_cases hprint : m.type = msgOutput ∧ data = m.payload
          · rw [if_pos hprint]
            obtain ⟨htype, rfl⟩ := hprint
            refine ⟨hopen, hsent, ?_, hexit, hrcvd⟩
            rw [outputOf_concat, if_pos htype, hout]
          · rw [if_neg hprint] at hgood'
            exact hgood'.elim
        | cons b rest => exact hgood'.elim
    | _ => exact hgood'.elim
  | _ => exact hgood'.elim

lemma holds_onClose (h : q.Holds task v) (hgood' : q.onClose.Good) :
    q.onClose.Holds task { v with closed := true, gone := true } := by
  cases q with
  | ending rc =>
    obtain ⟨hopen, hsent, hexit, hresult⟩ := h
    exact ⟨rfl, rfl, hsent, hexit, hresult⟩
  | _ => exact hgood'.elim

end Disp

/-- The other calls of the dispatcher. -/
lemma disp_own {q : DispSide} (hgood : q.Good) (h : q.Holds S.task w.dispatcher)
    (hstream : ∃ ms, w.down.rcvd <+: frames ms) {c : DispCall} {r : c.Ret}
    (hw : S.disp w c r = some w') (hgood' : (q.onDisp S.fd c r).Good) :
    (q.onDisp S.fd c r).Holds S.task w'.dispatcher := by
  cases c with
  | malloc size =>
    cases hw
    exact holds_onMalloc h hgood _ hgood'
  | free p =>
    cases hw
    exact holds_onFree h hstream hgood'
  | sock c =>
    cases c with
    | close fd =>
      simp only [DispSide.onDisp, disp] at hw hgood' ⊢
      split at hgood'
      · rename_i hfd
        rw [if_pos hfd] at hw ⊢
        cases hw
        exact holds_onClose h hgood'
      · exact hgood'.elim
    | _ => exact hgood'.elim
  | _ => exact hgood'.elim

section Work

variable {q : WorkSide} {cs : List Bytes} {c : WorkCall} {r : c.Ret}

/-- What was read was sent, and nothing else was. -/
def Idle (cs : List Bytes) (v : WorkEnd) : Prop :=
  v.Engaged ∧ v.output = cs ∧ v.sent = outputFrames cs

lemma frame_ne_nil (m : WorkMsg) : m.frame ≠ [] := by
  intro hnil
  have hlen := length_frame m.type m.payload
  rw [← WorkMsg.frame, hnil, List.length_nil, headerSize] at hlen
  omega

/-- The worker is left alone with its end closed. -/
lemma holds_closed (h : q.Holds w.worker) :
    WorkSide.closed.Holds { w.worker with closed := true, gone := true } :=
  ⟨rfl, rfl, h.spoken⟩

lemma work_between (hidle : Idle cs w.worker) (h : q.Holds w.worker)
    (hw : S.work w c r = some w') :
    ∃ q', WorkSide.between S.ca.client_fd cs q c r = some q' ∧
      (q'.Good → q'.Holds w'.worker) := by
  obtain ⟨hengaged, hout, hsent⟩ := hidle
  cases c with
  | read fd size =>
    simp only [WorkSide.between]
    split
    · cases r with
      | data bs =>
        simp only [work] at hw
        split at hw
        · rename_i hlen
          cases hw
          cases bs with
          | nil => exact ⟨_, rfl, fun _ => ⟨hengaged, hout, hsent⟩⟩
          | cons b bs =>
            refine ⟨_, if_pos hlen, fun _ => ⟨hengaged, ?_, frame_ne_nil _, ?_⟩⟩
            · exact congrArg (· ++ [b :: bs]) hout
            · exact congrArg (· ++ (WorkMsg.output (b :: bs)).frame) hsent
        · cases hw
      | _ =>
        cases hw
        exact ⟨_, rfl, fun _ => ⟨hengaged, hout, hsent⟩⟩
    · exact ⟨_, rfl, False.elim⟩
  | waitpid pid =>
    cases hw
    refine ⟨_, rfl, fun _ => ⟨hengaged, ⟨hout, rfl⟩, frame_ne_nil _, ?_⟩⟩
    exact congrArg (· ++ (WorkMsg.done (childExit r)).frame) hsent
  | pipe =>
    simp only [work] at hw
    split at hw
    · rename_i hfd
      cases hw
      exact ⟨q, if_pos hfd, fun _ => h⟩
    · cases hw
  | close fd =>
    simp only [work] at hw
    simp only [WorkSide.between]
    split at hw
    · rename_i hfd
      cases hw
      exact ⟨_, rfl, fun _ => by rw [if_pos hfd]; exact holds_closed h⟩
    · rename_i hfd
      cases hw
      exact ⟨_, rfl, fun _ => by rw [if_neg hfd]; exact h⟩
  | _ =>
    cases hw
    exact ⟨q, rfl, fun _ => h⟩

/-- What nothing can be sent of any more grows, or gets an exit code. -/
lemma work_lost {final : Bool} (h : (WorkSide.lost final).Holds w.worker)
    (hw : S.work w c r = some w') :
    ∃ q', WorkSide.whenLost S.ca.client_fd final c r = some q' ∧
      (q'.Good → q'.Holds w'.worker) := by
  cases c with
  | read fd size =>
    simp only [WorkSide.whenLost]
    split
    · exact ⟨_, rfl, False.elim⟩
    · rename_i hnot
      cases final with
      | true => exact absurd (.inl rfl) hnot
      | false =>
        cases r with
        | data bs =>
          simp only [work] at hw
          split at hw
          · rename_i hlen
            cases hw
            refine ⟨_, if_pos hlen, fun _ => ?_⟩
            obtain ⟨hengaged, hdead, hpre⟩ := h
            split
            · exact ⟨hengaged, hdead, hpre⟩
            · refine ⟨hengaged, hdead, ?_⟩
              simp only [SessWorld.worker] at hpre ⊢
              rw [WorkSide.outputFrames_append]
              exact hpre.trans (List.prefix_append _ _)
          · cases hw
        | _ =>
          cases hw
          exact ⟨_, rfl, fun _ => h⟩
  | waitpid pid =>
    cases hw
    cases final with
    | true => exact ⟨_, rfl, False.elim⟩
    | false => exact ⟨_, rfl, fun _ => h⟩
  | pipe =>
    simp only [work] at hw
    split at hw
    · rename_i hfd
      cases hw
      exact ⟨_, if_pos hfd, fun _ => h⟩
    · cases hw
  | close fd =>
    simp only [work] at hw
    simp only [WorkSide.whenLost]
    split at hw
    · rename_i hfd
      cases hw
      exact ⟨_, rfl, fun _ => by rw [if_pos hfd]; exact holds_closed h⟩
    · rename_i hfd
      cases hw
      exact ⟨_, rfl, fun _ => by rw [if_neg hfd]; exact h⟩
  | _ =>
    cases hw
    exact ⟨_, rfl, fun _ => h⟩

lemma work_ended (h : WorkSide.ended.Holds w.worker) (hw : S.work w c r = some w') :
    ∃ q', WorkSide.whenEnded S.ca.client_fd c r = some q' ∧
      (q'.Good → q'.Holds w'.worker) := by
  cases c with
  | read fd size => exact ⟨_, rfl, False.elim⟩
  | waitpid pid => exact ⟨_, rfl, False.elim⟩
  | pipe =>
    simp only [work] at hw
    split at hw
    · cases hw
      exact ⟨_, rfl, fun _ => h⟩
    · cases hw
  | close fd =>
    simp only [work] at hw
    simp only [WorkSide.whenEnded]
    split at hw
    · rename_i hfd
      cases hw
      exact ⟨_, rfl, fun _ => by rw [if_pos hfd]; exact holds_closed h⟩
    · rename_i hfd
      cases hw
      exact ⟨_, rfl, fun _ => by rw [if_neg hfd]; exact h⟩
  | _ =>
    cases hw
    exact ⟨_, rfl, fun _ => h⟩

lemma work_refused (h : q.Holds w.worker) (hw : S.work w c r = some w') :
    ∃ q', WorkSide.whenRefused S.ca.client_fd q c r = some q' ∧
      (q'.Good → q'.Holds w'.worker) := by
  cases c with
  | free p =>
    cases hw
    exact ⟨_, rfl, fun _ => h⟩
  | close fd =>
    simp only [work] at hw
    simp only [WorkSide.whenRefused]
    split at hw
    · rename_i hfd
      cases hw
      exact ⟨_, rfl, fun _ => by rw [if_pos hfd]; exact holds_closed h⟩
    · rename_i hfd
      exact ⟨_, rfl, fun hgood => by rw [if_neg hfd] at hgood; exact hgood.elim⟩
  | _ => exact ⟨_, rfl, False.elim⟩

/-- The other calls of the worker. -/
lemma work_own (h : q.Holds w.worker) (hw : S.work w c r = some w') :
    ∃ q', q.onWork S.ca.client_fd c r = some q' ∧ (q'.Good → q'.Holds w'.worker) := by
  cases q with
  | reading q =>
    cases q with
    | receiving got =>
      simp only [WorkSide.onWork]
      split
      · rename_i hun
        obtain ⟨hclosed, hgone, hout, hsent, hgot⟩ := h
        have hidle : Idle [] w.worker := by
          refine ⟨⟨hclosed, hgone, ?_⟩, hout, hsent⟩
          rw [hgot got rfl]
          exact hun
        exact work_between hidle hidle hw
      · exact work_refused h hw
    | unreceived => exact work_refused h hw
    | _ => exact ⟨_, rfl, False.elim⟩
  | working cs => exact work_between h h hw
  | sending cs m todo =>
    simp only [WorkSide.onWork]
    split
    · rename_i hwhole
      obtain ⟨rfl, hdone⟩ := hwhole
      have hidle : Idle cs w.worker := by
        obtain ⟨hengaged, hnext, -, heq⟩ := h
        refine ⟨hengaged, ?_, List.append_cancel_right heq⟩
        cases m with
        | output chunk => cases hdone
        | done exit => exact hnext.1
      exact work_between hidle h hw
    · exact ⟨_, rfl, False.elim⟩
  | lost final => exact work_lost h hw
  | ended => exact work_ended h hw
  | closed => exact ⟨_, rfl, False.elim⟩
  | bad => exact h.elim

end Work

end Session
end P2PNode
