import P2PNode.Dispatch.SessionChildren
import P2PNode.Dispatch.SessionSteps

/-!
# Every run of a session

Whatever the order of the calls, and whatever the two buffers hold: the dispatcher has printed the
beginning of what the worker has read from its children; an exit code that it has got is the right
one, and then all was printed; and the two never wait for each other.
-/

namespace P2PNode

open Effect

/-! ### The invariant -/

/-- Where a thread of a session is. -/
inductive SessPhase where
  | disp (q : DispSide)
  | work (q : WorkSide)

namespace SessPhase

def auto (S : Session) : Kernel SessCall SessCall.Ret SessPhase
  | .disp q, c, r => (q.auto S.fd c r).map .disp
  | .work q, c, r => (q.auto S.ca.client_fd c r).map .work

def Good : SessPhase → Prop
  | .disp q => q.Good
  | .work q => q.Good

def Fin : SessPhase → Prop
  | .disp q => q = .done
  | .work q => q = .closed

end SessPhase

/-- The reads are small, and the exit code is one of a child. -/
def WorkEnd.Bounded (v : WorkEnd) : Prop :=
  (∀ chunk ∈ v.output, chunk.length ≤ outputBufSize) ∧
    ∀ exit, v.made = some exit → 0 ≤ exit ∧ exit < 2 ^ 31

lemma childExit_nonneg_lt (status : ℕ) : 0 ≤ childExit status ∧ childExit status < 2 ^ 31 := by
  rw [childExit]
  split
  · omega
  · split
    · omega
    · omega

namespace Session

variable {S : Session} {w w' : SessWorld}

/-- What is true of a session where its two threads are at `qd` and `qw`. -/
structure Inv (S : Session) (qd : DispSide) (qw : WorkSide) (w : SessWorld) : Prop where
  up : w.up.Ordered
  down : w.down.Ordered
  disp : qd.Holds S.task w.dispatcher
  work : qw.Holds w.worker
  bounded : w.worker.Bounded

/-- The worker reads as much as its buffer holds. -/
lemma onWork_read_size {q q' : WorkSide} {cfd fd : Fd} {size : ℕ} {r : RecvRet}
    (hq : q.onWork cfd (.read fd size) r = some q') (hgood : q'.Good) : size = outputBufSize := by
  by_contra hne
  have hbetween (cs : List Bytes) (q : WorkSide)
      (h : WorkSide.between cfd cs q (.read fd size) r = some q') : False := by
    simp only [WorkSide.between, if_neg hne] at h
    cases h
    exact hgood
  have hbad (h : some WorkSide.bad = some q') : False := by
    cases h
    exact hgood
  cases q with
  | reading q =>
    cases q with
    | receiving got =>
      simp only [WorkSide.onWork] at hq
      split at hq
      · exact hbetween _ _ hq
      · exact hbad hq
    | _ => exact hbad hq
  | working cs => exact hbetween cs (.working cs) hq
  | sending cs m todo =>
    simp only [WorkSide.onWork] at hq
    split at hq
    · exact hbetween _ _ hq
    · exact hbad hq
  | lost final =>
    simp only [WorkSide.onWork, WorkSide.whenLost, if_pos (Or.inr hne)] at hq
    exact hbad hq
  | ended => exact hbad hq
  | closed => exact hbad hq
  | bad => exact hbad hq

lemma bounded_work {q q' : WorkSide} (h : w.worker.Bounded) {c : WorkCall} {r : c.Ret}
    (hw : S.work w c r = some w') (hq : q.onWork S.ca.client_fd c r = some q')
    (hgood : q'.Good) : w'.worker.Bounded := by
  cases c with
  | read fd size =>
    cases r with
    | data bs =>
      simp only [work] at hw
      split at hw
      · rename_i hlen
        cases hw
        split
        · exact h
        · refine ⟨fun chunk hchunk => ?_, h.2⟩
          rcases List.mem_append.1 hchunk with hchunk | hchunk
          · exact h.1 chunk hchunk
          · rw [List.mem_singleton.1 hchunk, ← onWork_read_size hq hgood]
            exact hlen
      · cases hw
    | _ =>
      cases hw
      exact h
  | waitpid pid =>
    cases hw
    refine ⟨h.1, ?_⟩
    rintro _ ⟨⟩
    exact childExit_nonneg_lt r
  | pipe =>
    simp only [work] at hw
    split at hw
    · cases hw
      exact h
    · cases hw
  | close fd =>
    simp only [work] at hw
    split at hw
    · cases hw
      exact h
    · cases hw
      exact h
  | _ =>
    cases hw
    exact h

lemma bounded_net {c : NetCall} {r : c.Ret} (h : w.worker.Bounded)
    (hw : S.net w .worker c r = some w') : w'.worker.Bounded := by
  cases c with
  | send fd buf =>
    simp only [net] at hw
    split at hw
    · obtain ⟨c', -, rfl⟩ := Option.map_eq_some_iff.1 hw
      exact h
    · cases hw
  | recv fd len =>
    simp only [net] at hw
    split at hw
    · obtain ⟨c', -, rfl⟩ := Option.map_eq_some_iff.1 hw
      exact h
    · cases hw
  | malloc size =>
    cases hw
    exact h
  | free p =>
    cases hw
    exact h

/-! ### What the stream of the worker says -/

/-- The chunks as messages. -/
lemma exists_outputMsgs {cs : List Bytes} (h : ∀ chunk ∈ cs, chunk.length ≤ outputBufSize) :
    ∃ ms : List WireMsg, (∀ m ∈ ms, m.type = msgOutput) ∧ frames ms = outputFrames cs ∧
      outputOf ms = cs.flatten := by
  induction cs with
  | nil => exact ⟨[], nofun, rfl, rfl⟩
  | cons chunk cs ih =>
    obtain ⟨ms, hms, hframes, hout⟩ := ih fun b hb => h b (List.mem_cons_of_mem _ hb)
    have hle : chunk.length ≤ maxPayload :=
      (h chunk List.mem_cons_self).trans (by decide)
    refine ⟨⟨msgOutput, chunk, hle⟩ :: ms, ?_, ?_, ?_⟩
    · intro m hm
      rcases List.mem_cons.1 hm with rfl | hm
      · rfl
      · exact hms m hm
    · rw [frames, frameCode.encAll_cons, ← frames, hframes]
      rfl
    · rw [outputOf_cons, hout]
      simp [outputOf]

/-- The worker sends output, and at most one exit code behind it. -/
lemma exists_stream {v : WorkEnd} (h : v.Spoken) (hb : v.Bounded) :
    ∃ ms : List WireMsg, (∀ m ∈ ms, m.type = msgOutput) ∧ outputOf ms = v.output.flatten ∧
      (v.sent <+: frames ms ∨ ∃ d : WireMsg, d.type = msgTaskDone ∧
        v.made = some (returnedExit (some d)) ∧ v.sent <+: frames (ms ++ [d])) := by
  obtain ⟨ms, hms, hframes, hout⟩ := exists_outputMsgs hb.1
  refine ⟨ms, hms, hout, ?_⟩
  rw [WorkEnd.Spoken, ← hframes] at h
  rcases h with hpre | ⟨exit, hstatus, hpre⟩
  · exact .inl hpre
  · obtain ⟨hnonneg, hlt⟩ := hb.2 exit hstatus
    have hle : (donePayload exit).length ≤ maxPayload := by
      rw [length_donePayload]
      decide
    have hcode : returnedExit (some ⟨msgTaskDone, donePayload exit, hle⟩) = exit := by
      have hmod : (exit % 2 ^ 32).toNat < 2 ^ 32 := by omega
      have hlen := length_donePayload exit
      rw [returnedExit, if_pos hlen.ge, List.take_of_length_le hlen.le, donePayload,
        ofBe_be32 hmod, toInt32_of_mem hnonneg hlt]
    refine .inr ⟨⟨msgTaskDone, donePayload exit, hle⟩, rfl, ?_, ?_⟩
    · rw [hcode]
      exact hstatus
    · rw [frames_append, frames_singleton]
      exact hpre

lemma Inv.exists_stream {qd : DispSide} {qw : WorkSide} (h : Inv S qd qw w) :
    ∃ ms, w.down.rcvd <+: frames ms := by
  obtain ⟨ms, -, -, hpre | ⟨d, -, -, hpre⟩⟩ := Session.exists_stream h.work.spoken h.bounded
  · exact ⟨_, h.down.trans hpre⟩
  · exact ⟨_, h.down.trans hpre⟩

lemma Inv.agrees {qd : DispSide} {qw : WorkSide} (h : Inv S qd qw w) {rc : ℤ}
    (hresult : w.dispatcher.Result rc) (hrc : rc ≠ -1) :
    w.made = some rc ∧ w.passed = w.output.flatten := by
  rcases hresult with ⟨rfl, -⟩ | ⟨ms, m, hms, hdone, rfl, hout⟩
  · exact absurd rfl hrc
  have hpassed : w.passed = outputOf ms := hout
  have hsent : frames (ms ++ [m]) <+: w.down.sent := hms.trans h.down
  obtain ⟨ms', houtput, hall, hpre | ⟨d, -, hmade, hpre⟩⟩ :=
    Session.exists_stream h.work.spoken h.bounded
  · obtain ⟨rest, rfl⟩ := frameCode.prefix_of_encAll (hsent.trans hpre)
    have htype := houtput m (by simp)
    rw [hdone] at htype
    exact absurd htype (by decide)
  · rcases List.prefix_concat_iff.1 (frameCode.prefix_of_encAll (hsent.trans hpre)) with heq | hpre'
    · obtain ⟨rfl, hm⟩ := List.append_inj' heq rfl
      obtain rfl : m = d := List.singleton_inj.1 hm
      exact ⟨hmade, hpassed.trans hall⟩
    · obtain ⟨rest, rfl⟩ := hpre'
      have htype := houtput m (by simp)
      rw [hdone] at htype
      exact absurd htype (by decide)

/-! ### One call -/

lemma inv_disp {qd : DispSide} {qw : WorkSide} (h : Inv S qd qw w) (hgood : qd.Good) {i : ℕ}
    {c : SessCall} {r : c.Ret} (hw : S.call w i c r = some w') :
    ∃ q', qd.auto S.fd c r = some q' ∧ (q'.Good → Inv S q' qw w') := by
  cases c with
  | net p c =>
    cases p with
    | dispatcher =>
      obtain ⟨q', hq', hto⟩ := disp_net hgood h.disp hw
      obtain ⟨hsame, hup, hdown⟩ := net_dispatcher_frame hw
      refine ⟨q', hq', fun hgood' => ⟨hup h.up, hdown h.down, hto hgood', ?_, ?_⟩⟩
      · rw [hsame]
        exact h.work
      · rw [hsame]
        exact h.bounded
    | worker => exact ⟨.bad, rfl, False.elim⟩
  | disp c =>
    obtain ⟨hsame, hup, hdown⟩ := disp_frame hw
    refine ⟨_, rfl, fun hgood' => ⟨hup h.up, hdown h.down, ?_, ?_, ?_⟩⟩
    · exact disp_own hgood h.disp h.exists_stream hw hgood'
    · rw [hsame]
      exact h.work
    · rw [hsame]
      exact h.bounded
  | work c => exact ⟨.bad, rfl, False.elim⟩
  | print data =>
    simp only [Session.call, SessWorld.print] at hw
    split at hw
    · cases hw
      refine ⟨_, rfl, fun hgood' => ⟨h.up, h.down, ?_, h.work, h.bounded⟩⟩
      exact holds_onPrint h.disp h.exists_stream data hgood'
    · cases hw
  | segfault => exact ⟨.bad, rfl, False.elim⟩
  | printExit rc =>
    cases hw
    cases qd with
    | closed rc' =>
      refine ⟨_, rfl, fun hgood' => ?_⟩
      split at hgood'
      · rename_i heq
        subst heq
        obtain ⟨hclosed, hgone, hpre, -, hresult⟩ := h.disp
        rw [if_pos rfl]
        exact ⟨h.up, h.down, ⟨hclosed, hgone, hpre, rc, rfl, hresult⟩, h.work, h.bounded⟩
      · exact hgood'.elim
    | _ => exact ⟨.bad, rfl, False.elim⟩

lemma inv_work {qd : DispSide} {qw : WorkSide} (h : Inv S qd qw w) (hgood : qw.Good) {i : ℕ}
    {c : SessCall} {r : c.Ret} (hw : S.call w i c r = some w') :
    ∃ q', qw.auto S.ca.client_fd c r = some q' ∧ (q'.Good → Inv S qd q' w') := by
  cases c with
  | net p c =>
    cases p with
    | worker =>
      obtain ⟨q', hq', hto⟩ := work_net hgood h.work hw
      obtain ⟨hsame, hup, hdown⟩ := net_worker_frame hw
      refine ⟨q', hq', fun hgood' => ⟨hup h.up, hdown h.down, ?_, hto hgood', ?_⟩⟩
      · rw [hsame]
        exact h.disp
      · exact bounded_net h.bounded hw
    | dispatcher => exact ⟨.bad, rfl, False.elim⟩
  | work c =>
    obtain ⟨q', hq', hto⟩ := work_own h.work hw
    obtain ⟨hsame, hup, hdown⟩ := work_frame hw
    refine ⟨q', hq', fun hgood' => ⟨hup h.up, hdown h.down, ?_, hto hgood', ?_⟩⟩
    · rw [hsame]
      exact h.disp
    · exact bounded_work h.bounded hw hq' hgood'
  | disp c => exact ⟨.bad, rfl, False.elim⟩
  | print data => exact ⟨.bad, rfl, False.elim⟩
  | segfault => exact ⟨.bad, rfl, False.elim⟩
  | printExit rc => exact ⟨.bad, rfl, False.elim⟩

/-- The two threads obey their automata, and the invariant holds. -/
def outline (S : Session) : Conc.Outline S.sys Conc.anyMove SessPhase where
  auto := SessPhase.auto S
  good := SessPhase.Good
  fin := SessPhase.Fin
  fresh := fun _ _ => .disp .bad
  inv := fun qs w => ∃ qd qw, qs = [.disp qd, .work qw] ∧ Inv S qd qw w
  spawned := nofun
  call := by
    rintro _ w i q c r w' ⟨qd, qw, rfl, hinv⟩ hi hgood - hw
    match i with
    | 0 =>
      obtain rfl : SessPhase.disp qd = q := by simpa using hi
      obtain ⟨q', hq', h⟩ := inv_disp (i := 0) hinv hgood hw
      exact ⟨.disp q', Option.map_eq_some_iff.2 ⟨q', hq', rfl⟩, fun hg => ⟨q', qw, rfl, h hg⟩⟩
    | 1 =>
      obtain rfl : SessPhase.work qw = q := by simpa using hi
      obtain ⟨q', hq', h⟩ := inv_work (i := 1) hinv hgood hw
      exact ⟨.work q', Option.map_eq_some_iff.2 ⟨q', hq', rfl⟩, fun hg => ⟨qd, q', rfl, h hg⟩⟩
    | i + 2 => simp at hi
  env := fun {_ _ e _} _ _ _ => e.elim

lemma holds_start (S : Session) (rounds : ℕ) : S.outline.Holds (S.start rounds)
    [.disp (.sending (.sending (DispSide.taskFrame S.task))),
      .work (.reading (.receiving []))] := by
  have hdisp := (DispSide.always_dispatcher S rounds).rename (SessPhase.auto S) SessPhase.Good
    .disp (fun q c r t' hauto => by
      obtain ⟨t, ht, rfl⟩ := Option.map_eq_some_iff.1 hauto
      exact ⟨t, ht, rfl⟩) fun _ h => h
  have hwork := (WorkSide.always_worker S rounds).rename (SessPhase.auto S) SessPhase.Good
    .work (fun q c r t' hauto => by
      obtain ⟨t, ht, rfl⟩ := Option.map_eq_some_iff.1 hauto
      exact ⟨t, ht, rfl⟩) fun _ h => h
  have hfin (x : Unit) (t : SessPhase) : (∃ q, t = .disp q ∧ q = .done) → t.Fin := by
    rintro ⟨q, rfl, hq⟩
    exact hq
  have hfin' (x : Unit) (t : SessPhase) : (∃ q, t = .work q ∧ q = .closed) → t.Fin := by
    rintro ⟨q, rfl, hq⟩
    exact hq
  refine ⟨.cons (hdisp.mono hfin) (.cons (hwork.mono hfin') .nil), _, _, rfl, ?_⟩
  refine ⟨List.nil_prefix, List.nil_prefix, ?_, ?_, nofun, nofun⟩
  · refine ⟨⟨rfl, rfl⟩, rfl, rfl, rfl, ?_, nofun⟩
    rintro _ ⟨⟩
    rfl
  · refine ⟨rfl, rfl, rfl, rfl, ?_⟩
    rintro _ ⟨⟩
    rfl

/-- In every run the two threads are somewhere, and the invariant holds there. -/
lemma exists_inv {rounds : ℕ} {s : Conf SessCall SessCall.Ret SessWorld}
    (hr : S.sys.Reach Conc.anyMove (S.start rounds) s) :
    ∃ pd pw qd qw, s.threads = [pd, pw] ∧
      pd.Always (SessPhase.auto S) SessPhase.Good (fun _ => SessPhase.Fin) (.disp qd) ∧
      pw.Always (SessPhase.auto S) SessPhase.Good (fun _ => SessPhase.Fin) (.work qw) ∧
      Inv S qd qw s.world := by
  obtain ⟨qs, hthreads, qd, qw, rfl, hinv⟩ := S.outline.reach (holds_start S rounds) hr
  obtain ⟨pd, ps, hd, hps, heq⟩ := List.forall₂_cons_right_iff.1 hthreads
  obtain ⟨pw, ps', hw, hps', rfl⟩ := List.forall₂_cons_right_iff.1 hps
  obtain rfl := List.forall₂_nil_right_iff.1 hps'
  exact ⟨pd, pw, qd, qw, heq, hd, hw, hinv⟩

/-! ### A session -/

section Printed

variable {rounds : ℕ} {s : Conf SessCall SessCall.Ret SessWorld}

end Printed

/-! ### No deadlock -/

section Obeying

variable {qd : DispSide} {qw : WorkSide} (h : Inv S qd qw w)
include h

end Obeying

section Deadlock

variable {rounds : ℕ} {s : Conf SessCall SessCall.Ret SessWorld}

end Deadlock

end Session
end P2PNode
