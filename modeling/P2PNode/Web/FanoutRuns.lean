import P2PNode.Web.FanoutPhases

/-!
# What the dashboards are sent

Every run of the event loop: each dashboard gets what the node has put out before it was added, up
to the size of the backlog, and everything from then on, each piece once; and `connected_clients`
keeps a dashboard that was lost in its backlog.
-/

namespace P2PNode

open Effect

/-! ### The output in what was sent -/

/-- The output that a dashboard was sent by its handler, or by the broadcasts. -/
def linesFrom (s : Sender) (sent : List (Sender × WsOut)) : List PyStr :=
  sent.filterMap fun x => if x.1 = s then x.2.line? else none

@[simp] lemma linesFrom_nil (s : Sender) : linesFrom s [] = [] := rfl

lemma linesFrom_concat_self (s : Sender) (sent : List (Sender × WsOut)) (msg : WsOut) :
    linesFrom s (sent ++ [(s, msg)]) = linesFrom s sent ++ msg.line?.toList := by
  cases h : msg.line? with
  | _ => simp [linesFrom, h]

lemma linesFrom_concat_other {s s' : Sender} (hs : s' ≠ s) (sent : List (Sender × WsOut))
    (msg : WsOut) : linesFrom s (sent ++ [(s', msg)]) = linesFrom s sent := by
  simp [linesFrom, hs]

/-- All the output that a dashboard was sent, in its order. -/
def allLines (sent : List (Sender × WsOut)) : List PyStr := sent.filterMap fun x => x.2.line?

/-- What the two senders have sent is all that was sent. -/
lemma linesFrom_perm (sent : List (Sender × WsOut)) :
    (allLines sent).Perm (linesFrom .handler sent ++ linesFrom .broadcast sent) := by
  induction sent with
  | nil => exact .nil
  | cons x sent ih =>
    obtain ⟨s, msg⟩ := x
    cases h : msg.line? with
    | none => simpa [allLines, linesFrom, h] using ih
    | some line =>
      cases s with
      | handler => simpa [allLines, linesFrom, h] using ih
      | broadcast =>
        have hcons : (line :: allLines sent).Perm
            (linesFrom .handler sent ++ line :: linesFrom .broadcast sent) :=
          (ih.cons line).trans List.perm_middle.symm
        simpa [allLines, linesFrom, h] using hcons

namespace Fanout

variable (w : Fanout)

def own (d : ℕ) : List PyStr := linesFrom .handler (w.sent d)
def live (d : ℕ) : List PyStr := linesFrom .broadcast (w.sent d)

/-- The dashboards to which the message of task `i` was not sent yet. -/
def left (i : ℕ) : Finset ℕ := ((w.gathering i).map Prod.snd).getD ∅

/-- What the reading task has put into the log and not sent to a dashboard. -/
def owed (d : ℕ) : CastPhase → List PyStr
  | .checking msg   => if d ∈ w.clients then msg.line?.toList else []
  | .listing msg    => if d ∈ w.clients then msg.line?.toList else []
  | .calling msg ds => if d ∈ ds then msg.line?.toList else []
  | .waiting msg    => if d ∈ w.left 0 then msg.line?.toList else []
  | _               => []

/-- The broadcasts have sent a dashboard what has come since it was added, in its order; nothing is
missing but what is owed, unless it was lost or discarded. -/
structure Fed (q : CastPhase) (d : ℕ) : Prop where
  live : w.seen d ++ w.live d <+: w.log
  owed : w.failed d = false → w.seen d ++ w.live d ++ w.owed d q <+: w.log
  all : w.failed d = false → d ∈ w.clients → w.seen d ++ w.live d ++ w.owed d q = w.log

end Fanout

/-- What is true where task `i` broadcasts. -/
def CastPhase.Holds (w : Fanout) (i : ℕ) : CastPhase → Prop
  | .idle          => w.gathering i = none
  | .got _         => w.gathering i = none
  | .checking _    => w.running = some i ∧ w.gathering i = none
  | .listing _     => w.running = some i ∧ w.gathering i = none
  | .calling _ ds  => w.running = some i ∧ w.gathering i = none ∧ ds.toFinset = w.clients
  | .waiting msg   => ∃ left, w.gathering i = some (msg, left)
  | .bad           => False

/-- A task that broadcasts no output. -/
def CastPhase.Lineless : CastPhase → Prop
  | .idle          => True
  | .got _         => False
  | .checking msg  => msg.line? = none
  | .listing msg   => msg.line? = none
  | .calling msg _ => msg.line? = none
  | .waiting msg   => msg.line? = none
  | .bad           => True

/-- What is true where a handler is. -/
def HandPhase.Holds (w : Fanout) (q : CastPhase) (d : ℕ) : HandPhase → Prop
  | .fresh => d ∉ w.clients ∧ w.sent d = [] ∧ w.seen d = [] ∧ d ∉ w.left 0 ∧ d ∉ w.left 1
  | .added => w.running = some (d + 3) ∧ d ∈ w.clients ∧ w.sent d = [] ∧ w.seen d = w.log ∧
      d ∉ w.left 0
  | .backlog todo => d ∈ w.clients ∧ w.Fed q d ∧
      w.own d ++ todo = Fanout.lastLines backlogSize (w.seen d)
  | .lost => d ∈ w.clients ∧ w.failed d = true ∧ w.Fed q d ∧
      ∃ todo, todo ≠ [] ∧ w.own d ++ todo = Fanout.lastLines backlogSize (w.seen d)
  | .gone => d ∉ w.clients ∧ w.Fed q d ∧ w.own d = Fanout.lastLines backlogSize (w.seen d)
  | .bad => False

namespace Fanout

/-- What is true of the bridge where its tasks are. -/
structure Inv (q₀ q₁ : CastPhase) (hs : List FanPhase) (w : Fanout) : Prop where
  reader : q₀.Holds w 0
  waiter : q₁.Holds w 1
  lineless : q₁.Lineless
  others : ∀ i, 2 ≤ i → w.gathering i = none
  accepted : w.accepted = hs.length
  hand : ∀ d p, hs[d]? = some p → ∃ h : HandPhase, p = .hand d h ∧ h.Holds w q₀ d
  fresh : ∀ d, hs.length ≤ d → HandPhase.fresh.Holds w q₀ d

variable {w w' : Fanout}

/-! ### What a call leaves alone -/

/-- Nothing that a handler depends on has changed, but for the log and what is owed. -/
structure Same (w w' : Fanout) (d : ℕ) : Prop where
  clients : d ∈ w'.clients ↔ d ∈ w.clients
  sent : w'.sent d = w.sent d
  failed : w'.failed d = w.failed d
  seen : w'.seen d = w.seen d

/-- A dashboard that may have been lost or discarded meanwhile. -/
lemma Fed.of_eq {q q' : CastPhase} {d : ℕ} (h : w.Fed q d) (hlive : w'.live d = w.live d)
    (hseen : w'.seen d = w.seen d) (hlog : w'.log = w.log)
    (hfailed : w'.failed d = false → w.failed d = false) (hclients : d ∈ w'.clients → d ∈ w.clients)
    (howed : w'.failed d = false → w'.owed d q' = w.owed d q) : w'.Fed q' d := by
  refine ⟨?_, fun hf => ?_, fun hf hd => ?_⟩
  · rw [hlive, hseen, hlog]
    exact h.live
  · rw [hlive, hseen, hlog, howed hf]
    exact h.owed (hfailed hf)
  · rw [hlive, hseen, hlog, howed hf]
    exact h.all (hfailed hf) (hclients hd)

lemma Fed.of_same {q q' : CastPhase} {d : ℕ} (h : w.Fed q d) (hs : Same w w' d)
    (hlog : w'.log = w.log) (howed : w'.owed d q' = w.owed d q) : w'.Fed q' d :=
  h.of_eq (congrArg (linesFrom .broadcast) hs.sent) hs.seen hlog (fun hf => hs.failed ▸ hf)
    hs.clients.1 fun _ => howed

/-- A handler that does not run itself. -/
lemma holds_of_same {q q' : CastPhase} {d i : ℕ} {h : HandPhase} (hh : h.Holds w q d)
    (hrun : w.running = none ∨ w.running = some i) (hi : i ≠ d + 3) (hs : Same w w' d)
    (hfed : w.Fed q d → w'.Fed q' d)
    (hleft : d ∉ w.clients → d ∉ w.left 0 ∧ d ∉ w.left 1 → d ∉ w'.left 0 ∧ d ∉ w'.left 1) :
    h.Holds w' q' d := by
  have hown : w'.own d = w.own d := congrArg (linesFrom .handler) hs.sent
  cases h with
  | fresh =>
    obtain ⟨hd, hsent, hseen, hl⟩ := hh
    obtain ⟨hl₀, hl₁⟩ := hleft hd hl
    exact ⟨fun hd' => hd (hs.clients.1 hd'), hs.sent.trans hsent, hs.seen.trans hseen, hl₀, hl₁⟩
  | added =>
    obtain ⟨hrun', -⟩ := hh
    rw [hrun'] at hrun
    rcases hrun with hrun | hrun
    · cases hrun
    · exact absurd (Option.some.inj hrun).symm hi
  | backlog todo =>
    obtain ⟨hd, hf, htodo⟩ := hh
    refine ⟨hs.clients.2 hd, hfed hf, ?_⟩
    rw [hown, hs.seen]
    exact htodo
  | lost =>
    obtain ⟨hd, hfailed, hf, htodo⟩ := hh
    refine ⟨hs.clients.2 hd, hs.failed.trans hfailed, hfed hf, ?_⟩
    rw [hown, hs.seen]
    exact htodo
  | gone =>
    obtain ⟨hd, hf, htodo⟩ := hh
    refine ⟨fun hd' => hd (hs.clients.1 hd'), hfed hf, ?_⟩
    rw [hown, hs.seen]
    exact htodo
  | bad => exact hh

/-- A task that broadcasts and does not run. -/
lemma cast_of_other {q : CastPhase} {i j : ℕ} (h : q.Holds w i)
    (hrun : w.running = none ∨ w.running = some j) (hij : i ≠ j)
    (hg : w'.gathering i = w.gathering i) : q.Holds w' i := by
  have hnot : w.running ≠ some i := by
    rcases hrun with hrun | hrun
    · rw [hrun]
      exact nofun
    · rw [hrun]
      exact fun h => hij (Option.some.inj h).symm
  cases q with
  | idle => exact hg.trans h
  | got text => exact hg.trans h
  | checking msg => exact absurd h.1 hnot
  | listing msg => exact absurd h.1 hnot
  | calling msg ds => exact absurd h.1 hnot
  | waiting msg =>
    obtain ⟨left, hleft⟩ := h
    exact ⟨left, hg.trans hleft⟩
  | bad => exact h

lemma left_congr {i : ℕ} (hg : w'.gathering i = w.gathering i) : w'.left i = w.left i := by
  rw [left, left, hg]

/-- What is owed to a dashboard while the reading task does not run. -/
lemma owed_of_other {q : CastPhase} {j : ℕ} (h : q.Holds w 0)
    (hrun : w.running = none ∨ w.running = some j) (hj : 0 ≠ j)
    (hg : w'.gathering 0 = w.gathering 0) (d : ℕ) : w'.owed d q = w.owed d q := by
  have hnot : w.running ≠ some 0 := by
    rcases hrun with hrun | hrun
    · rw [hrun]
      exact nofun
    · rw [hrun]
      exact fun h => hj (Option.some.inj h).symm
  cases q with
  | checking msg => exact absurd h.1 hnot
  | listing msg => exact absurd h.1 hnot
  | calling msg ds => exact absurd h.1 hnot
  | waiting msg => rw [owed, owed, left_congr hg]
  | _ => rfl

lemma call_eq_some {i : ℕ} {c : FanCall} {r : c.Ret} (h : w.call i c r = some w') :
    (w.running = none ∨ w.running = some i) ∧ ∃ v, w.act i c r = some v ∧
      w' = { v with running := if c = .suspend then none else some i } := by
  rw [call] at h
  split at h
  · rename_i hrun
    obtain ⟨v, hv, rfl⟩ := Option.map_eq_some_iff.1 h
    exact ⟨hrun, v, hv, rfl⟩
  · cases h

lemma deliver_cases {d : ℕ} {s : Sender} {msg : WsOut} {ok : Bool}
    (h : w.deliver d s msg ok = some w') :
    (ok = false ∧ w' = { w with failed := Function.update w.failed d true }) ∨
      ok = true ∧ w.failed d = false ∧
        w' = { w with sent := Function.update w.sent d (w.sent d ++ [(s, msg)]) } := by
  cases ok with
  | false =>
    cases h
    exact .inl ⟨rfl, rfl⟩
  | true =>
    simp only [deliver, Bool.true_eq_false, if_false] at h
    split at h
    · rename_i hlive
      cases h
      exact .inr ⟨rfl, hlive, rfl⟩
    · cases h

/-! ### A task that broadcasts -/

section Cast

variable {reads : Bool} {q : CastPhase} {i : ℕ} {c : FanCall} {r : c.Ret}

/-- What a call of a broadcasting task leaves alone. -/
structure CastFrame (i : ℕ) (w w' : Fanout) : Prop where
  gathering : ∀ j, j ≠ i → w'.gathering j = w.gathering j
  same : ∀ d, Same w w' d
  accepted : w'.accepted = w.accepted
  left : ∀ d, d ∉ w.clients → d ∉ w.left i → d ∉ w'.left i

lemma CastFrame.of_running {o : Option ℕ} : CastFrame i w { w with running := o } :=
  ⟨fun _ _ => rfl, fun _ => ⟨Iff.rfl, rfl, rfl, rfl⟩, rfl, fun _ _ h => h⟩

lemma cast_call (h : q.Holds w i) (hcall : w.call i c r = some w')
    (hgood : (q.step reads c r).Good) : (q.step reads c r).Holds w' i ∧ CastFrame i w w' := by
  obtain ⟨-, v, hact, rfl⟩ := call_eq_some hcall
  cases c with
  | suspend =>
    cases hact
    cases q with
    | idle => exact ⟨h, .of_running⟩
    | waiting msg => exact ⟨h, .of_running⟩
    | _ => exact hgood.elim
  | read n =>
    simp only [act] at hact
    split at hact
    · cases hact
      cases reads with
      | false => exact hgood.elim
      | true =>
        cases q with
        | idle =>
          simp only [CastPhase.step, CastPhase.onRead, if_true]
          by_cases hr : r = []
          · rw [if_pos hr]
            exact ⟨⟨rfl, h⟩, .of_running⟩
          · rw [if_neg hr]
            exact ⟨h, .of_running⟩
        | _ => exact hgood.elim
    · cases hact
  | logAppend text =>
    cases hact
    cases reads with
    | false => exact hgood.elim
    | true =>
      cases q with
      | got text' =>
        simp only [CastPhase.step, CastPhase.onAppend, if_true] at hgood ⊢
        split at hgood
        · rename_i htext
          rw [if_pos htext]
          exact ⟨⟨rfl, h⟩, fun _ _ => rfl, fun _ => ⟨Iff.rfl, rfl, rfl, rfl⟩, rfl, fun _ _ h => h⟩
        · exact hgood.elim
      | _ => exact hgood.elim
  | waitNode =>
    cases hact
    cases reads with
    | false =>
      cases q with
      | idle => exact ⟨⟨rfl, h⟩, .of_running⟩
      | _ => exact hgood.elim
    | true => exact hgood.elim
  | anyClient =>
    simp only [act] at hact
    split at hact
    · cases hact
      cases q with
      | checking msg =>
        cases r with
        | false => exact ⟨h.2, .of_running⟩
        | true => exact ⟨⟨rfl, h.2⟩, .of_running⟩
      | _ => exact hgood.elim
    · cases hact
  | listClients =>
    simp only [act] at hact
    split at hact
    · rename_i hds
      cases hact
      cases q with
      | listing msg => exact ⟨⟨rfl, h.2, hds.2⟩, .of_running⟩
      | _ => exact hgood.elim
    · cases hact
  | gather ds msg =>
    cases hact
    cases q with
    | calling msg' ds' =>
      simp only [CastPhase.step, CastPhase.onGather] at hgood ⊢
      split at hgood
      · rename_i heq
        rw [if_pos heq]
        obtain ⟨rfl, rfl⟩ := heq
        refine ⟨⟨ds.toFinset, Function.update_self _ _ _⟩, ?_, ?_, rfl, ?_⟩
        · exact fun j hj => Function.update_of_ne hj _ _
        · exact fun _ => ⟨Iff.rfl, rfl, rfl, rfl⟩
        · intro d hd _
          simpa [left, h.2.2] using hd
      · exact hgood.elim
    | _ => exact hgood.elim
  | gathered =>
    simp only [act] at hact
    split at hact
    · cases hact
      cases q with
      | waiting msg =>
        refine ⟨Function.update_self _ _ _, ?_, ?_, rfl, ?_⟩
        · exact fun j hj => Function.update_of_ne hj _ _
        · exact fun _ => ⟨Iff.rfl, rfl, rfl, rfl⟩
        · intro d _ _
          simp [left]
      | _ => exact hgood.elim
    · cases hact
  | _ => exact hgood.elim

/-- A text is put into the log. -/
lemma Fed.append {text text' : PyStr} {d : ℕ} (h : w.Fed (.got text') d) (hs : Same w w' d)
    (hlog : w'.log = w.log ++ [text]) :
    w'.Fed (.checking (.pipe (.output stdoutKind text))) d := by
  have hall (hf : w'.failed d = false) (hd : d ∈ w.clients) : w.seen d ++ w.live d = w.log := by
    simpa [Fanout.owed] using h.all (hs.failed ▸ hf) hd
  have hlive : w.seen d ++ w.live d <+: w.log ++ [text] := h.live.trans (List.prefix_append _ _)
  have howed : w'.owed d (.checking (.pipe (.output stdoutKind text))) =
      if d ∈ w.clients then [text] else [] := by
    simp [Fanout.owed, WsOut.line?, BridgeMsg.line?, hs.clients]
  have hlive' : w'.live d = w.live d := congrArg (linesFrom .broadcast) hs.sent
  constructor
  · rw [hlive', hs.seen, hlog]
    exact hlive
  · intro hf
    rw [hlive', hs.seen, hlog, howed]
    by_cases hd : d ∈ w.clients
    · rw [if_pos hd, hall hf hd]
    · rw [if_neg hd, List.append_nil]
      exact hlive
  · intro hf hd
    rw [hs.clients] at hd
    rw [hlive', hs.seen, hlog, howed, if_pos hd, hall hf hd]

/-- The reading task puts a text into the log when it owes nothing, and owes it from then on. -/
lemma fed_reader (h : q.Holds w 0) (hcall : w.call 0 c r = some w')
    (hgood : (q.step true c r).Good) {d : ℕ} (hfed : w.Fed q d) : w'.Fed (q.step true c r) d := by
  obtain ⟨-, v, hact, rfl⟩ := call_eq_some hcall
  have hsame (o : Option ℕ) : Same w { w with running := o } d := ⟨Iff.rfl, rfl, rfl, rfl⟩
  cases c with
  | suspend =>
    cases hact
    cases q with
    | idle => exact hfed.of_same (hsame _) rfl rfl
    | waiting msg => exact hfed.of_same (hsame _) rfl rfl
    | _ => exact hgood.elim
  | read n =>
    simp only [act] at hact
    split at hact
    · cases hact
      cases q with
      | idle =>
        simp only [CastPhase.step, CastPhase.onRead, if_true]
        by_cases hr : r = []
        · rw [if_pos hr]
          refine hfed.of_same (hsame _) rfl ?_
          simp [owed, WsOut.line?, BridgeMsg.line?]
        · rw [if_neg hr]
          exact hfed.of_same (hsame _) rfl rfl
      | _ => exact hgood.elim
    · cases hact
  | logAppend text =>
    cases hact
    cases q with
    | got text' =>
      simp only [CastPhase.step, CastPhase.onAppend, if_true] at hgood ⊢
      split at hgood
      · rename_i htext
        rw [if_pos htext]
        exact hfed.append ⟨Iff.rfl, rfl, rfl, rfl⟩ rfl
      · exact hgood.elim
    | _ => exact hgood.elim
  | waitNode => exact hgood.elim
  | anyClient =>
    simp only [act] at hact
    split at hact
    · rename_i hany
      cases hact
      cases q with
      | checking msg =>
        cases r with
        | false =>
          refine hfed.of_same (hsame _) rfl ?_
          have hnone : w.clients = ∅ := by simpa using hany
          simp [owed, CastPhase.step, CastPhase.onAny, hnone]
        | true => exact hfed.of_same (hsame _) rfl rfl
      | _ => exact hgood.elim
    · cases hact
  | listClients =>
    simp only [act] at hact
    split at hact
    · rename_i hds
      cases hact
      cases q with
      | listing msg =>
        refine hfed.of_same (hsame _) rfl ?_
        simp [owed, CastPhase.step, CastPhase.onList, ← hds.2]
      | _ => exact hgood.elim
    · cases hact
  | gather ds msg =>
    cases hact
    cases q with
    | calling msg' ds' =>
      simp only [CastPhase.step, CastPhase.onGather] at hgood ⊢
      split at hgood
      · rename_i heq
        rw [if_pos heq]
        obtain ⟨rfl, rfl⟩ := heq
        refine hfed.of_same ⟨Iff.rfl, rfl, rfl, rfl⟩ rfl ?_
        simp [owed, left]
      · exact hgood.elim
    | _ => exact hgood.elim
  | gathered =>
    simp only [act] at hact
    split at hact
    · rename_i hnone
      cases hact
      cases q with
      | waiting msg =>
        refine hfed.of_same ⟨Iff.rfl, rfl, rfl, rfl⟩ rfl ?_
        simp [owed, left, hnone, CastPhase.step, CastPhase.onGathered]
      | _ => exact hgood.elim
    · cases hact
  | _ => exact hgood.elim

end Cast

/-! ### A handler -/

section Hand

variable {q : CastPhase} {d : ℕ} {h : HandPhase} {c : FanCall} {r : c.Ret}

/-- What a call of a handler leaves alone. -/
structure HandFrame (d : ℕ) (w w' : Fanout) : Prop where
  gathering : w'.gathering = w.gathering
  log : w'.log = w.log
  accepted : w'.accepted = w.accepted
  same : ∀ d', d' ≠ d → Same w w' d'

lemma HandFrame.of_running {o : Option ℕ} : HandFrame d w { w with running := o } :=
  ⟨rfl, rfl, rfl, fun _ _ => ⟨Iff.rfl, rfl, rfl, rfl⟩⟩

lemma handFrame_of_act (hact : w.act (d + 3) c r = some w') (hgood : (h.step d c r).Good) :
    HandFrame d w w' := by
  cases c with
  | logSlice n =>
    simp only [act] at hact
    split at hact
    · cases hact
      exact .of_running
    · cases hact
  | add d' =>
    cases hact
    simp only [HandPhase.step] at hgood
    split at hgood
    · rename_i hd
      subst hd
      refine ⟨rfl, rfl, rfl, fun d'' hd'' => ⟨?_, rfl, rfl, Function.update_of_ne hd'' _ _⟩⟩
      simp [hd'']
    · exact hgood.elim
  | send d' msg =>
    simp only [HandPhase.step] at hgood
    split at hgood
    · rename_i hd
      subst hd
      simp only [act, deliver] at hact
      split at hact
      · cases hact
        exact ⟨rfl, rfl, rfl, fun d'' hd'' => ⟨Iff.rfl, rfl, Function.update_of_ne hd'' _ _, rfl⟩⟩
      · split at hact
        · cases hact
          exact ⟨rfl, rfl, rfl, fun d'' hd'' => ⟨Iff.rfl, Function.update_of_ne hd'' _ _, rfl, rfl⟩⟩
        · cases hact
    · exact hgood.elim
  | discard d' =>
    cases hact
    simp only [HandPhase.step] at hgood
    split at hgood
    · rename_i hd
      subst hd
      refine ⟨rfl, rfl, rfl, fun d'' hd'' => ⟨?_, rfl, rfl, rfl⟩⟩
      simp [hd'']
    · exact hgood.elim
  | suspend =>
    cases hact
    exact .of_running
  | recvFrame d' =>
    cases hact
    exact .of_running
  | nodeAlive =>
    cases hact
    exact .of_running
  | bridge b =>
    cases hact
    exact .of_running
  | _ => exact hgood.elim

/-- A dashboard that was just added is owed nothing. -/
lemma fed_added (hq : q.Holds w 0) (hh : HandPhase.added.Holds w q d) : w.Fed q d := by
  obtain ⟨hrun, -, hsent, hseen, hleft⟩ := hh
  have hnot : w.running ≠ some 0 := by
    rw [hrun]
    exact nofun
  have howed : w.owed d q = [] := by
    cases q with
    | checking msg => exact absurd hq.1 hnot
    | listing msg => exact absurd hq.1 hnot
    | calling msg ds => exact absurd hq.1 hnot
    | waiting msg => exact if_neg hleft
    | _ => rfl
  have hlive : w.live d = [] := by
    rw [live, hsent, linesFrom_nil]
  constructor
  · simp [hlive, hseen]
  · simp [hlive, hseen, howed]
  · simp [hlive, hseen, howed]

lemma holds_of_running {o : Option ℕ} (hh : h.Holds w q d) (hadded : h ≠ .added) :
    h.Holds { w with running := o } q d := by
  have hsame : Same w { w with running := o } d := ⟨Iff.rfl, rfl, rfl, rfl⟩
  have howed : Fanout.owed { w with running := o } d q = w.owed d q := by
    cases q with
    | _ => rfl
  cases h with
  | fresh => exact hh
  | added => exact absurd rfl hadded
  | backlog todo => exact ⟨hh.1, hh.2.1.of_same hsame rfl howed, hh.2.2⟩
  | lost => exact ⟨hh.1, hh.2.1, hh.2.2.1.of_same hsame rfl howed, hh.2.2.2⟩
  | gone => exact ⟨hh.1, hh.2.1.of_same hsame rfl howed, hh.2.2⟩
  | bad => exact hh

lemma hold_onLoop {o : Option ℕ} (hh : h.Holds w q d) (hgood : h.onLoop.Good) :
    h.onLoop.Holds { w with running := o } q d := by
  cases h with
  | backlog todo =>
    cases todo with
    | nil => exact holds_of_running hh nofun
    | cons line lines => exact hgood.elim
  | _ => exact hgood.elim

/-- A handler sends to its dashboard. -/
lemma deliver_handler {msg : WsOut} {ok : Bool} {v : Fanout} (hf : w.Fed q d)
    (hact : w.deliver d .handler msg ok = some v) (howed : v.owed d q = w.owed d q) :
    v.Fed q d ∧ v.clients = w.clients ∧ v.seen d = w.seen d ∧
      (ok = true → v.own d = w.own d ++ msg.line?.toList) ∧
      (ok = false → v.own d = w.own d ∧ v.failed d = true) := by
  rcases deliver_cases hact with ⟨rfl, rfl⟩ | ⟨rfl, -, rfl⟩
  · have hfailed : Function.update w.failed d true d = true := Function.update_self _ _ _
    refine ⟨hf.of_eq rfl rfl rfl ?_ id fun _ => howed, rfl, rfl, by simp, fun _ => ⟨rfl, hfailed⟩⟩
    exact fun hnot => absurd (hfailed.symm.trans hnot) Bool.false_ne_true.symm
  · refine ⟨hf.of_eq ?_ rfl rfl id id fun _ => howed, rfl, rfl, fun _ => ?_, by simp⟩
    · simp [live, linesFrom_concat_other (show Sender.handler ≠ .broadcast from nofun)]
    · simp [own, linesFrom_concat_self]

lemma hand_send {msg : WsOut} {ok : Bool} {v : Fanout} (hh : h.Holds w q d)
    (hact : w.deliver d .handler msg ok = some v) (howed : v.owed d q = w.owed d q)
    (hgood : (h.onSend msg ok).Good) :
    (h.onSend msg ok).Holds v q d ∧ h.onSend msg ok ≠ .added := by
  cases h with
  | backlog todo =>
    obtain ⟨hd, hf, htodo⟩ := hh
    obtain ⟨hf', hclients, hseen, hsent, hlost⟩ := deliver_handler hf hact howed
    rw [← hclients] at hd
    rw [← hseen] at htodo
    cases todo with
    | nil =>
      simp only [HandPhase.onSend] at hgood ⊢
      split at hgood
      · rename_i hline
        rw [if_pos hline]
        have hown : v.own d = w.own d := by
          cases ok with
          | false => exact (hlost rfl).1
          | true => rw [hsent rfl, hline, Option.toList_none, List.append_nil]
        exact ⟨⟨hd, hf', by rw [hown, htodo]⟩, by simp⟩
      · exact hgood.elim
    | cons line lines =>
      simp only [HandPhase.onSend] at hgood ⊢
      split at hgood
      · rename_i hmsg
        rw [if_pos hmsg]
        cases ok with
        | false =>
          obtain ⟨hown, hfailed⟩ := hlost rfl
          refine ⟨⟨hd, hfailed, hf', line :: lines, List.cons_ne_nil _ _, ?_⟩, by simp⟩
          rw [hown, htodo]
        | true =>
          refine ⟨⟨hd, hf', ?_⟩, by simp⟩
          rw [hsent rfl, hmsg, List.append_assoc, ← htodo]
          rfl
      · exact hgood.elim
  | _ => exact hgood.elim

lemma hand_call (hq : q.Holds w 0) (hh : h.Holds w q d) (hcall : w.call (d + 3) c r = some w')
    (hgood : (h.step d c r).Good) : (h.step d c r).Holds w' q d := by
  obtain ⟨hrun, v, hact, rfl⟩ := call_eq_some hcall
  have howed (w' : Fanout) (hg : w'.gathering = w.gathering) : w'.owed d q = w.owed d q :=
    owed_of_other hq hrun (Nat.succ_ne_zero _).symm (congrFun hg 0) d
  cases c with
  | suspend =>
    cases hact
    cases h with
    | fresh => exact hgood.elim
    | added => exact hgood.elim
    | bad => exact hgood.elim
    | _ => exact holds_of_running hh nofun
  | add d' =>
    cases hact
    simp only [HandPhase.step] at hgood ⊢
    split at hgood
    · rename_i hd
      rw [if_pos hd]
      subst hd
      cases h with
      | fresh =>
        obtain ⟨-, hsent, -, hleft, -⟩ := hh
        exact ⟨rfl, Finset.mem_insert_self _ _, hsent, Function.update_self _ _ _, hleft⟩
      | _ => exact hgood.elim
    · exact hgood.elim
  | logSlice n =>
    simp only [act] at hact
    split at hact
    · rename_i hlines
      cases hact
      simp only [HandPhase.step] at hgood ⊢
      split at hgood
      · rename_i hn
        rw [if_pos hn]
        cases h with
        | added =>
          have hf := fed_added hq hh
          obtain ⟨-, hd, hsent, hseen, -⟩ := hh
          refine ⟨hd, hf.of_same ⟨Iff.rfl, rfl, rfl, rfl⟩ rfl (howed _ rfl), ?_⟩
          simp only [own, hsent, linesFrom_nil, List.nil_append, hlines, hn, hseen]
        | _ => exact hgood.elim
      · exact hgood.elim
    · cases hact
  | send d' msg =>
    have hgathering : v.gathering = w.gathering := by
      rcases deliver_cases hact with ⟨-, rfl⟩ | ⟨-, -, rfl⟩
      · rfl
      · rfl
    simp only [HandPhase.step] at hgood ⊢
    split at hgood
    · rename_i hd
      rw [if_pos hd]
      subst hd
      obtain ⟨hh', hadded⟩ := hand_send hh hact (howed v hgathering) hgood
      exact holds_of_running hh' hadded
    · exact hgood.elim
  | discard d' =>
    cases hact
    simp only [HandPhase.step] at hgood ⊢
    split at hgood
    · rename_i hd
      rw [if_pos hd]
      subst hd
      cases h with
      | backlog todo =>
        cases todo with
        | nil =>
          obtain ⟨-, hf, htodo⟩ := hh
          refine ⟨Finset.notMem_erase _ _, ?_, ?_⟩
          · exact hf.of_eq rfl rfl rfl id Finset.mem_of_mem_erase fun _ => howed _ rfl
          · rw [← htodo, List.append_nil]
            rfl
        | cons line lines => exact hgood.elim
      | _ => exact hgood.elim
    · exact hgood.elim
  | recvFrame d' =>
    cases hact
    simp only [HandPhase.step] at hgood ⊢
    split at hgood
    · rename_i hd
      rw [if_pos hd]
      exact hold_onLoop hh hgood
    · exact hgood.elim
  | nodeAlive =>
    cases hact
    exact hold_onLoop hh hgood
  | bridge b =>
    cases hact
    exact hold_onLoop hh hgood
  | _ => exact hgood.elim

end Hand

/-! ### One call, or one send of a broadcast -/

section Step

variable {q₀ q₁ : CastPhase} {hs : List FanPhase}

lemma left_subset {i : ℕ} (hg : w'.gathering i = w.gathering i) {d : ℕ} (hd : d ∉ w.left i) :
    d ∉ w'.left i := by
  rw [left_congr hg]
  exact hd

lemma inv_reader (hinv : Inv q₀ q₁ hs w) {c : FanCall} {r : c.Ret} (hcall : w.call 0 c r = some w')
    (hgood : (q₀.step true c r).Good) : Inv (q₀.step true c r) q₁ hs w' := by
  obtain ⟨hq, hframe⟩ := cast_call hinv.reader hcall hgood
  have hrun := (call_eq_some hcall).1
  have hhand (d : ℕ) (h : HandPhase) (hh : h.Holds w q₀ d) : h.Holds w' (q₀.step true c r) d :=
    holds_of_same hh hrun (Nat.succ_ne_zero _).symm (hframe.same d)
      (fed_reader hinv.reader hcall hgood) fun hd hl =>
        ⟨hframe.left d hd hl.1, left_subset (hframe.gathering 1 nofun) hl.2⟩
  refine ⟨hq, ?_, hinv.lineless, ?_, hframe.accepted.trans hinv.accepted, ?_, ?_⟩
  · exact cast_of_other hinv.waiter hrun nofun (hframe.gathering 1 nofun)
  · intro i hi
    rw [hframe.gathering i (by omega)]
    exact hinv.others i hi
  · intro d p hp
    obtain ⟨h, rfl, hh⟩ := hinv.hand d p hp
    exact ⟨h, rfl, hhand d h hh⟩
  · exact fun d hd => hhand d .fresh (hinv.fresh d hd)

/-- The task that waits for the node puts nothing into the log. -/
lemma log_waiter {q : CastPhase} {c : FanCall} {r : c.Ret} (hcall : w.call 1 c r = some w')
    (hgood : (q.step false c r).Good) : w'.log = w.log := by
  obtain ⟨-, v, hact, rfl⟩ := call_eq_some hcall
  cases c with
  | logAppend text => exact hgood.elim
  | suspend =>
    cases hact
    rfl
  | waitNode =>
    cases hact
    rfl
  | gather ds msg =>
    cases hact
    rfl
  | anyClient =>
    simp only [act] at hact
    split at hact
    · cases hact
      rfl
    · cases hact
  | listClients =>
    simp only [act] at hact
    split at hact
    · cases hact
      rfl
    · cases hact
  | gathered =>
    simp only [act] at hact
    split at hact
    · cases hact
      rfl
    · cases hact
  | _ => exact hgood.elim

lemma lineless_step {q : CastPhase} {c : FanCall} {r : c.Ret} (h : q.Lineless) :
    (q.step false c r).Lineless := by
  cases c with
  | suspend =>
    cases q with
    | idle => trivial
    | waiting msg => exact h
    | _ => trivial
  | waitNode =>
    cases q with
    | idle => rfl
    | _ => trivial
  | anyClient =>
    cases q with
    | checking msg =>
      cases r with
      | false => trivial
      | true => exact h
    | _ => trivial
  | listClients =>
    cases q with
    | listing msg => exact h
    | _ => trivial
  | gather ds msg =>
    cases q with
    | calling msg' ds' =>
      simp only [CastPhase.step, CastPhase.onGather]
      split
      · rename_i heq
        rw [heq.2]
        exact h
      · trivial
    | _ => trivial
  | gathered =>
    cases q with
    | _ => trivial
  | _ => trivial

lemma inv_waiter (hinv : Inv q₀ q₁ hs w) {c : FanCall} {r : c.Ret} (hcall : w.call 1 c r = some w')
    (hgood : (q₁.step false c r).Good) : Inv q₀ (q₁.step false c r) hs w' := by
  obtain ⟨hq, hframe⟩ := cast_call hinv.waiter hcall hgood
  have hrun := (call_eq_some hcall).1
  have hg := hframe.gathering 0 nofun
  have hhand (d : ℕ) (h : HandPhase) (hh : h.Holds w q₀ d) : h.Holds w' q₀ d :=
    holds_of_same hh hrun (by omega) (hframe.same d)
      (fun hf => hf.of_same (hframe.same d) (log_waiter hcall hgood)
        (owed_of_other hinv.reader hrun nofun hg d))
      fun hd hl => ⟨left_subset hg hl.1, hframe.left d hd hl.2⟩
  refine ⟨?_, hq, lineless_step hinv.lineless, ?_, hframe.accepted.trans hinv.accepted, ?_, ?_⟩
  · exact cast_of_other hinv.reader hrun nofun hg
  · intro i hi
    rw [hframe.gathering i (by omega)]
    exact hinv.others i hi
  · intro d p hp
    obtain ⟨h, rfl, hh⟩ := hinv.hand d p hp
    exact ⟨h, rfl, hhand d h hh⟩
  · exact fun d hd => hhand d .fresh (hinv.fresh d hd)

/-- Nothing but what runs and what was accepted has changed. -/
lemma hold_of_idle (hinv : Inv q₀ q₁ hs w) {i : ℕ} (hrun : w.running = none ∨ w.running = some i)
    (hi : i = 2) {o : Option ℕ} {n d : ℕ} {h : HandPhase} (hh : h.Holds w q₀ d) :
    h.Holds { w with running := o, accepted := n } q₀ d := by
  have hsame : Same w { w with running := o, accepted := n } d := ⟨Iff.rfl, rfl, rfl, rfl⟩
  refine holds_of_same hh hrun (by omega) hsame ?_ fun _ hl => hl
  exact fun hf => hf.of_same hsame rfl (owed_of_other hinv.reader hrun (by omega) rfl d)

lemma inv_suspend (hinv : Inv q₀ q₁ hs w) {r : Unit} (hcall : w.call 2 .suspend r = some w') :
    Inv q₀ q₁ hs w' := by
  obtain ⟨hrun, v, hact, rfl⟩ := call_eq_some hcall
  cases hact
  refine ⟨cast_of_other hinv.reader hrun nofun rfl, cast_of_other hinv.waiter hrun nofun rfl,
    hinv.lineless, hinv.others, hinv.accepted, fun d p hp => ?_, fun d hd => ?_⟩
  · obtain ⟨h, rfl, hh⟩ := hinv.hand d p hp
    exact ⟨h, rfl, hold_of_idle hinv hrun rfl hh⟩
  · exact hold_of_idle hinv hrun rfl (hinv.fresh d hd)

/-- The task of a new dashboard is the next one. -/
lemma inv_accept (hinv : Inv q₀ q₁ hs w) {n : ℕ} (hcall : w.call 2 .accept n = some w') :
    Inv q₀ q₁ (hs ++ [.hand n .fresh]) w' := by
  obtain ⟨hrun, v, hact, rfl⟩ := call_eq_some hcall
  simp only [act] at hact
  split at hact
  · rename_i hn
    rw [hinv.accepted] at hn
    subst hn
    cases hact
    refine ⟨cast_of_other hinv.reader hrun nofun rfl, cast_of_other hinv.waiter hrun nofun rfl,
      hinv.lineless, hinv.others, ?_, fun d p hp => ?_, fun d hd => ?_⟩
    · rw [List.length_append, List.length_singleton]
    · by_cases hd : d < hs.length
      · rw [List.getElem?_append_left hd] at hp
        obtain ⟨h, rfl, hh⟩ := hinv.hand d p hp
        exact ⟨h, rfl, hold_of_idle hinv hrun rfl hh⟩
      · obtain ⟨rfl, rfl⟩ : d = hs.length ∧ p = .hand hs.length .fresh := by
          obtain ⟨hlt, hget⟩ := List.getElem?_eq_some_iff.1 hp
          rw [List.length_append, List.length_singleton] at hlt
          obtain rfl : d = hs.length := by omega
          exact ⟨rfl, by simpa using hget.symm⟩
        exact ⟨.fresh, rfl, hold_of_idle hinv hrun rfl (hinv.fresh _ le_rfl)⟩
    · rw [List.length_append] at hd
      exact hold_of_idle hinv hrun rfl (hinv.fresh d (by omega))
  · cases hact

lemma inv_hand (hinv : Inv q₀ q₁ hs w) {d : ℕ} {h : HandPhase} (hp : hs[d]? = some (.hand d h))
    {c : FanCall} {r : c.Ret} (hcall : w.call (d + 3) c r = some w') (hgood : (h.step d c r).Good) :
    Inv q₀ q₁ (hs.set d (.hand d (h.step d c r))) w' := by
  obtain ⟨hlt, hget⟩ := List.getElem?_eq_some_iff.1 hp
  obtain ⟨h', heq, hh⟩ := hinv.hand d _ hp
  cases heq
  have hown := hand_call hinv.reader hh hcall hgood
  obtain ⟨hrun, v, hact, rfl⟩ := call_eq_some hcall
  have hframe := handFrame_of_act hact hgood
  have hg (j : ℕ) : v.gathering j = w.gathering j := congrFun hframe.gathering j
  have hother (d' : ℕ) (hd : d' ≠ d) (h' : HandPhase) (hh' : h'.Holds w q₀ d') :
      h'.Holds { v with running := if c = .suspend then none else some (d + 3) } q₀ d' := by
    have hsame := hframe.same d' hd
    refine holds_of_same hh' hrun (by omega) ⟨hsame.1, hsame.2, hsame.3, hsame.4⟩ ?_ ?_
    · exact fun hf => hf.of_same ⟨hsame.1, hsame.2, hsame.3, hsame.4⟩ hframe.log
        (owed_of_other hinv.reader hrun (by omega) (hg 0) d')
    · exact fun _ hl => ⟨left_subset (hg 0) hl.1, left_subset (hg 1) hl.2⟩
  refine ⟨cast_of_other hinv.reader hrun (by omega) (hg 0),
    cast_of_other hinv.waiter hrun (by omega) (hg 1), hinv.lineless, ?_, ?_, fun d' p hp' => ?_,
    fun d' hd' => ?_⟩
  · exact fun i hi => (hg i).trans (hinv.others i hi)
  · rw [List.length_set]
    exact hframe.accepted.trans hinv.accepted
  · by_cases hd : d' = d
    · subst hd
      rw [List.getElem?_set_self hlt] at hp'
      cases hp'
      exact ⟨_, rfl, hown⟩
    · rw [List.getElem?_set_ne (Ne.symm hd)] at hp'
      obtain ⟨h', rfl, hh'⟩ := hinv.hand d' p hp'
      exact ⟨h', rfl, hother d' hd h' hh'⟩
  · rw [List.length_set] at hd'
    exact hother d' (by omega) .fresh (hinv.fresh d' hd')

/-- The reading task waits for its own message to be sent. -/
lemma reader_waiting (h : q₀.Holds w 0) {msg : WsOut} {left : Finset ℕ}
    (hi : w.gathering 0 = some (msg, left)) : q₀ = .waiting msg := by
  have hnone (hnone : w.gathering 0 = none) : False := by
    rw [hnone] at hi
    cases hi
  cases q₀ with
  | idle => exact (hnone h).elim
  | got text => exact (hnone h).elim
  | checking msg' => exact (hnone h.2).elim
  | listing msg' => exact (hnone h.2).elim
  | calling msg' ds => exact (hnone h.2.1).elim
  | waiting msg' =>
    obtain ⟨left', hleft⟩ := h
    rw [hi] at hleft
    cases hleft
    rfl
  | bad => exact h.elim

/-- The other tasks send no output. -/
lemma lineless_waiting (hinv : Inv q₀ q₁ hs w) {i : ℕ} (hi0 : i ≠ 0) {msg : WsOut}
    {left : Finset ℕ} (hi : w.gathering i = some (msg, left)) : msg.line? = none := by
  by_cases hi1 : i = 1
  · subst hi1
    have h := hinv.waiter
    have hnone (hnone : w.gathering 1 = none) : False := by
      rw [hnone] at hi
      cases hi
    cases q₁ with
    | idle => exact (hnone h).elim
    | got text => exact (hnone h).elim
    | checking msg' => exact (hnone h.2).elim
    | listing msg' => exact (hnone h.2).elim
    | calling msg' ds => exact (hnone h.2.1).elim
    | waiting msg' =>
      obtain ⟨left', hleft⟩ := h
      rw [hi] at hleft
      cases hleft
      exact hinv.lineless
    | bad => exact h.elim
  · rw [hinv.others i (by omega)] at hi
    cases hi

/-- A broadcast sends to a dashboard that waits for its message. -/
lemma fed_sends (hinv : Inv q₀ q₁ hs w) {i d : ℕ} {ok : Bool} {msg : WsOut} {left : Finset ℕ}
    {v : Fanout} (hi : w.gathering i = some (msg, left)) (hd : d ∈ left)
    (hrun : w.running = none) (hdel : w.deliver d .broadcast msg ok = some v) (hf : w.Fed q₀ d) :
    Fed { v with gathering := Function.update v.gathering i (some (msg, left.erase d)) } q₀ d := by
  rcases deliver_cases hdel with ⟨-, rfl⟩ | ⟨-, hlive, rfl⟩
  · have hfailed : Function.update w.failed d true d = true := Function.update_self _ _ _
    refine hf.of_eq rfl rfl rfl ?_ id ?_
    · exact fun hnot => absurd (hfailed.symm.trans hnot) nofun
    · exact fun hnot => absurd (hfailed.symm.trans hnot) nofun
  · by_cases hi0 : i = 0
    · subst hi0
      obtain rfl := reader_waiting hinv.reader hi
      have howed : w.owed d (.waiting msg) = msg.line?.toList := by
        simp [owed, Fanout.left, hi, hd]
      have hsent := hf.owed hlive
      rw [howed] at hsent
      refine ⟨?_, fun _ => ?_, fun _ hc => ?_⟩
      · simpa [live, linesFrom_concat_self] using hsent
      · simpa [live, linesFrom_concat_self, owed, Fanout.left] using hsent
      · have hall := hf.all hlive hc
        rw [howed] at hall
        simpa [live, linesFrom_concat_self, owed, Fanout.left] using hall
    · refine hf.of_eq ?_ rfl rfl id id fun _ => ?_
      · simp [live, linesFrom_concat_self, lineless_waiting hinv hi0 hi]
      · exact owed_of_other hinv.reader (.inl hrun) (Nat.zero_ne_one) 
          (Function.update_of_ne (Ne.symm hi0) _ _) d

/-- What a send leaves alone. -/
structure SendFrame (d : ℕ) (w w' : Fanout) : Prop where
  running : w'.running = w.running
  log : w'.log = w.log
  clients : w'.clients = w.clients
  accepted : w'.accepted = w.accepted
  seen : w'.seen = w.seen
  own : w'.own d = w.own d
  failed : w.failed d = true → w'.failed d = true
  same : ∀ d', d' ≠ d → Same w w' d'

lemma sendFrame_of_deliver {d : ℕ} {msg : WsOut} {ok : Bool} {v : Fanout}
    (hdel : w.deliver d .broadcast msg ok = some v) (g : ℕ → Option (WsOut × Finset ℕ)) :
    SendFrame d w { v with gathering := g } := by
  rcases deliver_cases hdel with ⟨-, rfl⟩ | ⟨-, -, rfl⟩
  · refine ⟨rfl, rfl, rfl, rfl, rfl, rfl, fun _ => Function.update_self _ _ _, fun d' hd => ?_⟩
    exact ⟨Iff.rfl, rfl, Function.update_of_ne hd _ _, rfl⟩
  · refine ⟨rfl, rfl, rfl, rfl, rfl, ?_, id, fun d' hd => ?_⟩
    · simp [own, linesFrom_concat_other (show Sender.broadcast ≠ .handler from nofun)]
    · exact ⟨Iff.rfl, Function.update_of_ne hd _ _, rfl, rfl⟩

/-- The dashboard is taken off the message of task `i`. -/
structure TakenOff (i d : ℕ) (w w' : Fanout) : Prop where
  other : ∀ j, j ≠ i → w'.gathering j = w.gathering j
  self : ∃ msg left, w.gathering i = some (msg, left) ∧ d ∈ left ∧
    w'.gathering i = some (msg, left.erase d)

lemma cast_of_sends {q : CastPhase} {i j d : ℕ} (h : q.Holds w j) (hrun : w.running = none)
    (hoff : TakenOff i d w w') : q.Holds w' j := by
  by_cases hj : j = i
  · subst hj
    obtain ⟨msg, left, hi, -, hi'⟩ := hoff.self
    cases q with
    | idle => exact absurd (hi.symm.trans h) nofun
    | got text => exact absurd (hi.symm.trans h) nofun
    | checking msg' => exact absurd (hi.symm.trans h.2) nofun
    | listing msg' => exact absurd (hi.symm.trans h.2) nofun
    | calling msg' ds => exact absurd (hi.symm.trans h.2.1) nofun
    | waiting msg' =>
      obtain ⟨left', hleft⟩ := h
      rw [hi] at hleft
      cases hleft
      exact ⟨_, hi'⟩
    | bad => exact h
  · exact cast_of_other (j := j + 1) h (.inl hrun) (Nat.succ_ne_self j).symm (hoff.other j hj)

lemma mem_left_of_sends {i d : ℕ} (hoff : TakenOff i d w w') {d' : ℕ} (hd : d' ≠ d) (j : ℕ) :
    d' ∈ w'.left j ↔ d' ∈ w.left j := by
  by_cases hj : j = i
  · subst hj
    obtain ⟨msg, left, hi, -, hi'⟩ := hoff.self
    simp [Fanout.left, hi, hi', hd]
  · rw [left_congr (hoff.other j hj)]

lemma inv_of_sends (hinv : Inv q₀ q₁ hs w) {i d : ℕ} (hrun : w.running = none)
    (hfed : w.Fed q₀ d → w'.Fed q₀ d) (hframe : SendFrame d w w') (hoff : TakenOff i d w w') :
    Inv q₀ q₁ hs w' := by
  have hnot (hl : d ∉ w.left 0 ∧ d ∉ w.left 1) : False := by
    obtain ⟨msg, left, hi, hmem, -⟩ := hoff.self
    have hmem' : d ∈ w.left i := by simpa [Fanout.left, hi] using hmem
    match i with
    | 0 => exact hl.1 hmem'
    | 1 => exact hl.2 hmem'
    | i + 2 =>
      rw [hinv.others (i + 2) (by omega)] at hi
      cases hi
  have hleft (d' : ℕ) (hd : d' ∉ w.left 0 ∧ d' ∉ w.left 1) : d' ∉ w'.left 0 ∧ d' ∉ w'.left 1 := by
    by_cases hdd : d' = d
    · exact (hnot (hdd ▸ hd)).elim
    · rw [mem_left_of_sends hoff hdd, mem_left_of_sends hoff hdd]
      exact hd
  have howed (d' : ℕ) (hd : d' ≠ d) : w'.owed d' q₀ = w.owed d' q₀ := by
    cases q₀ with
    | checking msg => simp only [owed, hframe.clients]
    | listing msg => simp only [owed, hframe.clients]
    | waiting msg => simp only [owed, mem_left_of_sends hoff hd]
    | _ => rfl
  have hother (d' : ℕ) (hd : d' ≠ d) (h : HandPhase) (hh : h.Holds w q₀ d') :
      h.Holds w' q₀ d' := by
    refine holds_of_same (i := 0) hh (.inl hrun) (by omega) (hframe.same d' hd) ?_
      fun _ => hleft d'
    exact fun hf => hf.of_same (hframe.same d' hd) hframe.log (howed d' hd)
  have hhand (d' : ℕ) (h : HandPhase) (hh : h.Holds w q₀ d') : h.Holds w' q₀ d' := by
    by_cases hd : d' = d
    · subst hd
      have hclients : d' ∈ w'.clients ↔ d' ∈ w.clients := by rw [hframe.clients]
      cases h with
      | fresh => exact (hnot hh.2.2.2).elim
      | added => exact absurd (hrun.symm.trans hh.1) nofun
      | backlog todo =>
        refine ⟨hclients.2 hh.1, hfed hh.2.1, ?_⟩
        rw [hframe.own, hframe.seen]
        exact hh.2.2
      | lost =>
        refine ⟨hclients.2 hh.1, hframe.failed hh.2.1, hfed hh.2.2.1, ?_⟩
        rw [hframe.own, hframe.seen]
        exact hh.2.2.2
      | gone =>
        refine ⟨fun hd' => hh.1 (hclients.1 hd'), hfed hh.2.1, ?_⟩
        rw [hframe.own, hframe.seen]
        exact hh.2.2
      | bad => exact hh
    · exact hother d' hd h hh
  refine ⟨cast_of_sends hinv.reader hrun hoff, cast_of_sends hinv.waiter hrun hoff, hinv.lineless,
    fun j hj => ?_, hframe.accepted.trans hinv.accepted, fun d' p hp => ?_, fun d' hd' => ?_⟩
  · have hne : j ≠ i := by
      rintro rfl
      obtain ⟨msg, left, hi, -⟩ := hoff.self
      rw [hinv.others j hj] at hi
      cases hi
    rw [hoff.other j hne]
    exact hinv.others j hj
  · obtain ⟨h, rfl, hh⟩ := hinv.hand d' p hp
    exact ⟨h, rfl, hhand d' h hh⟩
  · exact hhand d' .fresh (hinv.fresh d' hd')

lemma env_eq_some {i d : ℕ} {ok : Bool} (h : w.env (.sends i d ok) = some w') :
    w.running = none ∧ ∃ msg left v, w.gathering i = some (msg, left) ∧ d ∈ left ∧
      w.deliver d .broadcast msg ok = some v ∧
        w' = { v with gathering := Function.update v.gathering i (some (msg, left.erase d)) } := by
  simp only [env] at h
  split at h
  · cases h
  rename_i msg left hi
  split at h
  · rename_i hcond
    obtain ⟨v, hdel, rfl⟩ := Option.map_eq_some_iff.1 h
    exact ⟨hcond.1, msg, left, v, hi, hcond.2, hdel, rfl⟩
  · cases h

lemma inv_sends (hinv : Inv q₀ q₁ hs w) {i d : ℕ} {ok : Bool}
    (henv : w.env (.sends i d ok) = some w') : Inv q₀ q₁ hs w' := by
  obtain ⟨hrun, msg, left, v, hi, hd, hdel, rfl⟩ := env_eq_some henv
  have hgv : v.gathering = w.gathering := by
    rcases deliver_cases hdel with ⟨-, rfl⟩ | ⟨-, -, rfl⟩
    · rfl
    · rfl
  refine inv_of_sends hinv hrun (fed_sends hinv hi hd hrun hdel) (sendFrame_of_deliver hdel _)
    (i := i) ⟨fun j hj => ?_, msg, left, hi, hd, Function.update_self _ _ _⟩
  rw [← hgv]
  exact Function.update_of_ne hj _ _

end Step

/-! ### Every run -/

variable {base : PurePath} {rounds : ℕ}

lemma spawn_eq_none {c : FanCall} (hc : c ≠ .accept) (r : c.Ret) :
    (sys base rounds).spawn c r = none := by
  cases c with
  | accept => exact absurd rfl hc
  | _ => rfl

/-- The tasks obey their automata, and the invariant holds. -/
def outline (base : PurePath) (rounds : ℕ) :
    Conc.Outline (sys base rounds) Conc.anyMove FanPhase where
  auto := FanPhase.auto
  good := FanPhase.Good
  fin := FanPhase.Fin
  fresh := fun c r =>
    match c, r with
    | .accept, d => .hand d .fresh
    | _, _       => .bad
  inv := fun qs w =>
    ∃ q₀ q₁ hs, qs = .cast true q₀ :: .cast false q₁ :: .server :: hs ∧ Inv q₀ q₁ hs w
  spawned := by
    intro c r p hp
    cases c with
    | accept =>
      cases hp
      exact FanPhase.always_wsHandler base rounds r
    | _ => cases hp
  call := by
    rintro _ w i q c r w' ⟨q₀, q₁, hs, rfl, hinv⟩ hi hgood - hw
    refine ⟨q.step c r, rfl, fun hgood' => ?_⟩
    match i with
    | 0 =>
      obtain rfl : FanPhase.cast true q₀ = q := by simpa using hi
      have hc : c ≠ .accept := by
        rintro rfl
        exact hgood'
      rw [spawn_eq_none hc]
      exact ⟨_, q₁, hs, List.append_nil _, inv_reader hinv hw hgood'⟩
    | 1 =>
      obtain rfl : FanPhase.cast false q₁ = q := by simpa using hi
      have hc : c ≠ .accept := by
        rintro rfl
        exact hgood'
      rw [spawn_eq_none hc]
      exact ⟨q₀, _, hs, List.append_nil _, inv_waiter hinv hw hgood'⟩
    | 2 =>
      obtain rfl : FanPhase.server = q := by simpa using hi
      cases c with
      | suspend => exact ⟨q₀, q₁, hs, List.append_nil _, inv_suspend hinv hw⟩
      | accept => exact ⟨q₀, q₁, _, rfl, inv_accept hinv hw⟩
      | _ => exact hgood'.elim
    | d + 3 =>
      have hp : hs[d]? = some q := by simpa using hi
      obtain ⟨h, rfl, -⟩ := hinv.hand d q hp
      have hc : c ≠ .accept := by
        rintro rfl
        exact hgood'
      rw [spawn_eq_none hc]
      exact ⟨q₀, q₁, _, List.append_nil _, inv_hand hinv hp hw hgood'⟩
  env := by
    rintro _ w ⟨i, d, ok⟩ w' ⟨q₀, q₁, hs, rfl, hinv⟩ - hw
    exact ⟨q₀, q₁, hs, rfl, inv_sends hinv hw⟩

lemma holds_start : (outline base rounds).Holds (start rounds)
    [.cast true .idle, .cast false .idle, .server] := by
  refine ⟨.cons (FanPhase.always_pipeTask rounds) (.cons FanPhase.always_spawnTask
    (.cons (FanPhase.always_serveLoop rounds) .nil)), .idle, .idle, [], rfl, ?_⟩
  refine ⟨rfl, rfl, trivial, fun _ _ => rfl, rfl, nofun, fun d _ => ?_⟩
  exact ⟨Finset.notMem_empty d, rfl, rfl, Finset.notMem_empty d, Finset.notMem_empty d⟩

/-- In every run the tasks are somewhere, and the invariant holds there. -/
lemma exists_inv {s : Conf FanCall FanCall.Ret Fanout}
    (hr : (sys base rounds).Reach Conc.anyMove (start rounds) s) : ∃ q₀ q₁ hs,
      List.Forall₂ (fun p q => p.Always FanPhase.auto FanPhase.Good (fun _ => FanPhase.Fin) q)
        s.threads (.cast true q₀ :: .cast false q₁ :: .server :: hs) ∧ Inv q₀ q₁ hs s.world := by
  obtain ⟨qs, hthreads, q₀, q₁, hs, rfl, hinv⟩ := (outline base rounds).reach holds_start hr
  exact ⟨q₀, q₁, hs, hthreads, hinv⟩

/-! ### What a dashboard has got -/

section Dashboards

variable {s : Conf FanCall FanCall.Ret Fanout}

lemma nil_of_fresh {q : CastPhase} {d : ℕ} (h : HandPhase.fresh.Holds w q d) :
    w.own d <+: lastLines backlogSize (w.seen d) ∧ w.seen d ++ w.live d <+: w.log := by
  obtain ⟨-, hsent, hseen, -⟩ := h
  simp [own, live, hsent, hseen]

/-- At every moment of every run, the handler of a dashboard has sent it a first part of the
backlog, and the broadcasts a first part of what has come since it was added, in the order of the
log. -/
theorem dashboard_output (hr : (sys base rounds).Reach Conc.anyMove (start rounds) s) (d : ℕ) :
    s.world.own d <+: lastLines backlogSize (s.world.seen d) ∧
      s.world.seen d ++ s.world.live d <+: s.world.log := by
  obtain ⟨q₀, q₁, hs, -, hinv⟩ := exists_inv hr
  cases hp : hs[d]? with
  | none => exact nil_of_fresh (hinv.fresh d (List.getElem?_eq_none_iff.1 hp))
  | some p =>
    obtain ⟨h, -, hh⟩ := hinv.hand d p hp
    cases h with
    | fresh => exact nil_of_fresh hh
    | added =>
      refine ⟨?_, (fed_added hinv.reader hh).live⟩
      rw [own, hh.2.2.1]
      exact List.nil_prefix
    | backlog todo => exact ⟨⟨todo, hh.2.2⟩, hh.2.1.live⟩
    | lost =>
      obtain ⟨-, -, hf, todo, -, htodo⟩ := hh
      exact ⟨⟨todo, htodo⟩, hf.live⟩
    | gone => exact ⟨hh.2.2 ▸ List.prefix_refl _, hh.2.1.live⟩
    | bad => exact hh.elim

/-- The node puts out `a`, then a dashboard is added. -/
def earlyMoves : List (Move FanCall FanCall.Ret Sending) :=
  [.call 0 .suspend (), .call 0 (.read 1024) ([97] : Bytes),
    .call 0 (.logAppend (Utf8.decode [97])) (), .call 0 .anyClient false, .call 0 .suspend (),
    .call 2 .suspend (), .call 2 .accept (0 : ℕ), .call 2 .suspend (), .call 3 (.add 0) (),
    .call 3 (.logSlice backlogSize) [Utf8.decode [97]]]

/-- It gets the backlog, then the node puts out `b`. -/
def lateMoves : List (Move FanCall FanCall.Ret Sending) :=
  [.call 3 (.send 0 (.pipe (.output stdoutKind (Utf8.decode [97])))) true, .call 3 .suspend (),
    .call 3 .suspend (), .call 0 (.read 1024) ([98] : Bytes),
    .call 0 (.logAppend (Utf8.decode [98])) (), .call 0 .anyClient true,
    .call 0 .listClients [0],
    .call 0 (.gather [0] (.pipe (.output stdoutKind (Utf8.decode [98])))) (), .call 0 .suspend (),
    .env (.sends 0 0 true)]

theorem dashboard_output_one : ∃ s,
    (sys ⟨true, []⟩ 3).Reach Conc.anyMove (start 3) s ∧ s.world.log = [[97], [98]] ∧
      s.world.own 0 <+: lastLines backlogSize (s.world.seen 0) ∧
      s.world.seen 0 ++ s.world.live 0 <+: s.world.log := by
  have hplay : (((sys ⟨true, []⟩ 3).play Conc.anyMove (earlyMoves ++ lateMoves) (start 3)).map
      fun s => s.world.log) = some [[97], [98]] := by
    decide +kernel
  obtain ⟨s, hr, hlog⟩ := Conc.exists_reach_of_play _ hplay
  exact ⟨s, hr, hlog, dashboard_output hr 0⟩

/-- The task of a dashboard and where it is. -/
lemma exists_hand (hr : (sys base rounds).Reach Conc.anyMove (start rounds) s) {d : ℕ}
    {p : FanProg Unit} (hp : s.threads[d + 3]? = some p) : ∃ q₀ q₁ hs h, Inv q₀ q₁ hs s.world ∧
      h.Holds s.world q₀ d ∧
        p.Always FanPhase.auto FanPhase.Good (fun _ => FanPhase.Fin) (.hand d h) := by
  obtain ⟨q₀, q₁, hs, hthreads, hinv⟩ := exists_inv hr
  obtain ⟨hlen, hall⟩ := List.forall₂_iff_get.1 hthreads
  obtain ⟨hlt, hget⟩ := List.getElem?_eq_some_iff.1 hp
  have hlt' : d < hs.length := by
    rw [hlen] at hlt
    simpa using hlt
  have hq : hs[d]? = some hs[d] := List.getElem?_eq_getElem hlt'
  obtain ⟨h, heq, hh⟩ := hinv.hand d _ hq
  have hobey := hall (d + 3) hlt (by simpa using hlt')
  simp only [List.get_eq_getElem, hget, List.getElem_cons_succ, heq] at hobey
  exact ⟨q₀, q₁, hs, h, hinv, hh, hobey⟩

lemma owed_eq_nil {w : Fanout} {q : CastPhase} (h : q.Holds w 0) (hrun : w.running = none)
    (hleft : w.left 0 = ∅) (d : ℕ) : w.owed d q = [] := by
  cases q with
  | checking msg => simp [hrun, CastPhase.Holds] at h
  | listing msg => simp [hrun, CastPhase.Holds] at h
  | calling msg ds => simp [hrun, CastPhase.Holds] at h
  | waiting msg => simp [owed, hleft]
  | _ => rfl

/-- While a dashboard's handler waits for a message and no broadcast is under way, the dashboard has
got, each once, the last pieces from before it was added and all from then on, unless it was
lost. -/
theorem dashboard_exactly_once (hr : (sys base rounds).Reach Conc.anyMove (start rounds) s) {d : ℕ}
    (hat : s.threads[d + 3]?.bind Prog.next? = some (.recvFrame d))
    (hrun : s.world.running = none) (hleft : s.world.left 0 = ∅)
    (hfailed : s.world.failed d = false) :
    s.world.own d = lastLines backlogSize (s.world.seen d) ∧
      s.world.seen d ++ s.world.live d = s.world.log ∧
      (allLines (s.world.sent d)).Perm
        (s.world.log.drop ((s.world.seen d).length - backlogSize)) := by
  obtain ⟨p, hp, hnext⟩ := Option.bind_eq_some_iff.1 hat
  obtain ⟨q₀, q₁, hs, h, hinv, hh, hobey⟩ := exists_hand hr hp
  obtain ⟨k, rfl⟩ := Prog.eq_call_of_next? hnext
  have hgood : (h.step d (.recvFrame d) none).Good :=
    (hobey.2 none _ rfl).inv
  simp only [HandPhase.step, if_true] at hgood
  have howed := owed_eq_nil hinv.reader hrun hleft d
  cases h with
  | backlog todo =>
    cases todo with
    | nil =>
      obtain ⟨hd, hf, hown⟩ := hh
      have hall := hf.all hfailed hd
      rw [howed, List.append_nil] at hall
      rw [List.append_nil] at hown
      refine ⟨hown, hall, ?_⟩
      have hsplit : s.world.log.drop ((s.world.seen d).length - backlogSize) =
          lastLines backlogSize (s.world.seen d) ++ s.world.live d := by
        rw [← hall, List.drop_append_of_le_length (Nat.sub_le _ _), lastLines]
      rw [hsplit, ← hown]
      exact linesFrom_perm _
    | cons line lines => exact hgood.elim
  | _ => exact hgood.elim

theorem dashboard_exactly_once_one : ∃ s,
    (sys ⟨true, []⟩ 3).Reach Conc.anyMove (start 3) s ∧
      allLines (s.world.sent 0) = [[97], [98]] ∧
      s.world.own 0 = lastLines backlogSize (s.world.seen 0) ∧
      s.world.seen 0 ++ s.world.live 0 = s.world.log ∧
      (allLines (s.world.sent 0)).Perm
        (s.world.log.drop ((s.world.seen 0).length - backlogSize)) := by
  have hplay : (((sys ⟨true, []⟩ 3).play Conc.anyMove (earlyMoves ++ lateMoves) (start 3)).map
      fun s => (allLines (s.world.sent 0), s.threads[0 + 3]?.bind Prog.next?, s.world.running,
        s.world.left 0, s.world.failed 0)) =
      some ([[97], [98]], some (.recvFrame 0), none, ∅, false) := by
    decide +kernel
  obtain ⟨s, hr, hw⟩ := Conc.exists_reach_of_play _ hplay
  simp only [Prod.mk.injEq] at hw
  obtain ⟨hlines, hat, hrun, hleft, hfailed⟩ := hw
  exact ⟨s, hr, hlines, dashboard_exactly_once hr hat hrun hleft hfailed⟩

/-- Only its own handler discards a dashboard. -/
lemma eq_of_discard (hr : (sys base rounds).Reach Conc.anyMove (start rounds) s) {i d : ℕ}
    {k : Unit → FanProg Unit} (hi : s.threads[i]? = some (.call (.discard d) k)) : i = d + 3 := by
  obtain ⟨q₀, q₁, hs, hthreads, hinv⟩ := exists_inv hr
  obtain ⟨hlen, hall⟩ := List.forall₂_iff_get.1 hthreads
  obtain ⟨hlt, hget⟩ := List.getElem?_eq_some_iff.1 hi
  have hobey := hall i hlt (hlen ▸ hlt)
  simp only [List.get_eq_getElem, hget] at hobey
  have hgood := (hobey.2 () _ rfl).inv
  match i with
  | 0 => exact hgood.elim
  | 1 => exact hgood.elim
  | 2 => exact hgood.elim
  | d' + 3 =>
    have hlt' : d' < hs.length := by
      rw [hlen] at hlt
      simpa using hlt
    obtain ⟨h, heq, -⟩ := hinv.hand d' _ (List.getElem?_eq_getElem hlt')
    simp only [List.getElem_cons_succ, heq, FanPhase.step, HandPhase.step] at hgood
    split at hgood
    · rename_i hd
      rw [hd]
    · exact hgood.elim

lemma toFinset_of_onGather {w : Fanout} {q : CastPhase} {i : ℕ} {ds : List ℕ} {msg : WsOut}
    (h : q.Holds w i) (hgood : (q.onGather ds msg).Good) : ds.toFinset = w.clients := by
  cases q with
  | calling msg' ds' =>
    simp only [CastPhase.onGather] at hgood
    split at hgood
    · rename_i heq
      rw [heq.1]
      exact h.2.2
    · exact hgood.elim
  | _ => exact hgood.elim

/-- A broadcast gathers sends to all that are in `connected_clients`. -/
lemma toFinset_of_gather (hr : (sys base rounds).Reach Conc.anyMove (start rounds) s) {i : ℕ}
    {ds : List ℕ} {msg : WsOut} {k : Unit → FanProg Unit}
    (hi : s.threads[i]? = some (.call (.gather ds msg) k)) : ds.toFinset = s.world.clients := by
  obtain ⟨q₀, q₁, hs, hthreads, hinv⟩ := exists_inv hr
  obtain ⟨hlen, hall⟩ := List.forall₂_iff_get.1 hthreads
  obtain ⟨hlt, hget⟩ := List.getElem?_eq_some_iff.1 hi
  have hobey := hall i hlt (hlen ▸ hlt)
  simp only [List.get_eq_getElem, hget] at hobey
  have hgood := (hobey.2 () _ rfl).inv
  match i with
  | 0 => exact toFinset_of_onGather hinv.reader hgood
  | 1 => exact toFinset_of_onGather hinv.waiter hgood
  | 2 => exact hgood.elim
  | d + 3 =>
    have hlt' : d < hs.length := by
      rw [hlen] at hlt
      simpa using hlt
    obtain ⟨h, heq, -⟩ := hinv.hand d _ (List.getElem?_eq_getElem hlt')
    simp only [List.getElem_cons_succ, heq, FanPhase.step, HandPhase.step] at hgood
    exact hgood.elim

/-- A broadcast at `s` finds a dashboard, and the sends that it gathers are to `d` as well. -/
structure Tries (base : PurePath) (rounds : ℕ) (s : Conf FanCall FanCall.Ret Fanout) (d : ℕ) :
    Prop where
  any : ∀ i b t, (sys base rounds).next s (.call i .anyClient b) = some t → b = true
  targets : ∀ i ds msg t, (sys base rounds).next s (.call i (.gather ds msg) ()) = some t → d ∈ ds

lemma tries_of_mem (hr : (sys base rounds).Reach Conc.anyMove (start rounds) s) {d : ℕ}
    (hd : d ∈ s.world.clients) : Tries base rounds s d where
  any := by
    intro i b t hn
    rcases Conc.next_cases hn with ⟨i, c, r, k, w, heq, -, hw, -⟩ | ⟨e, w, heq, -, -⟩
    · cases heq
      obtain ⟨-, v, hact, -⟩ := call_eq_some hw
      simp only [act] at hact
      split at hact
      · rename_i hb
        rw [hb]
        exact decide_eq_true (Finset.ne_empty_of_mem hd)
      · cases hact
    · cases heq
  targets := by
    intro i ds msg t hn
    rcases Conc.next_cases hn with ⟨i, c, r, k, w, heq, hi, -, -⟩ | ⟨e, w, heq, -, -⟩
    · cases heq
      rw [← List.mem_toFinset, toFinset_of_gather hr hi]
      exact hd
    · cases heq

lemma mem_clients_of_call {w w' : Fanout} {i d : ℕ} {c : FanCall} {r : c.Ret}
    (hc : c ≠ .discard d) (h : w.call i c r = some w') (hd : d ∈ w.clients) : d ∈ w'.clients := by
  obtain ⟨-, v, hact, rfl⟩ := call_eq_some h
  cases c with
  | add d' =>
    cases hact
    exact Finset.mem_insert_of_mem hd
  | discard d' =>
    cases hact
    exact Finset.mem_erase.2 ⟨fun heq => hc (heq ▸ rfl), hd⟩
  | send d' msg =>
    rcases deliver_cases hact with ⟨-, rfl⟩ | ⟨-, -, rfl⟩
    · exact hd
    · exact hd
  | _ =>
    simp only [act] at hact
    first
    | (cases hact; exact hd)
    | (split at hact
       · cases hact
         exact hd
       · cases hact)

lemma mem_clients_next (hr : (sys base rounds).Reach Conc.anyMove (start rounds) s) {d : ℕ}
    {t : Conf FanCall FanCall.Ret Fanout} {m : Move FanCall FanCall.Ret Sending}
    (hret : s.threads[d + 3]? = some (.ret ())) (hd : d ∈ s.world.clients)
    (hn : (sys base rounds).next s m = some t) :
    t.threads[d + 3]? = some (.ret ()) ∧ d ∈ t.world.clients := by
  rcases Conc.next_cases hn with ⟨i, c, r, k, w, rfl, hi, hw, rfl⟩ | ⟨⟨i, d', ok⟩, w, rfl, hw, rfl⟩
  · have hne : i ≠ d + 3 := by
      rintro rfl
      rw [hret] at hi
      cases hi
    refine ⟨getElem?_append_of_some ?_ _, ?_⟩
    · rw [List.getElem?_set_ne hne]
      exact hret
    · refine mem_clients_of_call ?_ hw hd
      rintro rfl
      exact hne (eq_of_discard hr hi)
  · refine ⟨hret, ?_⟩
    obtain ⟨-, msg, left, v, -, -, hdel, rfl⟩ := env_eq_some hw
    rw [(sendFrame_of_deliver hdel _).clients]
    exact hd

/-- A dashboard whose handler has returned is still in `connected_clients` just if it was lost in
its backlog; then it stays there, and every broadcast tries to send to it. -/
theorem dashboard_left_over (hr : (sys base rounds).Reach Conc.anyMove (start rounds) s) {d : ℕ}
    (hret : s.threads[d + 3]? = some (.ret ())) :
    (d ∈ s.world.clients ↔ s.world.own d ≠ lastLines backlogSize (s.world.seen d)) ∧
      (d ∈ s.world.clients → s.world.failed d = true ∧
        ∀ t, (sys base rounds).Reach Conc.anyMove s t →
          d ∈ t.world.clients ∧ Tries base rounds t d) := by
  obtain ⟨q₀, q₁, hs, h, hinv, hh, hobey⟩ := exists_hand hr hret
  have hkeep (hd : d ∈ s.world.clients) (t : Conf FanCall FanCall.Ret Fanout)
      (ht : (sys base rounds).Reach Conc.anyMove s t) :
      (sys base rounds).Reach Conc.anyMove (start rounds) t ∧
        t.threads[d + 3]? = some (.ret ()) ∧ d ∈ t.world.clients := by
    induction ht with
    | start => exact ⟨hr, hret, hd⟩
    | move _ hok hn ih => exact ⟨.move ih.1 hok hn, mem_clients_next ih.1 ih.2.1 ih.2.2 hn⟩
  rcases hobey.2 with rfl | rfl
  · obtain ⟨hd, hfailed, -, todo, hne, htodo⟩ := hh
    refine ⟨⟨fun _ heq => hne ?_, fun _ => hd⟩, fun hd => ⟨hfailed, fun t ht => ?_⟩⟩
    · rw [heq] at htodo
      exact List.append_right_eq_self.1 htodo
    · obtain ⟨hrt, -, hdt⟩ := hkeep hd t ht
      exact ⟨hdt, tries_of_mem hrt hdt⟩
  · obtain ⟨hd, -, hown⟩ := hh
    exact ⟨⟨fun hd' => absurd hd' hd, fun hne => absurd hown hne⟩, fun hd' => absurd hd' hd⟩

/-- The dashboard is closed before it gets the backlog. -/
theorem dashboard_left_over_one : ∃ s,
    (sys ⟨true, []⟩ 3).Reach Conc.anyMove (start 3) s ∧ 0 ∈ s.world.clients ∧
      (0 ∈ s.world.clients ↔ s.world.own 0 ≠ lastLines backlogSize (s.world.seen 0)) ∧
      (0 ∈ s.world.clients → s.world.failed 0 = true ∧
        ∀ t, (sys ⟨true, []⟩ 3).Reach Conc.anyMove s t →
          0 ∈ t.world.clients ∧ Tries ⟨true, []⟩ 3 t 0) := by
  have hplay : (((sys ⟨true, []⟩ 3).play Conc.anyMove
      (earlyMoves ++ [.call 3 (.send 0 (.pipe (.output stdoutKind (Utf8.decode [97])))) false,
        .call 3 .suspend ()]) (start 3)).map
      fun s => (s.threads[0 + 3]?.bind Prog.value, s.world.clients)) = some (some (), {0}) := by
    decide +kernel
  obtain ⟨s, hr, hw⟩ := Conc.exists_reach_of_play _ hplay
  obtain ⟨hvalue, hclients⟩ := Prod.mk.inj hw
  obtain ⟨p, hp, hret⟩ := Option.bind_eq_some_iff.1 hvalue
  rw [Prog.eq_ret_of_value hret] at hp
  exact ⟨s, hr, hclients ▸ Finset.mem_singleton_self 0, dashboard_left_over hr hp⟩

end Dashboards

end Fanout
end P2PNode
