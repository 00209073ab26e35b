import P2PNode.Dispatch.Routing

/-!
# What `dispatch` reads of an answer

`dispatch` once more, with the reads of the fields of its local `result` as calls of their own.
Without the reads it is the program of the dispatcher.
-/

namespace P2PNode

open Effect

/-! ### The program with its reads -/

/-- The fields of `result` that `dispatch` reads. -/
inductive ResultField where
  | load_pct
  | port
  deriving DecidableEq

inductive ReadCall where
  | disp (c : DispCall)
  /-- The field is read; `value` is what was written to it. -/
  | readField (field : ResultField) (value : Option ℕ)
  deriving DecidableEq

@[reducible] def ReadCall.Ret : ReadCall → Type
  | .disp c        => c.Ret
  | .readField _ _ => Unit

abbrev ReadProg := Prog ReadCall ReadCall.Ret

namespace ReadCall

def doDisp {α : Type} (p : DispProg α) : ReadProg α := p.embed ReadCall.disp fun _ r => r
def doReadField (field : ResultField) (value : Option ℕ) : ReadProg Unit :=
  Prog.perform (ReadCall.readField field value)

end ReadCall

open ReadCall

/-- The loop over the snapshot. -/
def queryPeersReads : List PeerInfo → Best → ReadProg Best
  | [], best => return best
  | peer :: peers, best => do
    let (score, result) ← doDisp (queryPeerLoad peer.ip peer.port)
    doReadField .load_pct result.load_pct
    doDisp (DispCall.doPrintf (.load peer.ip peer.port result.load_pct))
    if score < best.score then
      doReadField .port result.port
      queryPeersReads peers ⟨score, peer.ip, result.port⟩
    else queryPeersReads peers best

/-- The part of `dispatch` behind the loop. -/
def dispatchBest (rounds : ℕ) (task : Task) (local_ip : Bytes) (own_port : ℕ)
    (peers : List PeerInfo) (best : Best) : DispProg ℤ := do
  let self_score ← DispCall.doLoad loadScoreLocal
  let pct ← DispCall.doLoad loadGetPercentage
  DispCall.doPrintf (.loadSelf local_ip own_port pct)
  if peers.length = 0 ∨ self_score ≤ best.score then
    DispCall.doPrintf (.routeSelf local_ip own_port)
    deliver rounds task true best local_ip own_port
  else
    DispCall.doPrintf (.routePeer best.ip best.port best.score)
    deliver rounds task false best local_ip own_port

def dispatchReads (rounds : ℕ) (task : Task) (local_ip : Bytes) (own_port : ℕ) : ReadProg ℤ := do
  let peers ← doDisp (DispCall.doPeerListGetAll maxPeers)
  let best ← queryPeersReads peers {}
  doDisp (dispatchBest rounds task local_ip own_port peers best)

/-! ### Without the reads -/

namespace ReadProg

variable {α β : Type}

def erase : ReadProg α → DispProg α
  | .ret a                    => .ret a
  | .spin                     => .spin
  | .call (.disp c) k         => .call c fun r => erase (k r)
  | .call (.readField _ _) k  => erase (k ())

@[simp] lemma erase_bind (p : ReadProg α) (f : α → ReadProg β) :
    erase (p >>= f) = erase p >>= fun a => erase (f a) := by
  induction p with
  | ret a => rfl
  | spin => rfl
  | call c k ih =>
    cases c with
    | disp c => simp [erase, ih]
    | readField field value => simp [erase, ih]

@[simp] lemma erase_doDisp (p : DispProg α) : erase (doDisp p) = p := by
  induction p with
  | ret a => rfl
  | spin => rfl
  | call c k ih =>
    simp only [doDisp] at ih
    simp [doDisp, erase, ih]

lemma erase_queryPeersReads (peers : List PeerInfo) (best : Best) :
    erase (queryPeersReads peers best) = queryPeers peers best := by
  induction peers generalizing best with
  | nil => rfl
  | cons peer peers ih =>
    simp only [queryPeersReads, queryPeers, doReadField, erase_bind, erase_doDisp,
      Prog.perform_bind, erase]
    congr 1
    funext x
    congr 1
    funext _
    by_cases hlt : x.1 < best.score
    · simp [hlt, erase, ih]
    · simp [hlt, ih]

/-- Without its reads it is `dispatch`. -/
theorem erase_dispatchReads (rounds : ℕ) (task : Task) (local_ip : Bytes) (own_port : ℕ) :
    erase (dispatchReads rounds task local_ip own_port) =
      dispatch rounds task local_ip own_port := by
  simp only [dispatchReads, dispatch, route, dispatchBest, erase_bind, erase_doDisp,
    erase_queryPeersReads, Prog.bind_assoc]
  congr 1
  funext peers
  congr 1
  funext best
  congr 1
  funext self_score
  congr 1
  funext pct
  congr 1
  funext _
  by_cases hself : peers.length = 0 ∨ self_score ≤ best.score
  · simp only [if_pos hself, Prog.bind_assoc]
    rfl
  · simp only [if_neg hself, Prog.bind_assoc]
    rfl

end ReadProg

/-! ### The reads of a run -/

/-- A read of a field, with what was written to the field before. -/
structure FieldRead where
  field : ResultField
  value : Option ℕ
  deriving DecidableEq

/-- Every field that is read was written. -/
def AllWritten (reads : List FieldRead) : Prop := ∀ r ∈ reads, r.value.isSome

lemma allWritten_append {reads more : List FieldRead} :
    AllWritten (reads ++ more) ↔ AllWritten reads ∧ AllWritten more :=
  List.forall_mem_append

namespace Scene

variable (sc : Scene)

/-- The host, with an account of the reads. -/
def handleReads : (c : ReadCall) → Desk × List FieldRead → Option (c.Ret × Desk × List FieldRead)
  | .disp c, (s, reads) => (sc.handle c s).map fun x => (x.1, x.2, reads)
  | .readField field value, (s, reads) => some ((), s, reads ++ [⟨field, value⟩])

lemma run_doDisp {α : Type} (p : DispProg α) (s : Desk) (reads : List FieldRead) :
    (doDisp p).run sc.handleReads (s, reads) =
      (p.run sc.handle s).map fun x => (x.1, x.2, reads) := by
  induction p generalizing s with
  | ret a => rfl
  | spin => rfl
  | call c k ih =>
    simp only [doDisp] at ih
    simp only [doDisp, Prog.embed_call, Prog.run_call, handleReads]
    cases sc.handle c s with
    | none => rfl
    | some x => exact ih x.1 x.2

/-- The reads do not change the run. -/
lemma run_erase {α : Type} (p : ReadProg α) (s : Desk) (reads : List FieldRead) :
    (p.run sc.handleReads (s, reads)).map (fun x => (x.1, x.2.1)) =
      (ReadProg.erase p).run sc.handle s := by
  induction p generalizing s reads with
  | ret a => rfl
  | spin => rfl
  | call c k ih =>
    cases c with
    | disp c =>
      simp only [ReadProg.erase, Prog.run_call, handleReads]
      cases sc.handle c s with
      | none => rfl
      | some x => exact ih x.1 x.2 reads
    | readField field value => exact ih () s _

/-- The fields that are read of an answer: the load always, the port if the peer is better. -/
def readsOf (best : Best) (x : PeerInfo × Outcome) : List FieldRead :=
  ⟨.load_pct, (x.2.result x.1).2.load_pct⟩ ::
    if (contender x).score < best.score then [⟨.port, (x.2.result x.1).2.port⟩] else []

/-- All of them were written exactly when the peer gave a well-formed answer. -/
lemma allWritten_readsOf (best : Best) (x : PeerInfo × Outcome) :
    AllWritten (readsOf best x) ↔ x.2.response.isSome := by
  have hload : (x.2.result x.1).2.load_pct.isSome = x.2.response.isSome := by
    rw [Outcome.result]
    cases x.2.response with
    | none => rfl
    | some resp => rfl
  have hport : (x.2.result x.1).2.port.isSome = x.2.response.isSome := by
    rw [Outcome.result]
    cases x.2.response with
    | none => rfl
    | some resp => rfl
  constructor
  · intro h
    rw [← hload]
    exact h _ List.mem_cons_self
  · intro h r hr
    rcases List.mem_cons.1 hr with rfl | hr
    · rw [hload]
      exact h
    · split at hr
      · obtain rfl := List.mem_singleton.1 hr
        rw [hport]
        exact h
      · cases hr

lemma run_queryPeersReads (asked : List (PeerInfo × Outcome)) (best : Best) (s : Desk)
    (reads : List FieldRead) (hw : s.waiting = asked.map Prod.snd) :
    ∃ s' more, (queryPeersReads (asked.map Prod.fst) best).run sc.handleReads (s, reads) =
        some (pick asked best, s', reads ++ more) ∧
      (AllWritten more ↔ ∀ x ∈ asked, x.2.response.isSome) := by
  induction asked generalizing best s reads with
  | nil => exact ⟨s, [], by simp [queryPeersReads, pick], by simp [AllWritten]⟩
  | cons x asked ih =>
    obtain ⟨t, ht⟩ : ∃ t : Desk, t = { s with
      waiting := asked.map Prod.snd
      current := x.2
      printed := s.printed ++ [.load x.1.ip x.1.port (x.2.result x.1).2.load_pct] } := ⟨_, rfl⟩
    have hq := run_queryPeerLoad sc (s := s) (o := x.2) hw x.1
    have hstep : (queryPeersReads ((x :: asked).map Prod.fst) best).run sc.handleReads (s, reads) =
        (queryPeersReads (asked.map Prod.fst) (if (contender x).score < best.score then contender x
          else best)).run sc.handleReads (t, reads ++ readsOf best x) := by
      subst ht
      by_cases hlt : (contender x).score < best.score
      · have hlt' : (x.2.result x.1).1 < best.score := hlt
        simp [queryPeersReads, run_doDisp, hq, doReadField, handleReads, DispCall.doPrintf, handle,
          hlt', contender, readsOf]
      · have hlt' : ¬ (x.2.result x.1).1 < best.score := hlt
        simp [queryPeersReads, run_doDisp, hq, doReadField, handleReads, DispCall.doPrintf, handle,
          hlt, hlt', readsOf]
    obtain ⟨s', more, hrun, hmore⟩ :=
      ih (if (contender x).score < best.score then contender x else best) t
        (reads ++ readsOf best x) (by rw [ht])
    refine ⟨s', readsOf best x ++ more, ?_, ?_⟩
    · rw [hstep, hrun, List.append_assoc]
      rfl
    · rw [allWritten_append, allWritten_readsOf, hmore, List.forall_mem_cons]

end Scene

/-- `dispatch` reads only what the query wrote, if and only if every peer of the snapshot gave a
well-formed answer in time. -/
theorem dispatch_reads_written_iff (sc : Scene) (task : Task) (local_ip : Bytes) (own_port : ℕ)
    (rounds : ℕ) (hr : sc.incoming.length < rounds) :
    ∃ code s reads, (dispatchReads rounds task local_ip own_port).run sc.handleReads
        (sc.start, []) = some (code, s, reads) ∧
      (dispatch rounds task local_ip own_port).run sc.handle sc.start = some (code, s) ∧
      (AllWritten reads ↔ ∀ x ∈ sc.asked, x.2.response.isSome) := by
  obtain ⟨code, s, hdisp, -⟩ := Scene.run_dispatch sc task local_ip own_port hr
  obtain ⟨t, reads, hloop, hreads⟩ :=
    sc.run_queryPeersReads sc.asked {} sc.start [] (by simp [Scene.start])
  have herase := sc.run_erase (dispatchReads rounds task local_ip own_port) sc.start []
  rw [ReadProg.erase_dispatchReads, hdisp] at herase
  obtain ⟨⟨code', s', reads'⟩, hrun, hx⟩ := Option.map_eq_some_iff.1 herase
  cases hx
  have hsame : reads' = reads := by
    have hget : (doDisp (DispCall.doPeerListGetAll maxPeers)).run sc.handleReads (sc.start, []) =
        some (sc.asked.map Prod.fst, sc.start, []) := by
      simp [Scene.run_doDisp, DispCall.doPeerListGetAll, Scene.handle]
    -- behind the loop nothing is read
    simp only [dispatchReads, Prog.run_bind, hget, hloop, Option.bind_some, List.nil_append,
      Scene.run_doDisp] at hrun
    obtain ⟨x, -, hx⟩ := Option.map_eq_some_iff.1 hrun
    cases hx
    rfl
  rw [hsame] at hrun
  exact ⟨code', s', reads, hrun, hdisp, hreads⟩

/-- The second of the two peers alone. -/
def onePeer : Scene := { twoPeers with asked := twoPeers.asked.drop 1 }

/-- One peer that answers. -/
theorem dispatch_reads_written_one : ∃ code s reads,
    (dispatchReads 1 ⟨[97], [1], 1⟩ [48] 7777).run onePeer.handleReads (onePeer.start, []) =
      some (code, s, reads) ∧
    (dispatch 1 ⟨[97], [1], 1⟩ [48] 7777).run onePeer.handle onePeer.start = some (code, s) ∧
    AllWritten reads := by
  obtain ⟨code, s, reads, hrun, hdisp, hiff⟩ :=
    dispatch_reads_written_iff onePeer ⟨[97], [1], 1⟩ [48] 7777 1 (by decide)
  exact ⟨code, s, reads, hrun, hdisp, hiff.2 (by decide)⟩

/-- The first of the two peers is silent; its load and its port are read all the same. -/
theorem dispatch_reads_unset : ∃ code s reads,
    (dispatchReads 1 ⟨[97], [1], 1⟩ [48] 7777).run twoPeers.handleReads (twoPeers.start, []) =
      some (code, s, reads) ∧
    reads = [⟨.load_pct, none⟩, ⟨.port, none⟩, ⟨.load_pct, some 0⟩, ⟨.port, some 7778⟩] ∧
    ¬ AllWritten reads := by
  have hplay : (((dispatchReads 1 ⟨[97], [1], 1⟩ [48] 7777).run twoPeers.handleReads
      (twoPeers.start, [])).map fun x => x.2.2) =
      some [⟨.load_pct, none⟩, ⟨.port, none⟩, ⟨.load_pct, some 0⟩, ⟨.port, some 7778⟩] := by
    decide +kernel
  obtain ⟨⟨code, s, reads⟩, hrun, hreads⟩ := Option.map_eq_some_iff.1 hplay
  simp only at hreads
  refine ⟨code, s, reads, hrun, hreads, fun h => ?_⟩
  have hfirst := h ⟨.load_pct, none⟩ (by rw [hreads]; exact List.mem_cons_self)
  cases hfirst

end P2PNode
