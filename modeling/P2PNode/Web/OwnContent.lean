import P2PNode.Web.Uploads

/-!
# Submissions pass on their own content

In every run in which no upload is saved over a file that is still to be read, the bytes that the
loop passes on for a line are the content of the upload that produced the line. Without this
condition a second upload of the same name takes the place of the first.
-/

namespace P2PNode

open Effect Lines

/-! ### Both processes -/

/-- The state of a process. -/
inductive WebPhase where
  | bridge (q : BridgePhase)
  | repl (q : ReplPhase)
  | bad

namespace WebPhase

def kernel (dir : WebDir) : Kernel WebCall WebCall.Ret WebPhase
  | .bridge q, .nextMessage, m => some (.bridge (q.hear m.1 m.2))
  | .bridge q, .bridge c, r => some (.bridge (BridgePhase.next dir q c r))
  | .repl q, .repl c, r => (ReplPhase.kernel q c r).map .repl
  | _, _, _ => some .bad

def Good : WebPhase → Prop
  | .bridge q => q.Good
  | .repl q   => q.Good
  | .bad      => False

lemma always_bridgeLoop (dir : WebDir) (rounds : ℕ) :
    (bridgeLoop dir rounds).Always (kernel dir) Good (fun _ _ => True) (.bridge .idle) := by
  induction rounds with
  | zero => exact nofun
  | succ rounds ih =>
    refine ⟨nofun, fun m q hq => ?_⟩
    cases hq
    have hup := (BridgePhase.always_wsUpload dir m.1 m.2).embed (kernel dir) Good WebPhase.bridge
      (f := WebCall.bridge) (g := fun _ r => r) ?_ fun _ h => h
    · apply Prog.Always.bind (p := Prog.embed WebCall.bridge (fun _ r => r) _)
      apply hup.mono
      rintro _ q ⟨t, rfl, rfl⟩
      exact ih
    · intro q c r t ht
      cases ht
      exact ⟨_, rfl, rfl⟩

lemma always_replProcess (dir : WebDir) (rounds : ℕ) :
    (replProcess rounds).Always (kernel dir) Good (fun _ _ => True) (.repl .waiting) := by
  have hrun := (ReplPhase.always_runRepl rounds).embed (kernel dir) Good WebPhase.repl
    (f := WebCall.repl) (g := fun _ r => r) ?_ fun _ h => h
  · exact hrun.mono fun _ _ _ => trivial
  · intro q c r t ht
    obtain ⟨q', hq', rfl⟩ := Option.map_eq_some_iff.1 ht
    exact ⟨q', hq', rfl⟩

end WebPhase

/-! ### Paths and lines -/

lemma head?_uploadPath (dir : WebDir) (filename : Option PyStr) :
    (uploadPath dir.path filename).head? = some PurePath.sep := by
  have hroot : (dir.path.div (uploadPrefix ++ filename.getD uploadName)).root = true := dir.root
  rw [uploadPath, PurePath.str, if_pos hroot]
  rfl

lemma newlineChar_not_mem_uploadPath (dir : WebDir) {filename : Option PyStr}
    (h : ValidName filename) : newlineChar ∉ uploadPath dir.path filename := by
  have hroot : (dir.path.div (uploadPrefix ++ filename.getD uploadName)).root = true := dir.root
  rw [uploadPath, PurePath.str, if_pos hroot]
  intro hmem
  rcases List.mem_cons.1 hmem with hsep | hmem
  · cases hsep
  · rcases PurePath.mem_intercalate hmem with hsep | ⟨part, hpart, hc⟩
    · cases hsep
    · rcases List.mem_append.1 hpart with hpart | hpart
      · exact dir.plain part hpart hc
      · rcases List.mem_append.1 (PurePath.mem_of_mem_parse hpart hc) with hpre | hname
        · revert hpre
          decide
        · exact h.2.1 hname

/-- The file that a path names, and what is known of the path. -/
structure TargetFile (path : PyStr) (p : Bytes) : Prop where
  file : PyStr.fsencode path = some p
  nul : 0 ∉ p
  short : p.length < pathMax
  newline : newlineChar ∉ path
  root : path.head? = some PurePath.sep

/-- The line of a submission is `submit` and its path, and comes out of the loop's buffer as it went
in. -/
structure Submission.Fine (u : Submission) : Prop where
  line : u.line = cmdSubmit ++ u.path ++ [newline]
  ne : u.path ≠ []
  nul : 0 ∉ u.path
  nl : newline ∉ u.path
  blank : u.path.head? ≠ some 32
  short : u.path.length < pathMax

lemma TargetFile.fine {path content : PyStr} {p data : Bytes} (h : TargetFile path p)
    (hdata : (submitPrefix ++ path ++ [newlineChar]).encode = some data) :
    (Submission.mk p data content).Fine := by
  have hpre : submitPrefix.encode = some cmdSubmit := by decide
  rw [encode_line, PyStr.encode_append, hpre, Option.bind_some, Option.map_map] at hdata
  obtain ⟨bs, hbs, rfl⟩ := Option.map_eq_some_iff.1 hdata
  obtain rfl : bs = p := Option.some.inj ((PyStr.fsencode_of_encode hbs).symm.trans h.file)
  obtain ⟨s, rfl⟩ : ∃ s, path = PurePath.sep :: s := by
    cases path with
    | nil => cases h.root
    | cons c s => exact ⟨s, congrArg (· :: s) (Option.some.inj h.root)⟩
  have hsep : ∃ tail, bs = 47 :: tail := by
    have hno : ¬ PyStr.isSurrogate PurePath.sep = true := by decide
    rw [PyStr.encode, if_neg hno] at hbs
    obtain ⟨tail, -, rfl⟩ := Option.map_eq_some_iff.1 hbs
    exact ⟨tail, rfl⟩
  obtain ⟨tail, htail⟩ := hsep
  refine ⟨rfl, ?_, h.nul, ?_, ?_, h.short⟩
  · rw [htail]
    exact List.cons_ne_nil _ _
  · intro hnl
    obtain ⟨c, hc, hval⟩ := PyStr.mem_of_mem_encode hbs hnl (by decide)
    have hchar : c = newlineChar := Fin.ext hval
    exact h.newline (hchar ▸ hc)
  · rw [htail]
    simp

namespace Submission.Fine

variable {u : Submission} (h : u.Fine)
include h

lemma clean : Clean (cmdSubmit ++ u.path) := by
  refine ⟨?_, ?_, ?_⟩
  · intro hmem
    rcases List.mem_append.1 hmem with hmem | hmem
    · revert hmem
      decide
    · exact h.nl hmem
  · intro hmem
    rcases List.mem_append.1 hmem with hmem | hmem
    · revert hmem
      decide
    · exact h.nul hmem
  · have hshort := h.short
    have hsize : cmdSubmit.length + pathMax < lineSize - 1 := by decide
    rw [List.length_append]
    omega

lemma readLine_line (s : Bytes) :
    readLine newline (lineSize - 1) (u.line ++ s) = (u.line, s) := by
  rw [h.line, List.append_assoc, List.singleton_append,
    readLine_of_lt h.clean.newline h.clean.short]

lemma submitPath_line : submitPath (cmdSubmit ++ u.path) = u.path := by
  rw [submitPath, List.drop_left]
  cases hp : u.path with
  | nil => rfl
  | cons b bs =>
    have hb : b ≠ 32 := by
      intro hb
      have hblank := h.blank
      rw [hp, hb] at hblank
      exact hblank rfl
    simp [hb]

/-- The loop takes the line for a `submit` with the path. -/
lemma ofLine_line : ReplPhase.ofLine (stripNewline u.line) = some (.line u.path) := by
  rw [h.line, h.clean.stripNewline, ReplPhase.ofLine, h.submitPath_line, if_pos ⟨rfl, h.ne⟩]

end Submission.Fine

/-! ### The invariant -/

namespace WebWorld

/-- What holds when the bridge is in the given phase. -/
def BridgeAt (w : WebWorld) : BridgePhase → Prop
  | .idle => w.writing = false
  | .told filename content =>
    w.writing = false ∧ ValidName filename ∧ w.message = content.getD []
  | .opened path content => w.writing = true ∧ TargetFile path w.target ∧ w.message = content
  | .written path content ok =>
    w.writing = true ∧ TargetFile path w.target ∧ w.message = content ∧
      (ok = true → content.encode = some w.buffer)
  | .saved path content =>
    w.writing = false ∧ TargetFile path w.target ∧ w.message = content ∧
      ∃ bs, content.encode = some bs ∧ w.files w.target = some bs
  | .bad => False

/-- The loop is about to read the file of the submission `u`. -/
def Reading (w : WebWorld) (path : Bytes) (u : Submission) : Prop :=
  w.submissions[w.done]? = some u ∧ w.fetched = w.done + 1 ∧ u.path = path ∧ u.line = w.current

/-- What holds when the loop is in the given phase. -/
def ReplAt (w : WebWorld) : ReplPhase → Prop
  | .waiting => w.done = w.fetched
  | .line path => ∃ u, w.Reading path u
  | .opened path f => ∃ u, w.Reading path u ∧ w.handles f = path
  | .sized path f sz => ∃ u bs, w.Reading path u ∧ w.handles f = path ∧
      u.content.encode = some bs ∧ (sz < 0 ∨ sz = bs.length)
  | .data bytes => w.done = w.fetched ∧ ∃ u, w.submissions[w.fetched - 1]? = some u ∧
      u.line = w.current ∧ u.content.encode = some bytes
  | .bad => False

/-- The pipe holds the lines not yet fetched, and the files still to be read have the contents
submitted; none of them is open for writing. -/
structure Inv (b : BridgePhase) (r : ReplPhase) (w : WebWorld) : Prop where
  pipe : w.pipe = (w.submissions.drop w.fetched).flatMap Submission.line
  fine : ∀ u ∈ w.submissions, u.Fine
  done_le : w.done ≤ w.fetched
  fetched_le : w.fetched ≤ w.submissions.length
  kept : ∀ u ∈ w.unread, ∃ bs, u.content.encode = some bs ∧ w.files u.path = some bs
  apart : w.writing = true → ∀ u ∈ w.unread, u.path ≠ w.target
  bridge : w.BridgeAt b
  repl : w.ReplAt r
  own : w.OwnContent

lemma Reading.mem_unread {w : WebWorld} {path : Bytes} {u : Submission} (h : w.Reading path u) :
    u ∈ w.unread := by
  apply List.mem_of_getElem? (i := 0)
  rw [unread, List.getElem?_drop, Nat.add_zero]
  exact h.1

namespace Inv

variable {b b' : BridgePhase} {r r' : ReplPhase} {w w' : WebWorld}

/-! ### Steps of the bridge -/

lemma with_bridge (h : Inv b r w) (hb : w.BridgeAt b') : Inv b' r w :=
  { h with bridge := hb }

/-- A file is written that is not still to be read. -/
lemma kept_update (h : Inv b r w) {p : Bytes} (x : Option Bytes) (hp : ∀ u ∈ w.unread, u.path ≠ p) :
    ∀ u ∈ w.unread, ∃ bs, u.content.encode = some bs ∧
      Function.update w.files p x u.path = some bs := by
  intro u hu
  rw [Function.update_of_ne (hp u hu)]
  exact h.kept u hu

lemma flush (h : Inv b r w) (hw : w.writing = true) (n : ℕ) : Inv b r (w.flush n) := by
  refine { h with kept := h.kept_update _ (h.apart hw), bridge := ?_ }
  have hb := h.bridge
  cases b with
  | idle => exact hb
  | told filename content => exact hb
  | opened path content => exact hb
  | written path content ok => exact hb
  | saved path content => exact absurd (hw.symm.trans hb.1) (by decide)
  | bad => exact hb

lemma openW {dir : WebDir} {filename content : Option PyStr} (h : Inv (.told filename content) r w)
    {ok : Bool}
    (hok : ok = true → ∀ u ∈ w.unread,
      PyStr.fsencode (uploadPath dir.path filename) ≠ some u.path)
    (hw : w.bridgeCall (.openW (uploadPath dir.path filename)) ok = some w') :
    Inv (if ok then .opened (uploadPath dir.path filename) (content.getD []) else .idle) r w' := by
  obtain ⟨hwr, hname, hmsg⟩ := h.bridge
  cases ok with
  | false =>
    cases hw
    exact h.with_bridge hwr
  | true =>
    simp only [bridgeCall, if_true] at hw
    obtain ⟨p, hp, hw⟩ := Option.bind_eq_some_iff.1 hw
    split at hw
    · cases hw
    · rename_i hbad
      cases hw
      have hne : ∀ u ∈ w.unread, u.path ≠ p := by
        intro u hu hup
        exact hok rfl u hu (hup ▸ hp)
      have htarget : TargetFile (uploadPath dir.path filename) p :=
        ⟨hp, fun h0 => hbad (.inl h0), not_le.1 fun hle => hbad (.inr hle),
          newlineChar_not_mem_uploadPath dir hname, head?_uploadPath dir filename⟩
      exact { h with
        kept := h.kept_update _ hne
        apart := fun _ => hne
        bridge := ⟨rfl, htarget, hmsg⟩ }

lemma writeText {path content : PyStr} (h : Inv (.opened path content) r w) {ok : Bool}
    (hw : w.bridgeCall (.writeText content) ok = some w') :
    Inv (.written path content ok) r w' := by
  obtain ⟨hwr, htarget, hmsg⟩ := h.bridge
  cases ok with
  | false =>
    cases hw
    exact { h with bridge := ⟨hwr, htarget, hmsg, fun h => absurd h Bool.false_ne_true⟩ }
  | true =>
    simp only [bridgeCall, if_true] at hw
    obtain ⟨bs, hbs, rfl⟩ := Option.map_eq_some_iff.1 hw
    exact { h with bridge := ⟨hwr, htarget, hmsg, fun _ => hbs⟩ }

lemma closeFile {path content : PyStr} {ok closed : Bool} (h : Inv (.written path content ok) r w)
    (hw : w.bridgeCall .closeFile closed = some w') :
    Inv (if ok && closed then .saved path content else .idle) r w' := by
  obtain ⟨hwr, htarget, hmsg, hbuf⟩ := h.bridge
  cases closed with
  | false =>
    cases hw
    rw [Bool.and_false]
    exact { h with apart := nofun, bridge := rfl }
  | true =>
    cases hw
    have hflush := h.flush hwr w.buffer.length
    cases ok with
    | false => exact { hflush with apart := nofun, bridge := rfl }
    | true =>
      have hfile : (w.flush w.buffer.length).files w.target = some w.buffer := by
        simp [WebWorld.flush]
      exact { hflush with
        apart := nofun
        bridge := ⟨rfl, htarget, hmsg, w.buffer, hbuf rfl, hfile⟩ }

/-- What the loop is doing does not change when a line is added. -/
lemma replAt_append (h : w.ReplAt r) (pipe : Bytes) (u : Submission) :
    ReplAt { w with pipe := pipe, submissions := w.submissions ++ [u] } r := by
  cases r with
  | waiting => exact h
  | line path =>
    obtain ⟨v, hv, hrest⟩ := h
    exact ⟨v, getElem?_append_of_some hv [u], hrest⟩
  | opened path f =>
    obtain ⟨v, ⟨hv, hrest⟩, hf⟩ := h
    exact ⟨v, ⟨getElem?_append_of_some hv [u], hrest⟩, hf⟩
  | sized path f sz =>
    obtain ⟨v, bs, ⟨hv, hrest⟩, hf⟩ := h
    exact ⟨v, bs, ⟨getElem?_append_of_some hv [u], hrest⟩, hf⟩
  | data bytes =>
    obtain ⟨hd, v, hv, hrest⟩ := h
    exact ⟨hd, v, getElem?_append_of_some hv [u], hrest⟩
  | bad => exact h

lemma writeStdin {path content : PyStr} (h : Inv (.saved path content) r w) {data : Bytes}
    {ok : Bool}
    (hdata : (submitPrefix ++ path ++ [newlineChar]).encode = some data)
    (hw : w.bridgeCall (.writeStdin data) ok = some w') : Inv .idle r w' := by
  obtain ⟨hwr, htarget, hmsg, bs, hbs, hfile⟩ := h.bridge
  cases ok with
  | false =>
    cases hw
    exact h.with_bridge hwr
  | true =>
    cases hw
    obtain ⟨u, hu⟩ : ∃ u : Submission, u = ⟨w.target, data, w.message⟩ := ⟨_, rfl⟩
    rw [← hu]
    have hfine : u.Fine := hu ▸ htarget.fine hdata
    have hline : u.line = data := by rw [hu]
    have hdrop : (w.submissions ++ [u]).drop w.done = w.unread ++ [u] :=
      List.drop_append_of_le_length (h.done_le.trans h.fetched_le)
    refine ⟨?_, ?_, h.done_le, ?_, ?_, fun htrue => ?_, hwr, replAt_append h.repl _ u, ?_⟩
    · rw [List.drop_append_of_le_length h.fetched_le, List.flatMap_append, ← h.pipe,
        List.flatMap_singleton, hline]
    · intro v hv
      rcases List.mem_append.1 hv with hv | hv
      · exact h.fine v hv
      · rw [List.mem_singleton.1 hv]
        exact hfine
    · rw [List.length_append]
      exact h.fetched_le.trans (Nat.le_add_right _ _)
    · intro v hv
      rw [unread, hdrop] at hv
      rcases List.mem_append.1 hv with hv | hv
      · exact h.kept v hv
      · rw [List.mem_singleton.1 hv, hu]
        exact ⟨bs, hmsg ▸ hbs, hfile⟩
    · exact absurd (hwr.symm.trans htrue) (by decide)
    · intro x hx
      obtain ⟨v, hv, hrest⟩ := h.own x hx
      exact ⟨v, getElem?_append_of_some hv [u], hrest⟩

lemma bridge_step {dir : WebDir} {i : ℕ} (h : Inv b r w) {c : BridgeCall} {x : c.Ret}
    (hok : w.Undisturbed (.call i (.bridge c) x)) (hw : w.bridgeCall c x = some w')
    (hb : BridgePhase.next dir b c x = b') (hg : b'.Good) : Inv b' r w' := by
  unfold BridgePhase.next at hb
  split at hb
  · cases hw
    exact hb ▸ h
  · split at hb
    · rename_i hpath
      subst hpath
      exact hb ▸ h.openW hok hw
    · exact absurd hb.symm hg
  · split at hb
    · rename_i htext
      subst htext
      exact hb ▸ h.writeText hw
    · exact absurd hb.symm hg
  · exact hb ▸ h.closeFile hw
  · cases hw
    split at hb
    · exact hb ▸ h
    · exact hb ▸ h.with_bridge h.bridge.1
  · split at hb
    · rename_i hdata
      exact hb ▸ h.writeStdin hdata hw
    · exact absurd hb.symm hg
  · cases hw
    exact hb ▸ h.with_bridge h.bridge.1
  · exact absurd hb.symm hg

/-- A message is taken. -/
lemma hear (h : Inv b r w) {m : Option PyStr × Option PyStr} {i : ℕ}
    (hw : w.call i .nextMessage m = some w') (hg : (b.hear m.1 m.2).Good) :
    Inv (b.hear m.1 m.2) r w' := by
  obtain ⟨filename, content⟩ := m
  cases b with
  | idle =>
    simp only [call] at hw
    split at hw
    · rename_i hname
      cases hw
      exact { h with bridge := ⟨h.bridge, hname, rfl⟩ }
    · cases hw
  | _ => exact absurd rfl hg

/-! ### Steps of the loop -/

/-- The loop changes nothing that the bridge relies on. -/
lemma bridgeAt_loop (h : w.BridgeAt b) (pipe : Bytes) (handles : File → Bytes) (fetched : ℕ)
    (current : Bytes) (done : ℕ) (passed : List Passed) :
    BridgeAt { w with
      pipe := pipe, handles := handles, fetched := fetched
      current := current, done := done, passed := passed } b := by
  cases b with
  | _ => exact h

/-- The loop opens a file, is done with one, or passes something on. -/
lemma set (h : Inv b r w) (handles : File → Bytes) {done : ℕ} (passed : List Passed)
    (hd : w.done ≤ done) (hle : done ≤ w.fetched)
    (hr : ReplAt { w with handles := handles, done := done, passed := passed } r')
    (ho : OwnContent { w with handles := handles, done := done, passed := passed }) :
    Inv b r' { w with handles := handles, done := done, passed := passed } := by
  have hunread : ∀ u ∈ w.submissions.drop done, u ∈ w.unread := by
    intro u hu
    obtain ⟨k, rfl⟩ := Nat.exists_eq_add_of_le hd
    rw [← List.drop_drop] at hu
    exact List.mem_of_mem_drop hu
  refine { h with
    done_le := hle
    kept := fun u hu => h.kept u (hunread u hu)
    apart := fun hw u hu => h.apart hw u (hunread u hu)
    repl := hr
    own := ho
    bridge := bridgeAt_loop h.bridge _ _ _ _ _ _ }

/-- The loop is done with the file of its line. -/
lemma set_done (h : Inv b r w) (hr : ReplAt { w with done := w.fetched } r') :
    Inv b r' { w with done := w.fetched } :=
  h.set w.handles w.passed h.done_le le_rfl hr h.own

lemma with_repl (h : Inv b r w) (hr : w.ReplAt r') : Inv b r' w := { h with repl := hr }

/-- The line that is fetched is that of the next submission. -/
lemma fgets (h : Inv b .waiting w) {raw : Bytes}
    (hw : w.replCall (.fgets lineSize) (some raw) = some w') :
    ∃ path, ReplPhase.ofLine (stripNewline raw) = some (.line path) ∧ Inv b (.line path) w' := by
  simp only [replCall] at hw
  split at hw
  · rename_i hraw
    cases hw
    obtain ⟨hfetch, rfl⟩ := hraw
    obtain ⟨u, rest, hdrop⟩ : ∃ u rest, w.submissions.drop w.fetched = u :: rest := by
      cases hd : w.submissions.drop w.fetched with
      | cons u rest => exact ⟨u, rest, rfl⟩
      | nil =>
        have hempty : w.pipe = [] := by rw [h.pipe, hd, List.flatMap_nil]
        have hread : readLine newline (lineSize - 1) [] = ([], []) := rfl
        rw [fetchable, hempty, hread] at hfetch
        exact absurd hfetch (by decide)
    have hget : w.submissions[w.fetched]? = some u := by
      have hhead : (w.submissions.drop w.fetched)[0]? = w.submissions[w.fetched]? := by
        rw [List.getElem?_drop, Nat.add_zero]
      rw [hdrop] at hhead
      exact hhead.symm
    have hrest : w.submissions.drop (w.fetched + 1) = rest := by
      rw [← List.tail_drop, hdrop, List.tail_cons]
    have hfine : u.Fine := h.fine u (List.mem_of_getElem? hget)
    have hread : readLine newline (lineSize - 1) w.pipe =
        (u.line, rest.flatMap Submission.line) := by
      rw [h.pipe, hdrop, List.flatMap_cons, hfine.readLine_line]
    have hwait : w.done = w.fetched := h.repl
    rw [hread]
    refine ⟨u.path, hfine.ofLine_line, { h with
      pipe := ?_
      done_le := h.done_le.trans (Nat.le_succ _)
      fetched_le := (List.getElem?_eq_some_iff.1 hget).1
      repl := ⟨u, hwait ▸ hget, congrArg (· + 1) hwait.symm, rfl, rfl⟩
      bridge := bridgeAt_loop h.bridge _ _ _ _ _ _ }⟩
    simp only [hrest]
  · cases hw

lemma fopen {path : Bytes} {f : File} (h : Inv b (.line path) w)
    (hw : w.replCall (.fopen path) (some f) = some w') : Inv b (.opened path f) w' := by
  obtain ⟨u, hread⟩ := h.repl
  simp only [replCall] at hw
  split at hw
  · cases hw
    exact h.set _ w.passed le_rfl h.done_le ⟨u, hread, Function.update_self ..⟩ h.own
  · cases hw

/-- The size is that of the content submitted. -/
lemma fileSize {path : Bytes} {f : File} {sz : ℤ} (h : Inv b (.opened path f) w)
    (hw : w.replCall (.fileSize f) sz = some w') : Inv b (.sized path f sz) w' := by
  obtain ⟨u, hread, hhandle⟩ := h.repl
  obtain ⟨bs, hbs, hfile⟩ := h.kept u hread.mem_unread
  simp only [replCall] at hw
  split at hw
  · rename_i hsz
    cases hw
    rw [hhandle, ← hread.2.2.1, hfile, Option.getD_some] at hsz
    exact h.with_repl ⟨u, bs, hread, hhandle, hbs, hsz⟩
  · cases hw

/-- The whole file is read, and it is that of the submission. -/
lemma fread {path got : Bytes} {f : File} {sz : ℤ} (h : Inv b (.sized path f sz) w) (hpos : 0 < sz)
    (hw : w.replCall (.fread f sz.toNat) got = some w') :
    Inv b (if got.length = sz.toNat then .data got else .waiting) w' := by
  obtain ⟨u, bs, hread, hf, hbs, hsz⟩ := h.repl
  simp only [replCall] at hw
  split at hw
  · rename_i hgot
    cases hw
    apply h.set_done
    split
    · rename_i hlen
      have hsize : sz.toNat = bs.length := by
        rcases hsz with hneg | rfl
        · exact absurd hneg hpos.le.not_gt
        · exact Int.toNat_natCast _
      obtain ⟨bs', hbs', hfile⟩ := h.kept u hread.mem_unread
      obtain rfl : bs' = bs := Option.some.inj (hbs'.symm.trans hbs)
      rw [hf, ← hread.2.2.1, hfile, Option.getD_some, hsize, List.take_length] at hgot
      obtain rfl : got = bs' := hgot.eq_of_length (hlen.trans hsize)
      refine ⟨rfl, u, ?_, hread.2.2.2, hbs⟩
      rw [hread.2.1, Nat.add_sub_cancel]
      exact hread.1
    · exact rfl
  · cases hw

/-- What is passed on is the content of the submission. -/
lemma dispatch {bytes : Bytes} {task : Task} {rc : ℤ} (h : Inv b (.data bytes) w)
    (htask : task.file_data = bytes) (hw : w.replCall (.dispatch task) rc = some w') :
    Inv b .waiting w' := by
  obtain ⟨hd, u, hu, hline, hbs⟩ := h.repl
  cases hw
  refine h.set w.handles _ le_rfl h.done_le hd ?_
  intro x hx
  rcases List.mem_append.1 hx with hx | hx
  · exact h.own x hx
  · rw [List.mem_singleton.1 hx]
    exact ⟨u, hu, hline, htask ▸ hbs⟩

lemma repl_step (h : Inv b r w) {c : ReplCall} {x : c.Ret} (hw : w.replCall c x = some w') :
    ∃ r', ReplPhase.kernel r c x = some r' ∧ (r'.Good → Inv b r' w') := by
  unfold ReplPhase.kernel
  split
  · cases hw
    exact ⟨_, rfl, fun _ => h⟩
  · cases hw
    exact ⟨_, rfl, fun _ => h⟩
  · cases hw
    exact ⟨_, rfl, fun _ => h⟩
  · split
    · rename_i hsize
      subst hsize
      obtain ⟨path, hline, hinv⟩ := h.fgets hw
      exact ⟨_, hline, fun _ => hinv⟩
    · exact ⟨_, rfl, fun hg => absurd rfl hg⟩
  · cases hw
    exact ⟨_, rfl, fun _ => h⟩
  · cases hw
    exact ⟨_, rfl, fun _ => h.set_done rfl⟩
  · cases hw
    refine ⟨_, rfl, fun hg => ?_⟩
    split at hg
    · rename_i hpath
      rw [if_pos hpath]
      exact h.set_done rfl
    · exact absurd rfl hg
  · refine ⟨_, rfl, fun hg => ?_⟩
    split at hg
    · rename_i hpath
      subst hpath
      rw [if_pos rfl]
      exact h.fopen hw
    · exact absurd rfl hg
  · refine ⟨_, rfl, fun hg => ?_⟩
    split at hg
    · rename_i hf
      subst hf
      rw [if_pos rfl]
      exact h.fileSize hw
    · exact absurd rfl hg
  · cases hw
    exact ⟨_, rfl, fun _ => h.set_done rfl⟩
  · cases hw
    exact ⟨_, rfl, fun _ => h⟩
  · refine ⟨_, rfl, fun hg => ?_⟩
    split at hg
    · rename_i hread
      obtain ⟨rfl, hpos, rfl⟩ := hread
      rw [if_pos ⟨rfl, hpos, rfl⟩]
      exact h.fread hpos hw
    · exact absurd rfl hg
  · cases hw
    obtain ⟨-, hdata⟩ := h.repl
    exact ⟨_, rfl, fun _ => h.set_done ⟨rfl, hdata⟩⟩
  · cases hw
    exact ⟨_, rfl, fun _ => h⟩
  · refine ⟨_, rfl, fun hg => ?_⟩
    split at hg
    · rename_i htask
      rw [if_pos htask]
      exact h.dispatch htask hw
    · exact absurd rfl hg
  · exact ⟨_, rfl, fun hg => absurd rfl hg⟩

end Inv

/-! ### Every run -/

/-- The proof outline: the bridge is the first process, the loop the second. -/
def outline (dir : WebDir) : Conc.Outline sys Undisturbed WebPhase where
  auto := WebPhase.kernel dir
  good := WebPhase.Good
  fin _ := True
  fresh _ _ := .bad
  inv qs w := ∃ b r, qs = [.bridge b, .repl r] ∧ Inv b r w
  spawned := nofun
  call := by
    rintro qs w i q c x w' ⟨b, r, rfl, h⟩ hq _ hok hw
    obtain ⟨rfl, rfl⟩ | ⟨rfl, rfl⟩ : i = 0 ∧ q = .bridge b ∨ i = 1 ∧ q = .repl r := by
      match i, hq with
      | 0, hq => exact .inl ⟨rfl, (Option.some.inj hq).symm⟩
      | 1, hq => exact .inr ⟨rfl, (Option.some.inj hq).symm⟩
    · cases c with
      | nextMessage => exact ⟨_, rfl, fun hg => ⟨_, r, rfl, h.hear (i := 0) hw hg⟩⟩
      | bridge c => exact ⟨_, rfl, fun hg => ⟨_, r, rfl, h.bridge_step hok hw rfl hg⟩⟩
      | repl c => exact ⟨_, rfl, fun hg => hg.elim⟩
    · cases c with
      | nextMessage => exact ⟨_, rfl, fun hg => hg.elim⟩
      | bridge c => exact ⟨_, rfl, fun hg => hg.elim⟩
      | repl c =>
        obtain ⟨r', hr', hinv⟩ := h.repl_step hw
        exact ⟨.repl r', by rw [WebPhase.kernel, hr', Option.map_some],
          fun hg => ⟨b, r', rfl, hinv hg⟩⟩
  env := by
    rintro qs w n w' ⟨b, r, rfl, h⟩ - hw
    simp only [sys] at hw
    split at hw
    · rename_i hwr
      cases hw
      exact ⟨b, r, rfl, h.flush hwr n⟩
    · cases hw

lemma inv_start (files : Bytes → Option Bytes) : Inv .idle .waiting { files := files } where
  pipe := rfl
  fine := nofun
  done_le := le_rfl
  fetched_le := le_rfl
  kept := nofun
  apart := nofun
  bridge := rfl
  repl := rfl
  own := nofun

/-- **Each submission passes on its own content**: in every run in which no file is opened for an
upload while a line that names it waits or its file is being read, whatever the loop passes on for
a line is the content of the message that produced the line. -/
theorem submissions_own_content (dir : WebDir) (files : Bytes → Option Bytes) (rounds rounds' : ℕ)
    {s : Conf WebCall WebCall.Ret WebWorld}
    (h : sys.Reach Undisturbed (start dir files rounds rounds') s) : s.world.OwnContent := by
  have h₀ : (outline dir).Holds (start dir files rounds rounds') [.bridge .idle, .repl .waiting] :=
    ⟨.cons (WebPhase.always_bridgeLoop dir rounds)
      (.cons (WebPhase.always_replProcess dir rounds') .nil), _, _, rfl, inv_start files⟩
  obtain ⟨qs, -, b, r, -, hinv⟩ := (outline dir).reach h₀ h
  exact hinv.own

/-! ### Two uploads of one name -/

instance (w : WebWorld) (m : Move WebCall WebCall.Ret ℕ) : Decidable (w.Undisturbed m) := by
  unfold Undisturbed
  split <;> infer_instance

/-- The directory `/`. -/
def rootDir : WebDir := ⟨⟨true, []⟩, rfl, nofun⟩

/-- The file name `x`. -/
def sharedName : PyStr := PyStr.ofChars ['x']

/-- The path `/web_upload_x`. -/
def sharedPath : Bytes := [47, 119, 101, 98, 95, 117, 112, 108, 111, 97, 100, 95, 120]

/-- A file named `x` with one character is saved and submitted. -/
def uploadMoves (c : Char) : List (Move WebCall WebCall.Ret ℕ) :=
  [.call 0 .nextMessage (some sharedName, some (PyStr.ofChars [c])),
    .call 0 (.bridge (.openW (uploadPath rootDir.path (some sharedName)))) true,
    .call 0 (.bridge (.writeText (PyStr.ofChars [c]))) true,
    .call 0 (.bridge .closeFile) true,
    .call 0 (.bridge .hasStdin) true,
    .call 0 (.bridge (.writeStdin (cmdSubmit ++ sharedPath ++ [newline]))) true]

/-- The loop fetches the line, reads one byte and passes it on. -/
def readMoves (b : UInt8) : List (Move WebCall WebCall.Ret ℕ) :=
  [.call 1 (.repl .running) true,
    .call 1 (.repl (.printf .prompt)) (),
    .call 1 (.repl (.fgets lineSize)) (some (cmdSubmit ++ sharedPath ++ [newline])),
    .call 1 (.repl (.fopen sharedPath)) (some 3),
    .call 1 (.repl (.fileSize 3)) (1 : ℤ),
    .call 1 (.repl (.malloc 1)) (some 1),
    .call 1 (.repl (.fread 3 1)) ([b] : Bytes),
    .call 1 (.repl (.fclose 3)) (),
    .call 1 (.repl (.printf .output)) (),
    .call 1 (.repl (.dispatch (fillTask (basename sharedPath) [b]))) (0 : ℤ)]

/-- The task is done. -/
def doneMoves : List (Move WebCall WebCall.Ret ℕ) :=
  [.call 1 (.repl (.printf (.exitCode 0))) (), .call 1 (.repl (.free (some 1))) ()]

/-- The second file is saved under the same name when the first one was read. -/
theorem submissions_own_content_one : ∃ s,
    sys.Reach Undisturbed (start rootDir (fun _ => none) 2 2) s ∧
      s.world.passed.map Passed.data = [[97], [98]] ∧ s.world.OwnContent := by
  have hplay : ((sys.play Undisturbed
      (uploadMoves 'a' ++ readMoves 97 ++ uploadMoves 'b' ++ doneMoves ++ readMoves 98)
      (start rootDir (fun _ => none) 2 2)).map fun s => s.world.passed.map Passed.data) =
        some [[97], [98]] := by
    decide +kernel
  obtain ⟨s, hr, hw⟩ := Conc.exists_reach_of_play _ hplay
  exact ⟨s, hr, hw, submissions_own_content rootDir (fun _ => none) 2 2 hr⟩

/-- Both uploads are saved before the loop comes to the first: it passes on the content of the
second for the line of the first. -/
theorem submission_foreign_content : ∃ s,
    sys.Reach Conc.anyMove (start rootDir (fun _ => none) 2 2) s ∧ ¬ s.world.OwnContent := by
  have hplay : ((sys.play Conc.anyMove (uploadMoves 'a' ++ uploadMoves 'b' ++ readMoves 98)
      (start rootDir (fun _ => none) 2 2)).map fun s =>
        (s.world.passed.map fun x => (x.number, x.data), s.world.submissions.map (·.content))) =
          some ([(0, [98])], [PyStr.ofChars ['a'], PyStr.ofChars ['b']]) := by
    decide +kernel
  obtain ⟨s, hr, hw⟩ := Conc.exists_reach_of_play _ hplay
  obtain ⟨hpassed, hsubs⟩ := Prod.mk.inj hw
  refine ⟨s, hr, fun hown => ?_⟩
  obtain ⟨x, hx, hxd⟩ : ∃ x ∈ s.world.passed, (x.number, x.data) = (0, [98]) := by
    apply List.mem_map.1
    rw [hpassed]
    exact List.mem_cons_self
  obtain ⟨hnum, hdata⟩ := Prod.mk.inj hxd
  obtain ⟨u, hu, -, henc⟩ := hown x hx
  have hcontent : u.content = PyStr.ofChars ['a'] := by
    have hmap := congrArg (Option.map Submission.content) hu
    rw [← List.getElem?_map, hsubs, hnum] at hmap
    exact (Option.some.inj hmap).symm
  rw [hcontent, hdata] at henc
  exact absurd henc (by decide)

end WebWorld

end P2PNode
