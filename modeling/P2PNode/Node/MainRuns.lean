import P2PNode.Node.MainPhases

/-!
# The life of a node

Every run of the node process: the command loop reads its standard input without loss and carries
out each line before it reads the next one, holds nothing while it waits, and reads at most one line
after SIGINT; the BYE is the end of it all; and a HELLO is only sent while the worker listens on the
port that it tells.
-/

namespace P2PNode

open Effect Lines

/-! ### What is done for a line -/

/-- What `read_file` reads: neither nothing nor too much. -/
def Readable (contents : Bytes) : Prop := 0 < contents.length ∧ contents.length ≤ maxFileSize

namespace Entry

def cmd (e : Entry) : Cmd := .ofLine (stripNewline e.raw)

/-- The file at the path was not read, for this reason. -/
def Refused (e : Entry) (path : Bytes) : ReadFailure → Prop
  | .fopen path' => path' = path ∧ e.opened = none
  | .size sz     => ∃ contents, e.opened = some (path, contents) ∧
      (sz = -1 ∨ sz = contents.length) ∧ (sz ≤ 0 ∨ (maxFileSize : ℤ) < sz)
  | .malloc      => ∃ contents, e.opened = some (path, contents) ∧ Readable contents
  | .fread       => ∃ contents, e.opened = some (path, contents) ∧ Readable contents

/-- What was done for the line is what it asks for. For a submission this is nothing if `fopen`, the
size, `malloc` or `fread` kept its file from being read, and otherwise a task with all that is in
the file. -/
def Done (e : Entry) : Prop :=
  match e.cmd with
  | .nothing     => e.acts = []
  | .peers       => e.acts = [.peers]
  | .quit        => e.acts = []
  | .usage       => e.acts = [.usage]
  | .submit path =>
    match e.failure with
    | some f => e.Refused path f ∧ e.acts = []
    | none   => ∃ contents, e.opened = some (path, contents) ∧ Readable contents ∧
        e.acts = [.submit (fillTask (basename path) contents)]
  | .unknown     => e.acts = [.unknown]

end Entry

/-! ### The command loop -/

namespace ReplWorld

/-- The files that are open and the blocks that are held. -/
structure Keeps (w : ReplWorld) (files : File → Option Bytes) (blocks : Finset Ptr) : Prop where
  files : w.files = files
  blocks : w.blocks = blocks

def noFile : File → Option Bytes := fun _ => none

def oneFile (f : File) (contents : Bytes) : File → Option Bytes :=
  Function.update noFile f (some contents)

/-- Nothing is held, and the last line is done. -/
structure Settled (w : ReplWorld) : Prop where
  keeps : w.Keeps noFile ∅
  now : ∀ e, w.now = some e → e.Done ∧ e.cmd ≠ .quit

/-- The file is open for a submission of which nothing was done yet. -/
def Submitting (w : ReplWorld) (path contents : Bytes) : Prop :=
  ∃ e, w.now = some e ∧ e.cmd = .submit path ∧ e.opened = some (path, contents) ∧
    e.failure = none ∧ e.acts = []

/-- The last line is done, and is not the one that ends the loop. -/
def LineDone (w : ReplWorld) : Prop := ∃ e, w.now = some e ∧ e.Done ∧ e.cmd ≠ .quit

end ReplWorld

open ReplWorld in
/-- What is true where the loop is. -/
def LoopPhase.Holds (w : ReplWorld) : LoopPhase → Prop
  | .top => w.Settled
  | .checked => w.Settled
  | .asking => w.Settled
  | .line cmd => w.Keeps noFile ∅ ∧ ∃ e, w.now = some e ∧ e.cmd = cmd ∧ e.opened = none ∧
      e.failure = none ∧ e.acts = []
  | .opened path f => ∃ contents, w.Keeps (oneFile f contents) ∅ ∧ w.Submitting path contents
  | .sized path f n => ∃ contents, w.Keeps (oneFile f contents) ∅ ∧ w.Submitting path contents ∧
      n = contents.length ∧ Readable contents
  | .alloced path f p n => ∃ contents, w.Keeps (oneFile f contents) {p} ∧
      w.Submitting path contents ∧ n = contents.length ∧ Readable contents
  | .freeing f p => ∃ contents, w.Keeps (oneFile f contents) {p} ∧ w.LineDone
  | .closing f => ∃ contents, w.Keeps (oneFile f contents) ∅ ∧ w.LineDone
  | .holding path f p data => w.Keeps (oneFile f data) {p} ∧ w.Submitting path data ∧ Readable data
  | .ready path p data => w.Keeps noFile {p} ∧ w.Submitting path data ∧ Readable data
  | .announced path p data => w.Keeps noFile {p} ∧ w.Submitting path data ∧ Readable data
  | .ran p _ => w.Keeps noFile {p} ∧ w.LineDone
  | .told p => w.Keeps noFile {p} ∧ w.LineDone
  | .ended => w.Keeps noFile ∅ ∧ ∀ e, w.now = some e → e.Done
  | .bad => False

/-- How many lines the loop still reads without a look at `g_running`. -/
def LoopPhase.ahead : LoopPhase → ℕ
  | .checked => 1
  | .asking  => 1
  | _        => 0

namespace ReplWorld

/-- Why the loop has ended. -/
def Stopped (w : ReplWorld) : Prop :=
  (∃ e, w.now = some e ∧ e.cmd = .quit) ∨ (w.input = [] ∧ w.closed = true) ∨ w.signalled.isSome

/-- What is true of the loop at every moment. -/
structure Sound (w : ReplWorld) (q : LoopPhase) : Prop where
  holds : q.Holds w
  typed : w.typed = w.entries.flatMap Entry.raw ++ w.input
  past : ∀ e ∈ w.past, e.Done ∧ e.cmd ≠ .quit
  misuse : w.misuse = false
  signalled : ∀ n, w.signalled = some n → w.running = false ∧ w.entries.length + q.ahead ≤ n + 1
  running : q ≠ .ended → w.running = false → w.signalled.isSome
  stopped : q = .ended → w.Stopped

variable {w w' : ReplWorld} {q : LoopPhase}

/-- A step that reads no line and leaves `g_running` alone. -/
lemma Sound.of_eq {q' : LoopPhase} (h : w.Sound q) (hholds : q'.Holds w')
    (htyped : w'.typed = w.typed) (hpast : w'.past = w.past)
    (hraw : w'.now.map Entry.raw = w.now.map Entry.raw) (hinput : w'.input = w.input)
    (hmisuse : w'.misuse = false) (hsignalled : w'.signalled = w.signalled)
    (hrunning : w'.running = w.running) (hahead : q'.ahead ≤ q.ahead)
    (hended : q ≠ .ended ∧ q' ≠ .ended) : w'.Sound q' := by
  have hraws : w'.entries.map Entry.raw = w.entries.map Entry.raw := by
    rw [entries, entries, hpast, List.map_append, List.map_append, ← Option.toList_map, hraw,
      Option.toList_map]
  have hlen : w'.entries.length = w.entries.length := by simpa using congrArg List.length hraws
  refine ⟨hholds, ?_, hpast ▸ h.past, hmisuse, fun n hn => ?_, fun _ hrun => ?_,
    fun heq => absurd heq hended.2⟩
  · rw [htyped, hinput, h.typed, List.flatMap_def, List.flatMap_def, hraws]
  · obtain ⟨hrun, hle⟩ := h.signalled n (hsignalled ▸ hn)
    exact ⟨hrunning.trans hrun, by omega⟩
  · rw [hsignalled]
    exact h.running hended.1 (hrunning ▸ hrun)

/-- A step of the loop that changes nothing outside it. -/
lemma Sound.move {q' : LoopPhase} (h : w.Sound q) (hholds : q'.Holds w)
    (hahead : q'.ahead ≤ q.ahead) (hended : q ≠ .ended ∧ q' ≠ .ended) : w.Sound q' :=
  h.of_eq hholds rfl rfl rfl rfl h.misuse rfl rfl hahead hended

/-! #### What the phases say -/

lemma LineDone.settled (h : w.LineDone) (hkeeps : w.Keeps noFile ∅) : w.Settled := by
  obtain ⟨e, hnow, hdone, hcmd⟩ := h
  refine ⟨hkeeps, fun e' he' => ?_⟩
  obtain rfl := Option.some.inj (hnow.symm.trans he')
  exact ⟨hdone, hcmd⟩

/-- A command that is a single act. -/
lemma settled_did {cmd : Cmd} {a : ReplAct} (h : (LoopPhase.line cmd).Holds w)
    (hdone : ∀ e : Entry, e.cmd = cmd → e.acts = [a] → e.Done) (hcmd : cmd ≠ .quit) :
    (w.did a).Settled := by
  obtain ⟨hkeeps, e, hnow, rfl, -, -, hacts⟩ := h
  have hline : (w.did a).LineDone :=
    ⟨{ e with acts := [a] }, by simp [did, hnow, hacts], hdone _ rfl rfl, hcmd⟩
  exact hline.settled ⟨hkeeps.files, hkeeps.blocks⟩

lemma settled_of_nothing (h : (LoopPhase.line .nothing).Holds w) : w.Settled := by
  obtain ⟨hkeeps, e, hnow, hcmd, -, -, hacts⟩ := h
  refine LineDone.settled ⟨e, hnow, ?_, by simp [hcmd]⟩ hkeeps
  rw [Entry.Done, hcmd]
  exact hacts

/-- The file for a submission is not read. -/
lemma lineDone_failed {e : Entry} {path : Bytes} {f : ReadFailure} (hnow : w.now = some e)
    (hcmd : e.cmd = .submit path) (hacts : e.acts = []) (hrefused : e.Refused path f) :
    (w.failed f).LineDone := by
  refine ⟨{ e with failure := some f }, ?_, ?_, ?_⟩
  · simp [failed, hnow]
  · have hcmd' : Entry.cmd { e with failure := some f } = .submit path := hcmd
    rw [Entry.Done, hcmd']
    refine ⟨?_, hacts⟩
    cases f with
    | _ => exact hrefused
  · exact fun hq => absurd (hcmd.symm.trans hq) (by simp)

/-- The submission is carried out. -/
lemma Submitting.did {path contents : Bytes} (h : w.Submitting path contents)
    (hdata : Readable contents) :
    (w.did (.submit (fillTask (basename path) contents))).LineDone := by
  obtain ⟨e, hnow, hcmd, hopened, hfailure, hacts⟩ := h
  refine ⟨{ e with acts := [.submit (fillTask (basename path) contents)] }, ?_, ?_, ?_⟩
  · simp [ReplWorld.did, hnow, hacts]
  · have hcmd' : Entry.cmd { e with acts := [.submit (fillTask (basename path) contents)] } =
      .submit path := hcmd
    rw [Entry.Done, hcmd']
    simp only [hfailure]
    exact ⟨contents, hopened, hdata, rfl⟩
  · exact fun hq => absurd (hcmd.symm.trans hq) (by simp)

@[simp] lemma oneFile_self (f : File) (contents : Bytes) : oneFile f contents f = some contents :=
  Function.update_self _ _ _

lemma close_oneFile (f : File) (contents : Bytes) :
    Function.update (oneFile f contents) f none = noFile := by
  rw [oneFile, Function.update_idem]
  exact Function.update_eq_self f noFile

/-! #### The calls of the loop -/

section Step

variable {c : ReplCall} {r : c.Ret}

lemma sound_running (h : w.Sound q) (hq : q ≠ .ended) (hs : w.Settled) :
    w.Sound (if w.running then .checked else .ended) := by
  cases hrun : w.running with
  | true =>
    have hnone : w.signalled = none := by
      cases hsig : w.signalled with
      | none => rfl
      | some n => exact absurd (hrun.symm.trans (h.signalled n hsig).1) (by simp)
    refine ⟨hs, h.typed, h.past, h.misuse, fun n hn => ?_, fun _ hrun' => ?_, by simp⟩
    · rw [hnone] at hn
      cases hn
    · rw [hrun] at hrun'
      cases hrun'
  | false =>
    refine ⟨⟨hs.keeps, fun e he => (hs.now e he).1⟩, h.typed, h.past, h.misuse, fun n hn => ?_,
      fun hne => absurd rfl hne, fun _ => .inr (.inr (h.running hq hrun))⟩
    obtain ⟨-, hle⟩ := h.signalled n hn
    exact ⟨hrun, le_trans (Nat.le_add_right _ _) hle⟩

lemma sound_stop (h : w.Sound (.line .quit)) :
    ReplWorld.Sound { w with running := false } .ended := by
  obtain ⟨hkeeps, e, hnow, hcmd, -, -, hacts⟩ := h.holds
  have hdone : e.Done := by
    rw [Entry.Done, hcmd]
    exact hacts
  refine ⟨⟨⟨hkeeps.files, hkeeps.blocks⟩, fun e' he' => ?_⟩, h.typed, h.past, h.misuse,
    fun n hn => ⟨rfl, (h.signalled n hn).2⟩, fun hne => absurd rfl hne,
    fun _ => .inl ⟨e, hnow, hcmd⟩⟩
  obtain rfl := Option.some.inj (hnow.symm.trans he')
  exact hdone

lemma sound_fgets (h : w.Sound .asking) {size : ℕ} {r : Option Bytes}
    (hget : w.fgets size r = some w') : w'.Sound (LoopPhase.asking.onFgets r) := by
  have hs : w.Settled := h.holds
  cases r with
  | none =>
    simp only [fgets] at hget
    split at hget
    · rename_i hend
      cases hget
      exact ⟨⟨hs.keeps, fun e he => (hs.now e he).1⟩, h.typed, h.past, h.misuse,
        fun n hn => ⟨(h.signalled n hn).1, le_trans (Nat.le_add_right _ _) (h.signalled n hn).2⟩,
        fun hne => absurd rfl hne, fun _ => .inr (.inl hend)⟩
    · cases hget
  | some raw =>
    simp only [fgets] at hget
    split at hget
    · rename_i hline
      obtain ⟨-, hraw, -⟩ := hline
      cases hget
      refine ⟨⟨⟨hs.keeps.files, hs.keeps.blocks⟩, _, rfl, rfl, rfl, rfl, rfl⟩, ?_, ?_, h.misuse, ?_,
        fun _ => h.running (by simp), by simp⟩
      · have happ : raw ++ (readLine newline (size - 1) w.input).2 = w.input := by
          rw [hraw]
          exact readLine_append _ _
        calc w.typed = w.entries.flatMap Entry.raw ++ w.input := h.typed
          _ = w.entries.flatMap Entry.raw ++ (raw ++ (readLine newline (size - 1) w.input).2) := by
            rw [happ]
          _ = _ := by simp [entries]
      · intro e he
        rcases List.mem_append.1 he with he | he
        · exact h.past e he
        · exact hs.now e (Option.mem_toList.1 he)
      · intro n hn
        obtain ⟨hrun, hle⟩ := h.signalled n hn
        refine ⟨hrun, ?_⟩
        show (w.entries ++ [({ raw := raw } : Entry)]).length + 0 ≤ n + 1
        rw [List.length_append]
        exact hle
    · cases hget

@[simp] lemma raw_now_failed (f : ReadFailure) :
    (w.failed f).now.map Entry.raw = w.now.map Entry.raw := by
  simp [failed, Option.map_map, Function.comp_def]

/-- The file is not read, and the loop gives back what it holds. -/
lemma sound_failed {q' : LoopPhase} {f : ReadFailure} (h : w.Sound q)
    (hholds : q'.Holds (w.failed f)) (hahead : q'.ahead ≤ q.ahead)
    (hended : q ≠ .ended ∧ q' ≠ .ended) : (w.failed f).Sound q' :=
  h.of_eq hholds rfl rfl (raw_now_failed f) rfl h.misuse rfl rfl hahead hended

lemma sound_fopen {path : Bytes} (h : w.Sound (.line (.submit path))) {r : Option File}
    (hopen : w.fopen path r = some w') : w'.Sound (r.elim .top (.opened path)) := by
  obtain ⟨hkeeps, e, hnow, hcmd, hnone, hfailure, hacts⟩ := h.holds
  cases r with
  | none =>
    cases hopen
    have hline := lineDone_failed (f := .fopen path) hnow hcmd hacts ⟨rfl, hnone⟩
    exact sound_failed h (hline.settled ⟨hkeeps.files, hkeeps.blocks⟩) le_rfl (by simp)
  | some f =>
    simp only [fopen] at hopen
    split at hopen
    · obtain ⟨contents, -, rfl⟩ := Option.map_eq_some_iff.1 hopen
      refine h.of_eq ⟨contents, ⟨?_, hkeeps.blocks⟩, { e with opened := some (path, contents) }, ?_,
        hcmd, rfl, hfailure, hacts⟩ rfl rfl ?_ rfl h.misuse rfl rfl le_rfl (by simp)
      · simp only [hkeeps.files, oneFile]
      · simp only [hnow, Option.map_some]
      · simp only [hnow, Option.map_some]
    · cases hopen

/-- The size is that of the contents, where it is used. -/
lemma sound_fileSize {path : Bytes} {f : File} {sz : ℤ} (h : w.Sound (.opened path f))
    (hsize : w.fileSize f sz = some w') :
    w'.Sound (if sz ≤ 0 ∨ (maxFileSize : ℤ) < sz then .closing f else .sized path f sz.toNat) := by
  obtain ⟨contents, hkeeps, hsub⟩ := h.holds
  simp only [fileSize, hkeeps.files, oneFile_self, Option.map_some, Option.some.injEq] at hsize
  split at hsize
  · rename_i hsz
    cases hsize
    split
    · rename_i hbounds
      obtain ⟨e, hnow, hcmd, hopened, -, hacts⟩ := hsub
      have hrefused : e.Refused path (.size sz) :=
        ⟨contents, hopened, hsz.imp_right Eq.symm, hbounds⟩
      exact sound_failed h ⟨contents, ⟨hkeeps.files, hkeeps.blocks⟩,
        lineDone_failed hnow hcmd hacts hrefused⟩ le_rfl (by simp)
    · rename_i hbounds
      have hlen : sz = (contents.length : ℤ) := by omega
      refine h.move ⟨contents, hkeeps, hsub, ?_, ?_⟩ le_rfl (by simp)
      · omega
      · constructor
        · omega
        · omega
  · cases hsize

lemma sound_malloc {path : Bytes} {f : File} {n : ℕ} (h : w.Sound (.sized path f n))
    {r : Option Ptr} (hmalloc : w.malloc r = some w') :
    w'.Sound (r.elim (.closing f) fun p => .alloced path f p n) := by
  obtain ⟨contents, hkeeps, hsub, hn, hdata⟩ := h.holds
  cases r with
  | none =>
    cases hmalloc
    obtain ⟨e, hnow, hcmd, hopened, -, hacts⟩ := hsub
    exact sound_failed h ⟨contents, ⟨hkeeps.files, hkeeps.blocks⟩,
      lineDone_failed hnow hcmd hacts ⟨contents, hopened, hdata⟩⟩ le_rfl (by simp)
  | some p =>
    simp only [malloc] at hmalloc
    split at hmalloc
    · cases hmalloc
    · cases hmalloc
      refine h.of_eq ⟨contents, ⟨hkeeps.files, ?_⟩, hsub, hn, hdata⟩ rfl rfl rfl rfl h.misuse rfl
        rfl le_rfl (by simp)
      simp [hkeeps.blocks]

/-- The data are the contents, where all of them were read. -/
lemma sound_fread {path : Bytes} {f : File} {p : Ptr} {n : ℕ} {bs : Bytes}
    (h : w.Sound (.alloced path f p n)) (hread : w.fread f n bs = some w') :
    w'.Sound (if bs.length ≠ n then .freeing f p else .holding path f p bs) := by
  obtain ⟨contents, hkeeps, hsub, hn, hdata⟩ := h.holds
  simp only [fread, hkeeps.files, oneFile_self, Option.any_some, decide_eq_true_eq] at hread
  split at hread
  · rename_i hbs
    cases hread
    split
    · obtain ⟨e, hnow, hcmd, hopened, -, hacts⟩ := hsub
      exact sound_failed h ⟨contents, ⟨hkeeps.files, hkeeps.blocks⟩,
        lineDone_failed hnow hcmd hacts ⟨contents, hopened, hdata⟩⟩ le_rfl (by simp)
    · rename_i hlen
      rw [hn, List.take_length] at hbs
      obtain rfl : bs = contents := hbs.eq_of_length ((not_not.1 hlen).trans hn)
      exact h.move ⟨hkeeps, hsub, hdata⟩ le_rfl (by simp)
  · cases hread

lemma sound_fclose {f : File} (h : w.Sound (.closing f)) :
    ReplWorld.Sound { w with
      files := Function.update w.files f none, misuse := w.misuse || (w.files f).isNone } .top := by
  obtain ⟨contents, hkeeps, hline⟩ := h.holds
  refine h.of_eq (LineDone.settled hline ⟨?_, hkeeps.blocks⟩) rfl rfl rfl rfl ?_ rfl rfl le_rfl
    (by simp)
  · rw [hkeeps.files, close_oneFile]
  · simp [h.misuse, hkeeps.files]

lemma sound_fclose_data {path : Bytes} {f : File} {p : Ptr} {data : Bytes}
    (h : w.Sound (.holding path f p data)) :
    ReplWorld.Sound { w with
      files := Function.update w.files f none, misuse := w.misuse || (w.files f).isNone }
      (.ready path p data) := by
  obtain ⟨hkeeps, hsub, hdata⟩ := h.holds
  refine h.of_eq ⟨⟨?_, hkeeps.blocks⟩, hsub, hdata⟩ rfl rfl rfl rfl ?_ rfl rfl le_rfl
    (by simp)
  · rw [hkeeps.files, close_oneFile]
  · simp [h.misuse, hkeeps.files]

lemma sound_free {q' : LoopPhase} {p : Ptr} (h : w.Sound q) (hblocks : w.blocks = {p})
    (hholds : w.Keeps w.files {p} → (w.free (some p)).Keeps w.files ∅ → q'.Holds (w.free (some p)))
    (hahead : q'.ahead ≤ q.ahead) (hended : q ≠ .ended ∧ q' ≠ .ended) :
    (w.free (some p)).Sound q' := by
  refine h.of_eq (hholds ⟨rfl, hblocks⟩ ⟨rfl, ?_⟩) rfl rfl rfl rfl ?_ rfl rfl hahead hended
  · simp [free, hblocks]
  · simp [free, h.misuse, hblocks]

@[simp] lemma raw_now_did (a : ReplAct) :
    (w.did a).now.map Entry.raw = w.now.map Entry.raw := by
  simp [did, Option.map_map, Function.comp_def]

lemma sound_did {cmd : Cmd} {a : ReplAct} (h : w.Sound (.line cmd))
    (hdone : ∀ e : Entry, e.cmd = cmd → e.acts = [a] → e.Done) (hcmd : cmd ≠ .quit) :
    (w.did a).Sound .top :=
  h.of_eq (settled_did h.holds hdone hcmd) rfl rfl (raw_now_did a) rfl h.misuse rfl rfl
    (Nat.zero_le _) (by simp)

lemma sound_dispatch {path : Bytes} {p : Ptr} {data : Bytes} (h : w.Sound (.announced path p data))
    (rc : ℤ) : (w.did (.submit (fillTask (basename path) data))).Sound (.ran p rc) := by
  obtain ⟨hkeeps, hsub, hdata⟩ := h.holds
  exact h.of_eq ⟨⟨hkeeps.files, hkeeps.blocks⟩, hsub.did hdata⟩ rfl rfl (raw_now_did _) rfl h.misuse
    rfl rfl le_rfl (by simp)

lemma of_good_ite {P : Prop} [Decidable P] {q : LoopPhase} (h : (if P then q else .bad).Good) :
    P := by
  by_contra hP
  rw [if_neg hP] at h
  exact h

/-- A call that the phase allows. -/
lemma sound_ite {P : Prop} [Decidable P] {q' : LoopPhase} (hgood : (if P then q' else .bad).Good)
    (h : P → w.Sound q') : w.Sound (if P then q' else .bad) := by
  have hP := of_good_ite hgood
  rw [if_pos hP]
  exact h hP

lemma sound_printf {l : ReplLine} (h : w.Sound q) (hgood : (q.onPrintf l).Good) :
    ReplWorld.Sound
      (if l = .usage then w.did .usage else if l = .unknown then w.did .unknown else w)
      (q.onPrintf l) := by
  cases q with
  | checked =>
    obtain rfl := of_good_ite hgood
    exact h.move h.holds le_rfl (by simp)
  | line cmd =>
    cases cmd with
    | usage =>
      obtain rfl := of_good_ite hgood
      refine sound_did h (fun e hcmd hacts => ?_) (by simp)
      rw [Entry.Done, hcmd]
      exact hacts
    | unknown =>
      obtain rfl := of_good_ite hgood
      refine sound_did h (fun e hcmd hacts => ?_) (by simp)
      rw [Entry.Done, hcmd]
      exact hacts
    | _ => exact hgood.elim
  | ready path p data =>
    obtain rfl := of_good_ite hgood
    exact h.move h.holds le_rfl (by simp)
  | ran p rc =>
    obtain rfl := of_good_ite hgood
    simp only [LoopPhase.onPrintf, if_true]
    exact h.move h.holds le_rfl (by simp)
  | _ => exact hgood.elim

/-- One call of the loop. -/
lemma sound_act (h : w.Sound q) (hact : w.act c r = some w') (hgood : (q.step c r).Good) :
    w'.Sound (q.step c r) := by
  cases c with
  | running =>
    simp only [act] at hact
    split at hact
    · rename_i hgo
      cases hact
      cases q with
      | top => exact hgo ▸ sound_running h (by simp) h.holds
      | line cmd =>
        cases cmd with
        | nothing => exact hgo ▸ sound_running h (by simp) (settled_of_nothing h.holds)
        | _ => exact hgood.elim
      | _ => exact hgood.elim
    · cases hact
  | stopRunning =>
    cases hact
    cases q with
    | line cmd =>
      cases cmd with
      | quit => exact sound_stop h
      | _ => exact hgood.elim
    | _ => exact hgood.elim
  | printf l =>
    cases hact
    exact sound_printf h hgood
  | fgets size =>
    cases q with
    | asking => exact sound_fgets h hact
    | _ => exact hgood.elim
  | peerListPrint =>
    cases hact
    cases q with
    | line cmd =>
      cases cmd with
      | peers =>
        refine sound_did h (fun e hcmd hacts => ?_) (by simp)
        rw [Entry.Done, hcmd]
        exact hacts
      | _ => exact hgood.elim
    | _ => exact hgood.elim
  | fopen path =>
    cases q with
    | line cmd =>
      cases cmd with
      | submit path' =>
        refine sound_ite hgood fun heq => ?_
        obtain rfl := heq
        exact sound_fopen h hact
      | _ => exact hgood.elim
    | _ => exact hgood.elim
  | fileSize f =>
    cases q with
    | opened path f' =>
      refine sound_ite hgood fun heq => ?_
      obtain rfl := heq
      exact sound_fileSize h hact
    | _ => exact hgood.elim
  | malloc n =>
    cases q with
    | sized path f n' =>
      refine sound_ite hgood fun heq => ?_
      obtain rfl := heq
      exact sound_malloc h hact
    | _ => exact hgood.elim
  | fread f n =>
    cases q with
    | alloced path f' p n' =>
      refine sound_ite hgood fun heq => ?_
      obtain ⟨rfl, rfl⟩ := heq
      exact sound_fread h hact
    | _ => exact hgood.elim
  | fclose f =>
    cases hact
    cases q with
    | closing f' =>
      refine sound_ite hgood fun heq => ?_
      obtain rfl := heq
      exact sound_fclose h
    | holding path f' p data =>
      refine sound_ite hgood fun heq => ?_
      obtain rfl := heq
      exact sound_fclose_data h
    | _ => exact hgood.elim
  | free x =>
    cases hact
    cases q with
    | freeing f p =>
      refine sound_ite hgood fun heq => ?_
      obtain rfl := heq
      obtain ⟨contents, hkeeps, hline⟩ := h.holds
      exact sound_free h hkeeps.blocks
        (fun _ hk => ⟨contents, ⟨hkeeps.files, hk.blocks⟩, hline⟩) le_rfl (by simp)
    | told p =>
      refine sound_ite hgood fun heq => ?_
      obtain rfl := heq
      obtain ⟨hkeeps, hline⟩ := h.holds
      exact sound_free h hkeeps.blocks
        (fun _ hk => LineDone.settled hline ⟨hkeeps.files, hk.blocks⟩) le_rfl (by simp)
    | _ => exact hgood.elim
  | dispatch task =>
    cases hact
    cases q with
    | announced path p data =>
      refine sound_ite hgood fun heq => ?_
      obtain rfl := heq
      exact sound_dispatch h r
    | _ => exact hgood.elim

end Step

/-! #### What happens around the loop -/

lemma holds_congr (h : q.Holds w) (hfiles : w'.files = w.files) (hblocks : w'.blocks = w.blocks)
    (hnow : w'.now = w.now) : q.Holds w' := by
  have hkeeps {files blocks} (hk : w.Keeps files blocks) : w'.Keeps files blocks :=
    ⟨hfiles.trans hk.files, hblocks.trans hk.blocks⟩
  have hsettled (hs : w.Settled) : w'.Settled := ⟨hkeeps hs.keeps, hnow ▸ hs.now⟩
  have hsub {path contents} (hs : w.Submitting path contents) : w'.Submitting path contents := by
    rw [Submitting, hnow]
    exact hs
  have hline (hs : w.LineDone) : w'.LineDone := by
    rw [LineDone, hnow]
    exact hs
  cases q with
  | top => exact hsettled h
  | checked => exact hsettled h
  | asking => exact hsettled h
  | line cmd => exact ⟨hkeeps h.1, hnow ▸ h.2⟩
  | opened path f => exact h.imp fun _ h => ⟨hkeeps h.1, hsub h.2⟩
  | sized path f n => exact h.imp fun _ h => ⟨hkeeps h.1, hsub h.2.1, h.2.2⟩
  | alloced path f p n => exact h.imp fun _ h => ⟨hkeeps h.1, hsub h.2.1, h.2.2⟩
  | freeing f p => exact h.imp fun _ h => ⟨hkeeps h.1, hline h.2⟩
  | closing f => exact h.imp fun _ h => ⟨hkeeps h.1, hline h.2⟩
  | holding path f p data => exact ⟨hkeeps h.1, hsub h.2.1, h.2.2⟩
  | ready path p data => exact ⟨hkeeps h.1, hsub h.2.1, h.2.2⟩
  | announced path p data => exact ⟨hkeeps h.1, hsub h.2.1, h.2.2⟩
  | ran p rc => exact ⟨hkeeps h.1, hline h.2⟩
  | told p => exact ⟨hkeeps h.1, hline h.2⟩
  | ended => exact ⟨hkeeps h.1, hnow ▸ h.2⟩
  | bad => exact h

lemma ahead_le (q : LoopPhase) : q.ahead ≤ 1 := by
  cases q with
  | checked => exact le_rfl
  | asking => exact le_rfl
  | _ => exact Nat.zero_le _

lemma sound_sigint (h : w.Sound q) :
    ReplWorld.Sound { w with
      running := false, signalled := some (w.signalled.getD w.entries.length) } q := by
  refine ⟨holds_congr h.holds rfl rfl rfl, h.typed, h.past, h.misuse, fun n hn => ⟨rfl, ?_⟩,
    fun _ _ => rfl, fun _ => .inr (.inr rfl)⟩
  obtain rfl := Option.some.inj hn
  cases hsig : w.signalled with
  | none => exact Nat.add_le_add_left (ahead_le q) _
  | some m => exact (h.signalled m hsig).2

lemma sound_typing (h : w.Sound q) (hclosed : w.closed = false) (bs : Bytes) :
    ReplWorld.Sound { w with input := w.input ++ bs, typed := w.typed ++ bs } q := by
  refine ⟨holds_congr h.holds rfl rfl rfl, ?_, h.past, h.misuse, h.signalled, h.running,
    fun hq => ?_⟩
  · show w.typed ++ bs = w.entries.flatMap Entry.raw ++ (w.input ++ bs)
    rw [h.typed, List.append_assoc]
  · rcases h.stopped hq with hquit | hend | hsig
    · exact .inl hquit
    · exact absurd (hclosed.symm.trans hend.2) Bool.false_ne_true
    · exact .inr (.inr hsig)

lemma sound_close (h : w.Sound q) : ReplWorld.Sound { w with closed := true } q := by
  refine ⟨holds_congr h.holds rfl rfl rfl, h.typed, h.past, h.misuse, h.signalled, h.running,
    fun hq => ?_⟩
  rcases h.stopped hq with hquit | hend | hsig
  · exact .inl hquit
  · exact .inr (.inl ⟨hend.1, rfl⟩)
  · exact .inr (.inr hsig)

lemma sound_edit (h : w.Sound q) (disk : Bytes → Option Bytes) :
    ReplWorld.Sound { w with disk := disk } q :=
  ⟨holds_congr h.holds rfl rfl rfl, h.typed, h.past, h.misuse, h.signalled, h.running, h.stopped⟩

lemma sound_start : ReplWorld.Sound {} .top :=
  ⟨⟨⟨rfl, rfl⟩, by simp⟩, rfl, by simp, rfl, by simp, by simp, by simp⟩

end ReplWorld

/-! ### The process -/

namespace NodeProc

variable (port : ℕ) (w : NodeProc)

/-- The worker listens on the port, SIGINT is handled, and the peer table is initialised. -/
structure Served : Prop where
  handler : w.handler = true
  inited : w.inited = true
  listening : ∃ fd, w.socks fd =
    some { kind := .stream, binding := .ofPort port, listening := true }

end NodeProc

open NodeProc in
/-- What is true where the start is. -/
def BootPhase.Holds (port : ℕ) (w : NodeProc) : BootPhase → Prop
  | .begun => True
  | .handled => w.handler = true
  | .inited => w.handler = true ∧ w.inited = true
  | .alloced => w.handler = true ∧ w.inited = true
  | .made fd => w.handler = true ∧ w.inited = true ∧ w.socks fd = some { kind := .stream }
  | .bound fd => w.handler = true ∧ w.inited = true ∧
      w.socks fd = some { kind := .stream, binding := .ofPort port }
  | .listening _ => w.Served port
  | .accepting => w.Served port
  | .datagram _ => w.Served port
  | .threads => w.Served port
  | _ => True

namespace MainPhase

/-- What is true where `main` is. -/
def Holds (port : ℕ) (w : NodeProc) : MainPhase → Prop
  | .boot q => q.Holds port w
  | .repl _ => w.Served port
  | .bye d => w.Served port ∧ ∃ name, d = broadcastPacket msgBye port name
  | .said => w.Served port
  | .gone => w.Served port ∧ w.exited = true
  | _ => False

/-- Where the loop is. -/
def loop : MainPhase → LoopPhase
  | .boot _ => .top
  | .repl q => q
  | _       => .ended

/-- The announcer is not started yet. -/
def Early : MainPhase → Prop
  | .boot .threads => False
  | .boot _        => True
  | _              => False

/-- How many times BYE was sent. -/
def byes : MainPhase → ℕ
  | .said => 1
  | .gone => 1
  | _     => 0

/-- The announcer. -/
def Announces (port : ℕ) : MainPhase → Prop
  | .hello n        => n = port
  | .helloReady n d => n = port ∧ ∃ name, d = broadcastPacket msgHello port name
  | _               => False

end MainPhase

namespace NodeProc

/-- The datagrams of a type that were sent. -/
def sentOf (w : NodeProc) (type : MsgType) : List Bytes := w.wire.filter (headerType · = type)

structure Inv (port : ℕ) (q : MainPhase) (hs : List MainPhase) (w : NodeProc) : Prop where
  main : q.Holds port w
  early : q.Early → hs = [] ∧ w.wire = []
  announcers : ∀ p ∈ hs, p.Announces port
  wire : ∀ d ∈ w.wire, ∃ name, d = broadcastPacket msgHello port name ∨
    d = broadcastPacket msgBye port name
  byes : (w.sentOf msgBye).length = q.byes
  loop : w.repl.Sound q.loop

variable {port : ℕ} {w w' : NodeProc}

/-! #### The start -/

/-- A step that has nothing to do with the command loop and sends nothing. -/
structure Still (w w' : NodeProc) : Prop where
  repl : w'.repl = w.repl
  wire : w'.wire = w.wire

lemma Served.update (h : w.Served port) {fd : Fd} (hfd : w.socks fd = none) (s : Option SockState) :
    NodeProc.Served port { w with socks := Function.update w.socks fd s } := by
  obtain ⟨fd', hlisten⟩ := h.listening
  refine ⟨h.handler, h.inited, fd', ?_⟩
  have hne : fd' ≠ fd := by
    rintro rfl
    rw [hfd] at hlisten
    cases hlisten
  exact (Function.update_of_ne hne _ _).trans hlisten

/-- What a step says that has a guard. -/
lemma of_ite_none {α : Type} {x y : α} {P : Prop} [Decidable P]
    (hstep : (if P then some x else none) = some y) : P ∧ x = y := by
  rwa [Option.ite_none_right_eq_some, Option.some.injEq] at hstep

/-- The listening socket is made, or the one for the datagrams. -/
lemma boot_socket {q q' : BootPhase} {kind : SockKind} {fd : Fd} (h : q.Holds port w)
    (hact : w.sockAct (.socket kind) fd = some w') (hq : q.onSocket kind fd = some q') :
    q'.Holds port w' ∧ Still w w' := by
  by_cases hr : fd < 0
  · simp only [sockAct, if_pos hr] at hact
    cases hact
    cases q with
    | alloced =>
      obtain ⟨-, rfl⟩ := of_ite_none hq
      rw [if_pos hr]
      exact ⟨trivial, rfl, rfl⟩
    | accepting =>
      obtain ⟨-, rfl⟩ := of_ite_none hq
      rw [if_pos hr]
      exact ⟨trivial, rfl, rfl⟩
    | _ => cases hq
  · simp only [sockAct, if_neg hr] at hact
    obtain ⟨hfree, rfl⟩ := of_ite_none hact
    cases q with
    | alloced =>
      obtain ⟨hkind, rfl⟩ := of_ite_none hq
      rw [if_neg hr]
      exact ⟨⟨h.1, h.2, hkind ▸ Function.update_self _ _ _⟩, rfl, rfl⟩
    | accepting =>
      obtain ⟨-, rfl⟩ := of_ite_none hq
      rw [if_neg hr]
      exact ⟨h.update hfree _, rfl, rfl⟩
    | _ => cases hq

/-- The listening socket gets its port. -/
lemma boot_bind {q q' : BootPhase} {fd : Fd} {n : ℕ} {r : ℤ} (h : q.Holds port w)
    (hact : w.sockAct (.bind fd n) r = some w') (hq : q.onBind port fd n r = some q') :
    q'.Holds port w' ∧ Still w w' := by
  cases q with
  | made fd' =>
    obtain ⟨⟨rfl, rfl⟩, rfl⟩ := of_ite_none hq
    simp only [sockAct] at hact
    split at hact
    · rename_i hr
      cases hact
      rw [if_pos hr]
      exact ⟨trivial, rfl, rfl⟩
    · rename_i hr
      rw [h.2.2] at hact
      cases hact
      rw [if_neg hr]
      exact ⟨⟨h.1, h.2.1, Function.update_self _ _ _⟩, rfl, rfl⟩
  | _ => cases hq

lemma boot_sock {q q' : BootPhase} {c : SockCall} {r : c.Ret} (h : q.Holds port w)
    (hact : w.sockAct c r = some w') (hq : q.onSock port c r = some q') :
    q'.Holds port w' ∧ Still w w' := by
  cases c with
  | socket kind => exact boot_socket h hact hq
  | setsockopt fd opt =>
    cases hact
    cases q with
    | made fd' =>
      cases hq
      exact ⟨h, rfl, rfl⟩
    | datagram fd' =>
      cases hq
      exact ⟨h, rfl, rfl⟩
    | _ => cases hq
  | bind fd n => exact boot_bind h hact hq
  | close fd =>
    cases hact
    cases q with
    | failed fd' =>
      obtain ⟨-, rfl⟩ := of_ite_none hq
      exact ⟨trivial, rfl, rfl⟩
    | _ => cases hq
  | _ => cases hq

lemma boot_listen {q q' : BootPhase} {fd : Fd} {backlog : ℕ} {r : ℤ} (h : q.Holds port w)
    (hact : w.act (.listen fd backlog) r = some w') (hq : q.onListen fd r = some q') :
    q'.Holds port w' ∧ Still w w' := by
  cases q with
  | bound fd' =>
    obtain ⟨rfl, rfl⟩ := of_ite_none hq
    simp only [act] at hact
    split at hact
    · rename_i hr
      cases hact
      rw [if_pos hr]
      exact ⟨trivial, rfl, rfl⟩
    · rename_i hr
      rw [h.2.2] at hact
      cases hact
      rw [if_neg hr]
      exact ⟨⟨h.1, h.2.1, fd, Function.update_self _ _ _⟩, rfl, rfl⟩
  | _ => cases hq

lemma boot_start {q q' : BootPhase} {t : NodeThread} (h : q.Holds port w)
    (hq : q.onStart port t = some q') : q'.Holds port w := by
  cases t with
  | acceptLoop fd =>
    cases q with
    | listening fd' =>
      obtain ⟨-, rfl⟩ := of_ite_none hq
      exact h
    | _ => cases hq
  | announcer fd n =>
    cases q with
    | datagram fd' =>
      obtain ⟨-, rfl⟩ := of_ite_none hq
      exact h
    | _ => cases hq
  | _ =>
    cases q with
    | threads =>
      cases hq
      exact h
    | _ => cases hq

lemma exists_of_good {o : Option BootPhase} (h : (MainPhase.ofBoot o).Good) : ∃ q, o = some q := by
  cases o with
  | none => exact h.elim
  | some q => exact ⟨q, rfl⟩

/-- One call of the start. -/
lemma boot_act {q : BootPhase} {c : MainCall} {r : c.Ret} (h : q.Holds port w)
    (hact : w.act c r = some w') (hgood : (MainPhase.bootStep port q c r).Good) :
    (MainPhase.bootStep port q c r).Holds port w' ∧ Still w w' := by
  cases c with
  | signals =>
    cases hact
    cases q with
    | begun => exact ⟨rfl, rfl, rfl⟩
    | _ => exact hgood.elim
  | peerListInit =>
    cases hact
    cases q with
    | handled => exact ⟨⟨h, rfl⟩, rfl, rfl⟩
    | _ => exact hgood.elim
  | mallocFd =>
    cases hact
    cases q with
    | inited =>
      cases r with
      | false => exact ⟨trivial, rfl, rfl⟩
      | true => exact ⟨h, rfl, rfl⟩
    | _ => exact hgood.elim
  | segfault =>
    cases hact
    cases q with
    | begun => exact ⟨trivial, rfl, rfl⟩
    | dying => exact ⟨trivial, rfl, rfl⟩
    | _ => exact hgood.elim
  | sock c =>
    obtain ⟨q', hq'⟩ := exists_of_good hgood
    simp only [MainPhase.bootStep, hq']
    exact boot_sock h hact hq'
  | listen fd backlog =>
    obtain ⟨q', hq'⟩ := exists_of_good hgood
    simp only [MainPhase.bootStep, hq']
    exact boot_listen h hact hq'
  | start t =>
    cases hact
    obtain ⟨q', hq'⟩ := exists_of_good hgood
    simp only [MainPhase.bootStep, hq']
    exact ⟨boot_start h hq', rfl, rfl⟩
  | sleep secs =>
    cases hact
    cases q with
    | threads => exact ⟨h, rfl, rfl⟩
    | _ => exact hgood.elim
  | exit code =>
    cases hact
    cases q with
    | begun => exact ⟨trivial, rfl, rfl⟩
    | dying => exact ⟨trivial, rfl, rfl⟩
    | _ => exact hgood.elim
  | _ => exact hgood.elim

/-! #### The threads -/

/-- The announcer that a call starts. -/
def started : (c : MainCall) → List MainPhase
  | .start (.announcer _ n) => [.hello n]
  | _                       => []

/-- The announcer is started from where nothing was sent. -/
lemma boot_started {q : BootPhase} {c : MainCall} {r : c.Ret}
    (hgood : (MainPhase.bootStep port q c r).Good) {p : MainPhase} (hp : p ∈ started c) :
    (MainPhase.boot q).Early ∧ p = .hello port ∧
      MainPhase.bootStep port q c r = .boot .threads := by
  cases c with
  | start t =>
    cases t with
    | announcer fd n =>
      cases q with
      | datagram fd' =>
        obtain ⟨q', hq'⟩ := exists_of_good hgood
        simp only [MainPhase.bootStep, hq']
        obtain ⟨hn, rfl⟩ := of_ite_none hq'
        rw [started, List.mem_singleton, hn.2] at hp
        exact ⟨trivial, hp, rfl⟩
      | _ => exact hgood.elim
    | _ => cases hp
  | _ => cases hp

/-- Once the threads are started the start does not go back. -/
lemma early_of_bootStep {q : BootPhase} {c : MainCall} {r : c.Ret}
    (h : (MainPhase.bootStep port q c r).Early) : (MainPhase.boot q).Early := by
  cases q with
  | threads =>
    cases c with
    | sock c =>
      cases c with
      | _ => exact h.elim
    | start t =>
      cases t with
      | _ => exact h.elim
    | _ => exact h.elim
  | _ => trivial

lemma loop_bootStep {q : BootPhase} {c : MainCall} {r : c.Ret}
    (hgood : (MainPhase.bootStep port q c r).Good) :
    (MainPhase.bootStep port q c r).loop = .top ∧ (MainPhase.bootStep port q c r).byes = 0 := by
  have hboot {o : Option BootPhase} (ho : (MainPhase.ofBoot o).Good) :
      (MainPhase.ofBoot o).loop = .top ∧ (MainPhase.ofBoot o).byes = 0 := by
    obtain ⟨q', rfl⟩ := exists_of_good ho
    exact ⟨rfl, rfl⟩
  cases c with
  | signals =>
    cases q with
    | begun => exact ⟨rfl, rfl⟩
    | _ => exact hgood.elim
  | peerListInit =>
    cases q with
    | handled => exact ⟨rfl, rfl⟩
    | _ => exact hgood.elim
  | mallocFd =>
    cases q with
    | inited => exact ⟨rfl, rfl⟩
    | _ => exact hgood.elim
  | sleep secs =>
    cases q with
    | threads => exact ⟨rfl, rfl⟩
    | _ => exact hgood.elim
  | repl c => exact hgood.elim
  | bcast c => exact hgood.elim
  | _ => exact hboot hgood

variable {q : MainPhase} {hs : List MainPhase}

lemma inv_boot {b : BootPhase} {c : MainCall} {r : c.Ret} (hinv : Inv port (.boot b) hs w)
    (hact : w.act c r = some w') (hgood : (MainPhase.bootStep port b c r).Good) :
    Inv port (MainPhase.bootStep port b c r) (hs ++ started c) w' := by
  obtain ⟨hholds, hrepl, hwire⟩ := boot_act hinv.main hact hgood
  obtain ⟨hloop, hbyes⟩ := loop_bootStep hgood
  refine ⟨hholds, fun hearly => ?_, fun p hp => ?_, hwire ▸ hinv.wire, ?_, ?_⟩
  · obtain ⟨hs_nil, hw⟩ := hinv.early (early_of_bootStep hearly)
    refine ⟨?_, hwire.trans hw⟩
    rw [hs_nil, List.nil_append, List.eq_nil_iff_forall_not_mem]
    intro p hp
    obtain ⟨-, -, heq⟩ := boot_started hgood hp
    rw [heq] at hearly
    exact hearly
  · rcases List.mem_append.1 hp with hp | hp
    · exact hinv.announcers p hp
    · obtain ⟨-, rfl, -⟩ := boot_started hgood hp
      exact rfl
  · rw [hbyes, sentOf, hwire]
    exact hinv.byes
  · rw [hloop, hrepl]
    exact hinv.loop

/-- What `main` knows of the process but for its command loop. -/
lemma holds_main_congr (h : q.Holds port w) (hhandler : w'.handler = w.handler)
    (hinited : w'.inited = w.inited) (hsocks : w'.socks = w.socks)
    (hexited : w.exited = true → w'.exited = true) : q.Holds port w' := by
  have hserved (hw : w.Served port) : w'.Served port :=
    ⟨hhandler.trans hw.handler, hinited.trans hw.inited, hsocks ▸ hw.listening⟩
  cases q with
  | boot b =>
    cases b with
    | begun => trivial
    | handled => exact hhandler.trans h
    | inited => exact ⟨hhandler.trans h.1, hinited.trans h.2⟩
    | alloced => exact ⟨hhandler.trans h.1, hinited.trans h.2⟩
    | made fd => exact ⟨hhandler.trans h.1, hinited.trans h.2.1, hsocks ▸ h.2.2⟩
    | bound fd => exact ⟨hhandler.trans h.1, hinited.trans h.2.1, hsocks ▸ h.2.2⟩
    | failed fd => trivial
    | dying => trivial
    | dead => trivial
    | _ => exact hserved h
  | repl p => exact hserved h
  | bye d => exact ⟨hserved h.1, h.2⟩
  | said => exact hserved h
  | gone => exact ⟨hserved h.1, hexited h.2⟩
  | _ => exact h

lemma inv_repl {p : LoopPhase} {c : ReplCall} {r : c.Ret} (hinv : Inv port (.repl p) hs w)
    (hact : w.act (.repl c) r = some w') (hgood : (p.step c r).Good) :
    Inv port (.repl (p.step c r)) hs w' := by
  obtain ⟨v, hv, rfl⟩ := Option.map_eq_some_iff.1 hact
  have hserved : w.Served port := hinv.main
  exact ⟨⟨hserved.handler, hserved.inited, hserved.listening⟩, hinv.early, hinv.announcers,
    hinv.wire, hinv.byes, ReplWorld.sound_act hinv.loop hv hgood⟩

lemma length_sentOf_concat (type : MsgType) (d : Bytes) :
    (NodeProc.sentOf { w with wire := w.wire ++ [d] } type).length =
      (w.sentOf type).length + if headerType d = type then 1 else 0 := by
  simp only [sentOf, List.filter_append, List.length_append]
  split
  · rename_i hd
    simp [hd]
  · rename_i hd
    simp [hd]

/-- A datagram that the node may send. -/
lemma inv_sendto {q' : MainPhase} {hs' : List MainPhase} {d : Bytes} (hinv : Inv port q hs w)
    (hmain : q'.Holds port w) (hearly : ¬ q'.Early) (hloop : q'.loop = q.loop)
    (hannounce : ∀ p ∈ hs', p.Announces port)
    (hd : ∃ name, d = broadcastPacket msgHello port name ∨ d = broadcastPacket msgBye port name)
    (hbyes : q'.byes = q.byes + if headerType d = msgBye then 1 else 0) :
    Inv port q' hs' { w with wire := w.wire ++ [d] } := by
  refine ⟨holds_main_congr hmain rfl rfl rfl id, fun h => absurd h hearly, hannounce,
    fun d' hd' => ?_, ?_, hloop ▸ hinv.loop⟩
  · rcases List.mem_append.1 hd' with hd' | hd'
    · exact hinv.wire d' hd'
    · rw [List.mem_singleton.1 hd']
      exact hd
  · rw [length_sentOf_concat, hinv.byes, hbyes]

/-- The end of `main`. -/
lemma inv_bcast {c : BcastCall} {r : c.Ret} (hinv : Inv port q hs w)
    (hact : w.bcastAct c r = some w') (hgood : (q.bcastStep port c r).Good) :
    Inv port (q.bcastStep port c r) hs w' := by
  cases q with
  | repl p =>
    cases c with
    | gethostname =>
      cases hact
      cases p with
      | ended =>
        exact ⟨⟨hinv.main, r, rfl⟩, False.elim, hinv.announcers, hinv.wire, hinv.byes, hinv.loop⟩
      | _ => exact hgood.elim
    | _ =>
      cases p with
      | _ => exact hgood.elim
  | bye d =>
    cases c with
    | sendto fd dst data =>
      cases hact
      simp only [MainPhase.bcastStep] at hgood ⊢
      split at hgood
      · rename_i hdata
        rw [if_pos hdata, hdata]
        obtain ⟨hserved, name, rfl⟩ := hinv.main
        have hmain : MainPhase.said.Holds port w := hserved
        exact inv_sendto hinv hmain id rfl hinv.announcers ⟨name, .inr rfl⟩ rfl
      · exact hgood.elim
    | _ => exact hgood.elim
  | said =>
    cases c with
    | exit =>
      cases hact
      exact ⟨⟨⟨hinv.main.handler, hinv.main.inited, hinv.main.listening⟩, rfl⟩, False.elim,
        hinv.announcers, hinv.wire, hinv.byes, hinv.loop⟩
    | _ => exact hgood.elim
  | boot b => cases c with
    | _ => exact hgood.elim
  | gone => cases c with
    | _ => exact hgood.elim
  | hello n => exact hinv.main.elim
  | helloReady n d => exact hinv.main.elim
  | bad => exact hinv.main.elim

/-- One call of `main`. -/
lemma inv_main {c : MainCall} {r : c.Ret} (hinv : Inv port q hs w) (hcall : w.call 0 c r = some w')
    (hgood : (q.step port c r).Good) : Inv port (q.step port c r) (hs ++ started c) w' := by
  rw [call] at hcall
  split at hcall
  · cases hcall
  cases q with
  | boot b => exact inv_boot hinv hcall hgood
  | repl p =>
    cases c with
    | repl c => exact (List.append_nil hs).symm ▸ inv_repl hinv hcall hgood
    | bcast c => exact (List.append_nil hs).symm ▸ inv_bcast hinv hcall hgood
    | _ => exact hgood.elim
  | hello n => exact hinv.main.elim
  | helloReady n d => exact hinv.main.elim
  | bad => exact hinv.main.elim
  | _ =>
    cases c with
    | bcast c => exact (List.append_nil hs).symm ▸ inv_bcast hinv hcall hgood
    | _ => exact hgood.elim

lemma announces_set {i : ℕ} {p' : MainPhase} (h : ∀ p ∈ hs, p.Announces port)
    (hp' : p'.Announces port) : ∀ p ∈ hs.set i p', p.Announces port := by
  intro p hp
  rcases List.mem_or_eq_of_mem_set hp with hp | rfl
  · exact h p hp
  · exact hp'

/-- One call of the announcer. -/
lemma inv_announcer {i : ℕ} {p : MainPhase} {c : MainCall} {r : c.Ret} (hinv : Inv port q hs w)
    (hp : hs[i]? = some p) (hcall : w.call (i + 1) c r = some w')
    (hgood : (p.step port c r).Good) :
    Inv port q (hs.set i (p.step port c r)) w' ∧ started c = [] := by
  have hann := hinv.announcers p (List.mem_of_getElem? hp)
  have hearly : ¬ q.Early := by
    intro h
    rw [(hinv.early h).1] at hp
    cases hp
  have hstill {p' : MainPhase} (hp' : p'.Announces port) : Inv port q (hs.set i p') w :=
    ⟨hinv.main, fun h => absurd h hearly, announces_set hinv.announcers hp', hinv.wire, hinv.byes,
      hinv.loop⟩
  rw [call] at hcall
  split at hcall
  · cases hcall
  cases p with
  | hello n =>
    obtain rfl : n = port := hann
    cases c with
    | bcast c =>
      refine ⟨?_, rfl⟩
      cases c with
      | gethostname =>
        cases hcall
        exact hstill ⟨rfl, r, rfl⟩
      | sleep secs =>
        cases hcall
        exact hstill rfl
      | _ => exact hgood.elim
    | _ => exact hgood.elim
  | helloReady n d =>
    obtain ⟨rfl, name, hd⟩ := hann
    cases c with
    | bcast c =>
      refine ⟨?_, rfl⟩
      cases c with
      | sendto fd dst data =>
        cases hcall
        simp only [MainPhase.step, MainPhase.bcastStep] at hgood ⊢
        split at hgood
        · rename_i hdata
          rw [if_pos hdata, hdata, hd]
          exact inv_sendto hinv hinv.main hearly rfl (announces_set hinv.announcers rfl)
            ⟨name, .inl rfl⟩ rfl
        · exact hgood.elim
      | _ => exact hgood.elim
    | _ => exact hgood.elim
  | _ => exact hann.elim

lemma inv_env {e : ProcEvent} (hinv : Inv port q hs w) (henv : w.env e = some w') :
    Inv port q hs w' := by
  cases e with
  | sigint =>
    simp only [env] at henv
    split at henv
    · cases henv
      exact ⟨holds_main_congr hinv.main rfl rfl rfl id, hinv.early, hinv.announcers, hinv.wire,
        hinv.byes, ReplWorld.sound_sigint hinv.loop⟩
    · cases henv
      exact ⟨holds_main_congr hinv.main rfl rfl rfl fun _ => rfl, hinv.early, hinv.announcers,
        hinv.wire, hinv.byes, hinv.loop⟩
  | typing bs =>
    simp only [env] at henv
    split at henv
    · cases henv
    · rename_i hclosed
      cases henv
      exact ⟨holds_main_congr hinv.main rfl rfl rfl id, hinv.early, hinv.announcers, hinv.wire,
        hinv.byes, ReplWorld.sound_typing hinv.loop (Bool.eq_false_iff.2 hclosed) bs⟩
  | close =>
    cases henv
    exact ⟨holds_main_congr hinv.main rfl rfl rfl id, hinv.early, hinv.announcers, hinv.wire,
      hinv.byes, ReplWorld.sound_close hinv.loop⟩
  | edit path contents =>
    cases henv
    exact ⟨holds_main_congr hinv.main rfl rfl rfl id, hinv.early, hinv.announcers, hinv.wire,
      hinv.byes, ReplWorld.sound_edit hinv.loop _⟩

/-! ### Every run -/

variable {ret : ℤ} {ifap : List IfAddr} {rounds : ℕ} {args : List Bytes}

/-- The threads obey their automata, and the invariant holds. -/
def outline (port rounds : ℕ) : Conc.Outline (sys rounds) Conc.anyMove MainPhase where
  auto := MainPhase.auto port
  good := MainPhase.Good
  fin := MainPhase.Fin
  fresh := fun c _ => (started c).headD .bad
  inv := fun qs w => ∃ q hs, qs = q :: hs ∧ Inv port q hs w
  spawned := by
    intro c r p hp
    cases c with
    | start t =>
      cases t with
      | announcer fd n =>
        cases hp
        exact MainPhase.always_announcerThread fd n rounds
      | _ => cases hp
    | _ => cases hp
  call := by
    rintro _ w i p c r w' ⟨q, hs, rfl, hinv⟩ hi - - hw
    have hspawn : (((sys rounds).spawn c r).map fun _ => (started c).headD .bad).toList =
        started c := by
      cases c with
      | start t =>
        cases t with
        | _ => rfl
      | _ => rfl
    refine ⟨p.step port c r, rfl, fun hgood => ?_⟩
    rw [hspawn]
    match i with
    | 0 =>
      obtain rfl : q = p := by simpa using hi
      exact ⟨_, _, rfl, inv_main hinv hw hgood⟩
    | i + 1 =>
      have hp : hs[i]? = some p := by simpa using hi
      obtain ⟨hinv', hnone⟩ := inv_announcer hinv hp hw hgood
      rw [hnone, List.append_nil]
      exact ⟨q, _, rfl, hinv'⟩
  env := by
    rintro _ w e w' ⟨q, hs, rfl, hinv⟩ - hw
    exact ⟨q, hs, rfl, inv_env hinv hw⟩

variable {s : Conf MainCall MainCall.Ret NodeProc}

/-- In every run `main` is somewhere, and the invariant holds there. -/
lemma exists_inv (hr : (sys rounds).Reach Conc.anyMove (start ret ifap rounds args) s)
    (hport : ∀ x, parseArgs defaultWorkerPort none args = .ok x → x.1 = port) : ∃ q hs,
      List.Forall₂ (fun p q => p.Always (MainPhase.auto port) MainPhase.Good
        (fun _ => MainPhase.Fin) q) s.threads (q :: hs) ∧ Inv port q hs s.world := by
  have hstart : (outline port rounds).Holds (start ret ifap rounds args) [.boot .begun] :=
    ⟨.cons (MainPhase.always_nodeMain ret ifap rounds hport) .nil, _, _, rfl,
      ⟨trivial, fun _ => ⟨rfl, rfl⟩, List.forall_mem_nil _, List.forall_mem_nil _, rfl,
        ReplWorld.sound_start⟩⟩
  obtain ⟨qs, hthreads, q, hs, rfl, hinv⟩ := (outline port rounds).reach hstart hr
  exact ⟨q, hs, hthreads, hinv⟩

lemma port_of_args {iface : Option Bytes}
    (hargs : parseArgs defaultWorkerPort none args = .ok (port, iface)) :
    ∀ x, parseArgs defaultWorkerPort none args = .ok x → x.1 = port := by
  intro x hx
  rw [hargs] at hx
  rw [← Except.ok.inj hx]

lemma served_of_holds {q : MainPhase} (h : q.Holds port w) (hearly : ¬ q.Early) :
    w.Served port := by
  cases q with
  | boot b =>
    cases b with
    | threads => exact h
    | _ => exact absurd trivial hearly
  | repl p => exact h
  | bye d => exact h.1
  | said => exact h
  | gone => exact h.1
  | _ => exact h.elim

/-- A node without arguments starts, and says HELLO. -/
def bootMoves : List (Move MainCall MainCall.Ret ProcEvent) :=
  [.call 0 .signals (), .call 0 .peerListInit (), .call 0 .mallocFd true,
    .call 0 (.sock (.socket .stream)) (3 : ℤ), .call 0 (.sock (.setsockopt 3 .reuseaddr)) (),
    .call 0 (.sock (.setsockopt 3 .reuseport)) (), .call 0 (.sock (.bind 3 7777)) (0 : ℤ),
    .call 0 (.listen 3 serverBacklog) (0 : ℤ), .call 0 (.start (.acceptLoop 3)) (),
    .call 0 (.sock (.socket .dgram)) (4 : ℤ), .call 0 (.sock (.setsockopt 4 .broadcast)) (),
    .call 0 (.sock (.setsockopt 4 .reuseaddr)) (), .call 0 (.sock (.setsockopt 4 .reuseport)) (),
    .call 0 (.start (.announcer 4 7777)) (),
    .call 0 (.start (.listener (discoveryLocalIp (mainLocalIp 0 [] none)))) (),
    .call 0 (.start .reaper) (), .call 0 (.start .loadResponder) (), .call 0 (.sleep 2) (),
    .call 1 (.bcast .gethostname) ([104] : Bytes),
    .call 1 (.bcast (.sendto 4 ⟨inaddrBroadcast, discoveryPort⟩
      (broadcastPacket msgHello 7777 [104]))) ()]

/-- SIGINT comes while the loop waits; one more line is carried out, then the node says BYE. -/
def leaveMoves : List (Move MainCall MainCall.Ret ProcEvent) :=
  [.env .sigint, .env (.typing (cmdPeers ++ [newline])),
    .call 0 (.repl (.fgets lineSize)) (some (cmdPeers ++ [newline])),
    .call 0 (.repl .peerListPrint) (), .call 0 (.repl .running) false,
    .call 0 (.bcast .gethostname) ([104] : Bytes),
    .call 0 (.bcast (.sendto 4 ⟨inaddrBroadcast, discoveryPort⟩
      (broadcastPacket msgBye 7777 [104]))) ()]

/-- Every HELLO of a node tells the port that its arguments give it; and from the first one on the
worker listens on this port, or on one that the kernel picked where it is 0. -/
theorem hello_while_listening
    (hr : (sys rounds).Reach Conc.anyMove (start ret ifap rounds args) s) {port : ℕ}
    {iface : Option Bytes} (hargs : parseArgs defaultWorkerPort none args = .ok (port, iface))
    {d : Bytes} (hd : d ∈ s.world.wire) (htype : headerType d = msgHello) :
    (∃ name, d = broadcastPacket msgHello port name) ∧ s.world.Served port := by
  obtain ⟨q, hs, -, hinv⟩ := exists_inv hr (port_of_args hargs)
  refine ⟨?_, ?_⟩
  · obtain ⟨name, rfl | rfl⟩ := hinv.wire d hd
    · exact ⟨name, rfl⟩
    · rw [headerType_broadcastPacket] at htype
      exact absurd htype (by decide)
  · have hearly : ¬ q.Early := fun h => by
      rw [(hinv.early h).2] at hd
      cases hd
    exact served_of_holds hinv.main hearly

theorem hello_while_listening_one : ∃ s,
    (sys 3).Reach Conc.anyMove (start 0 [] 3 []) s ∧
      (∃ name, broadcastPacket msgHello 7777 [104] = broadcastPacket msgHello 7777 name) ∧
        s.world.Served 7777 := by
  have hplay : (((sys 3).play Conc.anyMove bootMoves (start 0 [] 3 [])).map
      fun s => s.world.wire) = some [broadcastPacket msgHello 7777 [104]] := by
    decide +kernel
  obtain ⟨s, hr, hwire⟩ := Conc.exists_reach_of_play _ hplay
  have hd : broadcastPacket msgHello 7777 [104] ∈ s.world.wire := by
    rw [hwire]
    exact List.mem_singleton_self _
  exact ⟨s, hr, @hello_while_listening _ _ _ _ _ hr _ none rfl _ hd rfl⟩

end NodeProc
end P2PNode
