import P2PNode.Web.Dashboard

/-!
# Message boundaries

The dashboard parses each message of type `output` by itself, and at the end all of them with a
newline behind each. What it shows does not depend on where the output was cut if and only if the
output holds no exit code, and nothing that would be a peer with newlines put into it.
-/

namespace P2PNode

open Regex Js

/-! ### Splitting a text -/

/-- The messages carry the text. -/
def IsSplit (t : PyStr) (lines : List PyStr) : Prop := lines.flatten = t ∧ ∀ l ∈ lines, l ≠ []

/-- The texts of the messages, each with a newline. -/
def joined (lines : List PyStr) : PyStr := lines.flatMap fun l => l ++ [newlineChar]

lemma joined_drops (lines : List PyStr) : Drops newlineChar (joined lines) lines.flatten := by
  induction lines with
  | nil => exact .nil
  | cons l lines ih =>
    have hl := (Drops.refl newlineChar l).append (Drops.drop .nil)
    rw [List.append_nil] at hl
    exact hl.append ih

namespace Dashboard

/-- The messages `output` for the lines, and the message `done`. -/
def receive (d : Dashboard) (kind : PyStr) (lines : List PyStr) : Dashboard :=
  (lines.map (BridgeMsg.output kind) ++ [BridgeMsg.done kind]).foldl onMessage d

/-- The same exit code and the same peers. -/
def SameView (d d' : Dashboard) : Prop := d.statExit = d'.statExit ∧ d.peers = d'.peers

/-- A page in the state `d` shows the same for every two ways of splitting the text. -/
def Independent (d : Dashboard) (t : PyStr) : Prop :=
  ∀ kind lines lines', IsSplit t lines → IsSplit t lines' →
    SameView (d.receive kind lines) (d.receive kind lines')

end Dashboard

/-! ### What a message changes -/

lemma tryParseExitCode_of_not_occurs {line : PyStr} (h : ¬ exitRegex.Occurs line)
    (statExit : Option ExtRat) : tryParseExitCode line statExit = statExit := by
  rw [← isSome_find_iff, Option.not_isSome_iff_eq_none] at h
  rw [tryParseExitCode, h]

lemma parsePeersOutput_of_not_occurs {raw : PyStr} (h : ¬ peerRegex.Occurs raw) (peers : Peers) :
    parsePeersOutput raw peers = peers := by
  rw [← matchAll_ne_nil_iff minLength_peerRegex, not_not] at h
  rw [parsePeersOutput, h]
  rfl

/-- An entry stays. -/
lemma parsePeersOutput_of_occurs {raw : PyStr} (h : peerRegex.Occurs raw) (peers : Peers) :
    parsePeersOutput raw peers ≠ noPeers := by
  rw [← matchAll_ne_nil_iff minLength_peerRegex] at h
  have hne : (matchAll peerRegex raw).map matchEntry ≠ [] := by simpa using h
  obtain ⟨es, e, hes⟩ := (List.eq_nil_or_concat _).resolve_left hne
  intro heq
  have hkey := congrFun heq (peerKey e.ip e.port)
  rw [parsePeersOutput, hes, List.concat_eq_append, List.foldl_append] at hkey
  simp [putPeer, noPeers] at hkey

namespace Dashboard

lemma onOutput_pendingOutput (d : Dashboard) (line : PyStr) :
    (d.onOutput line).pendingOutput = d.pendingOutput ++ (line ++ [newlineChar]) := rfl

lemma onOutput_of_not_occurs (d : Dashboard) {line : PyStr} (hexit : ¬ exitRegex.Occurs line)
    (hpeer : ¬ peerRegex.Occurs line) : SameView (d.onOutput line) d := by
  refine ⟨tryParseExitCode_of_not_occurs hexit _, ?_⟩
  rw [onOutput, parsePeersOutput_of_not_occurs hpeer, ite_self]

lemma onDone_of_not_occurs (d : Dashboard) (h : ¬ peerRegex.Occurs d.pendingOutput) :
    SameView d.onDone d := by
  refine ⟨rfl, ?_⟩
  rw [onDone, parsePeersOutput_of_not_occurs h, ite_self]

lemma foldl_pendingOutput (d : Dashboard) (kind : PyStr) (lines : List PyStr) :
    ((lines.map (BridgeMsg.output kind)).foldl onMessage d).pendingOutput =
      d.pendingOutput ++ joined lines := by
  induction lines generalizing d with
  | nil => simp [joined]
  | cons l lines ih =>
    rw [List.map_cons, List.foldl_cons, ih, onMessage, onOutput_pendingOutput, List.append_assoc]
    rfl

lemma SameView.trans {d d' d'' : Dashboard} (h : SameView d d') (h' : SameView d' d'') :
    SameView d d'' := ⟨h.1.trans h'.1, h.2.trans h'.2⟩

lemma SameView.symm {d d' : Dashboard} (h : SameView d d') : SameView d' d := ⟨h.1.symm, h.2.symm⟩

lemma foldl_of_not_occurs (d : Dashboard) (kind : PyStr) {lines : List PyStr}
    (hexit : ∀ l ∈ lines, ¬ exitRegex.Occurs l) (hpeer : ∀ l ∈ lines, ¬ peerRegex.Occurs l) :
    SameView ((lines.map (BridgeMsg.output kind)).foldl onMessage d) d := by
  induction lines generalizing d with
  | nil => exact ⟨rfl, rfl⟩
  | cons l lines ih =>
    have hl := d.onOutput_of_not_occurs (hexit l List.mem_cons_self) (hpeer l List.mem_cons_self)
    have hlines := ih (d.onOutput l) (fun l hl => hexit l (List.mem_cons_of_mem _ hl))
      fun l hl => hpeer l (List.mem_cons_of_mem _ hl)
    exact hlines.trans hl

lemma receive_eq (d : Dashboard) (kind : PyStr) (lines : List PyStr) :
    d.receive kind lines = ((lines.map (BridgeMsg.output kind)).foldl onMessage d).onDone := by
  rw [receive, List.foldl_append]
  rfl

/-- Output without exit codes and peers changes nothing. -/
lemma receive_of_not_occurs {d : Dashboard} (kind : PyStr) {lines : List PyStr}
    (hexit : ∀ l ∈ lines, ¬ exitRegex.Occurs l) (hpeer : ∀ l ∈ lines, ¬ peerRegex.Occurs l)
    (hjoined : ¬ peerRegex.Occurs (d.pendingOutput ++ joined lines)) :
    SameView (d.receive kind lines) d := by
  rw [receive_eq]
  rw [← foldl_pendingOutput d kind lines] at hjoined
  exact (onDone_of_not_occurs _ hjoined).trans (d.foldl_of_not_occurs kind hexit hpeer)

end Dashboard

/-! ### Peers over boundaries -/

/-- `peerRegex` without the blanks that it needs:
`((?:\d{1,3}\.){3}\d{1,3})[\s:]*(\d+)\s*(?:load=)?\s*([\d.]+)\s*%?\s*(?:tasks=)?\s*(\d+)?`. -/
def loosePeerRegex : Regex CodePoint :=
  seqs [group 1 dottedRegex, many isSpaceColon 0 none, group 2 (many isDigit 1 none),
    many isSpace 0 none, opt (wordCase ['l', 'o', 'a', 'd', '=']), many isSpace 0 none,
    group 3 (many isDigitDot 1 none), many isSpace 0 none, many (lit '%') 0 (some 1),
    many isSpace 0 none, opt (wordCase ['t', 'a', 's', 'k', 's', '=']), many isSpace 0 none,
    opt (group 4 (many isDigit 1 none))]

lemma loosen_peerRegex : peerRegex.loosen newlineChar = loosePeerRegex := by
  have hdigit : isDigit newlineChar = false := by decide
  have hspace : isSpace newlineChar = true := by decide
  have hdot : lit '.' newlineChar = false := by decide
  simp [peerRegex, loosePeerRegex, dottedRegex, wordCase, word, seqs, one, loosen, isSpaceColon,
    isDigitDot, hdigit, hspace, hdot]
  decide

/-- Where a peer is found, an address is. -/
lemma occurs_addrRegex {s : PyStr} (h : peerRegex.Occurs s) : addrRegex.Occurs s := by
  have hmany {p : CodePoint → Bool} {hi : Option ℕ} {w : PyStr} (hw : (many p 1 hi).Lang w) :
      (many p 1 none).Lang w := ⟨hw.1, hw.2.1, nofun⟩
  obtain ⟨a, _, b, rfl, ip, _, rfl, hip, sep, _, rfl, hsep, port, rest, rfl, hport, -⟩ := h
  have hip : (seqs [many isDigit 1 none, one (lit '.'), many isDigit 1 none, one (lit '.'),
      many isDigit 1 none, one (lit '.'), many isDigit 1 none]).Lang ip := by
    refine Lang.mono_seqs hip ?_
    simp only [List.forall₂_cons, List.forall₂_nil_left_iff, and_true]
    exact ⟨fun _ => hmany, fun _ => id, fun _ => hmany, fun _ => id, fun _ => hmany, fun _ => id,
      fun _ => hmany⟩
  have hrest : (seqs [many isSpaceColon 1 none, many isDigit 1 none]).Lang (sep ++ (port ++ [])) :=
    ⟨sep, _, rfl, hsep, port, [], rfl, hport, rfl⟩
  have haddr := lang_seqs_append.2 ⟨ip, _, rfl, hip, hrest⟩
  refine ⟨a, _, rest ++ b, ?_, haddr⟩
  simp

/-- A text that would be a peer with newlines put into it can be split so that it is one. -/
lemma exists_split_occurs {t : PyStr} (h : loosePeerRegex.Occurs t) :
    ∃ lines, IsSplit t lines ∧ peerRegex.Occurs (joined lines) := by
  obtain ⟨a, _, b, rfl, ip, _, rfl, hip, sep, _, rfl, hsep, port, _, rfl, hport, gap, _, rfl, hgap,
    word, _, rfl, hword, space, _, rfl, hspace, load, tail, rfl, hload, -⟩ := h
  have hip_ne : ip ≠ [] := List.ne_nil_of_length_pos
    ((by decide +kernel : 0 < dottedRegex.minLength).trans_le (Lang.minLength_le hip))
  have hport_ne : port ≠ [] := List.ne_nil_of_length_pos hport.2.1
  have hload_ne : load ≠ [] := List.ne_nil_of_length_pos hload.2.1
  have hsep' : (many isSpaceColon 1 none).Lang (newlineChar :: sep) :=
    ⟨by simpa using ⟨by decide, hsep.1⟩, by simp, nofun⟩
  have hgap' : (many isSpace 1 none).Lang (newlineChar :: gap) :=
    ⟨by simpa using ⟨by decide, hgap.1⟩, by simp, nofun⟩
  have hnil (p : CodePoint → Bool) (hi : Option ℕ) : (many p 0 hi).Lang [] :=
    ⟨nofun, Nat.le_refl _, fun _ _ => Nat.zero_le _⟩
  have hpeer : peerRegex.Lang (ip ++ ((newlineChar :: sep) ++ (port ++ ((newlineChar :: gap) ++
      (word ++ (space ++ (load ++ [])))))) ) :=
    ⟨ip, _, rfl, hip, _, _, rfl, hsep', port, _, rfl, hport, _, _, rfl, hgap', word, _, rfl, hword,
      space, _, rfl, hspace, load, [], rfl, hload, [], [], rfl, hnil _ _, [], [], rfl, hnil _ _,
      [], [], rfl, hnil _ _, [], [], rfl, .inr rfl, [], [], rfl, hnil _ _, [], [], rfl, .inr rfl,
      rfl⟩
  refine ⟨[a ++ ip, sep ++ port, gap ++ (word ++ (space ++ (load ++ (tail ++ b))))], ⟨?_, ?_⟩, a, _,
    tail ++ (b ++ [newlineChar]), ?_, hpeer⟩
  · simp
  · simp [hip_ne, hport_ne, hload_ne]
  · simp [joined]

/-- The text in messages of one character. -/
def characters (t : PyStr) : List PyStr := t.map fun c => [c]

lemma isSplit_characters (t : PyStr) : IsSplit t (characters t) := by
  constructor
  · induction t with
    | nil => rfl
    | cons c t ih => exact congrArg (c :: ·) ih
  · intro l hl
    obtain ⟨c, -, rfl⟩ := List.mem_map.1 hl
    simp

lemma not_occurs_character {r : Regex CodePoint} (hmin : 1 < r.minLength) (t : PyStr) :
    ∀ l ∈ characters t, ¬ r.Occurs l := by
  intro l hl h
  obtain ⟨c, -, rfl⟩ := List.mem_map.1 hl
  exact absurd (hmin.trans_le h.minLength_le) (by simp)

/-- Of two characters in a row, one is a newline. -/
lemma newline_of_joined_characters {t a v : PyStr} {x y : CodePoint}
    (h : joined (characters t) = a ++ x :: y :: v) : x = newlineChar ∨ y = newlineChar := by
  induction t generalizing a with
  | nil =>
    cases a with
    | nil => cases h
    | cons c a => cases h
  | cons c t ih =>
    have h : c :: newlineChar :: joined (characters t) = a ++ x :: y :: v := h
    cases a with
    | nil => exact .inr (List.cons.inj (List.cons.inj h).2).1.symm
    | cons c' a =>
      have h := (List.cons.inj h).2
      cases a with
      | nil => exact .inl (List.cons.inj h).1.symm
      | cons c'' a => exact ih (List.cons.inj h).2

lemma not_occurs_joined_characters (t : PyStr) : ¬ peerRegex.Occurs (joined (characters t)) := by
  rintro ⟨a, _, b, h, _, _, rfl, ⟨digits, _, rfl, hdigits, dot, _, rfl, hdot, -⟩, -⟩
  have hne : ∀ c ∈ digits ++ dot, c ≠ newlineChar := by
    rintro c hc rfl
    rcases List.mem_append.1 hc with hc | hc
    · exact absurd (hdigits.1 _ hc) (by decide)
    · exact absurd (hdot.1 _ hc) (by decide)
  have hlength : 2 ≤ (digits ++ dot).length := by
    rw [List.length_append]
    exact Nat.add_le_add hdigits.2.1 hdot.2.1
  obtain ⟨x, y, z, hxy⟩ : ∃ x y z, digits ++ dot = x :: y :: z := by
    match digits ++ dot, hlength with
    | x :: y :: z, _ => exact ⟨x, y, z, rfl⟩
  simp only [← List.append_assoc digits, hxy, List.cons_append] at h
  rcases newline_of_joined_characters h with rfl | rfl
  · exact hne _ (by simp [hxy]) rfl
  · exact hne _ (by simp [hxy]) rfl

/-! ### Independence -/

namespace Dashboard

lemma receive_characters (kind t : PyStr) : SameView (receive {} kind (characters t)) {} := by
  apply receive_of_not_occurs kind
  · exact not_occurs_character (by decide +kernel) t
  · exact not_occurs_character (by decide +kernel) t
  · exact not_occurs_joined_characters t

/-- An exit code is shown if the text comes in one message. -/
lemma receive_exit {t : PyStr} (kind : PyStr) (h : exitRegex.Occurs t) :
    (receive {} kind [t]).statExit ≠ none := by
  obtain ⟨m, hm⟩ := Option.isSome_iff_exists.1 (isSome_find_iff.2 h)
  have hexit : (receive {} kind [t]).statExit = tryParseExitCode t none := rfl
  rw [hexit, tryParseExitCode, hm]
  exact Option.some_ne_none _

/-- Peers are shown if they are found in all messages. -/
lemma receive_peers {lines : List PyStr} (d : Dashboard) (kind : PyStr)
    (h : peerRegex.Occurs (d.pendingOutput ++ joined lines)) :
    (d.receive kind lines).peers ≠ noPeers := by
  rw [← foldl_pendingOutput d kind] at h
  rw [receive_eq, onDone]
  simp only [isSome_find_iff.2 (occurs_addrRegex h), if_true]
  exact parsePeersOutput_of_occurs h _

/-- A text without exit codes and without anything like a peer changes nothing, however it is
split. -/
lemma receive_split {d : Dashboard} (hd : d.pendingOutput = []) {t : PyStr}
    (hexit : ¬ exitRegex.Occurs t) (hpeer : ¬ loosePeerRegex.Occurs t) (kind : PyStr)
    {lines : List PyStr} (hlines : IsSplit t lines) : SameView (d.receive kind lines) d := by
  have hpart {r : Regex CodePoint} (hr : ¬ r.Occurs t) : ∀ l ∈ lines, ¬ r.Occurs l := by
    intro l hl h
    obtain ⟨xs, ys, rfl⟩ := List.append_of_mem hl
    refine hr ?_
    have hocc := h.append (a := xs.flatten) (b := ys.flatten)
    rwa [← hlines.1, List.flatten_append, List.flatten_cons]
  have hloose {s : PyStr} (hs : Drops newlineChar s t) : ¬ peerRegex.Occurs s := by
    intro h
    have hocc := h.loosen hs
    rw [loosen_peerRegex] at hocc
    exact hpeer hocc
  refine receive_of_not_occurs kind (hpart hexit) (hpart (hloose (Drops.refl _ t))) ?_
  rw [hd, List.nil_append]
  apply hloose
  have hdrops := joined_drops lines
  rwa [hlines.1] at hdrops

/-- What a page that has just been loaded shows for a text does not depend on how the text is split
into messages if and only if the text has no exit code and nothing that would be a peer with
newlines put into it. What such a text changes on any page does not depend on it either. -/
theorem independent_iff (t : PyStr) :
    (Independent {} t ↔ ¬ exitRegex.Occurs t ∧ ¬ loosePeerRegex.Occurs t) ∧
      (Independent {} t → ∀ d : Dashboard, d.pendingOutput = [] → Independent d t) := by
  have hiff : Independent {} t ↔ ¬ exitRegex.Occurs t ∧ ¬ loosePeerRegex.Occurs t := by
    constructor
    · intro h
      have hchars := receive_characters [] t
      constructor
      · intro hexit
        have hne : t ≠ [] := by
          rintro rfl
          exact absurd hexit.minLength_le (by decide +kernel)
        have hsame := h [] [t] _ ⟨by simp, by simpa using hne⟩ (isSplit_characters t)
        exact receive_exit [] hexit (hsame.trans hchars).1
      · intro hpeer
        obtain ⟨lines, hlines, hocc⟩ := exists_split_occurs hpeer
        have hsame := h [] lines _ hlines (isSplit_characters t)
        exact receive_peers {} [] hocc (hsame.trans hchars).2
    · rintro ⟨hexit, hpeer⟩ kind lines lines' hlines hlines'
      exact (receive_split rfl hexit hpeer kind hlines).trans
        (receive_split rfl hexit hpeer kind hlines').symm
  refine ⟨hiff, ?_⟩
  intro h d hd kind lines lines' hlines hlines'
  obtain ⟨hexit, hpeer⟩ := hiff.1 h
  exact (receive_split hd hexit hpeer kind hlines).trans
    (receive_split hd hexit hpeer kind hlines').symm

/-- The text `exit code: 0`. -/
def exitText : PyStr :=
  PyStr.ofChars ['e', 'x', 'i', 't', ' ', 'c', 'o', 'd', 'e', ':', ' ', '0']

/-- The exit code is shown, or it is not. -/
theorem not_independent_exitText : ¬ Independent {} exitText := by
  intro h
  have hsame := h [] [exitText] [exitText.take 4, exitText.drop 4]
    ⟨by decide, by decide⟩ ⟨by decide, by decide⟩
  have hexit := hsame.1
  revert hexit
  decide +kernel

end Dashboard


end P2PNode
