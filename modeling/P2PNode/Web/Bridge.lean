import Mathlib.Data.List.DropRight
import P2PNode.Lib.Prog
import P2PNode.Lib.Utf8
import P2PNode.Net.Common

/-!
# The web bridge (`web/server.py`)

`ws_handler` for one message, as a program: a command goes to the standard input of the node as a
line, an uploaded file is saved and a `submit` line for it written. The strings are those of Python,
lists of code points.
-/

namespace P2PNode

open Effect

/-! ### Strings -/

/-- A code point, surrogates included. -/
abbrev CodePoint := Fin 0x110000

/-- A `str`. -/
abbrev PyStr := List CodePoint

namespace PyStr

/-- The string of the given characters. -/
def ofChars (cs : List Char) : PyStr := cs.map fun c => Fin.ofNat 0x110000 c.toNat

/-- `str.isspace` of one character. -/
def isSpace (c : CodePoint) : Bool :=
  decide (9 ≤ c.val ∧ c.val ≤ 13 ∨ 28 ≤ c.val ∧ c.val ≤ 32 ∨ c.val = 0x85 ∨ c.val = 0xA0 ∨
    c.val = 0x1680 ∨ 0x2000 ≤ c.val ∧ c.val ≤ 0x200A ∨ c.val = 0x2028 ∨ c.val = 0x2029 ∨
    c.val = 0x202F ∨ c.val = 0x205F ∨ c.val = 0x3000)

/-- `str.strip`. -/
def strip (s : PyStr) : PyStr := (s.dropWhile isSpace).rdropWhile isSpace

/-- A surrogate has no encoding. -/
def isSurrogate (c : CodePoint) : Bool := decide (0xD800 ≤ c.val ∧ c.val ≤ 0xDFFF)

/-- `str.encode`, in UTF-8; `none` is a `UnicodeEncodeError`. -/
def encode : PyStr → Option Bytes
  | []     => some []
  | c :: s =>
    if isSurrogate c then none
    else (encode s).map fun bs => String.utf8EncodeChar (Char.ofNat c.val) ++ bs

lemma encode_append (s t : PyStr) :
    encode (s ++ t) = (encode s).bind fun a => (encode t).map fun b => a ++ b := by
  induction s with
  | nil => simp [encode]
  | cons c s ih =>
    rw [List.cons_append, encode, encode]
    split
    · rfl
    · rw [ih]
      cases encode s with
      | none => rfl
      | some a =>
        cases encode t with
        | none => rfl
        | some b => simp

lemma encode_ne_nil {s : PyStr} (hs : s ≠ []) {bs : Bytes} (h : encode s = some bs) :
    bs ≠ [] := by
  obtain ⟨c, s, rfl⟩ := List.exists_cons_of_ne_nil hs
  rw [encode] at h
  split at h
  · cases h
  · obtain ⟨tail, -, rfl⟩ := Option.map_eq_some_iff.1 h
    exact List.append_ne_nil_of_left_ne_nil String.utf8EncodeChar_ne_nil _

/-- `os.fsencode`, as `open` applies it to a path: a surrogate that stands for a byte is that byte,
any other is an error. -/
def fsencode : PyStr → Option Bytes
  | []     => some []
  | c :: s =>
    if 0xDC80 ≤ c.val ∧ c.val ≤ 0xDCFF then (fsencode s).map fun bs => UInt8.ofNat c.val :: bs
    else if isSurrogate c then none
    else (fsencode s).map fun bs => String.utf8EncodeChar (Char.ofNat c.val) ++ bs

/-- A string that can be encoded names the file of that name. -/
lemma fsencode_of_encode {s : PyStr} {bs : Bytes} (h : encode s = some bs) :
    fsencode s = some bs := by
  induction s generalizing bs with
  | nil => exact h
  | cons c s ih =>
    rw [encode] at h
    split at h
    · cases h
    · rename_i hc
      obtain ⟨tail, htail, rfl⟩ := Option.map_eq_some_iff.1 h
      have hbyte : ¬ (0xDC80 ≤ c.val ∧ c.val ≤ 0xDCFF) := by
        simp only [isSurrogate, decide_eq_true_eq] at hc
        omega
      rw [fsencode, if_neg hbyte, if_neg hc, ih htail]
      rfl

/-- An ASCII byte of an encoding is the character itself. -/
lemma toNat_of_mem_utf8 {c : Char} {b : UInt8} (h : b ∈ String.utf8EncodeChar c)
    (hb : b.toNat < 128) : c.toNat = b.toNat := by
  have hv : c.toNat = c.val.toNat := rfl
  rw [String.utf8EncodeChar] at h
  rw [hv]
  split at h
  · simp only [List.mem_singleton] at h
    rw [h, UInt8.toNat_ofNat']
    omega
  · exfalso
    split at h
    · simp only [List.mem_cons, List.not_mem_nil, or_false] at h
      rcases h with rfl | rfl
      all_goals
        rw [UInt8.toNat_ofNat'] at hb
        omega
    · split at h
      · simp only [List.mem_cons, List.not_mem_nil, or_false] at h
        rcases h with rfl | rfl | rfl
        all_goals
          rw [UInt8.toNat_ofNat'] at hb
          omega
      · simp only [List.mem_cons, List.not_mem_nil, or_false] at h
        rcases h with rfl | rfl | rfl | rfl
        all_goals
          rw [UInt8.toNat_ofNat'] at hb
          omega

lemma toNat_ofNat {c : CodePoint} (hc : ¬ isSurrogate c = true) :
    (Char.ofNat c.val).toNat = c.val := by
  have hv : c.val.isValidChar := by
    have hlt := c.isLt
    simp only [isSurrogate, decide_eq_true_eq] at hc
    simp only [Nat.isValidChar]
    omega
  rw [Char.ofNat, dif_pos hv]
  rfl

lemma mem_of_mem_encode {s : PyStr} {bs : Bytes} (h : encode s = some bs) {b : UInt8} (hb : b ∈ bs)
    (hlt : b.toNat < 128) : ∃ c ∈ s, c.val = b.toNat := by
  induction s generalizing bs with
  | nil =>
    cases h
    cases hb
  | cons c s ih =>
    rw [encode] at h
    split at h
    · cases h
    · rename_i hc
      obtain ⟨tail, htail, rfl⟩ := Option.map_eq_some_iff.1 h
      rcases List.mem_append.1 hb with hb | hb
      · exact ⟨c, List.mem_cons_self, (toNat_ofNat hc).symm.trans (toNat_of_mem_utf8 hb hlt)⟩
      · obtain ⟨d, hd, hval⟩ := ih htail hb
        exact ⟨d, List.mem_cons_of_mem _ hd, hval⟩

end PyStr

/-! ### Paths -/

/-- A `pathlib.Path`. -/
structure PurePath where
  root : Bool
  parts : List PyStr

namespace PurePath

/-- The character `/`. -/
def sep : CodePoint := 47

/-- The components of a relative path. -/
def parse (s : PyStr) : List PyStr :=
  (s.splitOn sep).filter fun part => !part.isEmpty && part != PyStr.ofChars ['.']

/-- The operator `/`, for a relative path on the right. -/
def div (base : PurePath) (name : PyStr) : PurePath :=
  { base with parts := base.parts ++ parse name }

/-- `str` of the path. -/
def str (path : PurePath) : PyStr :=
  if path.root then sep :: [sep].intercalate path.parts
  else if path.parts.isEmpty then PyStr.ofChars ['.']
  else [sep].intercalate path.parts

lemma mem_intercalate {c : CodePoint} {parts : List PyStr} (h : c ∈ [sep].intercalate parts) :
    c = sep ∨ ∃ part ∈ parts, c ∈ part := by
  induction parts with
  | nil => cases h
  | cons part parts ih =>
    cases parts with
    | nil =>
      rw [List.intercalate_singleton] at h
      exact .inr ⟨part, List.mem_cons_self, h⟩
    | cons next parts =>
      rw [List.intercalate_cons_cons, List.mem_append, List.mem_append] at h
      rcases h with (h | h) | h
      · exact .inr ⟨part, List.mem_cons_self, h⟩
      · exact .inl (List.mem_singleton.1 h)
      · rcases ih h with h | ⟨q, hq, h⟩
        · exact .inl h
        · exact .inr ⟨q, List.mem_cons_of_mem _ hq, h⟩

lemma mem_intercalate_of_mem {c : CodePoint} {part : PyStr} {parts : List PyStr}
    (hp : part ∈ parts) (hc : c ∈ part) : c ∈ [sep].intercalate parts := by
  induction parts with
  | nil => cases hp
  | cons q parts ih =>
    cases parts with
    | nil =>
      rw [List.intercalate_singleton]
      exact List.mem_singleton.1 hp ▸ hc
    | cons next parts =>
      rw [List.intercalate_cons_cons, List.mem_append, List.mem_append]
      rcases List.mem_cons.1 hp with rfl | hp
      · exact .inl (.inl hc)
      · exact .inr (ih hp)

/-- The characters of the components are those of the string. -/
lemma mem_of_mem_parse {s : PyStr} {c : CodePoint} {part : PyStr} (hp : part ∈ parse s)
    (hc : c ∈ part) : c ∈ s := by
  have hs : [sep].intercalate (s.splitOn sep) = s := List.intercalate_splitOn sep
  rw [← hs]
  exact mem_intercalate_of_mem (List.mem_of_mem_filter hp) hc

end PurePath

/-! ### The calls -/

inductive BridgeCall where
  | hasStdin
  | openW (path : PyStr)
  | writeText (content : PyStr)
  | closeFile
  | writeStdin (data : Bytes)
  | sendError
  deriving DecidableEq

/-- The answer to each call; `false` is an exception, or that there is no node. -/
@[reducible] def BridgeCall.Ret : BridgeCall → Type
  | .hasStdin     => Bool
  | .openW _      => Bool
  | .writeText _  => Bool
  | .closeFile    => Bool
  | .writeStdin _ => Bool
  | .sendError    => Unit

abbrev BridgeProg := Prog BridgeCall BridgeCall.Ret

namespace BridgeCall

def doHasStdin : BridgeProg Bool := Prog.perform BridgeCall.hasStdin
def doOpenW (path : PyStr) : BridgeProg Bool := Prog.perform (BridgeCall.openW path)
def doWriteText (content : PyStr) : BridgeProg Bool := Prog.perform (BridgeCall.writeText content)
def doCloseFile : BridgeProg Bool := Prog.perform BridgeCall.closeFile
def doWriteStdin (data : Bytes) : BridgeProg Bool := Prog.perform (BridgeCall.writeStdin data)
def doSendError : BridgeProg Unit := Prog.perform BridgeCall.sendError

end BridgeCall

open BridgeCall

/-! ### `ws_handler` -/

/-- A message of type `command` or `file_upload`; a field is `none` when the message lacks it. -/
inductive WsMsg where
  | command (cmd : Option PyStr)
  | fileUpload (filename content : Option PyStr)

/-- The character `\n`. -/
def newlineChar : CodePoint := 10

/-- The string `upload.c`. -/
def uploadName : PyStr := PyStr.ofChars ['u', 'p', 'l', 'o', 'a', 'd', '.', 'c']

/-- The string `web_upload_`. -/
def uploadPrefix : PyStr := PyStr.ofChars ['w', 'e', 'b', '_', 'u', 'p', 'l', 'o', 'a', 'd', '_']

/-- The string `submit `, with its blank. -/
def submitPrefix : PyStr := PyStr.ofChars ['s', 'u', 'b', 'm', 'i', 't', ' ']

/-- The path under which a file is saved, in the directory of `p2p_node`. -/
def uploadPath (base : PurePath) (filename : Option PyStr) : PyStr :=
  (base.div (uploadPrefix ++ filename.getD uploadName)).str

/-- The line is encoded and written, if there is a node. -/
def writeLine (text : PyStr) : BridgeProg Unit := do
  if ← doHasStdin then
    match (text ++ [newlineChar]).encode with
    | none => doSendError
    | some data =>
      if ← doWriteStdin data then return () else doSendError
  else return ()

def wsCommand (cmd : Option PyStr) : BridgeProg Unit :=
  if (cmd.getD []).strip = [] then return ()
  else writeLine (cmd.getD []).strip

def wsUpload (base : PurePath) (filename content : Option PyStr) : BridgeProg Unit := do
  if ← doOpenW (uploadPath base filename) then
    let written ← doWriteText (content.getD [])
    let closed ← doCloseFile
    if written && closed then writeLine (submitPrefix ++ uploadPath base filename)
    else doSendError
  else doSendError

def wsMessage (base : PurePath) : WsMsg → BridgeProg Unit
  | .command cmd                 => wsCommand cmd
  | .fileUpload filename content => wsUpload base filename content

end P2PNode
