import P2PNode.Node.LoadMonitor
import P2PNode.Web.Dashboard

/-!
# The printed peer table (`peer_list.c`)

`peer_list_print` as a program that returns the bytes it writes: a header, a row for the node itself
and one for each valid slot. The number in the last column is that of all tasks a node ever started.
-/

namespace P2PNode

open Effect Regex Js

/-! ### `printf` -/

/-- The bytes of ASCII characters. -/
def ascii (cs : List Char) : Bytes := cs.map fun c => UInt8.ofNat c.toNat

/-- `%-*s`. -/
def padRight (width : ℕ) (s : Bytes) : Bytes := s ++ List.replicate (width - s.length) 32

def digitByte (d : ℕ) : UInt8 := UInt8.ofNat (48 + d)

/-- `%u`. -/
def fmtUnsigned (n : ℕ) : Bytes := (Decimal.digits n).map digitByte

/-- The tenths nearest to a number, its sign dropped. -/
def tenths (q : ℚ) : ℕ := (Decimal.roundHalfEven (10 * |q|)).toNat

/-- `%.1f`, for a number with the given sign bit. -/
def fmtTenths (sign : Bool) (x : ExtRat) : Bytes :=
  (if sign then [45] else []) ++
    match x with
    | .fin q => fmtUnsigned (tenths q / 10) ++ 46 :: fmtUnsigned (tenths q % 10)
    | .nan   => ascii ['n', 'a', 'n']
    | _      => ascii ['i', 'n', 'f']

/-! ### `peer_list_print` -/

/-- The string `%-18s %-8s %-12s %-12s\n`. -/
def printHeader (ip port load active : Bytes) : Bytes :=
  padRight 18 ip ++ 32 :: (padRight 8 port ++ 32 :: (padRight 12 load ++ 32 ::
    (padRight 12 active ++ [10])))

/-- The character `─`, `n` times. -/
def rule (n : ℕ) : Bytes := (List.replicate n [0xE2, 0x94, 0x80]).flatten

def tableHeader : Bytes :=
  10 :: (printHeader (ascii ['I', 'P']) (ascii ['P', 'O', 'R', 'T'])
    (ascii ['L', 'O', 'A', 'D', ' ', '(', '%', ')']) (ascii ['A', 'C', 'T', 'I', 'V', 'E']) ++
    printHeader (rule 16) (rule 6) (rule 11) (rule 11))

/-- The string `%-18s %-8u %.1f%%        %u\n`. -/
def printRow (ip : Bytes) (port : ℕ) (sign : Bool) (load : ExtRat) (tasks : ℕ) : Bytes :=
  padRight 18 ip ++ 32 :: (padRight 8 (fmtUnsigned port) ++ 32 :: (fmtTenths sign load ++
    37 :: (List.replicate 8 32 ++ (fmtUnsigned tasks ++ [10]))))

/-- The sign bit of a `float`. -/
def signBit (bits : ℕ) : Bool := decide (bits / 2 ^ 31 % 2 = 1)

def printPeer (peer : PeerInfo) : Bytes :=
  if peer.valid then
    printRow peer.ip peer.port (signBit peer.load_pct) (ExtRat.ofBits peer.load_pct)
      peer.total_tasks
  else []

/-- `peer_list_print`, with `percentage` for `load_get_percentage`: the bytes that it writes, for
the slots of `g_peers` in their order. -/
def peerListPrintWith (percentage : LoadProg ExtRat) (slots : List PeerInfo) (local_ip : Bytes)
    (local_port : ℕ) : LoadProg Bytes := do
  let local_load ← percentage
  let total_tasks ← loadGetTotalTasks
  return tableHeader ++
    (printRow local_ip local_port (decide (local_load < .fin 0)) local_load total_tasks ++
      (slots.flatMap printPeer ++ [10]))

def peerListPrint (slots : List PeerInfo) (local_ip : Bytes) (local_port : ℕ) : LoadProg Bytes :=
  peerListPrintWith loadGetPercentage slots local_ip local_port

/-! ### What is printed -/

/-- A node of the table: its address, its load, and its counters. -/
structure TableNode where
  ip : Bytes
  port : ℕ
  sign : Bool
  load : ExtRat
  active : ℕ
  total : ℕ

def PeerInfo.node (peer : PeerInfo) : TableNode where
  ip := peer.ip
  port := peer.port
  sign := signBit peer.load_pct
  load := ExtRat.ofBits peer.load_pct
  active := peer.active_tasks
  total := peer.total_tasks

/-- The node itself, with the answers to the calls of `load_monitor.c`. -/
def ownNode (a : (c : LoadCall) → c.Ret) (load : ExtRat) (ip : Bytes) (port : ℕ) : TableNode where
  ip := ip
  port := port
  sign := decide (load < .fin 0)
  load := load
  active := a (.atomicLoad .activeTasks)
  total := a (.atomicLoad .totalTasks)

namespace TableNode

/-- Its row. -/
def row (n : TableNode) : Bytes := printRow n.ip n.port n.sign n.load n.total

/-- Its load as it is printed, as a number. -/
def shownLoad (n : TableNode) : ExtRat :=
  match n.load with
  | .fin q => Decimal.binary64 (tenths q / 10)
  | x      => x

end TableNode

/-- The nodes of the table, in the order of their rows. -/
def tableNodes (own : TableNode) (slots : List PeerInfo) : List TableNode :=
  own :: (slots.filter (·.valid)).map PeerInfo.node

lemma flatMap_printPeer (slots : List PeerInfo) : slots.flatMap printPeer =
    ((slots.filter (·.valid)).map PeerInfo.node).flatMap TableNode.row := by
  induction slots with
  | nil => rfl
  | cons peer slots ih =>
    rw [List.flatMap_cons, ih, printPeer]
    cases hv : peer.valid with
    | false => simp [hv]
    | true => simp [hv, TableNode.row, PeerInfo.node]

lemma answered_peerListPrintWith {percentage : LoadProg ExtRat} {a : (c : LoadCall) → c.Ret}
    {load : ExtRat} (h : percentage.answered a = some load) (slots : List PeerInfo) (ip : Bytes)
    (port : ℕ) : (peerListPrintWith percentage slots ip port).answered a =
      some (tableHeader ++ ((tableNodes (ownNode a load ip port) slots).flatMap TableNode.row ++
        [10])) := by
  simp [peerListPrintWith, h, loadGetTotalTasks, LoadCall.doAtomicLoad, flatMap_printPeer,
    tableNodes, TableNode.row, ownNode]

/-! ### Addresses -/

/-- Up to three digits. -/
def IsOctet (g : Bytes) : Prop :=
  1 ≤ g.length ∧ g.length ≤ 3 ∧ ∀ b ∈ g, 48 ≤ b.toNat ∧ b.toNat ≤ 57

/-- An IPv4 address as it is printed. -/
def Dotted (ip : Bytes) : Prop :=
  ∃ a b c d, IsOctet a ∧ IsOctet b ∧ IsOctet c ∧ IsOctet d ∧
    ip = a ++ 46 :: (b ++ 46 :: (c ++ 46 :: d))

/-! ### Texts of ASCII bytes -/

/-- The text of ASCII bytes. -/
def asciiText (bs : Bytes) : PyStr := bs.map fun b => Fin.ofNat 0x110000 b.toNat

lemma val_ofNat_toNat (b : UInt8) : (Fin.ofNat 0x110000 b.toNat).val = b.toNat :=
  Nat.mod_eq_of_lt (b.toNat_lt.trans (by decide))

lemma asciiText_injective : Function.Injective asciiText := by
  apply List.map_injective_iff.2
  intro b c h
  have hval := congrArg Fin.val h
  rw [val_ofNat_toNat, val_ofNat_toNat] at hval
  exact UInt8.toNat_inj.1 hval

@[simp] lemma asciiText_append (s t : Bytes) : asciiText (s ++ t) = asciiText s ++ asciiText t :=
  List.map_append

@[simp] lemma asciiText_cons (b : UInt8) (s : Bytes) :
    asciiText (b :: s) = Fin.ofNat _ b.toNat :: asciiText s := rfl

/-- The bytes of the digits. -/
def IsDigits (bs : Bytes) : Prop := ∀ b ∈ bs, 48 ≤ b.toNat ∧ b.toNat ≤ 57

lemma isDigit_ofNat (b : UInt8) :
    isDigit (Fin.ofNat _ b.toNat) = decide (48 ≤ b.toNat ∧ b.toNat ≤ 57) := by
  rw [isDigit, val_ofNat_toNat]

lemma IsDigits.isDigit {bs : Bytes} (h : IsDigits bs) : ∀ c ∈ asciiText bs, isDigit c = true := by
  intro c hc
  obtain ⟨b, hb, rfl⟩ := List.mem_map.1 hc
  rw [isDigit_ofNat]
  exact decide_eq_true (h b hb)

lemma toNat_digitByte {d : ℕ} (h : d < 10) : (digitByte d).toNat = 48 + d := by
  rw [digitByte, UInt8.toNat_ofNat']
  omega

lemma isDigits_fmtUnsigned (n : ℕ) : IsDigits (fmtUnsigned n) := by
  intro b hb
  obtain ⟨d, hd, rfl⟩ := List.mem_map.1 hb
  have hlt := Decimal.lt_of_mem_digits hd
  rw [toNat_digitByte hlt]
  omega

lemma fmtUnsigned_ne_nil (n : ℕ) : fmtUnsigned n ≠ [] := by
  simpa [fmtUnsigned] using Decimal.digits_ne_nil n

/-- The digits of a text are those that were printed. -/
lemma leadingDigits_fmtUnsigned (n : ℕ) {s : PyStr} (hs : ∀ c ∈ s.head?, isDigit c = false) :
    leadingDigits (asciiText (fmtUnsigned n) ++ s) = Decimal.digits n := by
  have hdigits := (isDigits_fmtUnsigned n).isDigit
  have htake : (asciiText (fmtUnsigned n) ++ s).takeWhile isDigit = asciiText (fmtUnsigned n) := by
    rw [List.takeWhile_append_of_pos hdigits]
    cases s with
    | nil => simp
    | cons c s => simp [hs c rfl]
  rw [leadingDigits, htake, asciiText, fmtUnsigned, List.map_map, List.map_map]
  conv_rhs => rw [← List.map_id (Decimal.digits n)]
  apply List.map_congr_left
  intro d hd
  have hlt := Decimal.lt_of_mem_digits hd
  change (Fin.ofNat 0x110000 (digitByte d).toNat).val - 48 = d
  rw [val_ofNat_toNat, toNat_digitByte hlt, Nat.add_sub_cancel_left]

lemma fmtUnsigned_injective : Function.Injective fmtUnsigned := by
  intro m n h
  have hm := leadingDigits_fmtUnsigned m (s := []) nofun
  rw [h, leadingDigits_fmtUnsigned n (s := []) nofun] at hm
  exact (Decimal.digits_injective hm).symm

end P2PNode
