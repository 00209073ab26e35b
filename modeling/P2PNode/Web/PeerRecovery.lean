import P2PNode.Web.PeerTable

/-!
# What the dashboard reads from the printed peer table

`parsePeersOutput` on the text of `peer_list_print`. The expression matches every row of the table
and nothing else, and gives back the address and the load of the node. The last number of a row is
that of all tasks the node ever started; the active tasks are recovered where the two agree.
-/

namespace P2PNode

open Effect Regex Js

/-! ### The text of a row -/

def blanks (n : ℕ) : PyStr := List.replicate n 32

lemma asciiText_replicate (n : ℕ) : asciiText (List.replicate n 32) = blanks n :=
  List.map_replicate

lemma asciiText_padRight (width : ℕ) (s : Bytes) (u : PyStr) :
    asciiText (padRight width s) ++ 32 :: u =
      asciiText s ++ (blanks (width - s.length + 1) ++ u) := by
  rw [padRight, asciiText_append, asciiText_replicate, blanks, blanks, List.replicate_succ']
  simp

namespace TableNode

/-- The text of a row, its newline left out, before `u`. -/
def lineText (n : TableNode) (u : PyStr) : PyStr :=
  asciiText n.ip ++ (blanks (18 - n.ip.length + 1) ++ (asciiText (fmtUnsigned n.port) ++
    (blanks (8 - (fmtUnsigned n.port).length + 1) ++ (asciiText (fmtTenths n.sign n.load) ++
      ([37] ++ (blanks 8 ++ (asciiText (fmtUnsigned n.total) ++ u)))))))

lemma asciiText_row (n : TableNode) (u : PyStr) :
    asciiText n.row ++ u = n.lineText (newlineChar :: u) := by
  have hpad (width : ℕ) (s : Bytes) (u : PyStr) :=
    asciiText_padRight width s u
  have h32 : (Fin.ofNat 0x110000 (32 : UInt8).toNat : CodePoint) = 32 := by decide
  have h37 : (Fin.ofNat 0x110000 (37 : UInt8).toNat : CodePoint) = 37 := by decide
  have h10 : (Fin.ofNat 0x110000 (10 : UInt8).toNat : CodePoint) = newlineChar := by decide
  simp only [row, printRow, lineText, asciiText_append, asciiText_cons, List.append_assoc,
    List.cons_append, asciiText_replicate, h32, h37, h10, hpad]
  rfl

/-- A node of the table with an address as it is printed, a load that is finite and not negative,
and counters of 32 bits. -/
structure Printable (n : TableNode) : Prop where
  dotted : Dotted n.ip
  sign_eq : n.sign = false
  load_fin : ∃ q, n.load = .fin q
  active_lt : n.active < 2 ^ 32
  total_lt : n.total < 2 ^ 32

/-- The entry that its row gives. -/
def entry (n : TableNode) : PeerEntry where
  ip := asciiText n.ip
  port := asciiText (fmtUnsigned n.port)
  utilization := n.shownLoad
  activeTasks := .fin n.total

end TableNode

/-! ### Reading the numbers -/

lemma head?_cons_not {p : CodePoint → Bool} {c : CodePoint} (hc : p c = false) (s : PyStr) :
    ∀ c' ∈ (c :: s).head?, p c' = false := by
  rintro c' ⟨⟩
  exact hc

lemma groupNumber_of_ne_nil (parse : PyStr → ExtRat) {s : PyStr} (h : s ≠ []) :
    groupNumber parse (some s) = parse s := by
  obtain ⟨c, s, rfl⟩ := List.exists_cons_of_ne_nil h
  rfl

lemma asciiText_fmtUnsigned_ne_nil (n : ℕ) : asciiText (fmtUnsigned n) ≠ [] := by
  simpa [asciiText] using fmtUnsigned_ne_nil n

lemma parseInt_fmtUnsigned {n : ℕ} (h : n < 2 ^ 32) :
    parseInt (asciiText (fmtUnsigned n)) = .fin n := by
  have hdigits := leadingDigits_fmtUnsigned n (s := []) nofun
  have hsign : (asciiText (fmtUnsigned n)).head?.any (lit '-') = false := by
    obtain ⟨c, s, hs⟩ := List.exists_cons_of_ne_nil (asciiText_fmtUnsigned_ne_nil n)
    have hc := (isDigits_fmtUnsigned n).isDigit c (by simp [hs])
    have hval : c.val ≠ 45 := by
      have hc := of_decide_eq_true hc
      omega
    simp [hs, lit, hval]
  rw [List.append_nil] at hdigits
  simp only [parseInt, hsign, Bool.false_eq_true, if_false, hdigits, Decimal.digits_ne_nil,
    Decimal.value_digits]
  exact Decimal.binary64_natCast (h.trans (by decide))

lemma asciiText_fmtTenths (q : ℚ) : asciiText (fmtTenths false (.fin q)) =
    asciiText (fmtUnsigned (tenths q / 10)) ++
      46 :: asciiText (fmtUnsigned (tenths q % 10)) := by
  simp [fmtTenths]

/-- The number that is read is the one printed, in tenths. -/
lemma parseFloat_fmtTenths (q : ℚ) :
    parseFloat (asciiText (fmtTenths false (.fin q))) = Decimal.binary64 (tenths q / 10) := by
  have hno := head?_cons_not (p := isDigit) (c := 46) (by decide)
    (asciiText (fmtUnsigned (tenths q % 10)))
  have hwhole := leadingDigits_fmtUnsigned (tenths q / 10) hno
  have hfrac := leadingDigits_fmtUnsigned (tenths q % 10) (s := []) nofun
  have hrest : (asciiText (fmtUnsigned (tenths q / 10)) ++
      46 :: asciiText (fmtUnsigned (tenths q % 10))).dropWhile isDigit =
        46 :: asciiText (fmtUnsigned (tenths q % 10)) := by
    rw [List.dropWhile_append_of_pos (isDigits_fmtUnsigned _).isDigit, List.dropWhile_cons_of_neg]
    decide
  have hany : (some (46 : CodePoint)).any (lit '.') = true := by decide
  rw [List.append_nil, Decimal.digits_of_lt (Nat.mod_lt _ (by decide))] at hfrac
  rw [asciiText_fmtTenths, parseFloat]
  simp only [hwhole, hrest, List.head?_cons, hany, if_true, List.tail_cons, hfrac]
  rw [if_neg (by simp), Decimal.value_append_singleton, Decimal.value_digits, Nat.div_add_mod]
  simp

/-! ### The first match of a row -/

lemma first_octet {g : Bytes} (hg : IsOctet g) {u : PyStr} (hu : ∀ c ∈ u.head?, isDigit c = false) :
    First (many isDigit 1 (some 3)) (asciiText g ++ u) ⟨asciiText g, [], u⟩ := by
  refine First.many ⟨IsDigits.isDigit hg.2.2, ?_, ?_⟩ (.inl hu)
  · simpa [asciiText] using hg.1
  · rintro n ⟨⟩
    simpa [asciiText] using hg.2.1

lemma first_one {p : CodePoint → Bool} {c : CodePoint} (hc : p c = true) (u : PyStr) :
    First (one p) (c :: u) ⟨[c], [], u⟩ :=
  First.many (w := [c]) ⟨by simpa using hc, Nat.le_refl _, by simp⟩ (.inr rfl)

lemma first_dotted {ip : Bytes} (hip : Dotted ip) {u : PyStr}
    (hu : ∀ c ∈ u.head?, isDigit c = false) :
    First dottedRegex (asciiText ip ++ u) ⟨asciiText ip, [], u⟩ := by
  obtain ⟨a, b, c, d, ha, hb, hc, hd, rfl⟩ := hip
  have hdot (s : PyStr) : First (one (lit '.')) (46 :: s) ⟨[46], [], s⟩ := first_one (by decide) s
  have hno := head?_cons_not (p := isDigit) (c := 46) (by decide)
  have h := (first_octet ha (hno _)).seqs_cons <| (hdot _).seqs_cons <|
    (first_octet hb (hno _)).seqs_cons <| (hdot _).seqs_cons <|
    (first_octet hc (hno _)).seqs_cons <| (hdot _).seqs_cons <|
    (first_octet hd hu).seqs_cons First.seqs_nil
  simpa [dottedRegex] using h

lemma first_digits {bs : Bytes} (hbs : IsDigits bs) (hne : bs ≠ []) {u : PyStr}
    (hu : ∀ c ∈ u.head?, isDigit c = false) :
    First (many isDigit 1 none) (asciiText bs ++ u) ⟨asciiText bs, [], u⟩ := by
  refine First.many ⟨hbs.isDigit, ?_, nofun⟩ (.inl hu)
  simpa [asciiText, Nat.one_le_iff_ne_zero] using hne

/-- Blanks before a digit. -/
lemma first_blanks {p : CodePoint → Bool} (hp : p 32 = true) {lo n : ℕ} (hlo : lo ≤ n) {u : PyStr}
    (hu : ∀ c ∈ u.head?, p c = false) :
    First (many p lo none) (blanks n ++ u) ⟨blanks n, [], u⟩ := by
  refine First.many ⟨?_, ?_, nofun⟩ (.inl hu)
  · intro c hc
    rw [List.eq_of_mem_replicate hc]
    exact hp
  · simpa [blanks] using hlo

lemma head?_digits {bs : Bytes} (hbs : IsDigits bs) (hne : bs ≠ []) (u : PyStr) :
    ∀ c ∈ (asciiText bs ++ u).head?, isDigit c = true := by
  obtain ⟨b, bs, rfl⟩ := List.exists_cons_of_ne_nil hne
  rintro c ⟨⟩
  exact hbs.isDigit _ List.mem_cons_self

lemma results_word_of_head {p : CodePoint → Bool} {ps : List (CodePoint → Bool)} {u : PyStr}
    (hu : ∀ c ∈ u.head?, p c = false) : results (word (p :: ps)) u = [] := by
  rw [results_eq_nil_iff]
  rintro w t rfl ⟨v, z, rfl, ⟨hv, hlen, -⟩, -⟩
  cases v with
  | nil => exact absurd hlen (by decide)
  | cons c v =>
    have hc := hu c rfl
    rw [hv c List.mem_cons_self] at hc
    cases hc

lemma isSpace_of_isDigit {c : CodePoint} (h : isDigit c = true) : isSpace c = false := by
  have h := of_decide_eq_true h
  exact decide_eq_false (by omega)

lemma isSpaceColon_of_isDigit {c : CodePoint} (h : isDigit c = true) : isSpaceColon c = false := by
  rw [isSpaceColon, isSpace_of_isDigit h, Bool.false_or]
  have h := of_decide_eq_true h
  have hval : c.val ≠ ':'.toNat := by
    intro hc
    rw [hc] at h
    revert h
    decide
  exact decide_eq_false hval

lemma first_none {p : CodePoint → Bool} (hi : Option ℕ) {u : PyStr}
    (hu : ∀ c ∈ u.head?, p c = false) : First (many p 0 hi) u ⟨[], [], u⟩ :=
  First.many (w := []) ⟨nofun, Nat.le_refl _, fun _ _ => Nat.zero_le _⟩ (.inl hu)

lemma litCase_of_isDigit {ch : Char} (h : ∀ d : Fin 10, litCase ch (Fin.ofNat _ (48 + d)) = false)
    {c : CodePoint} (hc : isDigit c = true) : litCase ch c = false := by
  have hc := of_decide_eq_true hc
  have hval := h ⟨c.val - 48, by omega⟩
  have heq : Fin.ofNat 0x110000 (48 + (c.val - 48)) = c := by
    ext
    simp only [Fin.val_ofNat]
    omega
  rwa [heq] at hval

/-- A word in front of a number may be missing. -/
lemma first_skip (ch : Char) (hch : ∀ d : Fin 10, litCase ch (Fin.ofNat _ (48 + d)) = false)
    (cs : List Char) {u : PyStr} (hu : ∀ c ∈ u.head?, isDigit c = true) :
    First (opt (wordCase (ch :: cs))) u ⟨[], [], u⟩ :=
  First.skip (results_word_of_head fun c hc => litCase_of_isDigit hch (hu c hc))

lemma first_percent (u : PyStr) :
    First (many (lit '%') 0 (some 1)) ([37] ++ u) ⟨[37], [], u⟩ :=
  have hpercent : lit '%' 37 = true := by decide
  First.many (w := [37]) ⟨by simpa using hpercent, Nat.zero_le _, by simp⟩ (.inr rfl)

/-- The load, up to the percent sign. -/
lemma first_load (q : ℚ) {u : PyStr} (hu : ∀ c ∈ u.head?, isDigitDot c = false) :
    First (many isDigitDot 1 none) (asciiText (fmtTenths false (.fin q)) ++ u)
      ⟨asciiText (fmtTenths false (.fin q)), [], u⟩ := by
  refine First.many ⟨?_, ?_, nofun⟩ (.inl hu)
  · intro c hc
    have hdigit (k : ℕ) (hc : c ∈ asciiText (fmtUnsigned k)) : isDigitDot c = true := by
      rw [isDigitDot, (isDigits_fmtUnsigned k).isDigit c hc, Bool.true_or]
    rw [asciiText_fmtTenths, List.mem_append, List.mem_cons] at hc
    rcases hc with hc | rfl | hc
    · exact hdigit _ hc
    · decide
    · exact hdigit _ hc
  · rw [asciiText_fmtTenths, List.length_append, List.length_cons]
    omega

lemma matchEntry_groups (w a b c d u : PyStr) :
    matchEntry ⟨w, [(1, a), (2, b), (3, c), (4, d)], u⟩ =
      ⟨a, b, groupNumber parseFloat (some c), groupNumber parseInt (some d)⟩ := rfl

/-- The first match at the beginning of a row ends with the row. -/
lemma first_line {n : TableNode} (hn : n.Printable) {u : PyStr}
    (hu : ∀ c ∈ u.head?, isDigit c = false) :
    ∃ m, First peerRegex (n.lineText u) m ∧ matchEntry m = n.entry ∧ m.rest = u := by
  obtain ⟨q, hq⟩ := hn.load_fin
  have htotal := head?_digits (isDigits_fmtUnsigned n.total) (fmtUnsigned_ne_nil n.total) u
  have hport (s : PyStr) := head?_digits (isDigits_fmtUnsigned n.port) (fmtUnsigned_ne_nil n.port) s
  have hload (s : PyStr) :
      ∀ c ∈ (asciiText (fmtTenths false (.fin q)) ++ s).head?, isDigit c = true := by
    rw [asciiText_fmtTenths, List.append_assoc]
    exact head?_digits (isDigits_fmtUnsigned _) (fmtUnsigned_ne_nil _) _
  have hblank (k : ℕ) (s : PyStr) : ∀ c ∈ (blanks (k + 1) ++ s).head?, isDigit c = false :=
    head?_cons_not (c := 32) (by decide) (blanks k ++ s)
  -- the parts of the expression, from the last to the first
  have h := (First.opt ((first_digits (isDigits_fmtUnsigned n.total)
    (fmtUnsigned_ne_nil n.total) hu).group 4)).seqs_cons First.seqs_nil
  have h := (first_none none fun c hc => isSpace_of_isDigit (htotal c hc)).seqs_cons h
  have h := (first_skip 't' (by decide) ['a', 's', 'k', 's', '='] htotal).seqs_cons h
  have h := (first_blanks (p := isSpace) (by decide) (Nat.zero_le 8)
    fun c hc => isSpace_of_isDigit (htotal c hc)).seqs_cons h
  have h := (first_percent _).seqs_cons h
  have h := (first_none none (head?_cons_not (p := isSpace) (c := 37) (by decide) _)).seqs_cons h
  have h := ((first_load q (head?_cons_not (c := 37) (by decide) _)).group 3).seqs_cons h
  have h := (first_none none fun c hc => isSpace_of_isDigit (hload _ c hc)).seqs_cons h
  have h := (first_skip 'l' (by decide) ['o', 'a', 'd', '='] (hload _)).seqs_cons h
  have h := (first_blanks (p := isSpace) (by decide)
    (Nat.le_add_left 1 (8 - (fmtUnsigned n.port).length))
    fun c hc => isSpace_of_isDigit (hload _ c hc)).seqs_cons h
  have h := ((first_digits (isDigits_fmtUnsigned n.port) (fmtUnsigned_ne_nil n.port)
    (hblank _ _)).group 2).seqs_cons h
  have h := (first_blanks (p := isSpaceColon) (by decide)
    (Nat.le_add_left 1 (18 - n.ip.length))
    fun c hc => isSpaceColon_of_isDigit (hport _ c hc)).seqs_cons h
  have h := ((first_dotted hn.dotted (hblank _ _)).group 1).seqs_cons h
  rw [TableNode.lineText, hn.sign_eq, hq]
  refine ⟨⟨_, [(1, asciiText n.ip), (2, asciiText (fmtUnsigned n.port)),
    (3, asciiText (fmtTenths false (.fin q))), (4, asciiText (fmtUnsigned n.total))], u⟩,
    h, ?_, rfl⟩
  have hload_ne : asciiText (fmtTenths false (.fin q)) ≠ [] := by simp [asciiText_fmtTenths]
  rw [matchEntry_groups, groupNumber_of_ne_nil parseFloat hload_ne, parseFloat_fmtTenths,
    groupNumber_of_ne_nil parseInt (asciiText_fmtUnsigned_ne_nil n.total),
    parseInt_fmtUnsigned hn.total_lt, TableNode.entry, TableNode.shownLoad, hq]

/-! ### The matches in the table -/

/-- A match begins with a digit. -/
lemma results_peerRegex_of_head {u : PyStr} (hu : ∀ c ∈ u.head?, isDigit c = false) :
    results peerRegex u = [] := by
  rw [results_eq_nil_iff]
  rintro w t rfl ⟨v, z, rfl, ⟨x, y, rfl, ⟨hx, hlen, -⟩, -⟩, -⟩
  cases x with
  | nil => exact absurd hlen (by decide)
  | cons c x =>
    have hc := hu c rfl
    rw [hx c List.mem_cons_self] at hc
    cases hc

lemma matchAll_append_of_not_digit {v : PyStr} (hv : ∀ c ∈ v, isDigit c = false) (u : PyStr) :
    matchAll peerRegex (v ++ u) = matchAll peerRegex u := by
  induction v with
  | nil => rfl
  | cons c v ih =>
    have hc := results_peerRegex_of_head
      (head?_cons_not (hv c List.mem_cons_self) (v ++ u))
    rw [List.cons_append, matchAll_cons_of_nil hc, ih fun c hc => hv c (List.mem_cons_of_mem _ hc)]

lemma isDigit_newlineChar : isDigit newlineChar = false := by decide

/-- Each row gives one entry. -/
lemma matchAll_row {n : TableNode} (hn : n.Printable) (u : PyStr) :
    (matchAll peerRegex (asciiText n.row ++ u)).map matchEntry =
      n.entry :: (matchAll peerRegex u).map matchEntry := by
  obtain ⟨m, hm, hentry, hrest⟩ := first_line hn (head?_cons_not isDigit_newlineChar u)
  have hnl := matchAll_cons_of_nil
    (results_peerRegex_of_head (head?_cons_not isDigit_newlineChar u))
  rw [TableNode.asciiText_row, hm.matchAll_eq minLength_peerRegex, List.map_cons, hentry, hrest,
    hnl]

lemma matchAll_rows {ns : List TableNode} (hns : ∀ n ∈ ns, n.Printable) :
    (matchAll peerRegex (asciiText (ns.flatMap TableNode.row ++ [10]))).map matchEntry =
      ns.map TableNode.entry := by
  induction ns with
  | nil =>
    have hnl : matchAll peerRegex (asciiText [10]) = [] := matchAll_cons_of_nil
      (results_peerRegex_of_head (head?_cons_not isDigit_newlineChar []))
    rw [List.flatMap_nil, List.nil_append, hnl]
    rfl
  | cons n ns ih =>
    rw [List.flatMap_cons, List.append_assoc, asciiText_append,
      matchAll_row (hns n List.mem_cons_self), ih fun n hn => hns n (List.mem_cons_of_mem _ hn)]
    rfl

/-! ### The text of the table -/

lemma IsDigits.lt {bs : Bytes} (h : IsDigits bs) {b : UInt8} (hb : b ∈ bs) : b.toNat < 0x80 :=
  (h b hb).2.trans_lt (by decide)

lemma Dotted.lt {ip : Bytes} (h : Dotted ip) {b : UInt8} (hb : b ∈ ip) : b.toNat < 0x80 := by
  obtain ⟨a, c, d, e, ha, hc, hd, he, rfl⟩ := h
  simp only [List.mem_append, List.mem_cons] at hb
  rcases hb with hb | rfl | hb | rfl | hb | rfl | hb
  · exact IsDigits.lt ha.2.2 hb
  · decide
  · exact IsDigits.lt hc.2.2 hb
  · decide
  · exact IsDigits.lt hd.2.2 hb
  · decide
  · exact IsDigits.lt he.2.2 hb

lemma Dotted.colon_not_mem {ip : Bytes} (h : Dotted ip) : 58 ∉ ip := by
  obtain ⟨a, b, c, d, ha, hb, hc, hd, rfl⟩ := h
  have hno {g : Bytes} (hg : IsOctet g) : 58 ∉ g := fun hmem => absurd (hg.2.2 _ hmem) (by decide)
  simp [hno ha, hno hb, hno hc, hno hd]

lemma lt_of_mem_padRight (width : ℕ) {s : Bytes} (hs : ∀ b ∈ s, b.toNat < 0x80) :
    ∀ b ∈ padRight width s, b.toNat < 0x80 := by
  intro b hb
  rcases List.mem_append.1 hb with hb | hb
  · exact hs b hb
  · rw [List.eq_of_mem_replicate hb]
    decide

lemma lt_of_mem_row {n : TableNode} (hn : n.Printable) : ∀ b ∈ n.row, b.toNat < 0x80 := by
  obtain ⟨q, hq⟩ := hn.load_fin
  have hip := lt_of_mem_padRight 18 fun b => hn.dotted.lt
  have hport := lt_of_mem_padRight 8 fun b => (isDigits_fmtUnsigned n.port).lt
  intro b hb
  simp only [TableNode.row, printRow, hn.sign_eq, hq, fmtTenths, List.mem_append, List.mem_cons,
    Bool.false_eq_true, if_false, List.not_mem_nil, false_or, or_false] at hb
  rcases hb with hb | rfl | hb | rfl | (hb | rfl | hb) | rfl | hb | hb | rfl
  · exact hip b hb
  · decide
  · exact hport b hb
  · decide
  · exact (isDigits_fmtUnsigned _).lt hb
  · decide
  · exact (isDigits_fmtUnsigned _).lt hb
  · decide
  · rw [List.eq_of_mem_replicate hb]
    decide
  · exact (isDigits_fmtUnsigned _).lt hb
  · decide

lemma decode_table {ns : List TableNode} (hns : ∀ n ∈ ns, n.Printable) :
    Utf8.decode (tableHeader ++ (ns.flatMap TableNode.row ++ [10])) =
      Utf8.decode tableHeader ++ asciiText (ns.flatMap TableNode.row ++ [10]) := by
  have hlt : ∀ b ∈ ns.flatMap TableNode.row ++ [10], b.toNat < 0x80 := by
    intro b hb
    rcases List.mem_append.1 hb with hb | hb
    · obtain ⟨n, hn, hb⟩ := List.mem_flatMap.1 hb
      exact lt_of_mem_row (hns n hn) b hb
    · rw [List.mem_singleton.1 hb]
      decide
  rw [Utf8.decode_append_of_ascii fun b hb => hlt b (List.mem_of_head? hb),
    Utf8.decode_of_ascii hlt]
  rfl

lemma decode_rule_append (n : ℕ) (s : Bytes) :
    Utf8.decode (rule n ++ s) = List.replicate n 0x2500 ++ Utf8.decode s := by
  induction n with
  | zero => rfl
  | succ n ih =>
    have hone (t : Bytes) : Utf8.decode (0xE2 :: 0x94 :: 0x80 :: t) = 0x2500 :: Utf8.decode t := rfl
    rw [List.replicate_succ, List.cons_append, ← ih, ← hone]
    rfl

/-- There is no digit in the header. -/
lemma not_digit_header : ∀ c ∈ Utf8.decode tableHeader, isDigit c = false := by
  have hrules : printHeader (rule 16) (rule 6) (rule 11) (rule 11) =
      rule 16 ++ ([32] ++ (rule 6 ++ ([32] ++ (rule 11 ++ ([32] ++ (rule 11 ++ [10])))))) := rfl
  have hblank (s : Bytes) : Utf8.decode ([32] ++ s) = 32 :: Utf8.decode s :=
    Utf8.decode_ascii_append (by simp) s
  have hline : ∀ b ∈ 10 :: printHeader (ascii ['I', 'P']) (ascii ['P', 'O', 'R', 'T'])
      (ascii ['L', 'O', 'A', 'D', ' ', '(', '%', ')']) (ascii ['A', 'C', 'T', 'I', 'V', 'E']),
      b.toNat < 0x80 ∧ ¬ (48 ≤ b.toNat ∧ b.toNat ≤ 57) := by
    simp [printHeader, padRight, ascii]
  intro c hc
  rw [tableHeader, ← List.cons_append, Utf8.decode_ascii_append fun b hb => (hline b hb).1,
    List.mem_append, hrules, decode_rule_append, hblank, decode_rule_append, hblank,
    decode_rule_append, hblank, decode_rule_append] at hc
  rcases hc with hc | hc
  · obtain ⟨b, hb, rfl⟩ := List.mem_map.1 hc
    rw [isDigit_ofNat]
    exact decide_eq_false (hline b hb).2
  · have hnl : Utf8.decode [10] = [newlineChar] := rfl
    simp only [hnl, List.mem_append, List.mem_cons, List.mem_replicate, List.not_mem_nil,
      or_false] at hc
    rcases hc with ⟨-, rfl⟩ | rfl | ⟨-, rfl⟩ | rfl | ⟨-, rfl⟩ | rfl | ⟨-, rfl⟩ | rfl
    all_goals decide

/-- The dashboard finds the rows of the table, and nothing else. -/
lemma parsePeersOutput_table {ns : List TableNode} (hns : ∀ n ∈ ns, n.Printable) (peers : Peers) :
    parsePeersOutput (Utf8.decode (tableHeader ++ (ns.flatMap TableNode.row ++ [10]))) peers =
      (ns.map TableNode.entry).foldl putPeer peers := by
  rw [parsePeersOutput, decode_table hns, matchAll_append_of_not_digit not_digit_header,
    matchAll_rows hns]

/-! ### The entries of the peers -/

/-- The last entry with a key counts. -/
lemma foldl_putPeer (es : List PeerEntry) (peers : Peers) (key : PyStr) :
    es.foldl putPeer peers key =
      (es.reverse.find? fun e => decide (peerKey e.ip e.port = key)).or (peers key) := by
  induction es using List.reverseRecOn with
  | nil => rfl
  | append_singleton es e ih =>
    rw [List.foldl_append, List.reverse_append, List.reverse_singleton, List.singleton_append,
      List.find?_cons]
    by_cases hkey : peerKey e.ip e.port = key
    · simp [putPeer, hkey]
    · have hne : key ≠ peerKey e.ip e.port := fun h => hkey h.symm
      simp [putPeer, hkey, hne, ih]

lemma find?_congr {α : Type} {l : List α} {p q : α → Bool} (h : ∀ a ∈ l, p a = q a) :
    l.find? p = l.find? q := by
  induction l with
  | nil => rfl
  | cons a l ih =>
    rw [List.find?_cons, List.find?_cons, h a List.mem_cons_self,
      ih fun b hb => h b (List.mem_cons_of_mem _ hb)]

namespace TableNode

/-- The key of its entry. -/
def key (n : TableNode) : PyStr := peerKey (asciiText n.ip) (asciiText (fmtUnsigned n.port))

/-- The last node of the table with the address of `n`. -/
def lastWithAddress (ns : List TableNode) (n : TableNode) : Option TableNode :=
  ns.reverse.find? fun n' => decide (n'.ip = n.ip ∧ n'.port = n.port)

lemma key_eq_iff {m n : TableNode} (hm : Dotted m.ip) :
    m.key = n.key ↔ m.ip = n.ip ∧ m.port = n.port := by
  have hip : (58 : CodePoint) ∉ asciiText m.ip := by
    intro hmem
    obtain ⟨b, hb, heq⟩ := List.mem_map.1 hmem
    have hval : b.toNat = 58 := by
      rw [← val_ofNat_toNat, heq]
      rfl
    have hb58 : b = 58 := UInt8.toNat_inj.1 hval
    exact hm.colon_not_mem (hb58 ▸ hb)
  have hport : (58 : CodePoint) ∉ asciiText (fmtUnsigned m.port) := by
    intro hmem
    exact absurd ((isDigits_fmtUnsigned m.port).isDigit _ hmem) (by decide)
  have hkey (k : TableNode) :
      k.key = asciiText k.ip ++ 58 :: asciiText (fmtUnsigned k.port) := by
    rw [key, peerKey, List.append_assoc]
    rfl
  constructor
  · intro h
    rw [hkey, hkey] at h
    obtain ⟨hips, -, hports⟩ := (List.append_cons_inj_of_notMem hip hport).1 h
    exact ⟨asciiText_injective hips, fmtUnsigned_injective (asciiText_injective hports)⟩
  · rintro ⟨hip, hport⟩
    rw [key, key, hip, hport]

end TableNode

/-- The peers are the nodes of the table: there is an entry for each address that is printed, and no
other, and for each node it has the port, the load as printed, and the active tasks of the node. -/
def Recovered (ns : List TableNode) (peers : Peers) : Prop :=
  (∀ key, (peers key).isSome = true ↔ ∃ n ∈ ns, n.key = key) ∧
    ∀ n ∈ ns, ∃ e, peers n.key = some e ∧ e.ip = asciiText n.ip ∧
      e.port = asciiText (fmtUnsigned n.port) ∧ e.utilization = n.shownLoad ∧
      e.activeTasks = .fin n.active

lemma foldl_entries (ns : List TableNode) (key : PyStr) :
    (ns.map TableNode.entry).foldl putPeer noPeers key =
      (ns.reverse.find? fun n => decide (n.key = key)).map TableNode.entry := by
  rw [foldl_putPeer, ← List.map_reverse, List.find?_map, noPeers, Option.or_none]
  rfl

lemma foldl_entries_key {ns : List TableNode} (hns : ∀ n ∈ ns, n.Printable) (n : TableNode) :
    (ns.map TableNode.entry).foldl putPeer noPeers n.key =
      (TableNode.lastWithAddress ns n).map TableNode.entry := by
  rw [foldl_entries, TableNode.lastWithAddress]
  congr 1
  apply find?_congr
  intro m hm
  have hm := hns m (List.mem_reverse.1 hm)
  simp only [TableNode.key_eq_iff hm.dotted]

/-- Each node of the table has a last one with its address. -/
lemma exists_lastWithAddress {ns : List TableNode} {n : TableNode} (hn : n ∈ ns) :
    ∃ m, TableNode.lastWithAddress ns n = some m ∧ m.ip = n.ip ∧ m.port = n.port := by
  have hsome : (TableNode.lastWithAddress ns n).isSome = true := by
    rw [TableNode.lastWithAddress, List.find?_isSome]
    exact ⟨n, List.mem_reverse.2 hn, decide_eq_true ⟨rfl, rfl⟩⟩
  obtain ⟨m, hm⟩ := Option.isSome_iff_exists.1 hsome
  have hsame := List.find?_some hm
  exact ⟨m, hm, of_decide_eq_true hsame⟩

/-- The dashboard recovers the table that the node prints if and only if the last row with the
address of a node shows its load, and the number of all tasks in this row is that of the active
tasks of the node. The own load is any value, whatever way `percentage` comes by it. -/
theorem parsePeersOutput_recovered_iff {percentage : LoadProg ExtRat} {a : (c : LoadCall) → c.Ret}
    {load : ExtRat} (hload : percentage.answered a = some load) (slots : List PeerInfo)
    (local_ip : Bytes) (local_port : ℕ)
    (hns : ∀ n ∈ tableNodes (ownNode a load local_ip local_port) slots, n.Printable) :
    ∃ bytes, (peerListPrintWith percentage slots local_ip local_port).answered a = some bytes ∧
      (Recovered (tableNodes (ownNode a load local_ip local_port) slots)
          (parsePeersOutput (Utf8.decode bytes) noPeers) ↔
        ∀ n ∈ tableNodes (ownNode a load local_ip local_port) slots,
          ∀ m ∈ TableNode.lastWithAddress
            (tableNodes (ownNode a load local_ip local_port) slots) n,
            m.shownLoad = n.shownLoad ∧ m.total = n.active) := by
  refine ⟨_, answered_peerListPrintWith hload slots local_ip local_port, ?_⟩
  rw [parsePeersOutput_table hns]
  generalize tableNodes (ownNode a load local_ip local_port) slots = ns at hns ⊢
  constructor
  · rintro ⟨-, h⟩ n hn m hm
    obtain ⟨e, he, -, -, hshown, hactive⟩ := h n hn
    rw [foldl_entries_key hns n, Option.mem_def.1 hm] at he
    cases he
    refine ⟨hshown, ?_⟩
    have heq := ExtRat.fin.inj hactive
    exact_mod_cast heq
  · intro h
    refine ⟨?_, ?_⟩
    · intro key
      rw [foldl_entries, Option.isSome_map, List.find?_isSome]
      simp
    · intro n hn
      obtain ⟨m, hm, hip, hport⟩ := exists_lastWithAddress hn
      obtain ⟨hshown, htotal⟩ := h n hn m hm
      refine ⟨m.entry, ?_, ?_, ?_, hshown, ?_⟩
      · rw [foldl_entries_key hns n, hm]
        rfl
      · rw [TableNode.entry, hip]
      · rw [TableNode.entry, hport]
      · rw [TableNode.entry, htotal]

/-- A host with four processors and a load of one half, and the counts of tasks. -/
def halfLoad (active total : ℕ) : (c : LoadCall) → c.Ret
  | .fetchAdd _              => ()
  | .fetchSub _              => ()
  | .atomicLoad .activeTasks => active
  | .atomicLoad .totalTasks  => total
  | .readLoadavg             => .values (.fin (1 / 2)) (.fin 0) (.fin 0)
  | .nprocessorsOnln         => (4 : ℤ)

lemma answered_halfLoad (active total : ℕ) :
    loadGetPercentage.answered (halfLoad active total) = some (.fin (25 / 2)) := by
  have hle : ¬ ExtRat.fin 100 < .fin (25 / 2) := by decide +kernel
  have hpct : ((ExtRat.fin (1 / 2)).scale (1 / ((4 : ℕ) : ℚ))).scale 100 = .fin (25 / 2) := by
    decide +kernel
  have hcores : loadGetCoreCount.answered (halfLoad active total) = some 4 := rfl
  simp only [loadGetPercentage, loadGet, LoadCall.doReadLoadavg, Prog.answered_bind, Prog.perform,
    Prog.answered_call, Prog.answered_ret, Prog.pure_def, halfLoad, Option.bind_some, ne_eq,
    not_true_eq_false, if_false, hcores, hpct, if_neg hle]

/-- The address `10.0.0.1`. -/
def ownIp : Bytes := ascii ['1', '0', '.', '0', '.', '0', '.', '1']

/-- The address `10.0.0.2`. -/
def peerIp : Bytes := ascii ['1', '0', '.', '0', '.', '0', '.', '2']

lemma printable_ownNode {active total : ℕ} (ha : active < 2 ^ 32) (ht : total < 2 ^ 32) :
    (ownNode (halfLoad active total) (.fin (25 / 2)) ownIp 7777).Printable where
  dotted := ⟨[49, 48], [48], [48], [49], by simp [IsOctet], by simp [IsOctet], by simp [IsOctet],
    by simp [IsOctet], rfl⟩
  sign_eq := decide_eq_false (by decide +kernel)
  load_fin := ⟨_, rfl⟩
  active_lt := ha
  total_lt := ht

/-- A peer with the load 24.25. -/
def busyPeer : PeerInfo :=
  { ip := peerIp, port := 7777, load_pct := 0x41C20000, active_tasks := 2, total_tasks := 2,
    valid := true }

lemma printable_busyPeer : busyPeer.node.Printable where
  dotted := ⟨[49, 48], [48], [48], [50], by simp [IsOctet], by simp [IsOctet], by simp [IsOctet],
    by simp [IsOctet], rfl⟩
  sign_eq := by decide
  load_fin := ⟨_, rfl⟩
  active_lt := by decide
  total_lt := by decide

/-- A node and a peer, each with as many active tasks as it ever started. -/
theorem parsePeersOutput_recovered_two :
    ∃ bytes, (peerListPrint [busyPeer] ownIp 7777).answered (halfLoad 1 1) = some bytes ∧
      Recovered (tableNodes (ownNode (halfLoad 1 1) (.fin (25 / 2)) ownIp 7777) [busyPeer])
        (parsePeersOutput (Utf8.decode bytes) noPeers) := by
  have hns : ∀ n ∈ tableNodes (ownNode (halfLoad 1 1) (.fin (25 / 2)) ownIp 7777) [busyPeer],
      n.Printable := by
    intro n hn
    rcases List.mem_cons.1 hn with rfl | hn
    · exact printable_ownNode (by decide) (by decide)
    · rw [List.mem_singleton.1 hn]
      exact printable_busyPeer
  obtain ⟨bytes, hbytes, hiff⟩ :=
    parsePeersOutput_recovered_iff (answered_halfLoad 1 1) [busyPeer] ownIp 7777 hns
  refine ⟨bytes, hbytes, hiff.2 ?_⟩
  intro n hn m hm
  rcases List.mem_cons.1 hn with rfl | hn
  · cases hm
    exact ⟨rfl, rfl⟩
  · cases List.mem_singleton.1 hn
    cases hm
    exact ⟨rfl, rfl⟩

/-- A node that has finished its three tasks has none active, but the dashboard shows three. -/
theorem parsePeersOutput_not_recovered :
    (∀ n ∈ tableNodes (ownNode (halfLoad 0 3) (.fin (25 / 2)) ownIp 7777) [], n.Printable) ∧
    ∃ bytes, (peerListPrint [] ownIp 7777).answered (halfLoad 0 3) = some bytes ∧
      ¬ Recovered (tableNodes (ownNode (halfLoad 0 3) (.fin (25 / 2)) ownIp 7777) [])
        (parsePeersOutput (Utf8.decode bytes) noPeers) := by
  have hns : ∀ n ∈ tableNodes (ownNode (halfLoad 0 3) (.fin (25 / 2)) ownIp 7777) [],
      n.Printable := by
    intro n hn
    rw [List.mem_singleton.1 hn]
    exact printable_ownNode (by decide) (by decide)
  refine ⟨hns, _, answered_peerListPrintWith (answered_halfLoad 0 3) [] ownIp 7777, ?_⟩
  rw [parsePeersOutput_table hns]
  rintro ⟨-, h⟩
  obtain ⟨e, he, -, -, -, hactive⟩ := h _ List.mem_cons_self
  rw [foldl_entries_key hns] at he
  cases he
  have htotal : (3 : ℚ) = 0 := ExtRat.fin.inj hactive
  exact absurd htotal (by decide)

end P2PNode
