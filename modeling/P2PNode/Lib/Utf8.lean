import Mathlib.Data.List.Chain
import Mathlib.Data.List.Induction
import Mathlib.Tactic.Cases

/-!
# UTF-8 with replacement

Decoding that never fails: each longest beginning of a sequence that does not go on, and each byte
that begins none, is replaced by U+FFFD. Bytes that are decoded in pieces give the same characters
as bytes decoded at once if and only if no sequence is cut.
-/

namespace Utf8

instance neZero_unicode : @NeZero ℕ Zero.ofOfNat0 0x110000 := ⟨by decide⟩

/-! ### Sequences -/

/-- A byte that is not the first of its sequence. -/
def Tail (b : UInt8) : Prop := 0x80 ≤ b.toNat ∧ b.toNat ≤ 0xBF

/-- The well-formed sequences, one for each character. -/
def Sequence : List UInt8 → Prop
  | [a] => a.toNat ≤ 0x7F
  | [a, b] => 0xC2 ≤ a.toNat ∧ a.toNat ≤ 0xDF ∧ Tail b
  | [a, b, c] =>
    0xE0 ≤ a.toNat ∧ a.toNat ≤ 0xEF ∧ Tail b ∧ Tail c ∧
      (a.toNat = 0xE0 → 0xA0 ≤ b.toNat) ∧ (a.toNat = 0xED → b.toNat ≤ 0x9F)
  | [a, b, c, d] =>
    0xF0 ≤ a.toNat ∧ a.toNat ≤ 0xF4 ∧ Tail b ∧ Tail c ∧ Tail d ∧
      (a.toNat = 0xF0 → 0x90 ≤ b.toNat) ∧ (a.toNat = 0xF4 → b.toNat ≤ 0x8F)
  | _ => False

/-- The sequences of more than one byte. -/
lemma sequence_cons_cons {a b : UInt8} {v : List UInt8} (h : Sequence (a :: b :: v)) :
    (v = [] ∧ 0xC2 ≤ a.toNat ∧ a.toNat ≤ 0xDF ∧ Tail b) ∨
    (∃ c, v = [c] ∧ 0xE0 ≤ a.toNat ∧ a.toNat ≤ 0xEF ∧ Tail b ∧ Tail c ∧
      (a.toNat = 0xE0 → 0xA0 ≤ b.toNat) ∧ (a.toNat = 0xED → b.toNat ≤ 0x9F)) ∨
    (∃ c d, v = [c, d] ∧ 0xF0 ≤ a.toNat ∧ a.toNat ≤ 0xF4 ∧ Tail b ∧ Tail c ∧ Tail d ∧
      (a.toNat = 0xF0 → 0x90 ≤ b.toNat) ∧ (a.toNat = 0xF4 → b.toNat ≤ 0x8F)) := by
  match v, h with
  | [], h => exact .inl ⟨rfl, h⟩
  | [c], h => exact .inr (.inl ⟨c, rfl, h⟩)
  | [c, d], h => exact .inr (.inr ⟨c, d, rfl, h⟩)

/-- The end of `s` and the first byte of `t` belong to one sequence, as far as it goes. -/
def Cut (s t : List UInt8) : Prop :=
  ∃ u x v, u ≠ [] ∧ u <:+ s ∧ t.head? = some x ∧ Sequence (u ++ x :: v)

/-! ### The decoder -/

/-- A sequence that is not complete: the bounds of its next byte, the number of bytes that follow
the next one, and the bits so far. -/
structure Partial where
  lo : ℕ
  hi : ℕ
  more : ℕ
  bits : ℕ
  lo_ge : 0x80 ≤ lo
  hi_le : hi ≤ 0xBF

/-- What a byte makes of the sequence before it. -/
inductive Reading where
  | char (c : Fin 0x110000)
  | more (p : Partial)
  | bad

/-- The first byte of a sequence. -/
def lead (b : UInt8) : Reading :=
  let n := b.toNat
  if n < 0x80 then .char (Fin.ofNat _ n)
  else if n < 0xC2 then .bad
  else if n < 0xE0 then .more ⟨0x80, 0xBF, 0, n - 0xC0, by decide, by decide⟩
  else if n = 0xE0 then .more ⟨0xA0, 0xBF, 1, n - 0xE0, by decide, by decide⟩
  else if n = 0xED then .more ⟨0x80, 0x9F, 1, n - 0xE0, by decide, by decide⟩
  else if n < 0xF0 then .more ⟨0x80, 0xBF, 1, n - 0xE0, by decide, by decide⟩
  else if n = 0xF0 then .more ⟨0x90, 0xBF, 2, n - 0xF0, by decide, by decide⟩
  else if n < 0xF4 then .more ⟨0x80, 0xBF, 2, n - 0xF0, by decide, by decide⟩
  else if n = 0xF4 then .more ⟨0x80, 0x8F, 2, n - 0xF0, by decide, by decide⟩
  else .bad

/-- The next byte of a sequence. -/
def Partial.next (p : Partial) (b : UInt8) : Reading :=
  if p.lo ≤ b.toNat ∧ b.toNat ≤ p.hi then
    if p.more = 0 then .char (Fin.ofNat _ (p.bits * 64 + (b.toNat - 0x80)))
    else .more ⟨0x80, 0xBF, p.more - 1, p.bits * 64 + (b.toNat - 0x80), by decide, by decide⟩
  else .bad

/-- U+FFFD. -/
def replacement : Fin 0x110000 := 0xFFFD

/-- The characters that a byte completes between sequences, and the sequence it begins. -/
def start (b : UInt8) : List (Fin 0x110000) × Option Partial :=
  match lead b with
  | .char c => ([c], none)
  | .more p => ([], some p)
  | .bad    => ([replacement], none)

def step : Option Partial → UInt8 → List (Fin 0x110000) × Option Partial
  | none, b => start b
  | some p, b =>
    match p.next b with
    | .char c => ([c], none)
    | .more q => ([], some q)
    | .bad    => (replacement :: (start b).1, (start b).2)

/-- What is left of a sequence at the end. -/
def finish : Option Partial → List (Fin 0x110000)
  | none   => []
  | some _ => [replacement]

def decodeFrom : Option Partial → List UInt8 → List (Fin 0x110000)
  | q, []     => finish q
  | q, b :: s => (step q b).1 ++ decodeFrom (step q b).2 s

/-- `bytes.decode` in UTF-8 with `errors="replace"`. -/
def decode (s : List UInt8) : List (Fin 0x110000) := decodeFrom none s

/-- The sequence that `s` ends in, when it begins in `q`. -/
def after (q : Option Partial) (s : List UInt8) : Option Partial :=
  s.foldl (fun q b => (step q b).2) q

/-- The characters that are complete at the end of `s`. -/
def output : Option Partial → List UInt8 → List (Fin 0x110000)
  | _, []     => []
  | q, b :: s => (step q b).1 ++ output (step q b).2 s

/-! ### One byte -/

lemma lead_of_lt {b : UInt8} (h : b.toNat < 0x80) : lead b = .char (Fin.ofNat _ b.toNat) := by
  rw [lead]
  exact if_pos h

lemma lead_of_tail {b : UInt8} (h : Tail b) : lead b = .bad := by
  have hge : ¬ b.toNat < 0x80 := Nat.not_lt.2 h.1
  have hlt : b.toNat < 0xC2 := h.2.trans_lt (by decide)
  simp only [lead, if_neg hge, if_pos hlt]

lemma not_tail_of_lead {b : UInt8} {p : Partial} (h : lead b = .more p) : ¬ Tail b := by
  intro ht
  rw [lead_of_tail ht] at h
  cases h

variable {p q : Partial} {x : UInt8}

lemma Partial.next_of_not_tail (p : Partial) (h : ¬ Tail x) : p.next x = .bad := by
  rw [Partial.next, if_neg]
  rintro ⟨hlo, hhi⟩
  exact h ⟨p.lo_ge.trans hlo, hhi.trans p.hi_le⟩

lemma Partial.tail_of_next (h : p.next x ≠ .bad) : Tail x := by
  by_contra hx
  exact h (p.next_of_not_tail hx)

lemma Partial.next_ne_bad_iff : p.next x ≠ .bad ↔ p.lo ≤ x.toNat ∧ x.toNat ≤ p.hi := by
  rw [Partial.next]
  split
  · rename_i h
    refine iff_of_true ?_ h
    split
    · exact nofun
    · exact nofun
  · rename_i h
    exact iff_of_false (not_not.2 rfl) h

/-- A byte that does not go on is read as the first one behind the replacement. -/
lemma decodeFrom_of_bad {s : List UInt8} (h : ∀ x, s.head? = some x → p.next x = .bad) :
    decodeFrom (some p) s = replacement :: decodeFrom none s := by
  cases s with
  | nil => rfl
  | cons x s => simp [decodeFrom, step, h x rfl]

/-- The bounds of the second byte and the number of bytes behind it. -/
lemma lead_eq_more {a : UInt8} (h : lead a = .more p) :
    (0xC2 ≤ a.toNat ∧ a.toNat ≤ 0xDF ∧ p.more = 0 ∧ p.lo = 0x80 ∧ p.hi = 0xBF) ∨
    (0xE0 ≤ a.toNat ∧ a.toNat ≤ 0xEF ∧ p.more = 1 ∧
      p.lo = (if a.toNat = 0xE0 then 0xA0 else 0x80) ∧
      p.hi = (if a.toNat = 0xED then 0x9F else 0xBF)) ∨
    (0xF0 ≤ a.toNat ∧ a.toNat ≤ 0xF4 ∧ p.more = 2 ∧
      p.lo = (if a.toNat = 0xF0 then 0x90 else 0x80) ∧
      p.hi = (if a.toNat = 0xF4 then 0x8F else 0xBF)) := by
  simp only [lead] at h
  repeat' split at h
  all_goals cases h
  all_goals simp only
  all_goals grind

lemma exists_lead {a : UInt8} (hge : 0xC2 ≤ a.toNat) (hle : a.toNat ≤ 0xF4) :
    ∃ p, lead a = .more p := by
  simp only [lead]
  repeat' split
  all_goals first | exact ⟨_, rfl⟩ | omega

lemma Partial.next_eq_more (h : p.next x = .more q) :
    p.lo ≤ x.toNat ∧ x.toNat ≤ p.hi ∧ p.more = q.more + 1 ∧ q.lo = 0x80 ∧ q.hi = 0xBF := by
  rw [Partial.next] at h
  split at h
  · rename_i hx
    split at h
    · cases h
    · cases h
      refine ⟨hx.1, hx.2, ?_, rfl, rfl⟩
      change p.more = p.more - 1 + 1
      omega
  · cases h

lemma Partial.exists_next (hlo : p.lo ≤ x.toNat) (hhi : x.toNat ≤ p.hi) (hm : p.more ≠ 0) :
    ∃ q, p.next x = .more q := by
  rw [Partial.next, if_pos ⟨hlo, hhi⟩, if_neg hm]
  exact ⟨_, rfl⟩

/-! ### Lengths -/

/-- A sequence that goes on gives no more than its replacement would. -/
lemma length_decodeFrom_le (p : Partial) (s : List UInt8) :
    (decodeFrom (some p) s).length ≤ (decodeFrom none s).length + 1 := by
  induction s generalizing p with
  | nil => exact Nat.le_refl _
  | cons x s ih =>
    cases hx : p.next x with
    | bad =>
      have hbad : decodeFrom (some p) (x :: s) = replacement :: decodeFrom none (x :: s) := by
        apply decodeFrom_of_bad
        rintro _ ⟨⟩
        exact hx
      rw [hbad]
      exact Nat.le_refl _
    | char c =>
      have ht : Tail x := Partial.tail_of_next (by rw [hx]; exact nofun)
      simp [decodeFrom, step, start, hx, lead_of_tail ht]
    | more q =>
      have ht : Tail x := Partial.tail_of_next (by rw [hx]; exact nofun)
      have hq := ih q
      simp only [decodeFrom, step, start, hx, lead_of_tail ht, List.length_append, List.length_nil,
        List.length_singleton]
      omega

/-- It gives less if the first byte goes on. -/
lemma length_decodeFrom_lt {s : List UInt8} (h : p.next x ≠ .bad) :
    (decodeFrom (some p) (x :: s)).length < (decodeFrom none (x :: s)).length + 1 := by
  have ht : Tail x := Partial.tail_of_next h
  cases hx : p.next x with
  | bad => exact absurd hx h
  | char c => simp [decodeFrom, step, start, hx, lead_of_tail ht]
  | more q =>
    have hq := length_decodeFrom_le q s
    simp only [decodeFrom, step, start, hx, lead_of_tail ht, List.length_append, List.length_nil,
      List.length_singleton]
    omega

/-! ### The state at the end of a piece -/

/-- The bytes that lead to a sequence that is not complete. -/
inductive Begins : List UInt8 → Partial → Prop
  | lead {b : UInt8} {p : Partial} (h : lead b = .more p) : Begins [b] p
  | next {u : List UInt8} {p q : Partial} {x : UInt8} (hu : Begins u p)
      (h : p.next x = .more q) : Begins (u ++ [x]) q

lemma after_append (q : Option Partial) (s t : List UInt8) :
    after q (s ++ t) = after (after q s) t := List.foldl_append

lemma step_of_lead {b : UInt8} (h : lead b = .more p) (q : Option Partial) :
    (step q b).2 = some p := by
  cases q with
  | none => simp [step, start, h]
  | some q => simp [step, start, h, q.next_of_not_tail (not_tail_of_lead h)]

/-- The first byte of a sequence is recognized wherever it stands. -/
lemma Begins.after_eq {u : List UInt8} (h : Begins u p) (q : Option Partial) :
    after q u = some p := by
  induction h with
  | lead h => exact step_of_lead h q
  | next hu hx ih =>
    rw [after_append, ih]
    simp [after, step, hx]

lemma after_eq_some_iff {s : List UInt8} :
    after none s = some p ↔ ∃ u, u <:+ s ∧ Begins u p := by
  constructor
  · intro h
    induction s using List.reverseRecOn generalizing p with
    | nil => cases h
    | append_singleton s x ih =>
      rw [after_append] at h
      -- a sequence that begins with the last byte
      have hlead (hx : (start x).2 = some p) : ∃ u, u <:+ s ++ [x] ∧ Begins u p := by
        rw [start] at hx
        split at hx
        · cases hx
        · rename_i p' hl
          cases hx
          exact ⟨[x], List.suffix_append _ _, .lead hl⟩
        · cases hx
      cases hq : after none s with
      | none =>
        rw [hq] at h
        exact hlead h
      | some r =>
        rw [hq] at h
        change (step (some r) x).2 = some p at h
        rw [step] at h
        split at h
        · cases h
        · rename_i q hn
          cases h
          obtain ⟨u, hu, hb⟩ := ih hq
          obtain ⟨w, rfl⟩ := hu
          exact ⟨u ++ [x], ⟨w, by rw [List.append_assoc]⟩, .next hb hn⟩
        · exact hlead h
  · rintro ⟨u, ⟨w, rfl⟩, hu⟩
    rw [after_append]
    exact hu.after_eq _

lemma Begins.ne_nil {u : List UInt8} (h : Begins u p) : u ≠ [] := by
  cases h with
  | lead h => simp
  | next hu h => simp

/-! ### What a sequence still needs -/

/-- The bytes that complete the sequence. -/
def Partial.Rest (p : Partial) : List UInt8 → Prop
  | []     => False
  | b :: w => p.lo ≤ b.toNat ∧ b.toNat ≤ p.hi ∧ w.length = p.more ∧ ∀ c ∈ w, Tail c

lemma sequence_lead_iff {a b : UInt8} {w : List UInt8} (h : lead a = .more p) :
    Sequence (a :: b :: w) ↔ p.Rest (b :: w) := by
  have hp := lead_eq_more h
  match w with
  | []               => grind [Sequence, Partial.Rest, Tail]
  | [c]              => grind [Sequence, Partial.Rest, Tail]
  | [c, d]           => grind [Sequence, Partial.Rest, Tail]
  | c :: d :: e :: w => grind [Sequence, Partial.Rest]

lemma exists_lead_of_sequence {a b : UInt8} {w : List UInt8} (h : Sequence (a :: b :: w)) :
    ∃ p, lead a = .more p := by
  rcases sequence_cons_cons h with h | ⟨c, h⟩ | ⟨c, d, h⟩
  · exact exists_lead h.2.1 (h.2.2.1.trans (by decide))
  · exact exists_lead (h.2.1.trans' (by decide)) (h.2.2.1.trans (by decide))
  · exact exists_lead (h.2.1.trans' (by decide)) h.2.2.1

lemma Partial.rest_next_iff {b : UInt8} {w : List UInt8} (h : p.next x = .more q) :
    p.Rest (x :: b :: w) ↔ q.Rest (b :: w) := by
  obtain ⟨hlo, hhi, hmore, hqlo, hqhi⟩ := Partial.next_eq_more h
  simp only [Partial.Rest, List.length_cons, List.forall_mem_cons, Tail, hqlo, hqhi, hmore,
    Nat.add_right_cancel_iff]
  tauto

lemma Partial.exists_rest (h : p.next x ≠ .bad) : ∃ v, p.Rest (x :: v) := by
  obtain ⟨hlo, hhi⟩ := Partial.next_ne_bad_iff.1 h
  refine ⟨List.replicate p.more 0x80, hlo, hhi, List.length_replicate, ?_⟩
  intro c hc
  rw [List.eq_of_mem_replicate hc]
  exact ⟨by decide, by decide⟩

/-- The bytes that complete a sequence are those that its state asks for. -/
lemma Begins.sequence_iff {u : List UInt8} (hu : Begins u p) {w : List UInt8} :
    Sequence (u ++ x :: w) ↔ p.Rest (x :: w) := by
  induction hu generalizing x w with
  | lead h => exact sequence_lead_iff h
  | next hu h ih =>
    rw [List.append_assoc, List.singleton_append, ih]
    exact Partial.rest_next_iff h

/-- A proper beginning of a sequence leads to a state. -/
lemma exists_begins {u v : List UInt8} (hne : u ≠ []) (h : Sequence (u ++ x :: v)) :
    ∃ p, Begins u p := by
  induction u using List.reverseRecOn generalizing x v with
  | nil => exact absurd rfl hne
  | append_singleton u y ih =>
    cases u with
    | nil =>
      obtain ⟨p, hp⟩ := exists_lead_of_sequence h
      exact ⟨p, .lead hp⟩
    | cons a u =>
      rw [List.append_assoc, List.singleton_append] at h
      obtain ⟨p, hp⟩ := ih (List.cons_ne_nil _ _) h
      obtain ⟨hlo, hhi, hlength, -⟩ := hp.sequence_iff.1 h
      have hmore : p.more ≠ 0 := by
        rw [← hlength]
        exact Nat.succ_ne_zero _
      obtain ⟨q, hq⟩ := Partial.exists_next hlo hhi hmore
      exact ⟨q, .next hp hq⟩

/-! ### Decoding in pieces -/

variable {s t : List UInt8}

/-- A sequence is cut if and only if the next byte goes on with what the piece ends in. -/
lemma cut_iff : Cut s t ↔ ∃ p x, after none s = some p ∧ t.head? = some x ∧ p.next x ≠ .bad := by
  constructor
  · rintro ⟨u, x, v, hne, hu, hx, hv⟩
    obtain ⟨p, hp⟩ := exists_begins hne hv
    obtain ⟨hlo, hhi, -⟩ := hp.sequence_iff.1 hv
    exact ⟨p, x, after_eq_some_iff.2 ⟨u, hu, hp⟩, hx, Partial.next_ne_bad_iff.2 ⟨hlo, hhi⟩⟩
  · rintro ⟨p, x, hp, hx, hn⟩
    obtain ⟨u, hu, hb⟩ := after_eq_some_iff.1 hp
    obtain ⟨v, hv⟩ := Partial.exists_rest hn
    exact ⟨u, x, v, hb.ne_nil, hu, hx, hb.sequence_iff.2 hv⟩

lemma decodeFrom_append (q : Option Partial) (s t : List UInt8) :
    decodeFrom q (s ++ t) = output q s ++ decodeFrom (after q s) t := by
  induction s generalizing q with
  | nil => rfl
  | cons b s ih =>
    simp only [List.cons_append, decodeFrom, output, after, List.foldl_cons, List.append_assoc]
    rw [ih]
    rfl

lemma decode_append_eq (s t : List UInt8) :
    decode (s ++ t) = output none s ++ decodeFrom (after none s) t := decodeFrom_append none s t

lemma decode_eq (s : List UInt8) : decode s = output none s ++ finish (after none s) := by
  have h := decode_append_eq s []
  rw [List.append_nil] at h
  exact h

lemma decode_append (h : ¬ Cut s t) : decode (s ++ t) = decode s ++ decode t := by
  rw [decode_append_eq, decode_eq s, List.append_assoc]
  congr 1
  cases hp : after none s with
  | none => rfl
  | some p =>
    have hbad (x : UInt8) (hx : t.head? = some x) : p.next x = .bad := by
      by_contra hn
      exact h (cut_iff.2 ⟨p, x, hp, hx, hn⟩)
    exact decodeFrom_of_bad hbad

lemma length_decode_append_lt (h : Cut s t) :
    (decode (s ++ t)).length < (decode s).length + (decode t).length := by
  obtain ⟨p, x, hp, hx, hn⟩ := cut_iff.1 h
  obtain ⟨t, rfl⟩ := List.head?_eq_some_iff.1 hx
  have hlt := length_decodeFrom_lt (s := t) hn
  rw [decode_append_eq, decode_eq s, hp]
  simp only [List.length_append, finish, List.length_singleton, decode]
  omega

lemma length_decode_append_le (s t : List UInt8) :
    (decode (s ++ t)).length ≤ (decode s).length + (decode t).length := by
  by_cases h : Cut s t
  · exact (length_decode_append_lt h).le
  · rw [decode_append h, List.length_append]

lemma length_decode_flatten_le (pieces : List (List UInt8)) :
    (decode pieces.flatten).length ≤ (pieces.flatMap decode).length := by
  induction pieces with
  | nil => exact Nat.le_refl _
  | cons s pieces ih =>
    rw [List.flatten_cons, List.flatMap_cons, List.length_append]
    exact (length_decode_append_le _ _).trans (Nat.add_le_add_left ih _)

/-- The first byte decides. -/
lemma cut_append_iff {r : List UInt8} (ht : t ≠ []) : Cut s (t ++ r) ↔ Cut s t := by
  cases t with
  | nil => exact absurd rfl ht
  | cons x t => rfl

/-- The pieces give the characters of the whole if and only if no sequence is cut. -/
theorem flatMap_decode_eq_iff {pieces : List (List UInt8)} (h : ∀ s ∈ pieces, s ≠ []) :
    pieces.flatMap decode = decode pieces.flatten ↔ pieces.IsChain fun s t => ¬ Cut s t := by
  induction pieces with
  | nil => exact iff_of_true rfl .nil
  | cons s pieces ih =>
    cases pieces with
    | nil => simp
    | cons t pieces =>
      have hcut : Cut s (t :: pieces).flatten ↔ Cut s t := cut_append_iff (h t (by simp))
      have ih := ih fun s hs => h s (List.mem_cons_of_mem _ hs)
      rw [List.isChain_cons_cons, ← ih, ← hcut, List.flatMap_cons, List.flatten_cons]
      by_cases hs : Cut s (t :: pieces).flatten
      · refine iff_of_false ?_ fun hn => hn.1 hs
        intro heq
        have hlt := length_decode_append_lt hs
        have hle := length_decode_flatten_le (t :: pieces)
        rw [← heq, List.length_append] at hlt
        omega
      · rw [decode_append hs, List.append_cancel_left_eq]
        exact (and_iff_right hs).symm

/-! ### ASCII -/

lemma decode_append_of_ascii (h : ∀ x, t.head? = some x → x.toNat < 0x80) :
    decode (s ++ t) = decode s ++ decode t := by
  apply decode_append
  rw [cut_iff]
  rintro ⟨p, x, hp, hx, hn⟩
  have hge := (Partial.tail_of_next hn).1
  exact absurd (h x hx) (Nat.not_lt.2 hge)

lemma decode_ascii_append (h : ∀ b ∈ s, b.toNat < 0x80) (t : List UInt8) :
    decode (s ++ t) = (s.map fun b => Fin.ofNat 0x110000 b.toNat) ++ decode t := by
  rw [decode, decode]
  induction s with
  | nil => rfl
  | cons b s ih =>
    have hb := lead_of_lt (h b List.mem_cons_self)
    simp [decodeFrom, step, start, hb, ih fun b hb => h b (List.mem_cons_of_mem _ hb)]

lemma decode_of_ascii (h : ∀ b ∈ s, b.toNat < 0x80) :
    decode s = s.map fun b => Fin.ofNat 0x110000 b.toNat := by
  have hs := decode_ascii_append h []
  rw [List.append_nil] at hs
  exact hs.trans (List.append_nil _)

end Utf8
