import Mathlib.Data.List.Basic
import Mathlib.Order.Nat
import Mathlib.Tactic.Common

/-!
# Lines of a stream

A reader with a bounded buffer takes letters up to a stop letter, the stop letter included, or as
many as the buffer holds. Words without the stop letter that leave room for it are read back one by
one; the others are not.
-/

namespace Lines

variable {α : Type*}

/-- The stream that carries the words, each ended by `stop`. -/
def wire (stop : α) (ls : List (List α)) : List α := ls.flatMap fun l => l ++ [stop]

@[simp] lemma wire_nil (stop : α) : wire stop [] = [] := rfl

@[simp] lemma wire_cons (stop : α) (l : List α) (ls : List (List α)) :
    wire stop (l :: ls) = l ++ stop :: wire stop ls := by
  simp [wire]

variable [DecidableEq α]

/-- At most `n` letters of the stream up to the first `stop`, and what is left of the stream. -/
def readLine (stop : α) : ℕ → List α → List α × List α
  | 0, s => ([], s)
  | _ + 1, [] => ([], [])
  | n + 1, a :: s =>
    if a = stop then ([a], s) else (a :: (readLine stop n s).1, (readLine stop n s).2)

variable {stop : α}

/-- Nothing is lost. -/
lemma readLine_append (n : ℕ) (s : List α) :
    (readLine stop n s).1 ++ (readLine stop n s).2 = s := by
  induction n generalizing s with
  | zero => rfl
  | succ n ih =>
    cases s with
    | nil => rfl
    | cons a s =>
      rw [readLine]
      split
      · rfl
      · simp [ih]

lemma length_readLine_le (n : ℕ) (s : List α) : (readLine stop n s).1.length ≤ n := by
  induction n generalizing s with
  | zero => exact le_rfl
  | succ n ih =>
    cases s with
    | nil => exact Nat.zero_le _
    | cons a s =>
      rw [readLine]
      split
      · simp
      · simpa using ih s

/-- Something is read of a stream that is not at its end. -/
lemma length_readLine_lt {n : ℕ} (hn : 0 < n) {s : List α} (hs : s ≠ []) :
    (readLine stop n s).2.length < s.length := by
  obtain ⟨a, s, rfl⟩ := List.exists_cons_of_ne_nil hs
  obtain ⟨n, rfl⟩ := Nat.exists_eq_succ_of_ne_zero hn.ne'
  rw [readLine]
  split
  · simp
  · have happ : (readLine stop n s).1 ++ (readLine stop n s).2 = s := readLine_append n s
    have hlen := congrArg List.length happ
    rw [List.length_append] at hlen
    simp only [List.length_cons]
    omega

/-- A word that leaves room for its end is read with it. -/
lemma readLine_of_lt {n : ℕ} {l : List α} (hl : stop ∉ l) (hn : l.length < n) (s : List α) :
    readLine stop n (l ++ stop :: s) = (l ++ [stop], s) := by
  induction n generalizing l with
  | zero => exact absurd hn (Nat.not_lt_zero _)
  | succ n ih =>
    cases l with
    | nil => simp [readLine]
    | cons a l =>
      have hne : a ≠ stop := fun h => hl (h ▸ List.mem_cons_self)
      have htail := ih (l := l) (fun h => hl (List.mem_cons_of_mem _ h)) (by simpa using hn)
      simp [readLine, hne, htail]

/-- Of a longer word the buffer is filled. -/
lemma readLine_of_le {n : ℕ} {l : List α} (hl : stop ∉ l) (hn : n ≤ l.length) (s : List α) :
    readLine stop n (l ++ s) = (l.take n, l.drop n ++ s) := by
  induction n generalizing l with
  | zero => rfl
  | succ n ih =>
    cases l with
    | nil => exact absurd hn (Nat.not_succ_le_zero _)
    | cons a l =>
      have hne : a ≠ stop := fun h => hl (h ▸ List.mem_cons_self)
      have htail := ih (l := l) (fun h => hl (List.mem_cons_of_mem _ h)) (by simpa using hn)
      simp [readLine, hne, htail]

end Lines
