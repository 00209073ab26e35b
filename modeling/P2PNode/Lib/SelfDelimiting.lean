import Mathlib.Data.List.Infix
import Mathlib.Tactic.Common

/-!
# Self-delimiting codes on a cut stream

A code is self-delimiting when a reader recognises the end of a code word without looking past it
and never accepts a word that is cut off. For such a code, a stream of words that is cut anywhere
splits in one way only into the words that arrived whole and a rest that decodes to nothing
(`Code.exists_cut`).
-/

namespace SelfDelimiting

/-- A code for `μ` over the letters `β`. `dec` reads one word off the front of a stream. -/
structure Code (μ β : Type*) where
  enc : μ → List β
  dec : List β → Option (μ × List β)
  dec_enc : ∀ m s, dec (enc m ++ s) = some (m, s)
  dec_cut : ∀ m s, s <+: enc m → s ≠ enc m → dec s = none
  dec_nil : dec [] = none

variable {μ β : Type*}

namespace Code

variable (E : Code μ β)

/-- The stream that carries the messages one after the other. -/
def encAll (ms : List μ) : List β := ms.flatMap E.enc

@[simp] lemma encAll_nil : E.encAll [] = [] := rfl

@[simp] lemma encAll_cons (m : μ) (ms : List μ) : E.encAll (m :: ms) = E.enc m ++ E.encAll ms := by
  simp [encAll]

lemma encAll_append (ms ms' : List μ) : E.encAll (ms ++ ms') = E.encAll ms ++ E.encAll ms' := by
  simp [encAll]

/-- Exactly the first `j` messages lie whole in the first `k` letters. -/
structure Whole (ms : List μ) (k j : ℕ) : Prop where
  le : j ≤ ms.length
  arrived : (E.encAll (ms.take j)).length ≤ k
  next : j < ms.length → k < (E.encAll (ms.take (j + 1))).length

/-- A cut stream is the words that arrived whole, and a rest that decodes to nothing. -/
theorem exists_cut (ms : List μ) (k : ℕ) :
    ∃ j s, E.Whole ms k j ∧ (E.encAll ms).take k = E.encAll (ms.take j) ++ s ∧ E.dec s = none := by
  induction ms generalizing k with
  | nil => exact ⟨0, [], ⟨le_rfl, by simp, by simp⟩, by simp, E.dec_nil⟩
  | cons m ms ih =>
    by_cases hk : (E.enc m).length ≤ k
    · obtain ⟨j, s, hw, htake, hs⟩ := ih (k - (E.enc m).length)
      refine ⟨j + 1, s, ⟨?_, ?_, ?_⟩, ?_, hs⟩
      · simpa using hw.le
      · have := hw.arrived
        simp only [List.take_succ_cons, encAll_cons, List.length_append]
        omega
      · intro hlt
        have := hw.next (by simpa using hlt)
        simp only [List.take_succ_cons, encAll_cons, List.length_append] at this ⊢
        omega
      · rw [encAll_cons, List.take_append, List.take_of_length_le hk, htake]
        simp
    · have hk : k < (E.enc m).length := Nat.lt_of_not_le hk
      refine ⟨0, (E.enc m).take k, ⟨Nat.zero_le _, by simp, ?_⟩, ?_, ?_⟩
      · intro _
        simpa using hk
      · simp [List.take_append, Nat.sub_eq_zero_of_le hk.le]
      · refine E.dec_cut m _ (List.take_prefix _ _) fun h => ?_
        have := congrArg List.length h
        rw [List.length_take] at this
        omega

lemma enc_ne_nil (m : μ) : E.enc m ≠ [] := by
  intro hnil
  have hdec := E.dec_enc m []
  rw [hnil, List.append_nil, E.dec_nil] at hdec
  cases hdec

/-- The words at the beginning of a stream of words are the first ones. -/
theorem prefix_of_encAll {ms ms' : List μ} (h : E.encAll ms <+: E.encAll ms') : ms <+: ms' := by
  induction ms generalizing ms' with
  | nil => exact List.nil_prefix
  | cons m ms ih =>
    obtain ⟨rest, hrest⟩ := h
    rw [encAll_cons, List.append_assoc] at hrest
    cases ms' with
    | nil => exact absurd (List.append_eq_nil_iff.1 hrest).1 (E.enc_ne_nil m)
    | cons m' ms' =>
      have hdec := E.dec_enc m (E.encAll ms ++ rest)
      rw [hrest, encAll_cons, E.dec_enc] at hdec
      obtain ⟨rfl, htail⟩ := Prod.mk.inj (Option.some.inj hdec)
      exact List.cons_prefix_cons.2 ⟨rfl, ih ⟨rest, htail.symm⟩⟩

/-- The first word of a cut stream. -/
theorem eq_of_dec_prefix {ms : List μ} {s rest : List β} {m : μ} (h : s <+: E.encAll ms)
    (hdec : E.dec s = some (m, rest)) : s = E.enc m ++ rest := by
  cases ms with
  | nil =>
    rw [List.prefix_nil.1 h, E.dec_nil] at hdec
    cases hdec
  | cons m' ms =>
    rw [encAll_cons] at h
    rcases List.prefix_or_prefix_of_prefix h (List.prefix_append _ _) with hcut | ⟨t, rfl⟩
    · by_cases heq : s = E.enc m'
      · have hdec' := E.dec_enc m' []
        rw [List.append_nil, ← heq, hdec] at hdec'
        cases hdec'
        rw [List.append_nil, heq]
      · rw [E.dec_cut m' s hcut heq] at hdec
        cases hdec
    · rw [E.dec_enc] at hdec
      cases hdec
      rfl

end Code
end SelfDelimiting
