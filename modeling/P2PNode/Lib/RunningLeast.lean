import Mathlib.Data.List.Basic
import Mathlib.Order.Lattice
import Mathlib.Tactic.Common

/-!
# The first least element of a list

A loop that keeps the best element so far and replaces it only by a strictly smaller one ends
with the first of the least elements, or with the element it started from.
-/

/-- `a` stands in `l`, is below what comes before it and not above what comes after it. -/
def FirstLeast {α β : Type*} [LT β] [LE β] (f : α → β) (l : List α) (a : α) : Prop :=
  ∃ pre post, l = pre ++ a :: post ∧ (∀ x ∈ pre, f a < f x) ∧ ∀ x ∈ post, f a ≤ f x

/-- The loop, started with `b`. -/
def runningLeast {α β : Type*} [LT β] [DecidableLT β] (f : α → β) (l : List α) (b : α) : α :=
  l.foldl (fun b x => if f x < f b then x else b) b

section

variable {α β : Type*} [LinearOrder β] {f : α → β}

lemma FirstLeast.le {l : List α} {a x : α} (h : FirstLeast f l a) (hx : x ∈ l) : f a ≤ f x := by
  obtain ⟨pre, post, rfl, hpre, hpost⟩ := h
  rcases List.mem_append.1 hx with hx | hx
  · exact (hpre x hx).le
  · rcases List.mem_cons.1 hx with rfl | hx
    · exact le_rfl
    · exact hpost x hx

lemma FirstLeast.cons {l : List α} {a x : α} (h : FirstLeast f l a) (hx : f a < f x) :
    FirstLeast f (x :: l) a := by
  obtain ⟨pre, post, rfl, hpre, hpost⟩ := h
  refine ⟨x :: pre, post, rfl, ?_, hpost⟩
  intro y hy
  rcases List.mem_cons.1 hy with rfl | hy
  · exact hx
  · exact hpre y hy

theorem runningLeast_cases (f : α → β) (l : List α) (b : α) :
    (runningLeast f l b = b ∧ ∀ x ∈ l, f b ≤ f x) ∨
      f (runningLeast f l b) < f b ∧ FirstLeast f l (runningLeast f l b) := by
  induction l generalizing b with
  | nil => exact .inl ⟨rfl, by simp⟩
  | cons x l ih =>
    by_cases hx : f x < f b
    · have hstep : runningLeast f (x :: l) b = runningLeast f l x := by
        simp [runningLeast, hx]
      rw [hstep]
      rcases ih x with ⟨hr, hl⟩ | ⟨hr, hl⟩
      · rw [hr]
        exact .inr ⟨hx, [], l, rfl, by simp, hl⟩
      · exact .inr ⟨hr.trans hx, hl.cons hr⟩
    · have hstep : runningLeast f (x :: l) b = runningLeast f l b := by
        simp [runningLeast, hx]
      rw [hstep]
      rcases ih b with ⟨hr, hl⟩ | ⟨hr, hl⟩
      · refine .inl ⟨hr, ?_⟩
        intro y hy
        rcases List.mem_cons.1 hy with rfl | hy
        · exact not_lt.1 hx
        · exact hl y hy
      · exact .inr ⟨hr, hl.cons (hr.trans_le (not_lt.1 hx))⟩

/-- The loop ends with the first least of the list behind its start value. -/
theorem firstLeast_runningLeast (f : α → β) (l : List α) (b : α) :
    FirstLeast f (b :: l) (runningLeast f l b) := by
  rcases runningLeast_cases f l b with ⟨hr, hl⟩ | ⟨hr, hl⟩
  · rw [hr]
    exact ⟨[], l, rfl, by simp, hl⟩
  · exact hl.cons hr

lemma FirstLeast.mem {l : List α} {a : α} (h : FirstLeast f l a) : a ∈ l := by
  obtain ⟨pre, post, rfl, -, -⟩ := h
  simp

lemma FirstLeast.head {l : List α} {a x : α} (h : FirstLeast f l a) (hx : f x ≤ f a) :
    FirstLeast f (x :: l) x :=
  ⟨[], l, rfl, by simp, fun _ hy => hx.trans (h.le hy)⟩

lemma FirstLeast.map {γ : Type*} {g : γ → α} {l : List γ} {c : γ}
    (h : FirstLeast (fun c => f (g c)) l c) : FirstLeast f (l.map g) (g c) := by
  obtain ⟨pre, post, rfl, hpre, hpost⟩ := h
  refine ⟨pre.map g, post.map g, by simp, ?_, ?_⟩
  · intro x hx
    obtain ⟨y, hy, rfl⟩ := List.mem_map.1 hx
    exact hpre y hy
  · intro x hx
    obtain ⟨y, hy, rfl⟩ := List.mem_map.1 hx
    exact hpost y hy

lemma FirstLeast.of_map {γ : Type*} {g : γ → α} {l : List γ} {a : α}
    (h : FirstLeast f (l.map g) a) : ∃ c, FirstLeast (fun c => f (g c)) l c ∧ g c = a := by
  obtain ⟨pre, post, hl, hpre, hpost⟩ := h
  obtain ⟨pre', rest, rfl, rfl, hrest⟩ := List.map_eq_append_iff.1 hl
  obtain ⟨c, post', rfl, rfl, rfl⟩ := List.map_eq_cons_iff.1 hrest
  refine ⟨c, ⟨pre', post', rfl, ?_, ?_⟩, rfl⟩
  · intro x hx
    exact hpre _ (List.mem_map_of_mem hx)
  · intro x hx
    exact hpost _ (List.mem_map_of_mem hx)

/-- An element comes before `a` and is not above it, or after it and is below it. -/
def Beaten (f : α → β) (l : List α) (a : α) : Prop :=
  ∃ pre post, l = pre ++ a :: post ∧ ((∃ x ∈ pre, f x ≤ f a) ∨ ∃ x ∈ post, f x < f a)

/-- Without repetitions every element but the first least one is beaten. -/
theorem FirstLeast.beaten_iff {l : List α} {a b : α} (h : FirstLeast f l a) (hl : l.Nodup)
    (hb : b ∈ l) : Beaten f l b ↔ b ≠ a := by
  obtain ⟨pre, post, rfl, hpre, hpost⟩ := h
  constructor
  · rintro ⟨pre', post', hsplit, hbeat⟩ rfl
    have hnodup := List.nodup_append.1 hl
    have hpre' : b ∉ pre := fun hmem => hnodup.2.2 b hmem b List.mem_cons_self rfl
    have hpost' : b ∉ post := (List.nodup_cons.1 hnodup.2.1).1
    obtain ⟨rfl, -, rfl⟩ := (List.append_cons_inj_of_notMem hpre' hpost').1 hsplit
    rcases hbeat with ⟨x, hx, hle⟩ | ⟨x, hx, hlt⟩
    · exact (hpre x hx).not_ge hle
    · exact (hpost x hx).not_gt hlt
  · intro hne
    rcases List.mem_append.1 hb with hb | hb
    · obtain ⟨p, q, rfl⟩ := List.append_of_mem hb
      exact ⟨p, q ++ a :: post, by simp, .inr ⟨a, by simp, hpre b hb⟩⟩
    · rcases List.mem_cons.1 hb with rfl | hb
      · exact absurd rfl hne
      · obtain ⟨p, q, rfl⟩ := List.append_of_mem hb
        exact ⟨pre ++ a :: p, q, by simp, .inl ⟨a, by simp, hpost b hb⟩⟩

end
