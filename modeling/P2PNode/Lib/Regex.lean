import Mathlib.Data.List.Infix
import Mathlib.Data.Option.Basic
import Mathlib.Tactic.Common

/-!
# Regular expressions with priorities

A backtracking matcher for expressions whose repetitions are of single letters: `results` lists the
matches at the beginning of a text in the order in which they are tried, longer repetitions first.
What can be matched at all is the language `Lang` of the expression; which match comes first is
`First`. A global search takes the first match at the first place, and goes on behind it.
-/

inductive Regex (α : Type*) where
  | empty
  | many (p : α → Bool) (lo : ℕ) (hi : Option ℕ)
  | seq (r t : Regex α)
  | opt (r : Regex α)
  | group (k : ℕ) (r : Regex α)

namespace Regex

variable {α : Type*}

/-- A match: the text matched, the texts of the groups in it, and what is left. -/
structure Match (α : Type*) where
  text : List α
  groups : List (ℕ × List α)
  rest : List α

/-- The text of the group `k`, if it took part. -/
def Match.group (m : Match α) (k : ℕ) : Option (List α) := m.groups.lookup k

/-- The ways to take letters off the text, the longest first. -/
def runs (p : α → Bool) : ℕ → Option ℕ → List α → List (List α × List α)
  | lo, _, [] => if lo = 0 then [([], [])] else []
  | lo, hi, a :: s =>
    (if p a ∧ hi ≠ some 0 then
      (runs p (lo - 1) (hi.map Nat.pred) s).map fun m => (a :: m.1, m.2) else []) ++
    if lo = 0 then [([], a :: s)] else []

/-- The matches at the beginning of a text, in the order in which they are tried. -/
def results : Regex α → List α → List (Match α)
  | .empty, s        => [⟨[], [], s⟩]
  | .many p lo hi, s => (runs p lo hi s).map fun m => ⟨m.1, [], m.2⟩
  | .seq r t, s      =>
    (results r s).flatMap fun m =>
      (results t m.rest).map fun n => ⟨m.text ++ n.text, m.groups ++ n.groups, n.rest⟩
  | .opt r, s        => results r s ++ [⟨[], [], s⟩]
  | .group k r, s    => (results r s).map fun m => { m with groups := (k, m.text) :: m.groups }

/-- The first match in a text. -/
def find (r : Regex α) : List α → Option (Match α)
  | []     => (results r []).head?
  | a :: s => (results r (a :: s)).head?.or (find r s)

/-- The matches in a text behind its first `skip` letters, each the first one behind the one before,
for an expression that does not match the empty text. -/
def matchFrom (r : Regex α) : ℕ → List α → List (Match α)
  | _, []            => []
  | skip + 1, _ :: s => matchFrom r skip s
  | 0, a :: s        =>
    match (results r (a :: s)).head? with
    | none   => matchFrom r 0 s
    | some m => m :: matchFrom r (m.text.length - 1) s

def matchAll (r : Regex α) (s : List α) : List (Match α) := matchFrom r 0 s

/-- One expression after the other. -/
def seqs (rs : List (Regex α)) : Regex α := rs.foldr .seq .empty

/-- A letter of a class. -/
def one (p : α → Bool) : Regex α := .many p 1 (some 1)

/-- A word, each letter given as a class. -/
def word (ps : List (α → Bool)) : Regex α := seqs (ps.map one)

/-! ### The language -/

/-- What the expression matches. -/
def Lang : Regex α → List α → Prop
  | .empty, w        => w = []
  | .many p lo hi, w => (∀ a ∈ w, p a = true) ∧ lo ≤ w.length ∧ ∀ n ∈ hi, w.length ≤ n
  | .seq r t, w      => ∃ u v, w = u ++ v ∧ r.Lang u ∧ t.Lang v
  | .opt r, w        => r.Lang w ∨ w = []
  | .group _ r, w    => r.Lang w

/-- The text contains a text that the expression matches. -/
def Occurs (r : Regex α) (s : List α) : Prop := ∃ a w b, s = a ++ (w ++ b) ∧ r.Lang w

lemma mem_runs {p : α → Bool} {lo : ℕ} {hi : Option ℕ} {s w t : List α} :
    (w, t) ∈ runs p lo hi s ↔ s = w ++ t ∧ (many p lo hi).Lang w := by
  induction s generalizing lo hi w with
  | nil =>
    simp only [runs, Lang]
    constructor
    · intro h
      split at h
      · rename_i hlo
        simp_all
      · cases h
    · rintro ⟨h, -, hlo, -⟩
      obtain ⟨rfl, rfl⟩ := List.append_eq_nil_iff.1 h.symm
      rw [if_pos (Nat.le_zero.1 hlo)]
      exact List.mem_singleton_self _
  | cons a s ih =>
    rw [runs, List.mem_append]
    constructor
    · rintro (h | h)
      · split at h
        · rename_i hp
          obtain ⟨⟨u, v⟩, hm, heq⟩ := List.mem_map.1 h
          cases heq
          obtain ⟨rfl, hu, hlo, hhi⟩ := ih.1 hm
          refine ⟨rfl, ?_, ?_, ?_⟩
          · simpa [hp.1] using hu
          · simp only [List.length_cons]
            omega
          · rintro n hn
            obtain ⟨n, rfl⟩ : ∃ m, n = m + 1 := by
              cases n with
              | zero => exact absurd hn hp.2
              | succ m => exact ⟨m, rfl⟩
            exact Nat.succ_le_succ (hhi n (by simp [Option.mem_def.1 hn]))
        · cases h
      · split at h
        · rename_i hlo
          cases List.mem_singleton.1 h
          exact ⟨rfl, by simp [Lang, hlo]⟩
        · cases h
    · rintro ⟨heq, hw, hlo, hhi⟩
      cases w with
      | nil =>
        refine .inr ?_
        rw [if_pos (Nat.le_zero.1 hlo), ← List.nil_append t, ← heq]
        exact List.mem_singleton_self _
      | cons b w =>
        cases heq
        refine .inl ?_
        rw [if_pos]
        · refine List.mem_map_of_mem (f := fun m : List α × List α => (a :: m.1, m.2))
            (a := (w, t)) (ih.2 ⟨rfl, ?_, ?_, ?_⟩)
          · exact fun b hb => hw b (List.mem_cons_of_mem _ hb)
          · simp only [List.length_cons] at hlo
            omega
          · rintro n hn
            obtain ⟨m, rfl, rfl⟩ := Option.map_eq_some_iff.1 hn
            exact Nat.le_pred_of_lt (hhi m rfl)
        · refine ⟨hw a List.mem_cons_self, ?_⟩
          rintro rfl
          exact absurd (hhi 0 rfl) (Nat.not_succ_le_zero _)

/-- The matches at the beginning of a text are those of the language. -/
lemma exists_mem_results_iff {r : Regex α} {s w t : List α} :
    (∃ m ∈ results r s, m.text = w ∧ m.rest = t) ↔ s = w ++ t ∧ r.Lang w := by
  induction r generalizing s w t with
  | empty =>
    simp only [results, Lang, List.mem_singleton, exists_eq_left]
    constructor
    · rintro ⟨rfl, rfl⟩
      exact ⟨rfl, rfl⟩
    · rintro ⟨rfl, rfl⟩
      exact ⟨rfl, rfl⟩
  | many p lo hi =>
    rw [← mem_runs]
    simp only [results, List.mem_map]
    constructor
    · rintro ⟨_, ⟨⟨u, v⟩, hm, rfl⟩, rfl, rfl⟩
      exact hm
    · intro hm
      exact ⟨_, ⟨_, hm, rfl⟩, rfl, rfl⟩
  | seq r t ihr iht =>
    simp only [results, List.mem_flatMap, List.mem_map]
    constructor
    · rintro ⟨_, ⟨m, hm, n, hn, rfl⟩, rfl, rfl⟩
      obtain ⟨hs, hu⟩ := ihr.1 ⟨m, hm, rfl, rfl⟩
      obtain ⟨hr, hv⟩ := iht.1 ⟨n, hn, rfl, rfl⟩
      refine ⟨?_, m.text, n.text, rfl, hu, hv⟩
      rw [hs, hr, List.append_assoc]
    · rintro ⟨hs, u, v, rfl, hu, hv⟩
      obtain ⟨m, hm, rfl, hrest⟩ := ihr.2 ⟨hs.trans (List.append_assoc _ _ _), hu⟩
      obtain ⟨n, hn, rfl, rfl⟩ := iht.2 ⟨hrest, hv⟩
      exact ⟨_, ⟨m, hm, n, hn, rfl⟩, rfl, rfl⟩
  | opt r ih =>
    simp only [results, List.mem_append, List.mem_singleton]
    constructor
    · rintro ⟨m, hm | rfl, rfl, rfl⟩
      · obtain ⟨hs, hw⟩ := ih.1 ⟨m, hm, rfl, rfl⟩
        exact ⟨hs, .inl hw⟩
      · exact ⟨rfl, .inr rfl⟩
    · rintro ⟨hs, hw | rfl⟩
      · obtain ⟨m, hm, rfl, rfl⟩ := ih.2 ⟨hs, hw⟩
        exact ⟨m, .inl hm, rfl, rfl⟩
      · exact ⟨_, .inr rfl, rfl, hs⟩
  | group k r ih =>
    simp only [results, List.mem_map]
    constructor
    · rintro ⟨_, ⟨m, hm, rfl⟩, rfl, rfl⟩
      exact ih.1 ⟨m, hm, rfl, rfl⟩
    · intro h
      obtain ⟨m, hm, rfl, rfl⟩ := ih.2 h
      exact ⟨_, ⟨m, hm, rfl⟩, rfl, rfl⟩

variable {r : Regex α} {s : List α}

lemma lang_of_mem {m : Match α} (h : m ∈ results r s) : s = m.text ++ m.rest ∧ r.Lang m.text :=
  exists_mem_results_iff.1 ⟨m, h, rfl, rfl⟩

lemma results_eq_nil_iff : results r s = [] ↔ ∀ w t, s = w ++ t → ¬ r.Lang w := by
  rw [List.eq_nil_iff_forall_not_mem]
  constructor
  · intro h w t hs hw
    obtain ⟨m, hm, -, -⟩ := exists_mem_results_iff.2 ⟨hs, hw⟩
    exact h m hm
  · intro h m hm
    obtain ⟨hs, hw⟩ := lang_of_mem hm
    exact h _ _ hs hw

lemma lang_seqs_cons {rs : List (Regex α)} {w : List α} :
    (seqs (r :: rs)).Lang w ↔ ∃ u v, w = u ++ v ∧ r.Lang u ∧ (seqs rs).Lang v := Iff.rfl

lemma lang_seqs_append {rs ts : List (Regex α)} {w : List α} :
    (seqs (rs ++ ts)).Lang w ↔ ∃ u v, w = u ++ v ∧ (seqs rs).Lang u ∧ (seqs ts).Lang v := by
  induction rs generalizing w with
  | nil =>
    constructor
    · intro h
      exact ⟨[], w, rfl, rfl, h⟩
    · rintro ⟨u, v, rfl, rfl, h⟩
      exact h
  | cons r rs ih =>
    simp only [List.cons_append, lang_seqs_cons, ih]
    constructor
    · rintro ⟨u, _, rfl, hu, v, z, rfl, hv, hz⟩
      exact ⟨u ++ v, z, (List.append_assoc _ _ _).symm, ⟨u, v, rfl, hu, hv⟩, hz⟩
    · rintro ⟨_, z, rfl, ⟨u, v, rfl, hu, hv⟩, hz⟩
      exact ⟨u, v ++ z, List.append_assoc _ _ _, hu, v, z, rfl, hv, hz⟩

/-- What wider expressions match one after the other. -/
lemma Lang.mono_seqs {rs ts : List (Regex α)} {w : List α} (hw : (seqs rs).Lang w)
    (h : List.Forall₂ (fun r t => ∀ w, Lang r w → Lang t w) rs ts) : (seqs ts).Lang w := by
  induction h generalizing w with
  | nil => exact hw
  | cons hrt h ih =>
    obtain ⟨u, v, rfl, hu, hv⟩ := hw
    exact ⟨u, v, rfl, hrt u hu, ih hv⟩

/-- The least number of letters in a match. -/
def minLength : Regex α → ℕ
  | .empty       => 0
  | .many _ lo _ => lo
  | .seq r t     => r.minLength + t.minLength
  | .opt _       => 0
  | .group _ r   => r.minLength

lemma Lang.minLength_le {w : List α} (h : r.Lang w) : r.minLength ≤ w.length := by
  induction r generalizing w with
  | empty => exact Nat.zero_le _
  | many p lo hi => exact h.2.1
  | seq r t ihr iht =>
    obtain ⟨u, v, rfl, hu, hv⟩ := h
    rw [List.length_append]
    exact Nat.add_le_add (ihr hu) (iht hv)
  | opt r ih => exact Nat.zero_le _
  | group k r ih => exact ih h

/-! ### Searching -/

/-- A place where a match begins. -/
lemma occurs_cons_iff {a : α} : r.Occurs (a :: s) ↔ results r (a :: s) ≠ [] ∨ r.Occurs s := by
  constructor
  · rintro ⟨u, w, b, hs, hw⟩
    cases u with
    | nil => exact .inl fun hnil => results_eq_nil_iff.1 hnil w b hs hw
    | cons c u =>
      cases hs
      exact .inr ⟨u, w, b, rfl, hw⟩
  · rintro (h | ⟨u, w, b, rfl, hw⟩)
    · obtain ⟨m, hm⟩ := List.exists_mem_of_ne_nil _ h
      obtain ⟨hs, hw⟩ := lang_of_mem hm
      exact ⟨[], m.text, m.rest, hs, hw⟩
    · exact ⟨a :: u, w, b, rfl, hw⟩

lemma occurs_nil_iff : r.Occurs [] ↔ results r [] ≠ [] := by
  constructor
  · rintro ⟨u, w, b, hs, hw⟩ hnil
    obtain ⟨rfl, hwb⟩ := List.append_eq_nil_iff.1 hs.symm
    exact results_eq_nil_iff.1 hnil w b hwb.symm hw
  · intro h
    obtain ⟨m, hm⟩ := List.exists_mem_of_ne_nil _ h
    obtain ⟨hs, hw⟩ := lang_of_mem hm
    exact ⟨[], m.text, m.rest, hs, hw⟩

lemma Occurs.minLength_le (h : r.Occurs s) : r.minLength ≤ s.length := by
  obtain ⟨a, w, b, rfl, hw⟩ := h
  have hle := hw.minLength_le
  simp only [List.length_append]
  omega

/-- A part of a text contains no more than the text. -/
lemma Occurs.append {a b : List α} (h : r.Occurs s) : r.Occurs (a ++ (s ++ b)) := by
  obtain ⟨u, w, v, rfl, hw⟩ := h
  exact ⟨a ++ u, w, v ++ b, by simp, hw⟩

lemma isSome_head?_iff {l : List (Match α)} : l.head?.isSome = true ↔ l ≠ [] := by
  cases l with
  | nil => simp
  | cons m l => simp

theorem isSome_find_iff : (find r s).isSome = true ↔ r.Occurs s := by
  induction s with
  | nil => rw [occurs_nil_iff, find, isSome_head?_iff]
  | cons a s ih =>
    rw [occurs_cons_iff, find, Option.isSome_or, Bool.or_eq_true, isSome_head?_iff, ih]

lemma matchFrom_of_le (k : ℕ) (s : List α) : matchFrom r k s = matchAll r (s.drop k) := by
  induction s generalizing k with
  | nil => cases k <;> rfl
  | cons a s ih =>
    cases k with
    | zero => rfl
    | succ k => exact ih k

lemma matchAll_cons_of_nil {a : α} (h : results r (a :: s) = []) :
    matchAll r (a :: s) = matchAll r s := by
  rw [matchAll, matchFrom, h]
  rfl

/-- The search goes on behind a match. -/
lemma matchAll_of_head {m : Match α} (h : (results r s).head? = some m) (hne : m.text ≠ []) :
    matchAll r s = m :: matchAll r m.rest := by
  obtain ⟨hs, -⟩ := lang_of_mem (List.mem_of_head? h)
  obtain ⟨a, w, hw⟩ := List.exists_cons_of_ne_nil hne
  rw [hw] at hs
  subst hs
  rw [List.cons_append] at h
  rw [List.cons_append, matchAll, matchFrom, h]
  have hdrop : (w ++ m.rest).drop (m.text.length - 1) = m.rest := by
    rw [hw]
    exact List.drop_left
  simp only [matchFrom_of_le, hdrop]

theorem matchAll_ne_nil_iff (hmin : 0 < r.minLength) : matchAll r s ≠ [] ↔ r.Occurs s := by
  induction s with
  | nil =>
    refine iff_of_false (not_not.2 rfl) ?_
    intro h
    exact absurd h.minLength_le (Nat.not_le.2 hmin)
  | cons a s ih =>
    rw [occurs_cons_iff]
    cases h : (results r (a :: s)).head? with
    | none =>
      rw [List.head?_eq_none_iff] at h
      rw [matchAll_cons_of_nil h, ih, h]
      simp
    | some m =>
      obtain ⟨-, hw⟩ := lang_of_mem (List.mem_of_head? h)
      have hne : m.text ≠ [] := List.ne_nil_of_length_pos (hmin.trans_le hw.minLength_le)
      rw [matchAll_of_head h hne]
      refine iff_of_true (List.cons_ne_nil _ _) (.inl ?_)
      exact List.ne_nil_of_mem (List.mem_of_head? h)

/-! ### The first match -/

/-- The match at the beginning of the text that comes first. -/
def First (r : Regex α) (s : List α) (m : Match α) : Prop := (results r s).head? = some m

lemma head?_runs {p : α → Bool} {lo : ℕ} {hi : Option ℕ} {w t : List α}
    (hw : (many p lo hi).Lang w) (hstop : (∀ a ∈ t.head?, p a = false) ∨ hi = some w.length) :
    (runs p lo hi (w ++ t)).head? = some (w, t) := by
  induction w generalizing lo hi with
  | nil =>
    have hlo : lo = 0 := Nat.le_zero.1 hw.2.1
    cases t with
    | nil => simp [runs, hlo]
    | cons a t =>
      have hno : ¬ (p a = true ∧ hi ≠ some 0) := by
        rintro ⟨hp, hhi⟩
        rcases hstop with h | h
        · exact absurd hp (by simp [h a rfl])
        · exact hhi h
      simp [runs, hlo, hno]
  | cons a w ih =>
    obtain ⟨hp, hlo, hhi⟩ := hw
    have hne : hi ≠ some 0 := by
      rintro rfl
      exact absurd (hhi 0 rfl) (Nat.not_succ_le_zero _)
    have hlang : (many p (lo - 1) (hi.map Nat.pred)).Lang w := by
      refine ⟨fun b hb => hp b (List.mem_cons_of_mem _ hb), Nat.sub_le_of_le_add hlo, ?_⟩
      rintro n hn
      obtain ⟨m, rfl, rfl⟩ := Option.map_eq_some_iff.1 hn
      exact Nat.le_pred_of_lt (hhi m rfl)
    have hstop : (∀ a ∈ t.head?, p a = false) ∨ hi.map Nat.pred = some w.length := by
      rcases hstop with h | rfl
      · exact .inl h
      · exact .inr rfl
    rw [List.cons_append, runs, if_pos ⟨hp a List.mem_cons_self, hne⟩, List.head?_append,
      List.head?_map, ih hlang hstop]
    rfl

namespace First

variable {m n : Match α} {t : Regex α}

/-- A repetition takes all letters up to one that is not of its class. -/
lemma many {p : α → Bool} {lo : ℕ} {hi : Option ℕ} {w u : List α}
    (hw : (Regex.many p lo hi).Lang w)
    (hstop : (∀ a ∈ u.head?, p a = false) ∨ hi = some w.length) :
    First (.many p lo hi) (w ++ u) ⟨w, [], u⟩ := by
  rw [First, results, List.head?_map, head?_runs hw hstop]
  rfl

lemma seq (hm : First r s m) (hn : First t m.rest n) :
    First (.seq r t) s ⟨m.text ++ n.text, m.groups ++ n.groups, n.rest⟩ := by
  obtain ⟨ms, hms⟩ := List.head?_eq_some_iff.1 hm
  obtain ⟨ns, hns⟩ := List.head?_eq_some_iff.1 hn
  simp [First, results, hms, hns]

lemma opt (hm : First r s m) : First (.opt r) s m := by
  obtain ⟨ms, hms⟩ := List.head?_eq_some_iff.1 hm
  simp [First, results, hms]

/-- What does not match is left out. -/
lemma skip (h : results r s = []) : First (.opt r) s ⟨[], [], s⟩ := by
  simp [First, results, h]

lemma group (k : ℕ) (hm : First r s m) :
    First (.group k r) s ⟨m.text, (k, m.text) :: m.groups, m.rest⟩ := by
  obtain ⟨ms, hms⟩ := List.head?_eq_some_iff.1 hm
  simp [First, results, hms]

lemma seqs_nil : First (seqs []) s ⟨[], [], s⟩ := rfl

lemma seqs_cons {rs : List (Regex α)} (hm : First r s m) (hn : First (seqs rs) m.rest n) :
    First (seqs (r :: rs)) s ⟨m.text ++ n.text, m.groups ++ n.groups, n.rest⟩ := hm.seq hn

/-- The search goes on behind the first match. -/
lemma matchAll_eq (hm : First r s m) (hmin : 0 < r.minLength) :
    matchAll r s = m :: matchAll r m.rest := by
  obtain ⟨-, hw⟩ := lang_of_mem (List.mem_of_head? hm)
  exact matchAll_of_head hm (List.ne_nil_of_length_pos (hmin.trans_le hw.minLength_le))

end First

/-! ### Letters taken out -/

/-- The second text is the first one without some of its letters `c`. -/
inductive Drops (c : α) : List α → List α → Prop
  | nil : Drops c [] []
  | keep (a : α) {s t : List α} (h : Drops c s t) : Drops c (a :: s) (a :: t)
  | drop {s t : List α} (h : Drops c s t) : Drops c (c :: s) t

section Drops

variable {c : α} {t : List α}

lemma Drops.refl (c : α) (s : List α) : Drops c s s := by
  induction s with
  | nil => exact .nil
  | cons a s ih => exact .keep a ih

lemma Drops.append {u v : List α} (hs : Drops c s t) (hu : Drops c u v) :
    Drops c (s ++ u) (t ++ v) := by
  induction hs with
  | nil => exact hu
  | keep a h ih => exact .keep a ih
  | drop h ih => exact .drop ih

lemma Drops.of_append {a b : List α} (h : Drops c (a ++ b) t) :
    ∃ a' b', t = a' ++ b' ∧ Drops c a a' ∧ Drops c b b' := by
  induction a generalizing t with
  | nil => exact ⟨[], t, rfl, .nil, h⟩
  | cons x a ih =>
    cases h with
    | keep _ h =>
      obtain ⟨a', b', rfl, ha, hb⟩ := ih h
      exact ⟨x :: a', b', rfl, .keep x ha, hb⟩
    | drop h =>
      obtain ⟨a', b', rfl, ha, hb⟩ := ih h
      exact ⟨a', b', rfl, .drop ha, hb⟩

lemma Drops.sublist (h : Drops c s t) : t.Sublist s := by
  induction h with
  | nil => exact .slnil
  | keep a h ih => exact ih.cons_cons a
  | drop h ih => exact ih.cons _

lemma Drops.eq_of_not_mem (h : Drops c s t) (hc : c ∉ s) : t = s := by
  induction h with
  | nil => rfl
  | keep a h ih => rw [ih fun hs => hc (List.mem_cons_of_mem _ hs)]
  | drop h ih => exact absurd List.mem_cons_self hc

/-- The expression for texts in which letters `c` may be missing. -/
def loosen (c : α) : Regex α → Regex α
  | .empty        => .empty
  | .many p lo hi => .many p (if p c then 0 else lo) hi
  | .seq r t      => .seq (r.loosen c) (t.loosen c)
  | .opt r        => .opt (r.loosen c)
  | .group k r    => .group k (r.loosen c)

lemma Lang.loosen (hs : r.Lang s) (h : Drops c s t) : (r.loosen c).Lang t := by
  induction r generalizing s t with
  | empty =>
    cases hs
    cases h
    rfl
  | many p lo hi =>
    obtain ⟨hp, hlo, hhi⟩ := hs
    have hsub := h.sublist
    by_cases hc : p c = true
    · refine ⟨fun a ha => hp a (hsub.subset ha), ?_, fun n hn => hsub.length_le.trans (hhi n hn)⟩
      simp [hc]
    · have ht : t = s := h.eq_of_not_mem fun hmem => hc (hp c hmem)
      subst ht
      refine ⟨hp, ?_, hhi⟩
      simpa [hc] using hlo
  | seq r q ihr ihq =>
    obtain ⟨u, v, rfl, hu, hv⟩ := hs
    obtain ⟨u', v', rfl, hu', hv'⟩ := h.of_append
    exact ⟨u', v', rfl, ihr hu hu', ihq hv hv'⟩
  | opt r ih =>
    rcases hs with hs | rfl
    · exact .inl (ih hs h)
    · cases h
      exact .inr rfl
  | group k r ih => exact ih hs h

/-- A match that lies over letters taken out is one of the looser expression. -/
lemma Occurs.loosen (hs : r.Occurs s) (h : Drops c s t) : (r.loosen c).Occurs t := by
  obtain ⟨a, w, b, rfl, hw⟩ := hs
  obtain ⟨a', v, rfl, -, hv⟩ := h.of_append
  obtain ⟨w', b', rfl, hw', -⟩ := hv.of_append
  exact ⟨a', w', b', rfl, hw.loosen hw'⟩

end Drops

end Regex
