import Mathlib.Data.Set.Card

/-!
# Maps of bounded size

A partial map from keys to records with at most `cap` keys. A new key is inserted only while there
is room; every other operation keeps the domain or makes it smaller.
-/

structure BoundedMap (K R : Type*) (cap : ℕ) where
  get : K → Option R
  finite_dom : {k | (get k).isSome}.Finite
  card_dom : {k | (get k).isSome}.ncard ≤ cap

namespace BoundedMap

variable {K R : Type*} {cap : ℕ}

/-- The keys with a record. -/
def dom (m : BoundedMap K R cap) : Set K := {k | (m.get k).isSome}

/-- The number of keys with a record. -/
noncomputable def size (m : BoundedMap K R cap) : ℕ := m.dom.ncard

@[simp] lemma mem_dom {m : BoundedMap K R cap} {k : K} : k ∈ m.dom ↔ (m.get k).isSome := Iff.rfl

@[ext] lemma ext {m m' : BoundedMap K R cap} (h : ∀ k, m.get k = m'.get k) : m = m' := by
  cases m
  cases m'
  simp only [mk.injEq]
  exact funext h

/-- A map with its keys among those of `m`. -/
def restrict (m : BoundedMap K R cap) (get : K → Option R)
    (h : ∀ k, (get k).isSome → (m.get k).isSome) : BoundedMap K R cap where
  get := get
  finite_dom := m.finite_dom.subset h
  card_dom := (Set.ncard_le_ncard h m.finite_dom).trans m.card_dom

/-! ### The operations -/

def empty : BoundedMap K R cap where
  get := fun _ => none
  finite_dom := by simp
  card_dom := by simp

/-- Drop every entry that `keep` refuses. -/
def filter (keep : K → R → Bool) (m : BoundedMap K R cap) : BoundedMap K R cap :=
  m.restrict (fun k => (m.get k).filter (keep k)) fun k h => by
    cases hk : m.get k with
    | none => simp [hk] at h
    | some r => rfl

@[simp] lemma get_empty (k : K) : (empty : BoundedMap K R cap).get k = none := rfl

@[simp] lemma get_filter (keep : K → R → Bool) (m : BoundedMap K R cap) (k : K) :
    (m.filter keep).get k = (m.get k).filter (keep k) := rfl

variable [DecidableEq K]

/-- Change the record of `k`, if it has one. -/
def modify (k : K) (f : R → R) (m : BoundedMap K R cap) : BoundedMap K R cap :=
  m.restrict (fun k' => if k' = k then (m.get k').map f else m.get k') fun k' h => by
    by_cases hk : k' = k
    · simpa [hk] using h
    · simpa [hk] using h

def erase (k : K) (m : BoundedMap K R cap) : BoundedMap K R cap :=
  m.restrict (fun k' => if k' = k then none else m.get k') fun k' h => by
    by_cases hk : k' = k
    · simp [hk] at h
    · simpa [hk] using h

/-- Give the new key `k` the record `r`, if there is room. -/
noncomputable def insert (k : K) (r : R) (m : BoundedMap K R cap) : BoundedMap K R cap :=
  if h : m.size < cap then
    { get := fun k' => if k' = k then some r else m.get k'
      finite_dom := (m.finite_dom.insert k).subset fun k' hk' => by
        by_cases hk : k' = k
        · exact Or.inl hk
        · exact Or.inr (by simpa [hk] using hk')
      card_dom := by
        refine (Set.ncard_le_ncard ?_ (m.finite_dom.insert k)).trans
          ((Set.ncard_insert_le k m.dom).trans h)
        intro k' hk'
        by_cases hk : k' = k
        · exact Or.inl hk
        · exact Or.inr (by simpa [hk] using hk') }
  else m

@[simp] lemma get_modify (k k' : K) (f : R → R) (m : BoundedMap K R cap) :
    (m.modify k f).get k' = if k' = k then (m.get k').map f else m.get k' := rfl

@[simp] lemma get_erase (k k' : K) (m : BoundedMap K R cap) :
    (m.erase k).get k' = if k' = k then none else m.get k' := rfl

lemma modify_absent {m : BoundedMap K R cap} {k : K} (h : m.get k = none) (f : R → R) :
    m.modify k f = m := by
  ext1 k'
  by_cases hk : k' = k
  · simp [hk, h]
  · simp [hk]

lemma erase_absent {m : BoundedMap K R cap} {k : K} (h : m.get k = none) : m.erase k = m := by
  ext1 k'
  by_cases hk : k' = k
  · simp [hk, h]
  · simp [hk]

lemma get_insert {m : BoundedMap K R cap} (h : m.size < cap) (k k' : K) (r : R) :
    (m.insert k r).get k' = if k' = k then some r else m.get k' := by
  simp [insert, h]

lemma insert_full {m : BoundedMap K R cap} (h : ¬ m.size < cap) (k : K) (r : R) :
    m.insert k r = m := by
  simp [insert, h]

end BoundedMap
