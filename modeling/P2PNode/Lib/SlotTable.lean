import Mathlib.Data.Fintype.Card
import P2PNode.Lib.BoundedMap

/-!
# Tables of slots

A fixed number of slots, each one live or blank, in which a key is found by looking at one slot
after the other and a new entry takes the first dead slot. Such a table represents a
`BoundedMap`: `Represents` is kept by overwriting, filling and clearing slots, each one being an
operation on the map.
-/

/-- How a slot is read: whether it is in use, its key and its record. -/
structure SlotView (S K R : Type*) where
  live : S → Bool
  key : S → K
  val : S → R
  blank : S
  live_blank : live blank = false

namespace SlotView

variable {S K R : Type*} {n : ℕ} (V : SlotView S K R)

/-- Dead slots are blank, and no key is in two live slots. -/
structure Ok (t : Fin n → S) : Prop where
  dead_blank : ∀ i, V.live (t i) = false → t i = V.blank
  key_inj : ∀ i j, V.live (t i) → V.live (t j) → V.key (t i) = V.key (t j) → i = j

/-- The first dead slot. -/
def free (t : Fin n → S) : Option (Fin n) := (List.finRange n).find? fun i => !V.live (t i)

/-- The live slots in their order. -/
def entries (t : Fin n → S) : List S := ((List.finRange n).map t).filter V.live

variable [DecidableEq K]

/-- The first live slot with the key `k`. -/
def find (t : Fin n → S) (k : K) : Option (Fin n) :=
  (List.finRange n).find? fun i => V.live (t i) && decide (V.key (t i) = k)

/-- The table as a map. -/
def read (t : Fin n → S) (k : K) : Option R := (V.find t k).map fun i => V.val (t i)

variable {V} {t : Fin n → S} {i : Fin n} {k : K}

/-! ### Looking for a slot -/

lemma live_of_find (h : V.find t k = some i) : V.live (t i) := by
  have := List.find?_some h
  simp only [Bool.and_eq_true] at this
  exact this.1

lemma key_of_find (h : V.find t k = some i) : V.key (t i) = k := by
  have := List.find?_some h
  simp only [Bool.and_eq_true, decide_eq_true_eq] at this
  exact this.2

lemma key_ne_of_find (h : V.find t k = none) (hi : V.live (t i)) : V.key (t i) ≠ k := by
  intro hk
  have := List.find?_eq_none.1 h i (List.mem_finRange i)
  simp [hi, hk] at this

omit [DecidableEq K] in
lemma dead_of_free (h : V.free t = some i) : V.live (t i) = false := by
  simpa using List.find?_some h

omit [DecidableEq K] in
lemma live_of_free (h : V.free t = none) (i : Fin n) : V.live (t i) := by
  simpa using List.find?_eq_none.1 h i (List.mem_finRange i)

lemma Ok.find_eq_some (h : V.Ok t) :
    V.find t k = some i ↔ V.live (t i) ∧ V.key (t i) = k := by
  constructor
  · intro hf
    exact ⟨live_of_find hf, key_of_find hf⟩
  · rintro ⟨hl, hk⟩
    cases hf : V.find t k with
    | none => exact absurd hk (key_ne_of_find hf hl)
    | some j =>
      have hj : j = i :=
        h.key_inj j i (live_of_find hf) hl ((key_of_find hf).trans hk.symm)
      rw [hj]

lemma Ok.read_eq_some (h : V.Ok t) {r : R} :
    V.read t k = some r ↔ ∃ i, V.live (t i) ∧ V.key (t i) = k ∧ V.val (t i) = r := by
  simp only [read, Option.map_eq_some_iff, h.find_eq_some, and_assoc]

/-! ### Changing a slot -/

omit [DecidableEq K] in
lemma Ok.put (h : V.Ok t) {s : S} (hs : V.live s)
    (hk : ∀ j, j ≠ i → V.live (t j) → V.key (t j) ≠ V.key s) :
    V.Ok (Function.update t i s) where
  dead_blank := by
    intro j hj
    by_cases hji : j = i
    · subst hji
      simp [hs] at hj
    · simp only [Function.update_of_ne hji] at hj ⊢
      exact h.dead_blank j hj
  key_inj := by
    intro j j' hj hj' he
    by_cases hji : j = i <;> by_cases hji' : j' = i
    · exact hji.trans hji'.symm
    · subst hji
      simp only [Function.update_self, Function.update_of_ne hji'] at hj' he
      exact absurd he.symm (hk j' hji' hj')
    · subst hji'
      simp only [Function.update_self, Function.update_of_ne hji] at hj he
      exact absurd he (hk j hji hj)
    · simp only [Function.update_of_ne hji, Function.update_of_ne hji'] at hj hj' he
      exact h.key_inj j j' hj hj' he

lemma Ok.read_put (h : V.Ok t) {s : S} (hs : V.live s)
    (hk : ∀ j, j ≠ i → V.live (t j) → V.key (t j) ≠ V.key s)
    (hi : V.live (t i) → V.key (t i) = V.key s) :
    V.read (Function.update t i s) k = if k = V.key s then some (V.val s) else V.read t k := by
  have h' := h.put hs hk
  split
  · rename_i hks
    rw [h'.read_eq_some]
    exact ⟨i, by simp [hs, hks]⟩
  · rename_i hks
    refine Option.ext fun r => ?_
    rw [h'.read_eq_some, h.read_eq_some]
    constructor
    · rintro ⟨j, hj, hjk, hjr⟩
      have hji : j ≠ i := by
        rintro rfl
        simp only [Function.update_self] at hjk
        exact hks hjk.symm
      simp only [Function.update_of_ne hji] at hj hjk hjr
      exact ⟨j, hj, hjk, hjr⟩
    · rintro ⟨j, hj, hjk, hjr⟩
      have hji : j ≠ i := by
        rintro rfl
        exact hks (hjk.symm.trans (hi hj))
      refine ⟨j, ?_⟩
      simp only [Function.update_of_ne hji]
      exact ⟨hj, hjk, hjr⟩

/-- Blank every slot that `dead` names. -/
def sweep (V : SlotView S K R) (dead : Fin n → Bool) (t : Fin n → S) : Fin n → S :=
  fun i => if dead i then V.blank else t i

omit [DecidableEq K] in
lemma live_sweep {dead : Fin n → Bool} :
    V.live (V.sweep dead t i) = true ↔ dead i = false ∧ V.live (t i) = true := by
  cases hd : dead i <;> simp [sweep, hd, V.live_blank]

omit [DecidableEq K] in
lemma sweep_of_not {dead : Fin n → Bool} (h : dead i = false) : V.sweep dead t i = t i := by
  simp [sweep, h]

omit [DecidableEq K] in
lemma Ok.sweep (h : V.Ok t) (dead : Fin n → Bool) : V.Ok (V.sweep dead t) where
  dead_blank := by
    intro i hi
    cases hd : dead i with
    | true => simp [SlotView.sweep, hd]
    | false =>
      rw [sweep_of_not hd] at hi ⊢
      exact h.dead_blank i hi
  key_inj := by
    intro i j hi hj he
    obtain ⟨hdi, hli⟩ := live_sweep.1 hi
    obtain ⟨hdj, hlj⟩ := live_sweep.1 hj
    rw [sweep_of_not hdi, sweep_of_not hdj] at he
    exact h.key_inj i j hli hlj he

lemma Ok.read_sweep_eq_some (h : V.Ok t) {dead : Fin n → Bool} {r : R} :
    V.read (V.sweep dead t) k = some r ↔
      ∃ i, dead i = false ∧ V.live (t i) ∧ V.key (t i) = k ∧ V.val (t i) = r := by
  rw [(h.sweep dead).read_eq_some]
  constructor
  · rintro ⟨i, hi, hk, hr⟩
    obtain ⟨hd, hl⟩ := live_sweep.1 hi
    rw [sweep_of_not hd] at hk hr
    exact ⟨i, hd, hl, hk, hr⟩
  · rintro ⟨i, hd, hl, hk, hr⟩
    refine ⟨i, live_sweep.2 ⟨hd, hl⟩, ?_⟩
    rw [sweep_of_not hd]
    exact ⟨hk, hr⟩

/-! ### Counting the live slots -/

omit [DecidableEq K] in
lemma mem_entries {s : S} : s ∈ V.entries t ↔ V.live s ∧ ∃ i, t i = s := by
  simp [entries, and_comm]

omit [DecidableEq K] in
lemma Ok.nodup_keys (h : V.Ok t) : ((V.entries t).map V.key).Nodup := by
  have hp : (List.finRange n).Pairwise fun i j =>
      V.live (t i) → V.live (t j) → V.key (t i) ≠ V.key (t j) :=
    (List.nodup_finRange n).imp fun hij hi hj he => hij (h.key_inj _ _ hi hj he)
  rw [entries, List.Nodup, List.pairwise_map, List.pairwise_filter, List.pairwise_map]
  exact hp

lemma Ok.dom_eq (h : V.Ok t) :
    {k | (V.read t k).isSome} = {k | k ∈ (V.entries t).map V.key} := by
  ext k
  simp only [Set.mem_ofPred_eq, Option.isSome_iff_exists, h.read_eq_some, List.mem_map,
    mem_entries]
  constructor
  · rintro ⟨_, i, hl, hk, _⟩
    exact ⟨t i, ⟨hl, i, rfl⟩, hk⟩
  · rintro ⟨_, ⟨hl, i, rfl⟩, hk⟩
    exact ⟨V.val (t i), i, hl, hk, rfl⟩

lemma Ok.ncard_dom (h : V.Ok t) : {k | (V.read t k).isSome}.ncard = (V.entries t).length := by
  have hset : {k | k ∈ (V.entries t).map V.key} =
      (((V.entries t).map V.key).toFinset : Set K) := by
    ext k
    simp
  rw [h.dom_eq, hset, Set.ncard_coe_finset, List.toFinset_card_of_nodup h.nodup_keys,
    List.length_map]

omit [DecidableEq K] in
lemma length_entries_of_full (h : V.free t = none) : (V.entries t).length = n := by
  rw [entries, List.filter_eq_self.2, List.length_map, List.length_finRange]
  intro s hs
  obtain ⟨i, _, rfl⟩ := List.mem_map.1 hs
  exact live_of_free h i

omit [DecidableEq K] in
lemma length_entries_lt (h : V.free t = some i) : (V.entries t).length < n := by
  have hlt : ((List.finRange n).map t).filter V.live ≠ (List.finRange n).map t := by
    intro he
    have := List.filter_eq_self.1 he (t i) (List.mem_map_of_mem (List.mem_finRange i))
    simp [dead_of_free h] at this
  have hle := List.length_filter_le V.live ((List.finRange n).map t)
  have hne : (((List.finRange n).map t).filter V.live).length ≠
      ((List.finRange n).map t).length := by
    intro he
    exact hlt (List.filter_sublist.eq_of_length he)
  simp only [List.length_map, List.length_finRange] at hle hne
  rw [entries]
  omega

/-! ### The map of a table -/

/-- The table `t` is well formed and read as `m`. -/
structure Represents (V : SlotView S K R) (t : Fin n → S) (m : BoundedMap K R n) : Prop where
  ok : V.Ok t
  read_eq : ∀ k, V.read t k = m.get k

namespace Represents

variable {m : BoundedMap K R n}

lemma size_eq (h : V.Represents t m) : m.size = (V.entries t).length := by
  have hdom : m.dom = {k | (V.read t k).isSome} := by
    ext k
    simp [h.read_eq]
  rw [BoundedMap.size, hdom, h.ok.ncard_dom]

lemma get_of_live (h : V.Represents t m) (hi : V.live (t i)) :
    m.get (V.key (t i)) = some (V.val (t i)) := by
  rw [← h.read_eq, h.ok.read_eq_some]
  exact ⟨i, hi, rfl, rfl⟩

lemma get_of_find (h : V.Represents t m) (hf : V.find t k = some i) :
    m.get k = some (V.val (t i)) := by
  rw [← h.read_eq, read, hf, Option.map_some]

lemma get_of_not_find (h : V.Represents t m) (hf : V.find t k = none) : m.get k = none := by
  rw [← h.read_eq, read, hf, Option.map_none]

/-- A table of blank slots. -/
lemma blank : V.Represents (fun _ : Fin n => V.blank) BoundedMap.empty where
  ok := ⟨fun _ _ => rfl, fun _ _ hi => by simp [V.live_blank] at hi⟩
  read_eq := by
    intro k
    have hf : V.find (fun _ : Fin n => V.blank) k = none := by
      simp [find, V.live_blank]
    simp [read, hf]

/-- Overwriting the record of a key in its slot. -/
lemma overwrite (h : V.Represents t m) (hf : V.find t k = some i) {s : S} (hs : V.live s)
    (hk : V.key s = k) {f : R → R} (hv : V.val s = f (V.val (t i))) :
    V.Represents (Function.update t i s) (m.modify k f) := by
  have hother : ∀ j, j ≠ i → V.live (t j) → V.key (t j) ≠ V.key s := by
    intro j hji hj he
    refine hji (h.ok.key_inj j i hj (live_of_find hf) ?_)
    rw [he, hk, key_of_find hf]
  refine ⟨h.ok.put hs hother, fun k' => ?_⟩
  rw [h.ok.read_put hs hother fun _ => (key_of_find hf).trans hk.symm, hk, BoundedMap.get_modify]
  by_cases hk' : k' = k
  · subst hk'
    simp [h.get_of_find hf, hv]
  · simp [hk', h.read_eq]

/-- Filling a dead slot with a new key. -/
lemma fill (h : V.Represents t m) {s : S} (hs : V.live s) (hf : V.find t (V.key s) = none)
    (hi : V.free t = some i) :
    V.Represents (Function.update t i s) (m.insert (V.key s) (V.val s)) := by
  have hother : ∀ j, j ≠ i → V.live (t j) → V.key (t j) ≠ V.key s :=
    fun _ _ hj => key_ne_of_find hf hj
  have hsize : m.size < n := by
    rw [h.size_eq]
    exact length_entries_lt hi
  refine ⟨h.ok.put hs hother, fun k' => ?_⟩
  rw [h.ok.read_put hs hother fun hl => absurd hl (by simp [dead_of_free hi]),
    BoundedMap.get_insert hsize, h.read_eq]

/-- A full table takes no new key. -/
lemma full (h : V.Represents t m) (hi : V.free t = none) (k : K) (r : R) :
    V.Represents t (m.insert k r) := by
  have hsize : ¬ m.size < n := by
    rw [h.size_eq, length_entries_of_full hi]
    exact lt_irrefl n
  rwa [BoundedMap.insert_full hsize]

/-- Clearing the slot of a key. -/
lemma clear (h : V.Represents t m) (hf : V.find t k = some i) :
    V.Represents (Function.update t i V.blank) (m.erase k) := by
  have hsweep : Function.update t i V.blank = V.sweep (fun j => decide (j = i)) t := by
    funext j
    by_cases hj : j = i
    · simp [sweep, hj]
    · simp [sweep, hj]
  refine ⟨hsweep ▸ h.ok.sweep _, fun k' => Option.ext fun r => ?_⟩
  rw [hsweep, h.ok.read_sweep_eq_some, BoundedMap.get_erase]
  have hki := key_of_find hf
  by_cases hk' : k' = k
  · simp only [hk', if_true, reduceCtorEq, iff_false]
    rintro ⟨j, hj, hl, hk, _⟩
    have hji : j = i := h.ok.key_inj j i hl (live_of_find hf) (hk.trans hki.symm)
    simp [hji] at hj
  · rw [if_neg hk', ← h.read_eq, h.ok.read_eq_some]
    constructor
    · rintro ⟨j, _, hj⟩
      exact ⟨j, hj⟩
    · rintro ⟨j, hl, hk, hr⟩
      refine ⟨j, ?_, hl, hk, hr⟩
      simp only [decide_eq_false_iff_not]
      rintro rfl
      exact hk' (hk.symm.trans hki)

/-- Clearing the slots whose entries are refused. -/
lemma sweep (h : V.Represents t m) {dead : Fin n → Bool} {keep : K → R → Bool}
    (hd : ∀ i, V.live (t i) → keep (V.key (t i)) (V.val (t i)) = !dead i) :
    V.Represents (V.sweep dead t) (m.filter keep) := by
  refine ⟨h.ok.sweep dead, fun k => Option.ext fun r => ?_⟩
  rw [h.ok.read_sweep_eq_some, BoundedMap.get_filter, Option.filter_eq_some_iff, ← h.read_eq,
    h.ok.read_eq_some]
  constructor
  · rintro ⟨i, hdead, hl, rfl, rfl⟩
    refine ⟨⟨i, hl, rfl, rfl⟩, ?_⟩
    rw [hd i hl, hdead, Bool.not_false]
  · rintro ⟨⟨i, hl, rfl, rfl⟩, hkeep⟩
    refine ⟨i, ?_, hl, rfl, rfl⟩
    rw [hd i hl] at hkeep
    simpa using hkeep

/-- The entries of the table are those of the map. -/
lemma get_of_mem_entries (h : V.Represents t m) {s : S} (hs : s ∈ V.entries t) :
    m.get (V.key s) = some (V.val s) := by
  obtain ⟨hl, i, rfl⟩ := mem_entries.1 hs
  exact h.get_of_live hl

end Represents
end SlotView
