import Mathlib.Data.List.Pairwise
import Mathlib.Data.List.Perm.Basic
import Mathlib.Logic.Function.Basic
import Mathlib.Tactic.Common

/-!
# Handles that are acquired and released

Parties (numbered) acquire resources under handles, use them, hand them to each other and release
them. A handle names a resource only while that is live; the same handle can be given out again
afterwards. The ledger keeps every resource that was ever acquired, with its holder and the number
of its releases, and notes when a party touches a handle that it does not hold.
-/

namespace Effect

/-- A resource that was acquired. -/
structure Item (H K : Type) where
  handle : H
  kind : K
  holder : ℕ
  releases : ℕ := 0
  deriving DecidableEq

namespace Item

variable {H K : Type} [DecidableEq H]

/-- The handle names this resource. -/
def named (h : H) (it : Item H K) : Bool := it.handle = h ∧ it.releases = 0

def release (h : H) (it : Item H K) : Item H K :=
  if it.named h then { it with releases := it.releases + 1 } else it

def give (j : ℕ) (h : H) (it : Item H K) : Item H K :=
  if it.named h then { it with holder := j } else it

/-- No handle names both. -/
def Apart (a b : Item H K) : Prop := ∀ h, a.named h → ¬ b.named h

instance : Std.Symm (Apart (H := H) (K := K)) := ⟨fun _ _ hab x hb ha => hab x ha hb⟩

lemma named_iff {h : H} {it : Item H K} : it.named h ↔ it.handle = h ∧ it.releases = 0 := by
  simp [named]

lemma named_release {h x : H} {it : Item H K} :
    (it.release h).named x ↔ it.named x ∧ x ≠ h := by
  by_cases hn : it.named h
  · rw [release, if_pos hn, named_iff]
    constructor
    · rintro ⟨-, h0⟩
      exact absurd h0 (Nat.succ_ne_zero _)
    · rintro ⟨hx, hne⟩
      exact absurd ((named_iff.1 hx).1.symm.trans (named_iff.1 hn).1) hne
  · rw [release, if_neg hn]
    refine ⟨fun hx => ⟨hx, ?_⟩, And.left⟩
    rintro rfl
    exact hn hx

@[simp] lemma named_give {h x : H} {j : ℕ} {it : Item H K} :
    (it.give j h).named x = it.named x := by
  rw [give]
  split
  · rfl
  · rfl

@[simp] lemma holder_release {h : H} {it : Item H K} : (it.release h).holder = it.holder := by
  rw [release]
  split
  · rfl
  · rfl

lemma holder_give {h x : H} {j : ℕ} {it : Item H K} (hx : it.named x) :
    (it.give j h).holder = if x = h then j else it.holder := by
  obtain ⟨rfl, h0⟩ := named_iff.1 hx
  simp only [give, named_iff, h0, and_true]
  split
  · rfl
  · rfl

lemma releases_release_le {h : H} {it : Item H K} (hit : it.releases ≤ 1) :
    (it.release h).releases ≤ 1 := by
  rw [release]
  split
  · rename_i hn
    exact Nat.le_of_eq (congrArg (· + 1) (named_iff.1 hn).2)
  · exact hit

@[simp] lemma releases_give {h : H} {j : ℕ} {it : Item H K} :
    (it.give j h).releases = it.releases := by
  rw [give]
  split
  · rfl
  · rfl

end Item

structure Ledger (H K : Type) [DecidableEq H] where
  items : List (Item H K) := []
  misuse : Bool := false
  apart : items.Pairwise Item.Apart := by exact .nil
  once : ∀ it ∈ items, it.releases ≤ 1 := by exact nofun

namespace Ledger

variable {H K : Type} [DecidableEq H]

/-- The party that holds what a handle names. -/
def holderOf (l : Ledger H K) (h : H) : Option ℕ :=
  (l.items.find? (Item.named h)).map Item.holder

lemma holderOf_eq_none {l : Ledger H K} {h : H} :
    l.holderOf h = none ↔ ∀ it ∈ l.items, ¬ it.named h := by
  simp [holderOf]

/-- What is not released is held. -/
lemma holderOf_handle (l : Ledger H K) {it : Item H K} (hit : it ∈ l.items)
    (h0 : it.releases = 0) : l.holderOf it.handle = some it.holder := by
  have hn : it.named it.handle := Item.named_iff.2 ⟨rfl, h0⟩
  cases hfind : l.items.find? (Item.named it.handle) with
  | none => exact absurd hn (List.find?_eq_none.1 hfind it hit)
  | some a =>
    have ha : a.named it.handle := List.find?_some hfind
    obtain rfl : a = it := by
      by_contra hne
      exact l.apart.forall (List.mem_of_find?_eq_some hfind) hit hne _ ha hn
    rw [holderOf, hfind]
    rfl

/-! ### The operations -/

/-- A party acquires a resource under a handle that names nothing. -/
def acquire (l : Ledger H K) (i : ℕ) (kind : K) (h : H) (hf : l.holderOf h = none) :
    Ledger H K where
  items := l.items ++ [⟨h, kind, i, 0⟩]
  misuse := l.misuse
  apart := by
    rw [List.pairwise_append]
    refine ⟨l.apart, List.pairwise_singleton _ _, ?_⟩
    intro a ha b hb x hax hbx
    obtain rfl := List.mem_singleton.1 hb
    obtain ⟨rfl, -⟩ := Item.named_iff.1 hbx
    exact holderOf_eq_none.1 hf a ha hax
  once := by
    intro it hit
    rcases List.mem_append.1 hit with hit | hit
    · exact l.once it hit
    · obtain rfl := List.mem_singleton.1 hit
      exact Nat.zero_le _

/-- A party uses what the handle names. -/
def use (l : Ledger H K) (i : ℕ) (h : H) : Ledger H K :=
  { l with misuse := l.misuse || l.holderOf h ≠ some i }

/-- A party releases what the handle names. -/
def release (l : Ledger H K) (i : ℕ) (h : H) : Ledger H K where
  items := l.items.map (Item.release h)
  misuse := l.misuse || l.holderOf h ≠ some i
  apart := List.pairwise_map.2 <| l.apart.imp fun hab x ha hb =>
    hab x (Item.named_release.1 ha).1 (Item.named_release.1 hb).1
  once := by
    intro it hit
    obtain ⟨a, ha, rfl⟩ := List.mem_map.1 hit
    exact Item.releases_release_le (l.once a ha)

/-- A party hands what the handle names to another one. -/
def give (l : Ledger H K) (i j : ℕ) (h : H) : Ledger H K where
  items := l.items.map (Item.give j h)
  misuse := l.misuse || l.holderOf h ≠ some i
  apart := List.pairwise_map.2 <| l.apart.imp fun hab x ha hb =>
    hab x (by rwa [Item.named_give] at ha) (by rwa [Item.named_give] at hb)
  once := by
    intro it hit
    obtain ⟨a, ha, rfl⟩ := List.mem_map.1 hit
    rw [Item.releases_give]
    exact l.once a ha

lemma holderOf_acquire {l : Ledger H K} {i : ℕ} {kind : K} {h : H} (hf : l.holderOf h = none)
    (x : H) : (l.acquire i kind h hf).holderOf x = if x = h then some i else l.holderOf x := by
  by_cases hx : x = h
  · subst hx
    have hnone : l.items.find? (Item.named x) = none := by simpa [holderOf] using hf
    simp [holderOf, acquire, List.find?_append, hnone, Item.named]
  · have hne : h ≠ x := Ne.symm hx
    simp [holderOf, acquire, List.find?_append, hx, hne, Item.named]

lemma holderOf_release {l : Ledger H K} {i : ℕ} {h : H} (x : H) :
    (l.release i h).holderOf x = if x = h then none else l.holderOf x := by
  by_cases hx : x = h
  · rw [if_pos hx, holderOf_eq_none]
    intro it hit hn
    obtain ⟨a, -, rfl⟩ := List.mem_map.1 hit
    exact (Item.named_release.1 hn).2 hx
  · have hcomp : Item.named x ∘ Item.release (K := K) h = Item.named x := by
      funext it
      exact Bool.eq_iff_iff.2 (Item.named_release.trans (and_iff_left hx))
    have hholder : Item.holder ∘ Item.release (K := K) h = Item.holder := by
      funext it
      exact Item.holder_release
    rw [if_neg hx, holderOf, release, List.find?_map, hcomp, Option.map_map, hholder, holderOf]

lemma holderOf_give {l : Ledger H K} {i j : ℕ} {h : H} (hh : l.holderOf h = some i) (x : H) :
    (l.give i j h).holderOf x = if x = h then some j else l.holderOf x := by
  have hcomp : Item.named x ∘ Item.give (K := K) j h = Item.named x := by
    funext it
    exact Item.named_give
  rw [holderOf, give, List.find?_map, hcomp, Option.map_map]
  cases hfind : l.items.find? (Item.named x) with
  | none =>
    have hne : x ≠ h := by
      rintro rfl
      simp [holderOf, hfind] at hh
    simp [holderOf, hfind, hne]
  | some it =>
    have hx : it.named x := List.find?_some hfind
    by_cases hxh : x = h
    · simp [Item.holder_give hx, hxh]
    · simp [Item.holder_give hx, hxh, holderOf, hfind]

/-! ### Who holds what -/

/-- Nobody touched a handle that it does not hold, and `hs` gives the handles that each party
holds. -/
structure Held (l : Ledger H K) (hs : ℕ → List H) : Prop where
  misuse : l.misuse = false
  holder : ∀ h i, l.holderOf h = some i ↔ h ∈ hs i
  nodup : ∀ i, (hs i).Nodup

namespace Held

variable {l : Ledger H K} {hs : ℕ → List H} {i j : ℕ} {x : H} {t u : List H}

lemma notMem (h : l.Held hs) (hx : l.holderOf x = none) (i : ℕ) : x ∉ hs i := by
  intro hi
  rw [(h.holder x i).2 hi] at hx
  cases hx

/-- A party holds its handles in another order. -/
lemma perm (h : l.Held hs) (ht : t.Perm (hs i)) : l.Held (Function.update hs i t) where
  misuse := h.misuse
  holder := by
    intro y k
    by_cases hki : k = i
    · subst hki
      rw [Function.update_self, ht.mem_iff, h.holder]
    · rw [Function.update_of_ne hki, h.holder]
  nodup := (Function.forall_update_iff hs fun _ l => l.Nodup).2
    ⟨ht.symm.nodup (h.nodup i), fun k _ => h.nodup k⟩

lemma use (h : l.Held hs) (hx : x ∈ hs i) : (l.use i x).Held hs where
  misuse := by simp [Ledger.use, h.misuse, (h.holder x i).2 hx]
  holder := h.holder
  nodup := h.nodup

lemma acquire (h : l.Held hs) {kind : K} (hf : l.holderOf x = none) (ht : t.Perm (x :: hs i)) :
    (l.acquire i kind x hf).Held (Function.update hs i t) where
  misuse := h.misuse
  holder := by
    intro y k
    rw [holderOf_acquire]
    by_cases hki : k = i
    · subst hki
      rw [Function.update_self, ht.mem_iff, List.mem_cons, ← h.holder]
      split
      · simp [*]
      · simp [*]
    · rw [Function.update_of_ne hki, ← h.holder]
      split
      · rename_i hy
        subst hy
        simp [hf, Ne.symm hki]
      · rfl
  nodup := (Function.forall_update_iff hs fun _ l => l.Nodup).2
    ⟨ht.nodup_iff.2 (List.nodup_cons.2 ⟨h.notMem hf i, h.nodup i⟩), fun k _ => h.nodup k⟩

lemma release (h : l.Held hs) (ht : (hs i).Perm (x :: t)) :
    (l.release i x).Held (Function.update hs i t) where
  misuse := by
    simp [Ledger.release, h.misuse, (h.holder x i).2 (ht.mem_iff.2 List.mem_cons_self)]
  holder := by
    have hx : l.holderOf x = some i := (h.holder x i).2 (ht.mem_iff.2 List.mem_cons_self)
    have hxt : x ∉ t := (List.nodup_cons.1 (ht.nodup (h.nodup i))).1
    intro y k
    rw [holderOf_release]
    by_cases hki : k = i
    · subst hki
      rw [Function.update_self]
      split
      · simp [*]
      · rw [h.holder, ht.mem_iff, List.mem_cons]
        simp [*]
    · rw [Function.update_of_ne hki, ← h.holder]
      split
      · rename_i hy
        subst hy
        simp [hx, Ne.symm hki]
      · rfl
  nodup := (Function.forall_update_iff hs fun _ l => l.Nodup).2
    ⟨(List.nodup_cons.1 (ht.nodup (h.nodup i))).2, fun k _ => h.nodup k⟩

lemma give (h : l.Held hs) (hij : i ≠ j) (ht : (hs i).Perm (x :: t)) (hu : u.Perm (x :: hs j)) :
    (l.give i j x).Held (Function.update (Function.update hs i t) j u) where
  misuse := by
    simp [Ledger.give, h.misuse, (h.holder x i).2 (ht.mem_iff.2 List.mem_cons_self)]
  holder := by
    have hx : l.holderOf x = some i := (h.holder x i).2 (ht.mem_iff.2 List.mem_cons_self)
    have hxt : x ∉ t := (List.nodup_cons.1 (ht.nodup (h.nodup i))).1
    intro y k
    rw [holderOf_give hx]
    by_cases hkj : k = j
    · subst hkj
      rw [Function.update_self, hu.mem_iff, List.mem_cons, ← h.holder]
      split
      · simp [*]
      · simp [*]
    · rw [Function.update_of_ne hkj]
      by_cases hki : k = i
      · subst hki
        rw [Function.update_self]
        split
        · simp [*, Ne.symm hkj]
        · rw [h.holder, ht.mem_iff, List.mem_cons]
          simp [*]
      · rw [Function.update_of_ne hki, ← h.holder]
        split
        · rename_i hy
          subst hy
          simp [hx, Ne.symm hki, Ne.symm hkj]
        · rfl
  nodup := by
    have hxj : x ∉ hs j := by
      intro hj
      have hi := (h.holder x i).2 (ht.mem_iff.2 List.mem_cons_self)
      exact hij (Option.some.inj (hi.symm.trans ((h.holder x j).2 hj)))
    refine (Function.forall_update_iff _ fun _ (l : List H) => l.Nodup).2
      ⟨hu.nodup_iff.2 (List.nodup_cons.2 ⟨hxj, h.nodup j⟩), fun k _ => ?_⟩
    refine (Function.forall_update_iff hs fun _ l => l.Nodup).2
      ⟨(List.nodup_cons.1 (ht.nodup (h.nodup i))).2, fun k _ => h.nodup k⟩ k

/-- Every resource was released once, or not yet, and then it is held. -/
lemma items (h : l.Held hs) {it : Item H K} (hit : it ∈ l.items) :
    it.releases = 1 ∨ it.releases = 0 ∧ it.handle ∈ hs it.holder := by
  rcases Nat.le_one_iff_eq_zero_or_eq_one.1 (l.once it hit) with h0 | h1
  · exact .inr ⟨h0, (h.holder _ _).1 (l.holderOf_handle hit h0)⟩
  · exact .inl h1

end Held
end Ledger

/-! ### Parties as automata -/

namespace Ledger

variable {H Q : Type} {handles : Q → List H}

/-- What each party holds, by its state. -/
def holding (handles : Q → List H) (qs : List Q) (i : ℕ) : List H :=
  ((qs[i]?).map handles).getD []

lemma holding_of_get {qs : List Q} {i : ℕ} {q : Q} (h : qs[i]? = some q) :
    holding handles qs i = handles q := by
  simp [holding, h]

lemma holding_set {qs : List Q} {i : ℕ} {q : Q} (h : qs[i]? = some q) (q' : Q) :
    holding handles (qs.set i q') = Function.update (holding handles qs) i (handles q') := by
  have hi : i < qs.length := (List.getElem?_eq_some_iff.1 h).1
  funext k
  by_cases hki : k = i
  · subst hki
    simp [holding, hi]
  · simp [holding, hki, Ne.symm hki]

lemma holding_append (qs : List Q) (q : Q) :
    holding handles (qs ++ [q]) =
      Function.update (holding handles qs) qs.length (handles q) := by
  funext k
  by_cases hk : k = qs.length
  · subst hk
    simp [holding]
  · rw [Function.update_of_ne hk, holding, holding]
    rcases Nat.lt_or_gt_of_ne hk with hlt | hgt
    · rw [List.getElem?_append_left hlt]
    · have hgt' : (qs ++ [q]).length ≤ k := by simpa using Nat.succ_le_of_lt hgt
      rw [List.getElem?_eq_none (Nat.le_of_lt hgt), List.getElem?_eq_none hgt']

lemma mem_holding {qs : List Q} {i : ℕ} {x : H} (h : x ∈ holding handles qs i) :
    ∃ q, qs[i]? = some q ∧ x ∈ handles q := by
  rw [holding] at h
  cases hq : qs[i]? with
  | none => simp [hq] at h
  | some q => exact ⟨q, rfl, by simpa [hq] using h⟩

lemma held_empty {K : Type} [DecidableEq H] :
    Held ({} : Ledger H K) (holding handles []) where
  misuse := rfl
  holder h i := by simp [holderOf, holding]
  nodup i := by simp [holding]

lemma holding_length (qs : List Q) : holding handles qs qs.length = [] := by
  simp [holding]

end Ledger
end Effect
