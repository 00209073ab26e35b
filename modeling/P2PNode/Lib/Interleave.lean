import P2PNode.Lib.Always
import Mathlib.Data.List.Forall2

/-!
# Interleaved programs

Any number of threads run over one shared world. A move lets one thread perform its next call,
with an answer the world accepts, or lets the world itself change (a child process, a timer, an
arriving message). A call may start a further thread.

`Conc.invariant` is the rule used for all of them: describe what one thread does by a local
automaton it obeys whatever the others do, and the shared world by an invariant over the automaton
states of all threads; then only single calls have to be checked, never programs.
-/

namespace Effect

/-- A concurrent system: `call` is the effect of an accepted answer to a call of thread `i`, `env`
the changes of the world by itself, `spawn` the thread that a call starts. -/
structure Conc (C : Type) (R : C → Type) (W E : Type) where
  call : W → ℕ → (c : C) → R c → Option W
  env : W → E → Option W
  spawn : (c : C) → R c → Option (Prog C R Unit)

/-- The threads, each given by what is left of its program, and the world. -/
structure Conf (C : Type) (R : C → Type) (W : Type) where
  threads : List (Prog C R Unit)
  world : W

/-- What a list holds at an index is still there when the list grows. -/
lemma getElem?_append_of_some {α : Type*} {l : List α} {n : ℕ} {x : α} (h : l[n]? = some x)
    (m : List α) : (l ++ m)[n]? = some x := by
  rw [List.getElem?_append_left (List.getElem?_eq_some_iff.1 h).1, h]

/-- One scheduling decision. -/
inductive Move (C : Type) (R : C → Type) (E : Type) where
  | call (i : ℕ) (c : C) (r : R c)
  | env (e : E)

namespace Conc

variable {C : Type} {R : C → Type} {W E Q : Type} [DecidableEq C]

/-- The configuration after a move, if the move is possible. -/
def next (K : Conc C R W E) (s : Conf C R W) : Move C R E → Option (Conf C R W)
  | .call i c r =>
    s.threads[i]?.bind fun p => (p.resume c r).bind fun p' =>
      (K.call s.world i c r).map fun w => ⟨s.threads.set i p' ++ (K.spawn c r).toList, w⟩
  | .env e => (K.env s.world e).map fun w => ⟨s.threads, w⟩

/-- The configurations reached from `s₀` by moves that all satisfy `ok` where they are made. -/
inductive Reach (K : Conc C R W E) (ok : W → Move C R E → Prop) (s₀ : Conf C R W) :
    Conf C R W → Prop where
  | start : Reach K ok s₀ s₀
  | move {s t : Conf C R W} {m : Move C R E} (h : Reach K ok s₀ s) (hok : ok s.world m)
      (hn : K.next s m = some t) : Reach K ok s₀ t

/-- No condition on the moves. -/
abbrev anyMove : W → Move C R E → Prop := fun _ _ => True

instance (w : W) (m : Move C R E) : Decidable (anyMove w m) := inferInstanceAs (Decidable True)

section Play

variable (ok : W → Move C R E → Prop) [∀ w m, Decidable (ok w m)]

/-- A whole schedule of allowed moves. -/
def play (K : Conc C R W E) : List (Move C R E) → Conf C R W → Option (Conf C R W)
  | [], s => some s
  | m :: ms, s => if ok s.world m then (K.next s m).bind (play K ms) else none

variable {ok}

lemma Reach.play {K : Conc C R W E} {s₀ s t : Conf C R W} (h : Reach K ok s₀ s)
    (ms : List (Move C R E)) (hp : K.play ok ms s = some t) : Reach K ok s₀ t := by
  induction ms generalizing s with
  | nil =>
    simp only [Conc.play, Option.some.injEq] at hp
    exact hp ▸ h
  | cons m ms ih =>
    simp only [Conc.play] at hp
    split at hp
    · rename_i hok
      obtain ⟨s', hs', hp'⟩ := Option.bind_eq_some_iff.mp hp
      exact ih (.move h hok hs') hp'
    · cases hp

/-- A schedule that can be played reaches a configuration. -/
lemma exists_reach_of_play {K : Conc C R W E} {s₀ : Conf C R W} {B : Type}
    (ms : List (Move C R E)) {f : Conf C R W → B} {b : B}
    (h : (K.play ok ms s₀).map f = some b) : ∃ s, K.Reach ok s₀ s ∧ f s = b := by
  obtain ⟨s, hs, hb⟩ := Option.map_eq_some_iff.mp h
  exact ⟨s, Reach.play .start ms hs, hb⟩

end Play

section Drive

variable (K : Conc C R W E) (ok : W → Move C R E → Prop) [∀ w m, Decidable (ok w m)]
  (answer : W → (c : C) → Option (R c))

/-- The threads make their next calls in the given order, each answered as `answer` says. -/
def drive : List ℕ → Conf C R W → Option (Conf C R W)
  | [], s => some s
  | i :: is, s =>
    match s.threads[i]? with
    | some (.call c _) =>
      (answer s.world c).bind fun r =>
        if ok s.world (.call i c r) then (K.next s (.call i c r)).bind (drive is) else none
    | _ => none

variable {K ok answer}

lemma Reach.drive {s₀ s t : Conf C R W} (h : Reach K ok s₀ s) (is : List ℕ)
    (hd : K.drive ok answer is s = some t) : Reach K ok s₀ t := by
  induction is generalizing s with
  | nil =>
    cases hd
    exact h
  | cons i is ih =>
    simp only [Conc.drive] at hd
    split at hd
    · obtain ⟨r, -, hd⟩ := Option.bind_eq_some_iff.1 hd
      split at hd
      · rename_i hok
        obtain ⟨s', hs', hd⟩ := Option.bind_eq_some_iff.1 hd
        exact ih (.move h hok hs') hd
      · cases hd
    · cases hd

end Drive

/-- What one possible move does. -/
lemma next_cases {K : Conc C R W E} {s t : Conf C R W} {m : Move C R E}
    (h : K.next s m = some t) :
    (∃ i c r k w, m = .call i c r ∧ s.threads[i]? = some (.call c k) ∧
      K.call s.world i c r = some w ∧
      t = ⟨s.threads.set i (k r) ++ (K.spawn c r).toList, w⟩) ∨
    (∃ e w, m = .env e ∧ K.env s.world e = some w ∧ t = ⟨s.threads, w⟩) := by
  cases m with
  | call i c r =>
    simp only [next] at h
    obtain ⟨p, hp, h⟩ := Option.bind_eq_some_iff.mp h
    obtain ⟨p', hp', h⟩ := Option.bind_eq_some_iff.mp h
    obtain ⟨w, hw, rfl⟩ := Option.map_eq_some_iff.mp h
    obtain ⟨k, rfl, rfl⟩ := Prog.resume_eq_some hp'
    exact .inl ⟨i, c, r, k, w, rfl, hp, hw, rfl⟩
  | env e =>
    obtain ⟨w, hw, rfl⟩ := Option.map_eq_some_iff.mp h
    exact .inr ⟨e, w, rfl, hw, rfl⟩

/-- The call at which a thread is can be made if its answer is accepted. -/
lemma next_call {K : Conc C R W E} {s : Conf C R W} {i : ℕ} {c : C} {k : R c → Prog C R Unit}
    {r : R c} {w : W} (hi : s.threads[i]? = some (.call c k)) (hw : K.call s.world i c r = some w)
    (hs : K.spawn c r = none) : K.next s (.call i c r) = some ⟨s.threads.set i (k r), w⟩ := by
  simp [next, hi, Prog.resume, hw, hs]

/-- A thread whose call is answered was at that call. -/
lemma at_call {K : Conc C R W E} {s t : Conf C R W} {i : ℕ} {c : C} {r : R c}
    (h : K.next s (.call i c r) = some t) : ∃ k, s.threads[i]? = some (.call c k) := by
  rcases next_cases h with ⟨i', c', r', k, w, hm, hi, -, -⟩ | ⟨e, w, hm, -⟩
  · cases hm
    exact ⟨k, hi⟩
  · cases hm

/-- Thread `i` runs alone for a while. -/
lemma Reach.exec {K : Conc C R W E} {s₀ s : Conf C R W} {i : ℕ} {p q : Prog C R Unit} {w : W}
    (hspawn : ∀ c r, K.spawn c r = none) (h : Reach K anyMove s₀ s)
    (hp : s.threads[i]? = some p) (hx : Exec (fun w c r => K.call w i c r) p s.world q w) :
    Reach K anyMove s₀ ⟨s.threads.set i q, w⟩ := by
  obtain ⟨w₀, hw₀⟩ : ∃ w₀, w₀ = s.world := ⟨_, rfl⟩
  rw [← hw₀] at hx
  induction hx generalizing s with
  | refl p w =>
    have hset : s.threads.set i p = s.threads := by
      obtain ⟨hi, hget⟩ := List.getElem?_eq_some_iff.mp hp
      rw [← hget, List.set_getElem_self]
    rw [hset, hw₀]
    exact h
  | call hr hq ih =>
    rename_i c k r q w w' v
    have hi := (List.getElem?_eq_some_iff.mp hp).1
    have hstep : K.next s (.call i c r) = some ⟨s.threads.set i (k r), w'⟩ := by
      rw [hw₀] at hr
      simp [next, hp, Prog.resume, hr, hspawn]
    have := ih (.move h trivial hstep) (by simp [hi]) rfl
    simpa using this

/-- What is reached under a condition on the moves is reached under a weaker one. -/
lemma Reach.mono {K : Conc C R W E} {ok ok' : W → Move C R E → Prop} {s₀ s : Conf C R W}
    (hr : Reach K ok s₀ s) (h : ∀ w m, ok w m → ok' w m) : Reach K ok' s₀ s := by
  induction hr with
  | start => exact .start
  | move _ hok hn ih => exact .move ih (h _ _ hok) hn

/-- A fact about the world that every call allowed to the threads keeps, and every change of the
world by itself. -/
theorem Reach.of_only {K : Conc C R W E} {ok : W → Move C R E → Prop} {s₀ s : Conf C R W}
    {P : C → Prop} {I : W → Prop} (hr : Reach K ok s₀ s) (hspawn : ∀ c r, K.spawn c r = none)
    (hthreads : ∀ p ∈ s₀.threads, p.Only P) (hworld : I s₀.world)
    (hcall : ∀ w i c r w', I w → P c → K.call w i c r = some w' → I w')
    (henv : ∀ w e w', I w → K.env w e = some w' → I w') :
    (∀ p ∈ s.threads, p.Only P) ∧ I s.world := by
  induction hr with
  | start => exact ⟨hthreads, hworld⟩
  | move hr _ hn ih =>
    obtain ⟨hthreads, hworld⟩ := ih
    rcases next_cases hn with ⟨i, c, r, k, w, rfl, hi, hw, rfl⟩ | ⟨e, w, rfl, hw, rfl⟩
    · have hc := hthreads _ (List.mem_of_getElem? hi)
      refine ⟨?_, hcall _ _ _ _ _ hworld hc.1 hw⟩
      intro p hp
      simp only [hspawn, Option.toList_none, List.append_nil] at hp
      rcases List.mem_or_eq_of_mem_set hp with hp | rfl
      · exact hthreads p hp
      · exact hc.2 r
    · exact ⟨hthreads, henv _ _ _ hworld hw⟩

/-! ### The invariant rule -/

/-- A proof outline for `K`: the automaton `local` every thread obeys (its states satisfying
`good`, `fin` where the thread returns), the automaton state `fresh` of a started thread, and the
invariant `inv` of the world and all automaton states. -/
structure Outline (K : Conc C R W E) (ok : W → Move C R E → Prop) (Q : Type) where
  auto : Kernel C R Q
  good : Q → Prop
  fin : Q → Prop
  fresh : (c : C) → R c → Q
  inv : List Q → W → Prop
  spawned : ∀ {c r p}, K.spawn c r = some p →
    p.Always auto good (fun _ => fin) (fresh c r)
  call : ∀ {qs w i q c r w'}, inv qs w → qs[i]? = some q → good q →
    ok w (.call i c r) → K.call w i c r = some w' →
    ∃ q', auto q c r = some q' ∧
      (good q' → inv (qs.set i q' ++ ((K.spawn c r).map fun _ => fresh c r).toList) w')
  env : ∀ {qs w e w'}, inv qs w → ok w (.env e) → K.env w e = some w' → inv qs w'

/-- Every thread obeys the automaton, and the invariant holds. -/
def Outline.Holds {K : Conc C R W E} {ok : W → Move C R E → Prop} (O : Outline K ok Q)
    (s : Conf C R W) (qs : List Q) : Prop :=
  List.Forall₂ (fun p q => p.Always O.auto O.good (fun _ => O.fin) q) s.threads qs ∧
    O.inv qs s.world

/-- One move keeps the outline. -/
lemma Outline.next {K : Conc C R W E} {ok : W → Move C R E → Prop} (O : Outline K ok Q)
    {s t : Conf C R W} {qs : List Q} {m : Move C R E} (h : O.Holds s qs) (hok : ok s.world m)
    (hn : K.next s m = some t) : ∃ qs', O.Holds t qs' := by
  obtain ⟨hts, hinv⟩ := h
  rcases next_cases hn with ⟨i, c, r, k, w, rfl, hi, hw, rfl⟩ | ⟨e, w, rfl, hw, rfl⟩
  · obtain ⟨hlen, hall⟩ := List.forall₂_iff_get.mp hts
    obtain ⟨hilt, hget⟩ := List.getElem?_eq_some_iff.mp hi
    have hiq : i < qs.length := hlen ▸ hilt
    have hq : qs[i]? = some qs[i] := List.getElem?_eq_getElem _
    have hA : (Prog.call c k).Always O.auto O.good (fun _ => O.fin) qs[i] := by
      have := hall i hilt hiq
      simpa only [List.get_eq_getElem, hget] using this
    obtain ⟨q', hq', hJ⟩ := O.call hinv hq hA.1 hok hw
    have hA' := hA.2 r q' hq'
    refine ⟨_, ?_, hJ hA'.inv⟩
    refine List.rel_append (List.forall₂_iff_get.mpr ⟨by simp [hlen], fun j h₁ h₂ => ?_⟩) ?_
    · simp only [List.get_eq_getElem, List.getElem_set]
      by_cases hij : i = j
      · simp only [hij, if_true]
        exact hA'
      · simp only [hij, if_false]
        simp only [List.length_set] at h₁ h₂
        exact hall j h₁ h₂
    · cases hs : K.spawn c r with
      | none => exact .nil
      | some p => exact .cons (O.spawned hs) .nil
  · exact ⟨qs, hts, O.env hinv hok hw⟩

/-- The outline holds in every configuration reached by allowed moves. -/
theorem Outline.reach {K : Conc C R W E} {ok : W → Move C R E → Prop} (O : Outline K ok Q)
    {s₀ s : Conf C R W} {qs₀ : List Q} (h₀ : O.Holds s₀ qs₀) (h : Reach K ok s₀ s) :
    ∃ qs, O.Holds s qs := by
  induction h with
  | start => exact ⟨qs₀, h₀⟩
  | move _ hok hn ih =>
    obtain ⟨qs, hqs⟩ := ih
    exact O.next hqs hok hn

end Conc
end Effect
