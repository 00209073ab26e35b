import P2PNode.Lib.Prog

/-!
# Safety of one program under a kernel

A kernel `K` says, in each of its states, which answers a call may get and what the answer makes
of the state. `Prog.Always K I post p s` is the weakest condition under which every execution of
`p` from `s` keeps `I` at every point and ends in `post`; it is computed along the program, so
that a fact about a program is put together from the facts about its parts (`Always.bind`).
-/

namespace Effect

/-- A kernel: the answers it accepts for a call, with the state they lead to. -/
abbrev Kernel (C : Type) (R : C → Type) (S : Type) := S → (c : C) → R c → Option S

variable {C : Type} {R : C → Type} {S α β : Type}

/-- An automaton that comes to a state other than its bad one has found its test true. -/
lemma eq_of_ite_ne {Q : Type} {c : Prop} [Decidable c] {q bad q' : Q}
    (h : (if c then q else bad) = q') (hg : q' ≠ bad) : c ∧ q = q' := by
  by_cases hc : c
  · rw [if_pos hc] at h
    exact ⟨hc, h⟩
  · rw [if_neg hc] at h
    exact absurd h.symm hg

/-- `p` performs calls answered by `K` until it is at `q`. -/
inductive Exec (K : Kernel C R S) : Prog C R α → S → Prog C R α → S → Prop where
  | refl (p : Prog C R α) (s : S) : Exec K p s p s
  | call {c : C} {k : R c → Prog C R α} {r : R c} {q : Prog C R α} {s s' t : S}
      (h : K s c r = some s') (hq : Exec K (k r) s' q t) : Exec K (.call c k) s q t

/-- The call is answered by `r`, which makes the state `s'`. -/
lemma Exec.step {K : Kernel C R S} {c : C} {k : R c → Prog C R α} {q : Prog C R α} {s t : S}
    (r : R c) (s' : S) (h : K s c r = some s') (hq : Exec K (k r) s' q t) :
    Exec K (.call c k) s q t := .call h hq

lemma Exec.trans {K : Kernel C R S} {p q p' : Prog C R α} {s t u : S} (h : Exec K p s q t)
    (h' : Exec K q t p' u) : Exec K p s p' u := by
  induction h with
  | refl p s => exact h'
  | call hr hq ih => exact .call hr (ih h')

lemma Exec.bind {K : Kernel C R S} {p q : Prog C R α} {s t : S} (h : Exec K p s q t)
    (f : α → Prog C R β) : Exec K (p >>= f) s (q >>= f) t := by
  induction h with
  | refl p s => exact .refl _ _
  | call hr hq ih => exact .call hr ih

/-- The execution in which the calls are answered as listed. -/
def follow [DecidableEq C] (K : Kernel C R S) :
    Prog C R α → S → List ((c : C) × R c) → Option (Prog C R α × S)
  | p, s, [] => some (p, s)
  | p, s, ⟨c, r⟩ :: answers =>
    (p.resume c r).bind fun q => (K s c r).bind fun t => follow K q t answers

lemma Exec.of_follow [DecidableEq C] {K : Kernel C R S} {answers : List ((c : C) × R c)}
    {p q : Prog C R α} {s t : S} (h : follow K p s answers = some (q, t)) : Exec K p s q t := by
  induction answers generalizing p s with
  | nil =>
    cases h
    exact .refl _ _
  | cons a answers ih =>
    obtain ⟨c, r⟩ := a
    simp only [follow, Option.bind_eq_some_iff] at h
    obtain ⟨p', hp, s', hs, h⟩ := h
    obtain ⟨k, rfl, rfl⟩ := Prog.resume_eq_some hp
    exact .call hs (ih h)

namespace Prog

/-- Every execution of the program comes to its return. -/
def Halts : Prog C R α → Prop
  | .ret _ => True
  | .call _ k => ∀ r, (k r).Halts
  | .spin => False

lemma Halts.exec {K : Kernel C R S} {p : Prog C R α} {s : S} (h : p.Halts)
    (hK : ∀ s c, ∃ r s', K s c r = some s') : ∃ a t, Exec K p s (.ret a) t := by
  induction p generalizing s with
  | ret a => exact ⟨a, s, .refl _ _⟩
  | call c k ih =>
    obtain ⟨r, s', hr⟩ := hK s c
    obtain ⟨a, t, hx⟩ := ih r (h r)
    exact ⟨a, t, .call hr hx⟩
  | spin => exact h.elim

variable (K : Kernel C R S) (I : S → Prop)

/-- `I` holds at every point of every execution of the program, and `post` where it returns. -/
def Always (post : α → S → Prop) : Prog C R α → S → Prop
  | .ret a, s => I s ∧ post a s
  | .call c k, s => I s ∧ ∀ r s', K s c r = some s' → Always post (k r) s'
  | .spin, s => I s

variable {K I}

@[simp] lemma always_ret {post : α → S → Prop} {a : α} {s : S} :
    (Prog.ret a : Prog C R α).Always K I post s ↔ I s ∧ post a s := Iff.rfl

@[simp] lemma always_call {post : α → S → Prop} {c : C} {k : R c → Prog C R α} {s : S} :
    (Prog.call c k).Always K I post s ↔
      I s ∧ ∀ r s', K s c r = some s' → (k r).Always K I post s' := Iff.rfl

@[simp] lemma always_spin {post : α → S → Prop} {s : S} :
    (Prog.spin : Prog C R α).Always K I post s ↔ I s := Iff.rfl

namespace Always

variable {post post' : α → S → Prop} {p : Prog C R α} {s : S}

lemma inv (h : p.Always K I post s) : I s := by
  cases p with
  | ret a => exact h.1
  | call c k => exact h.1
  | spin => exact h

/-- Weaken the postcondition; the invariant holds where the program returns. -/
lemma mono_inv (h : p.Always K I post s) (hp : ∀ a s, I s → post a s → post' a s) :
    p.Always K I post' s := by
  induction p generalizing s with
  | ret a => exact ⟨h.1, hp a s h.1 h.2⟩
  | call c k ih => exact ⟨h.1, fun r s' hr => ih r (h.2 r s' hr)⟩
  | spin => exact h

lemma mono (h : p.Always K I post s) (hp : ∀ a s, post a s → post' a s) :
    p.Always K I post' s :=
  h.mono_inv fun a s _ => hp a s

/-- The rule for sequencing. -/
lemma bind {f : α → Prog C R β} {post : β → S → Prop}
    (h : p.Always K I (fun a t => (f a).Always K I post t) s) :
    (p >>= f).Always K I post s := by
  induction p generalizing s with
  | ret a => exact h.2
  | call c k ih => exact ⟨h.1, fun r s' hr => ih r (h.2 r s' hr)⟩
  | spin => exact h

/-- A program all of whose calls leave the state as it is. -/
lemma of_only {P : C → Prop} (hp : p.Only P) (hP : ∀ c, P c → ∀ r s', K s c r = some s' → s' = s)
    (hs : I s) (ha : ∀ a, post a s) : p.Always K I post s := by
  induction p with
  | ret a => exact ⟨hs, ha a⟩
  | call c k ih =>
    refine ⟨hs, fun r s' hr => ?_⟩
    obtain rfl := hP c hp.1 r s' hr
    exact ih r (hp.2 r)
  | spin => exact hs

/-- A program of a smaller set of calls, under a kernel that answers these calls alike where the
invariant holds and as long as it holds. -/
lemma embed_within {C' : Type} {R' : C' → Type} {S' : Type} (K' : Kernel C' R' S') (I' : S' → Prop)
    (φ : S → S') {f : C → C'} {g : (c : C) → R' (f c) → R c} (h : p.Always K I post s)
    (hK : ∀ s c r t', I s → K' (φ s) (f c) r = some t' →
      ∃ t, K s c (g c r) = some t ∧ (I t → t' = φ t))
    (hI : ∀ s, I s → I' (φ s)) :
    (p.embed f g).Always K' I' (fun a t' => ∃ t, t' = φ t ∧ post a t) (φ s) := by
  induction p generalizing s with
  | ret a => exact ⟨hI s h.1, s, rfl, h.2⟩
  | call c k ih =>
    refine ⟨hI s h.1, fun r t' hr => ?_⟩
    obtain ⟨t, ht, hφ⟩ := hK s c r t' h.1 hr
    have hk := h.2 _ t ht
    obtain rfl := hφ hk.inv
    exact ih _ hk
  | spin => exact hI s h

/-- A program of a smaller set of calls, under a kernel that answers these calls alike as long as
the invariant holds. -/
lemma embed_inv {C' : Type} {R' : C' → Type} {S' : Type} (K' : Kernel C' R' S') (I' : S' → Prop)
    (φ : S → S') {f : C → C'} {g : (c : C) → R' (f c) → R c} (h : p.Always K I post s)
    (hK : ∀ s c r t', K' (φ s) (f c) r = some t' →
      ∃ t, K s c (g c r) = some t ∧ (I t → t' = φ t))
    (hI : ∀ s, I s → I' (φ s)) :
    (p.embed f g).Always K' I' (fun a t' => ∃ t, t' = φ t ∧ post a t) (φ s) :=
  embed_within K' I' φ h (fun s c r t' _ => hK s c r t') hI

/-- A program of a smaller set of calls, under a kernel that answers these calls alike. -/
lemma embed {C' : Type} {R' : C' → Type} {S' : Type} (K' : Kernel C' R' S') (I' : S' → Prop)
    (φ : S → S') {f : C → C'} {g : (c : C) → R' (f c) → R c} (h : p.Always K I post s)
    (hK : ∀ s c r t', K' (φ s) (f c) r = some t' → ∃ t, K s c (g c r) = some t ∧ t' = φ t)
    (hI : ∀ s, I s → I' (φ s)) :
    (p.embed f g).Always K' I' (fun a t' => ∃ t, t' = φ t ∧ post a t) (φ s) := by
  refine embed_inv K' I' φ h ?_ hI
  intro s c r t' hr
  obtain ⟨t, ht, hφ⟩ := hK s c r t' hr
  exact ⟨t, ht, fun _ => hφ⟩

/-- A program each of whose calls is carried out by a program of other calls, which answers it
alike. -/
lemma expand {C' : Type} {R' : C' → Type} {S' : Type} (K' : Kernel C' R' S') (I' : S' → Prop)
    (φ : S → S') {f : (c : C) → Prog C' R' (R c)} (h : p.Always K I post s)
    (hf : ∀ s c, I s → (∀ r t, K s c r = some t → I t) → (f c).Always K' I'
      (fun r t' => ∃ t, K s c r = some t ∧ t' = φ t) (φ s))
    (hI : ∀ s, I s → I' (φ s)) :
    (p.expand f).Always K' I' (fun a t' => ∃ t, t' = φ t ∧ post a t) (φ s) := by
  induction p generalizing s with
  | ret a => exact ⟨hI s h.1, s, rfl, h.2⟩
  | call c k ih =>
    have hstep (r : R c) (t : S) (ht : K s c r = some t) : I t := (h.2 r t ht).inv
    refine Always.bind ((hf s c h.1 hstep).mono ?_)
    rintro r _ ⟨t, ht, rfl⟩
    exact ih r (h.2 r t ht)
  | spin => exact hI s h

/-- Under a kernel whose states are those of another one by other names. -/
lemma rename {S' : Type} (K' : Kernel C R S') (I' : S' → Prop) (φ : S → S')
    (h : p.Always K I post s)
    (hK : ∀ s c r t', K' (φ s) c r = some t' → ∃ t, K s c r = some t ∧ t' = φ t)
    (hI : ∀ s, I s → I' (φ s)) :
    p.Always K' I' (fun a t' => ∃ t, t' = φ t ∧ post a t) (φ s) := by
  induction p generalizing s with
  | ret a => exact ⟨hI s h.1, s, rfl, h.2⟩
  | call c k ih =>
    refine ⟨hI s h.1, fun r t' hr => ?_⟩
    obtain ⟨t, ht, rfl⟩ := hK s c r t' hr
    exact ih r (h.2 r t ht)
  | spin => exact hI s h

/-- Soundness: the condition is kept along every execution. -/
theorem exec {q : Prog C R α} {t : S} (h : p.Always K I post s) (hx : Exec K p s q t) :
    q.Always K I post t := by
  induction hx with
  | refl p s => exact h
  | call hr hq ih => exact ih (h.2 _ _ hr)

end Always
end Prog
end Effect
