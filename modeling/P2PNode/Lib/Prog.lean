import Mathlib.Tactic.Common
import Mathlib.Control.Basic

/-!
# Programs over calls

A sequential program is a tree: it ends with a value, or performs a call and goes on with the
answer. What the calls do is not part of the program; it is given by a *handler* (`Prog.run`),
or by a kernel that accepts some answers and refuses others (`Effect.Always`).

A loop without a bound of its own is written with a number of rounds. `spin` is the program
whose rounds are used up: it is still inside the loop, performs nothing more and never returns.
A fact about every number of rounds is therefore a fact about every finite part of the loop.
-/

namespace Effect

/-- Programs over the calls `C`, a call `c` being answered in `R c`. -/
inductive Prog (C : Type) (R : C → Type) (α : Type) where
  | ret (a : α)
  | call (c : C) (k : R c → Prog C R α)
  | spin

variable {C : Type} {R : C → Type} {α β γ σ : Type}

namespace Prog

/-- Run `p`, then the program chosen by its result. -/
protected def bind : Prog C R α → (α → Prog C R β) → Prog C R β
  | .ret a, f => f a
  | .call c k, f => .call c fun r => (k r).bind f
  | .spin, _ => .spin

instance : Monad (Prog C R) where
  pure := .ret
  bind := Prog.bind

/-- The program that performs one call and returns its answer. -/
def perform (c : C) : Prog C R (R c) := .call c .ret

@[simp] lemma pure_def (a : α) : (pure a : Prog C R α) = .ret a := rfl

@[simp] lemma ret_bind (a : α) (f : α → Prog C R β) : (.ret a >>= f) = f a := rfl

@[simp] lemma call_bind (c : C) (k : R c → Prog C R α) (f : α → Prog C R β) :
    (.call c k >>= f) = .call c fun r => k r >>= f := rfl

@[simp] lemma spin_bind (f : α → Prog C R β) : (.spin >>= f) = (.spin : Prog C R β) := rfl

@[simp] lemma perform_bind (c : C) (f : R c → Prog C R β) : (perform c >>= f) = .call c f := rfl

@[simp] lemma bind_assoc (p : Prog C R α) (f : α → Prog C R β) (g : β → Prog C R γ) :
    (p >>= f) >>= g = p >>= fun a => f a >>= g := by
  induction p with
  | ret a => rfl
  | call c k ih => simp [ih]
  | spin => rfl

lemma bind_ret (p : Prog C R α) : (p >>= fun a => .ret a) = p := by
  induction p with
  | ret a => rfl
  | call c k ih => simp [ih]
  | spin => rfl

/-- The value of a program that has returned. -/
def value : Prog C R α → Option α
  | .ret a => some a
  | _      => none

lemma eq_ret_of_value {p : Prog C R α} {a : α} (h : p.value = some a) : p = .ret a := by
  cases p with
  | ret b => exact congrArg _ (Option.some.inj h)
  | call c k => cases h
  | spin => cases h

/-! ### The calls of a program -/

/-- Every call that the program can make satisfies `P`. -/
def Only (P : C → Prop) : Prog C R α → Prop
  | .ret _ => True
  | .call c k => P c ∧ ∀ r, (k r).Only P
  | .spin => True

section Only

variable {P : C → Prop}

lemma only_perform {c : C} (h : P c) : (perform c : Prog C R (R c)).Only P := ⟨h, fun _ => trivial⟩

lemma Only.bind {p : Prog C R α} {f : α → Prog C R β} (hp : p.Only P) (hf : ∀ a, (f a).Only P) :
    (p >>= f).Only P := by
  induction p with
  | ret a => exact hf a
  | call c k ih => exact ⟨hp.1, fun r => ih r (hp.2 r)⟩
  | spin => trivial

end Only

/-! ### Running a program against a handler -/

/-- Run a program: `h` answers each call and updates the state, or cannot answer (the caller is
blocked). The result is `none` when the run is blocked or spins. -/
def run (h : (c : C) → σ → Option (R c × σ)) : Prog C R α → σ → Option (α × σ)
  | .ret a, s => some (a, s)
  | .call c k, s => (h c s).bind fun x => (k x.1).run h x.2
  | .spin, _ => none

variable (h : (c : C) → σ → Option (R c × σ))

@[simp] lemma run_ret (a : α) (s : σ) : (Prog.ret a : Prog C R α).run h s = some (a, s) := rfl

@[simp] lemma run_call (c : C) (k : R c → Prog C R α) (s : σ) :
    (Prog.call c k).run h s = (h c s).bind fun x => (k x.1).run h x.2 := rfl

@[simp] lemma run_spin (s : σ) : (Prog.spin : Prog C R α).run h s = none := rfl

@[simp] lemma run_perform (c : C) (s : σ) : (perform c : Prog C R (R c)).run h s = h c s := by
  simp only [perform, run_call, run_ret]
  cases h c s <;> rfl

@[simp] lemma run_bind (p : Prog C R α) (f : α → Prog C R β) (s : σ) :
    (p >>= f).run h s = (p.run h s).bind fun x => (f x.1).run h x.2 := by
  induction p generalizing s with
  | ret a => rfl
  | call c k ih =>
    simp only [call_bind, run_call, ih, Option.bind_assoc]
  | spin => rfl

/-! ### Answers that do not depend on a state -/

/-- The value of a program when each call gets a fixed answer. -/
def answered (a : (c : C) → R c) : Prog C R α → Option α
  | .ret x => some x
  | .call c k => (k (a c)).answered a
  | .spin => none

@[simp] lemma answered_ret (a : (c : C) → R c) (x : α) :
    (Prog.ret x : Prog C R α).answered a = some x := rfl

@[simp] lemma answered_call (a : (c : C) → R c) (c : C) (k : R c → Prog C R α) :
    (Prog.call c k).answered a = (k (a c)).answered a := rfl

@[simp] lemma answered_bind (a : (c : C) → R c) (p : Prog C R α) (f : α → Prog C R β) :
    (p >>= f).answered a = (p.answered a).bind fun x => (f x).answered a := by
  induction p with
  | ret x => rfl
  | call c k ih => simp only [call_bind, answered_call, ih]
  | spin => rfl

/-! ### Resuming a program at its next call -/

/-- The call at which a program is. -/
def next? : Prog C R α → Option C
  | .call c _ => some c
  | _         => none

lemma eq_call_of_next? {p : Prog C R α} {c : C} (h : p.next? = some c) :
    ∃ k, p = .call c k := by
  cases p with
  | ret a => cases h
  | call c' k =>
    cases h
    exact ⟨k, rfl⟩
  | spin => cases h

/-- What is left of `p` after its next call, if that call is `c` and is answered by `r`. -/
def resume [DecidableEq C] : Prog C R α → (c : C) → R c → Option (Prog C R α)
  | .call c' k, c, r => if e : c = c' then some (k (e ▸ r)) else none
  | _, _, _ => none

lemma resume_eq_some [DecidableEq C] {p q : Prog C R α} {c : C} {r : R c}
    (h : p.resume c r = some q) : ∃ k, p = .call c k ∧ q = k r := by
  cases p with
  | ret a => simp [resume] at h
  | spin => simp [resume] at h
  | call c' k =>
    simp only [resume] at h
    split at h
    · rename_i e
      subst e
      exact ⟨k, rfl, (Option.some.inj h).symm⟩
    · exact absurd h (by simp)

/-! ### Programs of a smaller set of calls -/

section Embed

variable {C' : Type} {R' : C' → Type} (f : C → C') (g : (c : C) → R' (f c) → R c)

/-- A program over the calls `C` as a program over `C'`, each call being made as `f` says. -/
def embed : Prog C R α → Prog C' R' α
  | .ret a => .ret a
  | .call c k => .call (f c) fun r => (k (g c r)).embed
  | .spin => .spin

@[simp] lemma embed_ret (a : α) : (Prog.ret a : Prog C R α).embed f g = .ret a := rfl

@[simp] lemma embed_call (c : C) (k : R c → Prog C R α) :
    (Prog.call c k).embed f g = .call (f c) fun r => (k (g c r)).embed f g := rfl

@[simp] lemma embed_perform (c : C) :
    (perform c : Prog C R (R c)).embed f g = .call (f c) fun r => .ret (g c r) := rfl

@[simp] lemma embed_bind (p : Prog C R α) (q : α → Prog C R β) :
    (p >>= q).embed f g = p.embed f g >>= fun a => (q a).embed f g := by
  induction p with
  | ret a => rfl
  | call c k ih => simp [ih]
  | spin => rfl

/-- A handler that answers the calls of the smaller set without a look at its state. -/
lemma run_embed_answered {h : (c : C') → σ → Option (R' c × σ)} {a : (c : C) → R c} {s : σ}
    (hh : ∀ c, ∃ r, h (f c) s = some (r, s) ∧ g c r = a c) (p : Prog C R α) :
    (p.embed f g).run h s = (p.answered a).map fun x => (x, s) := by
  induction p with
  | ret x => rfl
  | call c k ih =>
    obtain ⟨r, hr, hg⟩ := hh c
    rw [embed_call, run_call, hr, Option.bind_some, hg, ih, answered_call]
  | spin => rfl

lemma only_embed {P : C' → Prop} (h : ∀ c, P (f c)) (p : Prog C R α) : (p.embed f g).Only P := by
  induction p with
  | ret a => trivial
  | call c k ih => exact ⟨h c, fun r => ih _⟩
  | spin => trivial

lemma embed_ite (c : Prop) [Decidable c] (p q : Prog C R α) :
    (if c then p else q).embed f g = if c then p.embed f g else q.embed f g := by
  split
  · rfl
  · rfl

end Embed

/-! ### Programs carried out by others -/

section Expand

variable {C' : Type} {R' : C' → Type} (f : (c : C) → Prog C' R' (R c))

/-- The program with each of its calls carried out by a program of other calls. -/
def expand : Prog C R α → Prog C' R' α
  | .ret a => .ret a
  | .call c k => f c >>= fun r => (k r).expand
  | .spin => .spin

@[simp] lemma expand_ret (a : α) : (Prog.ret a : Prog C R α).expand f = .ret a := rfl

@[simp] lemma expand_call (c : C) (k : R c → Prog C R α) :
    (Prog.call c k).expand f = f c >>= fun r => (k r).expand f := rfl

@[simp] lemma expand_perform (c : C) : (perform c : Prog C R (R c)).expand f = f c := bind_ret (f c)

@[simp] lemma expand_bind (p : Prog C R α) (q : α → Prog C R β) :
    (p >>= q).expand f = p.expand f >>= fun a => (q a).expand f := by
  induction p with
  | ret a => rfl
  | call c k ih => simp [ih]
  | spin => rfl

lemma only_expand {P : C' → Prop} (hf : ∀ c, (f c).Only P) (p : Prog C R α) :
    (p.expand f).Only P := by
  induction p with
  | ret a => trivial
  | call c k ih => exact (hf c).bind ih
  | spin => trivial

end Expand

/-! ### Calls that may raise -/

section Attempt

variable {C' : Type} {R' : C' → Type} (f : (c : C) → Prog C' R' (Option (R c)))

/-- The program with each of its calls carried out by a program of other calls, which ends the whole
program where it gives `none`. -/
def attempt : Prog C R α → Prog C' R' (Option α)
  | .ret a => .ret (some a)
  | .call c k => f c >>= fun
    | none => .ret none
    | some r => (k r).attempt
  | .spin => .spin

end Attempt

end Prog
end Effect
