import P2PNode.Lib.Interleave
import Mathlib.Data.List.Nodup

/-!
# Objects under a reader-writer lock

An object is worked on access by access, inside sections under a reader-writer lock, by any number
of threads. `LockObject.simulates`: whatever the threads do, they do it as if each section was one
step, made at some moment between its lock and its unlock. The step is made where the section reads
what changes by itself (a clock), so that it sees the world as it is at that moment.
-/

namespace Effect

/-! ### Calls made once -/

namespace Prog

variable {C : Type} {R : C → Type} {α β σ : Type}

/-- On each path at most one call satisfies `P`. -/
def Once (P : C → Prop) : Prog C R α → Prop
  | .ret _ => True
  | .call c k => (¬ P c ∧ ∀ r, (k r).Once P) ∨ ∀ r, (k r).Only fun c => ¬ P c
  | .spin => True

variable {P Q : C → Prop}

lemma Only.mono {p : Prog C R α} (h : p.Only P) (hPQ : ∀ c, P c → Q c) : p.Only Q := by
  induction p with
  | ret a => trivial
  | call c k ih => exact ⟨hPQ c h.1, fun r => ih r (h.2 r)⟩
  | spin => trivial

lemma Only.once {p : Prog C R α} (h : p.Only fun c => ¬ P c) : p.Once P := by
  induction p with
  | ret a => trivial
  | call c k ih => exact .inr h.2
  | spin => trivial

lemma Only.bind_once {p : Prog C R α} {f : α → Prog C R β} (hp : p.Only fun c => ¬ P c)
    (hf : ∀ a, (f a).Once P) : (p >>= f).Once P := by
  induction p with
  | ret a => exact hf a
  | call c k ih => exact .inl ⟨hp.1, fun r => ih r (hp.2 r)⟩
  | spin => trivial

/-- Handlers that agree on the calls of a program run it alike. -/
lemma run_congr_only {h h' : (c : C) → σ → Option (R c × σ)} {p : Prog C R α} (hp : p.Only P)
    (hh : ∀ c, P c → ∀ s, h c s = h' c s) (s : σ) : p.run h s = p.run h' s := by
  induction p generalizing s with
  | ret a => rfl
  | call c k ih =>
    rw [run_call, run_call, hh c hp.1]
    congr 1
    funext x
    exact ih x.1 (hp.2 x.1) x.2
  | spin => rfl

end Prog

/-! ### The object -/

/-- How a section holds the lock. -/
inductive LockMode where
  | read
  | write
  deriving DecidableEq

/-- An operation on the object as a whole, or a look at the world that needs no lock. -/
inductive UserCall (O X : Type) where
  | op (o : O)
  | look (x : X)
  deriving DecidableEq

/-- The calls of which the sections are made. -/
inductive LockCall (A X : Type) where
  | lock (mode : LockMode)
  | unlock
  | access (a : A)
  | look (x : X)
  deriving DecidableEq

section

variable {A O X M W E : Type} {Ra : A → Type} {Ro : O → Type} {Rx : X → Type}

@[reducible] def UserCall.Ret (Ro : O → Type) (Rx : X → Type) : UserCall O X → Type
  | .op o   => Ro o
  | .look x => Rx x

@[reducible] def LockCall.Ret (Ra : A → Type) (Rx : X → Type) : LockCall A X → Type
  | .lock _   => Unit
  | .unlock   => Unit
  | .access a => Ra a
  | .look x   => Rx x

end

/-- An object: what an access does, whether its answer depends on the world, and for each operation
its section and what the section amounts to. A section looks at the world once at most; under a lock
for reading it changes nothing. -/
structure LockObject (A : Type) (Ra : A → Type) (O : Type) (Ro : O → Type) (X : Type)
    (Rx : X → Type) (M W E : Type) where
  access : W → (a : A) → M → Ra a × M
  samples : A → Bool
  look : W → (x : X) → Rx x
  env : W → E → Option W
  mode : O → LockMode
  body : (o : O) → Prog A Ra (Ro o)
  atomic : W → (o : O) → M → Ro o × M
  steady : ∀ {a}, samples a = false → ∀ w w' m, access w a m = access w' a m
  spec : ∀ w o m, (body o).run (fun a m => some (access w a m)) m = some (atomic w o m)
  once : ∀ o, (body o).Once fun a => samples a = true
  quiet : ∀ o, mode o = .read → (body o).Only fun a => ∀ w m, (access w a m).2 = m

/-- The object, the world around it, and who holds the lock. -/
structure Locked (M W : Type) where
  world : W
  mem : M
  readers : List ℕ := []
  writer : Option ℕ := none

/-- The object and the world around it. -/
structure Unlocked (M W : Type) where
  world : W
  mem : M

namespace LockObject

variable {A O X M W E : Type} {Ra : A → Type} {Ro : O → Type} {Rx : X → Type}
  (L : LockObject A Ra O Ro X Rx M W E)

/-- An access that leaves the object as it is. -/
def Quiet (a : A) : Prop := ∀ w m, (L.access w a m).2 = m

/-- The accesses, each one possible. -/
def handle (w : W) (a : A) (m : M) : Option (Ra a × M) := some (L.access w a m)

/-- The section of an operation. -/
def code : (c : UserCall O X) → Prog (LockCall A X) (LockCall.Ret Ra Rx) (UserCall.Ret Ro Rx c)
  | .op o => .call (.lock (L.mode o)) fun _ =>
      (L.body o).embed .access (fun _ r => r) >>= fun r => .call .unlock fun _ => .ret r
  | .look x => Prog.perform (LockCall.look x)

/-- What is left of a section, and of the thread behind it. -/
def rest (o : O) (k : Ro o → Prog (UserCall O X) (UserCall.Ret Ro Rx) Unit)
    (p : Prog A Ra (Ro o)) : Prog (LockCall A X) (LockCall.Ret Ra Rx) Unit :=
  p.embed .access (fun _ r => r) >>= fun r => .call .unlock fun _ => (k r).expand L.code

lemma expand_op (o : O) (k : Ro o → Prog (UserCall O X) (UserCall.Ret Ro Rx) Unit) :
    (Prog.call (UserCall.op o) k).expand L.code =
      .call (.lock (L.mode o)) fun _ => L.rest o k (L.body o) := by
  simp [Prog.expand, code, rest]

lemma expand_look (x : X) (k : Rx x → Prog (UserCall O X) (UserCall.Ret Ro Rx) Unit) :
    (Prog.call (UserCall.look x) k).expand L.code =
      .call (.look x) fun r => (k r).expand L.code := rfl

/-! ### The two systems -/

section Systems

variable [∀ a, DecidableEq (Ra a)] [∀ o, DecidableEq (Ro o)] [∀ x, DecidableEq (Rx x)]

/-- The answers to thread `i`. A lock for reading is given while nobody writes, one for writing
while nobody holds the lock. -/
def lockedCall (s : Locked M W) (i : ℕ) :
    (c : LockCall A X) → LockCall.Ret Ra Rx c → Option (Locked M W)
  | .lock .read, _ =>
    if s.writer = none then some { s with readers := i :: s.readers } else none
  | .lock .write, _ =>
    if s.writer = none ∧ s.readers = [] then some { s with writer := some i } else none
  | .unlock, _ =>
    if s.writer = some i then some { s with writer := none }
    else some { s with readers := s.readers.erase i }
  | .access a, r =>
    if r = (L.access s.world a s.mem).1 then some { s with mem := (L.access s.world a s.mem).2 }
    else none
  | .look x, r => if r = L.look s.world x then some s else none

/-- The threads with their sections, access by access. -/
def fine : Conc (LockCall A X) (LockCall.Ret Ra Rx) (Locked M W) E where
  call := L.lockedCall
  env := fun s e => (L.env s.world e).map fun w => { s with world := w }
  spawn := fun _ _ => none

def unlockedCall (s : Unlocked M W) (_ : ℕ) :
    (c : UserCall O X) → UserCall.Ret Ro Rx c → Option (Unlocked M W)
  | .op o, r =>
    if r = (L.atomic s.world o s.mem).1 then some { s with mem := (L.atomic s.world o s.mem).2 }
    else none
  | .look x, r => if r = L.look s.world x then some s else none

/-- The threads with each operation as one step. -/
def coarse : Conc (UserCall O X) (UserCall.Ret Ro Rx) (Unlocked M W) E where
  call := L.unlockedCall
  env := fun s e => (L.env s.world e).map fun w => { s with world := w }
  spawn := fun _ _ => none

end Systems

/-- The programs of the threads. -/
abbrev Users (O X : Type) (Ro : O → Type) (Rx : X → Type) :=
  List (Prog (UserCall O X) (UserCall.Ret Ro Rx) Unit)

def fineStart (users : Users O X Ro Rx) (w : W) (m : M) :
    Conf (LockCall A X) (LockCall.Ret Ra Rx) (Locked M W) where
  threads := users.map fun p => p.expand L.code
  world := { world := w, mem := m }

def coarseStart (users : Users O X Ro Rx) (w : W) (m : M) :
    Conf (UserCall O X) (UserCall.Ret Ro Rx) (Unlocked M W) where
  threads := users
  world := { world := w, mem := m }

/-! ### The simulation -/

/-- Thread `i` holds the lock. -/
def Holds (readers : List ℕ) (writer : Option ℕ) (i : ℕ) : LockMode → Prop
  | .read  => i ∈ readers ∧ writer = none
  | .write => writer = some i ∧ readers = []

/-- A thread of the sections and the same thread with its operations as steps, the object being
`mem` and `mem'`: outside of its sections; in one whose step is still to be made; in one whose step
was made. -/
inductive Matches (readers : List ℕ) (writer : Option ℕ) (mem mem' : M) (i : ℕ) :
    Prog (LockCall A X) (LockCall.Ret Ra Rx) Unit →
    Prog (UserCall O X) (UserCall.Ret Ro Rx) Unit → Prop where
  | outside (q : Prog (UserCall O X) (UserCall.Ret Ro Rx) Unit) (hr : i ∉ readers)
      (hw : writer ≠ some i) : Matches readers writer mem mem' i (q.expand L.code) q
  | pending (o : O) (k : Ro o → Prog (UserCall O X) (UserCall.Ret Ro Rx) Unit)
      (p : Prog A Ra (Ro o)) (hold : Holds readers writer i (L.mode o))
      (once : p.Once fun a => L.samples a = true)
      (quiet : L.mode o = .read → p.Only L.Quiet)
      (run : ∀ w, p.run (L.handle w) mem = some (L.atomic w o mem')) :
      Matches readers writer mem mem' i (L.rest o k p) (.call (.op o) k)
  | made (o : O) (k : Ro o → Prog (UserCall O X) (UserCall.Ret Ro Rx) Unit)
      (p : Prog A Ra (Ro o)) (r : Ro o) (hold : Holds readers writer i (L.mode o))
      (never : p.Only fun a => ¬ L.samples a = true)
      (quiet : L.mode o = .read → p.Only L.Quiet)
      (run : ∀ w, p.run (L.handle w) mem = some (r, mem')) :
      Matches readers writer mem mem' i (L.rest o k p) (k r)

/-- While nobody writes the object is the same in both systems, and a writer is alone. -/
structure Sound (s : Locked M W) (mem' : M) : Prop where
  mem : s.writer = none → mem' = s.mem
  nodup : s.readers.Nodup
  alone : s.writer ≠ none → s.readers = []

variable {L}

/-! ### One thread -/

section Matches

variable {readers readers' : List ℕ} {writer writer' : Option ℕ} {mem mem' m m' : M} {i j : ℕ}
  {p : Prog (LockCall A X) (LockCall.Ret Ra Rx) Unit}
  {q : Prog (UserCall O X) (UserCall.Ret Ro Rx) Unit}

/-- A thread that does not hold the lock is outside of its sections. -/
lemma Matches.eq_expand (h : L.Matches readers writer mem mem' j p q) (hr : j ∉ readers)
    (hw : writer ≠ some j) : p = q.expand L.code := by
  have hfree {mode : LockMode} (hold : Holds readers writer j mode) : False := by
    cases mode with
    | read => exact hr hold.1
    | write => exact hw hold.1
  cases h with
  | outside => rfl
  | pending o k p hold => exact (hfree hold).elim
  | made o k p r hold => exact (hfree hold).elim

/-- A thread that does not hold the lock does not care what the others do. -/
lemma Matches.idle (h : L.Matches readers writer mem mem' j p q) (hr : j ∉ readers)
    (hw : writer ≠ some j) (hr' : j ∉ readers') (hw' : writer' ≠ some j) :
    L.Matches readers' writer' m m' j p q := by
  rw [h.eq_expand hr hw]
  exact .outside q hr' hw'

/-- While nobody writes, other threads may begin and end their reading. -/
lemma Matches.shared (h : L.Matches readers none mem mem' j p q)
    (hr : j ∈ readers ↔ j ∈ readers') : L.Matches readers' none mem mem' j p q := by
  have hhold {mode : LockMode} (hold : Holds readers none j mode) : Holds readers' none j mode := by
    cases mode with
    | read => exact ⟨hr.1 hold.1, rfl⟩
    | write => cases hold.1
  cases h with
  | outside q hnr hw => exact .outside q (fun hj => hnr (hr.2 hj)) hw
  | pending o k p hold once quiet run => exact .pending o k p (hhold hold) once quiet run
  | made o k p r hold never quiet run => exact .made o k p r (hhold hold) never quiet run

end Matches

/-- A thread that writes is alone; threads that read see no change. -/
lemma others_of_holds {s : Locked M W} {mem' m m' : M} {i : ℕ} {o : O}
    (hold : Holds s.readers s.writer i (L.mode o))
    (hread : L.mode o = .read → m = s.mem ∧ m' = mem') {j : ℕ} (hj : j ≠ i)
    {p : Prog (LockCall A X) (LockCall.Ret Ra Rx) Unit}
    {q : Prog (UserCall O X) (UserCall.Ret Ro Rx) Unit}
    (h : L.Matches s.readers s.writer s.mem mem' j p q) :
    L.Matches s.readers s.writer m m' j p q := by
  cases hm : L.mode o with
  | read =>
    obtain ⟨rfl, rfl⟩ := hread hm
    exact h
  | write =>
    rw [hm] at hold
    have hr : j ∉ s.readers := by simp [hold.2]
    have hw : s.writer ≠ some j := by simpa [hold.1] using Ne.symm hj
    exact h.idle hr hw hr hw

/-- Who does not write reads. -/
lemma read_of_holds {readers : List ℕ} {i : ℕ} {mode : LockMode}
    (h : Holds readers none i mode) : mode = .read := by
  cases mode with
  | read => rfl
  | write => cases h.1

/-- A program of accesses that change nothing changes nothing. -/
lemma mem_of_run_quiet {α : Type} {p : Prog A Ra α} {w : W} {m m' : M} {r : α}
    (hp : p.Only L.Quiet) (h : p.run (L.handle w) m = some (r, m')) : m' = m := by
  induction p generalizing m with
  | ret a =>
    cases h
    rfl
  | call a k ih =>
    have hk := ih _ (hp.2 _) h
    rw [hk, hp.1 w m]
  | spin => cases h

/-- Without a look at the world it does not matter what the world is. -/
lemma run_handle_congr {α : Type} {p : Prog A Ra α} (hp : p.Only fun a => ¬ L.samples a = true)
    (w w' : W) (m : M) : p.run (L.handle w) m = p.run (L.handle w') m := by
  refine Prog.run_congr_only hp ?_ m
  intro a ha m
  rw [handle, L.steady (Bool.eq_false_iff.2 ha) w w', handle]

/-! ### One call -/

section Step

variable [∀ a, DecidableEq (Ra a)] [∀ o, DecidableEq (Ro o)] [∀ x, DecidableEq (Rx x)]

/-- What a call of thread `i` amounts to: a call of the thread that it matches, or nothing; the
other threads still match. -/
structure Stepped (L : LockObject A Ra O Ro X Rx M W E) (s s' : Locked M W) (mem' : M) (i : ℕ)
    (p' : Prog (LockCall A X) (LockCall.Ret Ra Rx) Unit)
    (q : Prog (UserCall O X) (UserCall.Ret Ro Rx) Unit) (m' : M)
    (q' : Prog (UserCall O X) (UserCall.Ret Ro Rx) Unit) : Prop where
  matched : L.Matches s'.readers s'.writer s'.mem m' i p' q'
  world : s'.world = s.world
  step : (q' = q ∧ m' = mem') ∨ ∃ c k r, q = .call c k ∧ q' = k r ∧
    L.unlockedCall ⟨s.world, mem'⟩ i c r = some ⟨s.world, m'⟩
  sound : Sound s' m'
  holders : ∀ j, j ∈ s'.readers ∨ s'.writer = some j → j = i ∨ j ∈ s.readers ∨ s.writer = some j
  others : ∀ j, j ≠ i → ∀ p q, L.Matches s.readers s.writer s.mem mem' j p q →
    L.Matches s'.readers s'.writer s'.mem m' j p q

variable {s s' : Locked M W} {mem' : M} {i : ℕ}

/-- A thread takes the lock. -/
lemma stepped_lock {o : O} {k : Ro o → Prog (UserCall O X) (UserCall.Ret Ro Rx) Unit}
    (hs : Sound s mem') (hr : i ∉ s.readers)
    (hc : L.lockedCall s i (.lock (L.mode o)) () = some s') :
    Stepped L s s' mem' i (L.rest o k (L.body o)) (.call (.op o) k) mem' (.call (.op o) k) := by
  have hrun (hw : s.writer = none) (w : W) :
      (L.body o).run (L.handle w) s.mem = some (L.atomic w o mem') := by
    rw [hs.mem hw]
    exact L.spec w o s.mem
  cases hm : L.mode o with
  | read =>
    rw [hm] at hc
    simp only [lockedCall] at hc
    split at hc
    · rename_i hw
      cases hc
      refine ⟨?_, rfl, .inl ⟨rfl, rfl⟩, ⟨hs.mem, List.nodup_cons.2 ⟨hr, hs.nodup⟩, ?_⟩, ?_, ?_⟩
      · refine .pending o k _ ?_ (L.once o) (fun _ => L.quiet o hm) (hrun hw)
        rw [hm]
        exact ⟨List.mem_cons_self, hw⟩
      · intro hne
        exact absurd hw hne
      · rintro j (hj | hj)
        · exact (List.mem_cons.1 hj).imp_right .inl
        · exact .inr (.inr hj)
      · intro j hj p q h
        rw [hw] at h ⊢
        exact h.shared (by simp [hj])
    · cases hc
  | write =>
    rw [hm] at hc
    simp only [lockedCall] at hc
    split at hc
    · rename_i hw
      cases hc
      refine ⟨?_, rfl, .inl ⟨rfl, rfl⟩, ⟨nofun, hs.nodup, fun _ => hw.2⟩, ?_, ?_⟩
      · refine .pending o k _ ?_ (L.once o) (fun hread => ?_) (hrun hw.1)
        · rw [hm]
          exact ⟨rfl, hw.2⟩
        · rw [hm] at hread
          cases hread
      · rintro j (hj | hj)
        · exact .inr (.inl hj)
        · exact .inl (Option.some.inj hj).symm
      · intro j hj p q h
        refine h.idle ?_ ?_ ?_ ?_
        · simp [hw.2]
        · simp [hw.1]
        · simp [hw.2]
        · simpa using Ne.symm hj
    · cases hc

/-- An access before the step of the section. -/
lemma stepped_access_pending {o : O} {k : Ro o → Prog (UserCall O X) (UserCall.Ret Ro Rx) Unit}
    {a : A} {f : Ra a → Prog A Ra (Ro o)} {r : Ra a} (hs : Sound s mem')
    (hold : Holds s.readers s.writer i (L.mode o))
    (once : (Prog.call a f).Once fun a => L.samples a = true)
    (quiet : L.mode o = .read → (Prog.call a f).Only L.Quiet)
    (run : ∀ w, (Prog.call a f).run (L.handle w) s.mem = some (L.atomic w o mem'))
    (hc : L.lockedCall s i (.access a) r = some s') :
    ∃ m' q', Stepped L s s' mem' i (L.rest o k (f r)) (.call (.op o) k) m' q' := by
  simp only [lockedCall] at hc
  split at hc
  · rename_i hr
    cases hc
    subst hr
    have hquiet (hm : L.mode o = .read) : (L.access s.world a s.mem).2 = s.mem :=
      (quiet hm).1 s.world s.mem
    have hnow : (f (L.access s.world a s.mem).1).run (L.handle s.world)
        (L.access s.world a s.mem).2 = some (L.atomic s.world o mem') := run s.world
    rcases once with ⟨hsample, honce⟩ | hnever
    · -- the step is still to be made
      refine ⟨mem', _, .pending o k _ hold (honce _) (fun hm => (quiet hm).2 _) ?_, rfl,
        .inl ⟨rfl, rfl⟩, ⟨?_, hs.nodup, hs.alone⟩, fun j hj => .inr hj, ?_⟩
      · intro w
        have hw := run w
        rw [Prog.run_call, handle, Option.bind_some,
          L.steady (Bool.eq_false_iff.2 hsample) w s.world] at hw
        exact hw
      · intro hw
        rw [hs.mem hw]
        rw [hw] at hold
        exact (hquiet (read_of_holds hold)).symm
      · intro j hj p q h
        exact others_of_holds hold (fun hm => ⟨hquiet hm, rfl⟩) hj h
    · -- nothing behind this access depends on the world: the step is made here
      have hmem (hm : L.mode o = .read) :
          (L.atomic s.world o mem').2 = (L.access s.world a s.mem).2 :=
        mem_of_run_quiet ((quiet hm).2 _) hnow
      refine ⟨(L.atomic s.world o mem').2, k (L.atomic s.world o mem').1,
        .made o k _ _ hold (hnever _) (fun hm => (quiet hm).2 _) ?_, rfl,
        .inr ⟨.op o, k, _, rfl, rfl, ?_⟩, ⟨?_, hs.nodup, hs.alone⟩, fun j hj => .inr hj, ?_⟩
      · intro w
        rw [run_handle_congr (hnever _) w s.world]
        exact hnow
      · simp [unlockedCall]
      · intro hw
        rw [hw] at hold
        exact hmem (read_of_holds hold)
      · intro j hj p q h
        refine others_of_holds hold (fun hm => ⟨hquiet hm, ?_⟩) hj h
        have hwriter : s.writer = none := by
          rw [hm] at hold
          exact hold.2
        rw [hmem hm, hquiet hm, hs.mem hwriter]
  · cases hc

/-- An access behind the step of the section. -/
lemma stepped_access_made {o : O} {k : Ro o → Prog (UserCall O X) (UserCall.Ret Ro Rx) Unit}
    {a : A} {f : Ra a → Prog A Ra (Ro o)} {r : Ra a} {r' : Ro o} (hs : Sound s mem')
    (hold : Holds s.readers s.writer i (L.mode o))
    (never : (Prog.call a f).Only fun a => ¬ L.samples a = true)
    (quiet : L.mode o = .read → (Prog.call a f).Only L.Quiet)
    (run : ∀ w, (Prog.call a f).run (L.handle w) s.mem = some (r', mem'))
    (hc : L.lockedCall s i (.access a) r = some s') :
    Stepped L s s' mem' i (L.rest o k (f r)) (k r') mem' (k r') := by
  simp only [lockedCall] at hc
  split at hc
  · rename_i hr
    cases hc
    subst hr
    have hquiet (hm : L.mode o = .read) : (L.access s.world a s.mem).2 = s.mem :=
      (quiet hm).1 s.world s.mem
    refine ⟨.made o k _ r' hold (never.2 _) (fun hm => (quiet hm).2 _) ?_, rfl, .inl ⟨rfl, rfl⟩,
      ⟨?_, hs.nodup, hs.alone⟩, fun j hj => .inr hj, ?_⟩
    · intro w
      rw [run_handle_congr (never.2 _) w s.world]
      exact run s.world
    · intro hw
      rw [hs.mem hw]
      rw [hw] at hold
      exact (hquiet (read_of_holds hold)).symm
    · intro j hj p q h
      exact others_of_holds hold (fun hm => ⟨hquiet hm, rfl⟩) hj h
  · cases hc

/-- The end of a section. -/
lemma stepped_unlock {o : O} {k : Ro o → Prog (UserCall O X) (UserCall.Ret Ro Rx) Unit} {r : Ro o}
    {q : Prog (UserCall O X) (UserCall.Ret Ro Rx) Unit} (hs : Sound s mem')
    (hold : Holds s.readers s.writer i (L.mode o))
    (hstep : (k r = q ∧ s.mem = mem') ∨ ∃ c k' r', q = .call c k' ∧ k r = k' r' ∧
      L.unlockedCall ⟨s.world, mem'⟩ i c r' = some ⟨s.world, s.mem⟩)
    (hc : L.lockedCall s i .unlock () = some s') :
    Stepped L s s' mem' i ((k r).expand L.code) q s.mem (k r) := by
  simp only [lockedCall] at hc
  cases hm : L.mode o with
  | read =>
    rw [hm] at hold
    have hne : s.writer ≠ some i := by simp [hold.2]
    rw [if_neg hne] at hc
    cases hc
    refine ⟨.outside _ (hs.nodup.not_mem_erase) hne, rfl, hstep,
      ⟨fun _ => rfl, hs.nodup.erase _, fun hw => absurd hold.2 hw⟩, ?_, ?_⟩
    · rintro j (hj | hj)
      · exact .inr (.inl (List.mem_of_mem_erase hj))
      · exact .inr (.inr hj)
    · intro j hj p q h
      rw [hs.mem hold.2] at h
      rw [hold.2] at h ⊢
      exact h.shared (List.mem_erase_of_ne hj).symm
  | write =>
    rw [hm] at hold
    rw [if_pos hold.1] at hc
    cases hc
    have hnil (j : ℕ) : j ∉ s.readers := by simp [hold.2]
    refine ⟨.outside _ (hnil i) nofun, rfl, hstep,
      ⟨fun _ => rfl, hs.nodup, fun hw => absurd rfl hw⟩, ?_, ?_⟩
    · rintro j (hj | hj)
      · exact absurd hj (hnil j)
      · cases hj
    · intro j hj p q h
      exact h.idle (hnil j) (by simpa [hold.1] using Ne.symm hj) (hnil j) nofun

/-- A look at the world outside of the sections. -/
lemma stepped_look {x : X} {k : Rx x → Prog (UserCall O X) (UserCall.Ret Ro Rx) Unit} {r : Rx x}
    (hs : Sound s mem') (hr : i ∉ s.readers) (hw : s.writer ≠ some i)
    (hc : L.lockedCall s i (.look x) r = some s') :
    Stepped L s s' mem' i ((k r).expand L.code) (.call (.look x) k) mem' (k r) := by
  simp only [lockedCall] at hc
  split at hc
  · rename_i hx
    cases hc
    refine ⟨.outside _ hr hw, rfl, .inr ⟨.look x, k, r, rfl, rfl, ?_⟩, hs, fun j hj => .inr hj,
      fun j _ p q h => h⟩
    simp [unlockedCall, hx]
  · cases hc

/-- Every call of a thread. -/
lemma Matches.stepped {c : LockCall A X} {f : LockCall.Ret Ra Rx c →
      Prog (LockCall A X) (LockCall.Ret Ra Rx) Unit} {r : LockCall.Ret Ra Rx c}
    {q : Prog (UserCall O X) (UserCall.Ret Ro Rx) Unit}
    (h : L.Matches s.readers s.writer s.mem mem' i (.call c f) q) (hs : Sound s mem')
    (hc : L.lockedCall s i c r = some s') : ∃ m' q', Stepped L s s' mem' i (f r) q m' q' := by
  generalize hp : Prog.call c f = p at h
  cases h with
  | outside q hr hw =>
    cases q with
    | ret a => cases hp
    | spin => cases hp
    | call c' k =>
      cases c' with
      | op o =>
        rw [expand_op] at hp
        cases hp
        exact ⟨_, _, stepped_lock hs hr hc⟩
      | look x =>
        rw [expand_look] at hp
        cases hp
        exact ⟨_, _, stepped_look hs hr hw hc⟩
  | pending o k p hold once quiet run =>
    cases p with
    | spin => cases run s.world
    | call a g =>
      cases hp
      exact stepped_access_pending hs hold once quiet run hc
    | ret x =>
      cases hp
      have hx : (x, s.mem) = L.atomic s.world o mem' := Option.some.inj (run s.world)
      refine ⟨_, _, stepped_unlock hs hold (.inr ⟨.op o, k, x, rfl, rfl, ?_⟩) hc⟩
      simp [unlockedCall, ← hx]
  | made o k p x hold never quiet run =>
    cases p with
    | spin => cases run s.world
    | call a g =>
      cases hp
      exact ⟨_, _, stepped_access_made hs hold never quiet run hc⟩
    | ret y =>
      cases hp
      obtain ⟨rfl, hmem⟩ := Prod.mk.inj (Option.some.inj (run s.world))
      exact ⟨_, _, stepped_unlock hs hold (.inl ⟨rfl, hmem⟩) hc⟩

end Step

/-! ### Both systems -/

/-- The two systems agree: on the world, on the object while nobody writes, and on the threads; the
lock is held by threads. -/
structure Simulates (L : LockObject A Ra O Ro X Rx M W E)
    (s : Conf (LockCall A X) (LockCall.Ret Ra Rx) (Locked M W))
    (t : Conf (UserCall O X) (UserCall.Ret Ro Rx) (Unlocked M W)) : Prop where
  world : t.world.world = s.world.world
  sound : Sound s.world t.world.mem
  holders : ∀ i, i ∈ s.world.readers ∨ s.world.writer = some i → i < s.threads.length
  length : t.threads.length = s.threads.length
  threads : ∀ i p q, s.threads[i]? = some p → t.threads[i]? = some q →
    L.Matches s.world.readers s.world.writer s.world.mem t.world.mem i p q

section Runs

variable {users : Users O X Ro Rx} {w : W} {m : M}
  {s s' : Conf (LockCall A X) (LockCall.Ret Ra Rx) (Locked M W)}
  {t : Conf (UserCall O X) (UserCall.Ret Ro Rx) (Unlocked M W)}

lemma simulates_start (users : Users O X Ro Rx) (w : W) (m : M) :
    Simulates L (L.fineStart users w m) (coarseStart users w m) where
  world := rfl
  sound := ⟨fun _ => rfl, List.nodup_nil, fun _ => rfl⟩
  holders := by
    rintro i (hi | hi)
    · cases hi
    · cases hi
  length := by simp [fineStart, coarseStart]
  threads := by
    intro i p q hp hq
    simp only [fineStart, List.getElem?_map, Option.map_eq_some_iff] at hp
    obtain ⟨q', hq', rfl⟩ := hp
    obtain rfl := Option.some.inj (hq.symm.trans hq')
    exact .outside _ nofun nofun

/-- A thread of the one system has its thread in the other. -/
lemma Simulates.exists_thread (h : Simulates L s t) {i : ℕ}
    {p : Prog (LockCall A X) (LockCall.Ret Ra Rx) Unit} (hp : s.threads[i]? = some p) :
    ∃ q, t.threads[i]? = some q ∧
      L.Matches s.world.readers s.world.writer s.world.mem t.world.mem i p q := by
  have hi : i < t.threads.length := h.length ▸ (List.getElem?_eq_some_iff.1 hp).1
  exact ⟨_, List.getElem?_eq_getElem hi, h.threads i p _ hp (List.getElem?_eq_getElem hi)⟩

/-- A thread accesses the object only under the lock. -/
lemma Matches.of_access {readers : List ℕ} {writer : Option ℕ} {mem mem' : M} {i : ℕ} {a : A}
    {f : Ra a → Prog (LockCall A X) (LockCall.Ret Ra Rx) Unit}
    {q : Prog (UserCall O X) (UserCall.Ret Ro Rx) Unit}
    (h : L.Matches readers writer mem mem' i (.call (.access a) f) q) :
    ∃ mode, Holds readers writer i mode ∧ (mode = .read → L.Quiet a) := by
  generalize hp : (Prog.call (.access a) f : Prog (LockCall A X) (LockCall.Ret Ra Rx) Unit) = p at h
  cases h with
  | outside q hr hw =>
    cases q with
    | ret x => cases hp
    | spin => cases hp
    | call c k =>
      cases c with
      | op o =>
        rw [expand_op] at hp
        cases hp
      | look x =>
        rw [expand_look] at hp
        cases hp
  | pending o k p hold once quiet run =>
    cases p with
    | ret x => cases hp
    | spin => cases hp
    | call b g =>
      cases hp
      exact ⟨_, hold, fun hm => (quiet hm).1⟩
  | made o k p x hold never quiet run =>
    cases p with
    | ret y => cases hp
    | spin => cases hp
    | call b g =>
      cases hp
      exact ⟨_, hold, fun hm => (quiet hm).1⟩

/-- Where two threads are about to access the object, both only read it. -/
theorem Simulates.quiet_of_two (h : Simulates L s t) {i j : ℕ} (hij : i ≠ j) {a b : A}
    {f : Ra a → Prog (LockCall A X) (LockCall.Ret Ra Rx) Unit}
    {g : Ra b → Prog (LockCall A X) (LockCall.Ret Ra Rx) Unit}
    (hi : s.threads[i]? = some (.call (.access a) f))
    (hj : s.threads[j]? = some (.call (.access b) g)) : L.Quiet a ∧ L.Quiet b := by
  obtain ⟨q, -, hq⟩ := h.exists_thread hi
  obtain ⟨q', -, hq'⟩ := h.exists_thread hj
  obtain ⟨mode, hold, hquiet⟩ := hq.of_access
  obtain ⟨mode', hold', hquiet'⟩ := hq'.of_access
  have hread : mode = .read ∧ mode' = .read := by
    cases mode with
    | read =>
      refine ⟨rfl, ?_⟩
      rw [hold.2] at hold'
      exact read_of_holds hold'
    | write =>
      cases mode' with
      | read => exact absurd hold'.1 (by simp [hold.2])
      | write => exact absurd (Option.some.inj (hold.1.symm.trans hold'.1)) hij
  exact ⟨hquiet hread.1, hquiet' hread.2⟩

variable [∀ a, DecidableEq (Ra a)] [∀ x, DecidableEq (Rx x)]

/-- A thread in a section can go on. -/
lemma Matches.exists_call {s : Locked M W} {mem' : M} {i : ℕ}
    {p : Prog (LockCall A X) (LockCall.Ret Ra Rx) Unit}
    {q : Prog (UserCall O X) (UserCall.Ret Ro Rx) Unit}
    (h : L.Matches s.readers s.writer s.mem mem' i p q) (hi : i ∈ s.readers ∨ s.writer = some i) :
    ∃ c k r s', p = .call c k ∧ L.lockedCall s i c r = some s' := by
  have hunlock : ∃ s', L.lockedCall s i .unlock () = some s' := by
    simp only [lockedCall]
    split
    · exact ⟨_, rfl⟩
    · exact ⟨_, rfl⟩
  have haccess (a : A) :
      ∃ s', L.lockedCall s i (.access a) (L.access s.world a s.mem).1 = some s' :=
    ⟨_, if_pos rfl⟩
  cases h with
  | outside q hr hw =>
    rcases hi with hi | hi
    · exact absurd hi hr
    · exact absurd hi hw
  | pending o k p hold once quiet run =>
    cases p with
    | spin => cases run s.world
    | ret x => exact ⟨.unlock, _, (), _, rfl, hunlock.choose_spec⟩
    | call a f => exact ⟨.access a, _, _, _, rfl, (haccess a).choose_spec⟩
  | made o k p x hold never quiet run =>
    cases p with
    | spin => cases run s.world
    | ret y => exact ⟨.unlock, _, (), _, rfl, hunlock.choose_spec⟩
    | call a f => exact ⟨.access a, _, _, _, rfl, (haccess a).choose_spec⟩

/-- While nobody holds the lock every thread can go on. -/
lemma Matches.exists_call_of_free {s : Locked M W} {mem' : M} {i : ℕ}
    {p : Prog (LockCall A X) (LockCall.Ret Ra Rx) Unit}
    {q : Prog (UserCall O X) (UserCall.Ret Ro Rx) Unit}
    (h : L.Matches s.readers s.writer s.mem mem' i p q) (hr : s.readers = [])
    (hw : s.writer = none) (hret : p ≠ .ret ()) (hspin : p ≠ .spin) :
    ∃ c k r s', p = .call c k ∧ L.lockedCall s i c r = some s' := by
  obtain rfl := h.eq_expand (by simp [hr]) (by simp [hw])
  cases q with
  | ret x => exact absurd rfl hret
  | spin => exact absurd rfl hspin
  | call c k =>
    cases c with
    | look x =>
      rw [expand_look]
      exact ⟨.look x, _, _, s, rfl, if_pos rfl⟩
    | op o =>
      rw [expand_op]
      cases hm : L.mode o with
      | read => exact ⟨.lock .read, _, (), _, rfl, if_pos hw⟩
      | write => exact ⟨.lock .write, _, (), _, rfl, if_pos ⟨hw, hr⟩⟩

variable [DecidableEq A] [DecidableEq X]

/-- The lock never blocks all threads. -/
theorem Simulates.exists_next (h : Simulates L s t) {i : ℕ}
    {p : Prog (LockCall A X) (LockCall.Ret Ra Rx) Unit} (hi : s.threads[i]? = some p)
    (hret : p ≠ .ret ()) (hspin : p ≠ .spin) :
    ∃ j c r s', L.fine.next s (.call j c r) = some s' := by
  have hgo {j : ℕ} {p' : Prog (LockCall A X) (LockCall.Ret Ra Rx) Unit}
      (hj : s.threads[j]? = some p')
      (hcall : ∃ c k r v, p' = .call c k ∧ L.lockedCall s.world j c r = some v) :
      ∃ j c r s', L.fine.next s (.call j c r) = some s' := by
    obtain ⟨c, k, r, v, rfl, hv⟩ := hcall
    exact ⟨j, c, r, _, Conc.next_call (K := L.fine) hj hv rfl⟩
  by_cases hheld : ∃ j, j ∈ s.world.readers ∨ s.world.writer = some j
  · obtain ⟨j, hj⟩ := hheld
    have hp' := List.getElem?_eq_getElem (h.holders j hj)
    obtain ⟨q, -, hq⟩ := h.exists_thread hp'
    exact hgo hp' (hq.exists_call hj)
  · have hr : s.world.readers = [] :=
      List.eq_nil_iff_forall_not_mem.2 fun j hj => hheld ⟨j, .inl hj⟩
    have hw : s.world.writer = none :=
      Option.eq_none_iff_forall_ne_some.2 fun j hj => hheld ⟨j, .inr hj⟩
    obtain ⟨q, -, hq⟩ := h.exists_thread hi
    exact hgo hi (hq.exists_call_of_free hr hw hret hspin)

/-! ### Every run -/

variable [∀ o, DecidableEq (Ro o)] [DecidableEq O]

/-- One move of the sections is one move of the operations or none. -/
lemma Simulates.next {mv : Move (LockCall A X) (LockCall.Ret Ra Rx) E} (h : Simulates L s t)
    (hn : L.fine.next s mv = some s') :
    ∃ t', (t' = t ∨ ∃ mv', L.coarse.next t mv' = some t') ∧ Simulates L s' t' := by
  rcases Conc.next_cases hn with ⟨i, c, r, k, v, rfl, hi, hv, rfl⟩ | ⟨e, v, rfl, hv, rfl⟩
  · obtain ⟨q, hq, hmatch⟩ := h.exists_thread hi
    obtain ⟨m', q', hstep⟩ := hmatch.stepped h.sound hv
    have hlt := (List.getElem?_eq_some_iff.1 hi).1
    refine ⟨⟨t.threads.set i q', ⟨t.world.world, m'⟩⟩, ?_, ?_⟩
    · rcases hstep.step with ⟨rfl, rfl⟩ | ⟨c', k', r', rfl, rfl, hc⟩
      · left
        obtain ⟨hit, hget⟩ := List.getElem?_eq_some_iff.1 hq
        rw [← hget, List.set_getElem_self]
      · right
        rw [← h.world] at hc
        exact ⟨_, Conc.next_call (K := L.coarse) hq hc rfl⟩
    · refine ⟨?_, hstep.sound, ?_, by simp [h.length, fine], ?_⟩
      · rw [hstep.world]
        exact h.world
      · intro j hj
        have hj : j < s.threads.length := by
          rcases hstep.holders j hj with rfl | hj
          · exact hlt
          · exact h.holders j hj
        simpa [fine] using hj
      · intro j p p' hp hp'
        by_cases hji : j = i
        · subst hji
          simp only [fine, Option.toList_none, List.append_nil, List.getElem?_set_self hlt] at hp
          rw [List.getElem?_set_self (h.length ▸ hlt)] at hp'
          cases hp
          cases hp'
          exact hstep.matched
        · simp only [fine, Option.toList_none, List.append_nil,
            List.getElem?_set_ne (Ne.symm hji)] at hp
          rw [List.getElem?_set_ne (Ne.symm hji)] at hp'
          exact hstep.others j hji p p' (h.threads j p p' hp hp')
  · obtain ⟨v', hv', rfl⟩ := Option.map_eq_some_iff.1 hv
    refine ⟨⟨t.threads, ⟨v', t.world.mem⟩⟩, .inr ⟨.env e, ?_⟩, rfl, ?_, h.holders, h.length,
      h.threads⟩
    · rw [← h.world] at hv'
      simp [Conc.next, coarse, hv']
    · exact ⟨h.sound.mem, h.sound.nodup, h.sound.alone⟩

/-- Every run of the sections is a run of the operations. -/
theorem simulates (hr : L.fine.Reach Conc.anyMove (L.fineStart users w m) s) :
    ∃ t, L.coarse.Reach Conc.anyMove (coarseStart users w m) t ∧ Simulates L s t := by
  induction hr with
  | start => exact ⟨_, .start, simulates_start users w m⟩
  | move hr _ hn ih =>
    obtain ⟨t, ht, hsim⟩ := ih
    obtain ⟨t', hstep, hsim'⟩ := hsim.next hn
    rcases hstep with rfl | ⟨mv', hmv'⟩
    · exact ⟨_, ht, hsim'⟩
    · exact ⟨t', .move ht trivial hmv', hsim'⟩

end Runs

end LockObject
end Effect
