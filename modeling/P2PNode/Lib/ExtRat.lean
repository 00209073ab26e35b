import Mathlib.Data.Rat.Defs
import Mathlib.Algebra.Order.Ring.Rat

/-!
# Single-precision numbers with exact arithmetic

The values of a C `float`, finite ones as rationals. Arithmetic is exact instead of rounded, the
comparisons are those of C (any comparison with a NaN is false), and `ExtRat.ofBits` reads the bit
pattern of a single. The sign of a zero is not kept.
-/

inductive ExtRat where
  | fin (q : ℚ)
  | posInf
  | negInf
  | nan
  deriving DecidableEq

namespace ExtRat

def add : ExtRat → ExtRat → ExtRat
  | .fin a, .fin b     => .fin (a + b)
  | .nan, _            => .nan
  | _, .nan            => .nan
  | .posInf, .negInf   => .nan
  | .negInf, .posInf   => .nan
  | .posInf, _         => .posInf
  | _, .posInf         => .posInf
  | .negInf, _         => .negInf
  | _, .negInf         => .negInf

instance : Add ExtRat := ⟨ExtRat.add⟩

/-- The product with a positive finite number. -/
def scale (k : ℚ) : ExtRat → ExtRat
  | .fin a => .fin (a * k)
  | x      => x

/-- C's `<`. -/
def blt : ExtRat → ExtRat → Bool
  | .fin a, .fin b   => decide (a < b)
  | .fin _, .posInf  => true
  | .negInf, .fin _  => true
  | .negInf, .posInf => true
  | _, _             => false

/-- C's `<=`. -/
def ble : ExtRat → ExtRat → Bool
  | .fin a, .fin b     => decide (a ≤ b)
  | .fin _, .posInf    => true
  | .posInf, .posInf   => true
  | .negInf, .fin _    => true
  | .negInf, .posInf   => true
  | .negInf, .negInf   => true
  | _, _               => false

instance : LT ExtRat := ⟨fun x y => blt x y = true⟩
instance : LE ExtRat := ⟨fun x y => ble x y = true⟩

instance (x y : ExtRat) : Decidable (x < y) := inferInstanceAs (Decidable (blt x y = true))
instance (x y : ExtRat) : Decidable (x ≤ y) := inferInstanceAs (Decidable (ble x y = true))

@[simp] lemma fin_add (a b : ℚ) : ExtRat.fin a + ExtRat.fin b = .fin (a + b) := rfl
@[simp] lemma scale_fin (k a : ℚ) : scale k (.fin a) = .fin (a * k) := rfl

@[simp] lemma fin_lt {a b : ℚ} : ExtRat.fin a < .fin b ↔ a < b := decide_eq_true_iff
@[simp] lemma fin_le {a b : ℚ} : ExtRat.fin a ≤ .fin b ↔ a ≤ b := decide_eq_true_iff

lemma le_fin_trans {x : ExtRat} {a b : ℚ} (h : x ≤ .fin a) (hab : a ≤ b) : x ≤ .fin b := by
  cases x with
  | fin q => exact fin_le.2 ((fin_le.1 h).trans hab)
  | negInf => rfl
  | posInf => cases h
  | nan => cases h

lemma le_of_lt_fin {x : ExtRat} {a b : ℚ} (h : x < .fin a) (hab : a ≤ b) : x ≤ .fin b := by
  cases x with
  | fin q => exact fin_le.2 ((fin_lt.1 h).le.trans hab)
  | negInf => rfl
  | posInf => cases h
  | nan => cases h

/-- The value of a finite number. -/
def toRat : ExtRat → ℚ
  | .fin q => q
  | _      => 0

@[simp] lemma toRat_fin (q : ℚ) : toRat (.fin q) = q := rfl

/-- The value of the single whose 32 bits are `n`. -/
def ofBits (n : ℕ) : ExtRat :=
  let s : ℚ := if n / 2 ^ 31 % 2 = 0 then 1 else -1
  let e : ℕ := n / 2 ^ 23 % 2 ^ 8
  let m : ℕ := n % 2 ^ 23
  if e = 255 then
    if m = 0 then (if n / 2 ^ 31 % 2 = 0 then .posInf else .negInf) else .nan
  else if e = 0 then .fin (s * m / 2 ^ 149)
  else .fin (s * (2 ^ 23 + m) * 2 ^ e / 2 ^ 150)

end ExtRat
