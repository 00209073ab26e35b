import Mathlib.Algebra.Order.Ring.Nat
import Mathlib.Tactic.Ring

/-!
# Big-endian numbers

Fixed-width numbers in network byte order, for any width.
-/

namespace BigEndian

/-- The `w` bytes of `n`, most significant byte first; higher bytes of `n` are cut off. -/
def encode : ℕ → ℕ → List UInt8
  | 0, _     => []
  | w + 1, n => UInt8.ofNat (n / 256 ^ w) :: encode w n

/-- The number written in the given bytes. -/
def decode : List UInt8 → ℕ
  | []      => 0
  | b :: bs => b.toNat * 256 ^ bs.length + decode bs

@[simp] lemma length_encode (w n : ℕ) : (encode w n).length = w := by
  induction w with
  | zero => rfl
  | succ w ih => simp [encode, ih]

/-- Decoding gives the number back, up to the width. -/
lemma decode_encode_mod (w n : ℕ) : decode (encode w n) = n % 256 ^ w := by
  induction w with
  | zero => simp [encode, decode, Nat.mod_one]
  | succ w ih =>
    simp only [encode, decode, length_encode, ih, UInt8.toNat_ofNat']
    rw [Nat.mod_pow_succ (b := 256)]
    ring

lemma decode_lt (bs : List UInt8) : decode bs < 256 ^ bs.length := by
  induction bs with
  | nil => simp [decode]
  | cons b bs ih =>
    have hb : b.toNat * 256 ^ bs.length ≤ 255 * 256 ^ bs.length :=
      Nat.mul_le_mul_right _ (Nat.le_of_lt_succ b.toNat_lt)
    have hpow : 256 ^ (b :: bs).length = 255 * 256 ^ bs.length + 256 ^ bs.length := by
      rw [List.length_cons, pow_succ]
      ring
    rw [decode, hpow]
    omega

/-- Encoding gives the bytes back. -/
lemma encode_decode (bs : List UInt8) : encode bs.length (decode bs) = bs := by
  suffices h : ∀ k, encode bs.length (k * 256 ^ bs.length + decode bs) = bs by
    simpa using h 0
  induction bs with
  | nil => exact fun _ => rfl
  | cons b bs ih =>
    intro k
    have hsplit : k * 256 ^ (b :: bs).length + decode (b :: bs) =
        (k * 256 + b.toNat) * 256 ^ bs.length + decode bs := by
      rw [List.length_cons, decode, pow_succ]
      ring
    have hdiv : (k * 256 + b.toNat) * 256 ^ bs.length + decode bs =
        decode bs + 256 ^ bs.length * (k * 256 + b.toNat) := by ring
    rw [hsplit, List.length_cons, encode, ih]
    rw [hdiv, Nat.add_mul_div_left _ _ (Nat.pow_pos (by decide)),
      Nat.div_eq_of_lt (decode_lt bs), zero_add]
    congr 1
    apply UInt8.toNat_inj.1
    have hb : b.toNat < 2 ^ 8 := b.toNat_lt
    rw [UInt8.toNat_ofNat']
    omega

@[simp] lemma decode_encode {w n : ℕ} (h : n < 256 ^ w) : decode (encode w n) = n := by
  rw [decode_encode_mod, Nat.mod_eq_of_lt h]

end BigEndian
