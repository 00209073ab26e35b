import Mathlib.Data.List.Infix
import Mathlib.Tactic.Common

/-!
# Bounded channels

One direction of a connection: a queue of bounded length between a sender and a receiver. The
channel remembers all that was sent and all that was received, so that "nothing is lost, doubled or
reordered" is that the one is a prefix of the other.
-/

/-- `closed` and `gone` tell that the sender or the receiver has closed its end, `dead` that a send
has failed. -/
structure Channel (α : Type*) where
  cap : ℕ
  sent : List α := []
  rcvd : List α := []
  closed : Bool := false
  gone : Bool := false
  dead : Bool := false

namespace Channel

variable {α : Type*} {c c' : Channel α} {xs : List α}

/-- What was sent and not received yet. -/
def transit (c : Channel α) : List α := c.sent.drop c.rcvd.length

/-- The sender's letters enter the channel if there is room; what is sent to a receiver that has
closed its end needs none. -/
def put (c : Channel α) (xs : List α) : Option (Channel α) :=
  if xs ≠ [] ∧ c.dead = false ∧ (c.gone = true ∨ c.transit.length + xs.length ≤ c.cap) then
    some { c with sent := c.sent ++ xs }
  else none

/-- The receiver takes letters from the front. -/
def take [DecidableEq α] (c : Channel α) (xs : List α) : Option (Channel α) :=
  if xs ≠ [] ∧ xs <+: c.transit then some { c with rcvd := c.rcvd ++ xs } else none

/-- What was received is the beginning of what was sent. -/
def Ordered (c : Channel α) : Prop := c.rcvd <+: c.sent

lemma Ordered.eq (h : c.Ordered) : c.rcvd ++ c.transit = c.sent := by
  obtain ⟨rest, hrest⟩ := h
  rw [transit, ← hrest, List.drop_left]

lemma put_eq_some (h : c.put xs = some c') :
    c' = { c with sent := c.sent ++ xs } ∧ xs ≠ [] ∧ c.dead = false := by
  rw [put] at h
  split at h
  · rename_i hc
    cases h
    exact ⟨rfl, hc.1, hc.2.1⟩
  · cases h

lemma take_eq_some [DecidableEq α] (h : c.take xs = some c') :
    c' = { c with rcvd := c.rcvd ++ xs } ∧ xs <+: c.transit := by
  rw [take] at h
  split at h
  · rename_i hc
    cases h
    exact ⟨rfl, hc.2⟩
  · cases h

lemma Ordered.put (h : c.Ordered) (hput : c.put xs = some c') : c'.Ordered := by
  obtain ⟨rfl, -, -⟩ := put_eq_some hput
  exact h.trans (List.prefix_append _ _)

lemma Ordered.take [DecidableEq α] (h : c.Ordered) (htake : c.take xs = some c') : c'.Ordered := by
  obtain ⟨rfl, hxs⟩ := take_eq_some htake
  rw [Ordered, ← h.eq]
  exact (List.prefix_append_right_inj _).2 hxs

/-- The receiver has to wait. -/
def Empty (c : Channel α) : Prop := c.transit = [] ∧ c.closed = false

end Channel
