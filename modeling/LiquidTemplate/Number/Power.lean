/-!
# Powers

The powers of two and of ten, by which doubles and decimal numbers are scaled.

* `twoTo`, `tenTo`: the powers.
* `twoTo_succ`, `tenTo_succ`: the next power.
* `twoTo_add`: the power of a sum.
-/

namespace LiquidTemplate.Number

/-- **Power of two.** -/
def twoTo (n : Nat) : Nat :=
  Nat.pow 2 n

/-- **Power of ten.** -/
def tenTo (n : Nat) : Nat :=
  Nat.pow 10 n

@[simp] theorem twoTo_zero : twoTo 0 = 1 := rfl

@[simp] theorem tenTo_zero : tenTo 0 = 1 := rfl

theorem twoTo_succ (n : Nat) : twoTo (n + 1) = twoTo n * 2 := rfl

theorem tenTo_succ (n : Nat) : tenTo (n + 1) = tenTo n * 10 := rfl

theorem twoTo_pos (n : Nat) : 0 < twoTo n := by
  induction n with
  | zero => exact Nat.one_pos
  | succ n ih =>
    rw [twoTo_succ]
    omega

theorem twoTo_add (m n : Nat) : twoTo (m + n) = twoTo m * twoTo n := by
  induction n with
  | zero => simp
  | succ n ih => rw [← Nat.add_assoc, twoTo_succ, twoTo_succ, ih, Nat.mul_assoc]

end LiquidTemplate.Number
