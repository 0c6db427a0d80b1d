/-!
# Integers of 64 bits

Exact integer results and their 64-bit form, and operations of the machine.

* `word?`: the 64-bit integer of a value, if it is in range.
* `clamp`: the nearest 64-bit integer.
* `checkedAdd`, `checkedDiv`, `checkedRem`: operations that fail where they leave the range.
* `overflowingAdd`, `overflowingSub`: operations that wrap around there, and say so.
* `saturatingAdd`: a sum that stays at the end of the range.
* `toSize`: a word as the number of a place in memory.
* `overflowingSizeAdd`: a sum of such numbers.
* `floorQuotient?`, `floorRemainder`: floored division by means of the division of the machine.
* `word?_eq_some_iff`: `word?` gives exactly the integers in range, with their value.
-/

namespace LiquidTemplate.Number

/-- **In range.** The 64-bit integer with the value `n`, if there is one. -/
def word? (n : Int) : Option Int64 :=
  if -9223372036854775808 ≤ n ∧ n ≤ 9223372036854775807 then some (Int64.ofInt n) else none

/-- **Nearest in range.** The 64-bit integer closest to `n`. -/
def clamp (n : Int) : Int64 :=
  if n < -9223372036854775808 then Int64.minValue
  else if 9223372036854775807 < n then Int64.maxValue
  else Int64.ofInt n

/-! ### Operations -/

/-- **Checked sum.** -/
def checkedAdd (a b : Int64) : Option Int64 :=
  word? (a.toInt + b.toInt)

/-- Whether the machine cannot divide `a` by `b`: by zero, and where the quotient is out of range. -/
def cannotDivide (a b : Int64) : Bool :=
  b == 0 || (a == Int64.minValue && b == -1)

/-- **Checked quotient**, rounded towards zero. -/
def checkedDiv (a b : Int64) : Option Int64 :=
  if cannotDivide a b then none else some (a / b)

/-- **Checked remainder**, with the sign of the dividend. -/
def checkedRem (a b : Int64) : Option Int64 :=
  if cannotDivide a b then none else some (a % b)

/-- **Sum that can wrap around.** The flag says whether it has. -/
def overflowingAdd (a b : Int64) : Int64 × Bool :=
  (a + b, (word? (a.toInt + b.toInt)).isNone)

/-- **Difference that can wrap around.** The flag says whether it has. -/
def overflowingSub (a b : Int64) : Int64 × Bool :=
  (a - b, (word? (a.toInt - b.toInt)).isNone)

/-- **Saturating sum**, which stays at the end of the range that it would leave. -/
def saturatingAdd (a b : Int64) : Int64 :=
  clamp (a.toInt + b.toInt)

/-- **As a size.** The number of a place in memory; a negative word wraps around. -/
def toSize (a : Int64) : Nat :=
  a.toUInt64.toNat

/-- **Sum of sizes** that can wrap around. The flag says whether it has. -/
def overflowingSizeAdd (m n : Nat) : Nat × Bool :=
  ((m + n) % 0x10000000000000000, 0x10000000000000000 ≤ m + n)

/-- **Floored quotient.** The quotient of the machine is one too high where something remains and the
sides have different signs. The flag is that of the correction. -/
def floorQuotient? (a b : Int64) : Option (Int64 × Bool) :=
  match checkedDiv a b, checkedRem a b with
  | some quotient, some rest =>
    some (if rest != 0 && (a < 0) != (b < 0) then overflowingSub quotient 1 else (quotient, false))
  | _, _ => none

/-- **Floored remainder.** The remainder of the machine is moved by the divisor where it has the other
sign; it is zero where the quotient is out of range. The flag is that of the correction. -/
def floorRemainder (a b : Int64) : Int64 × Bool :=
  let rest := a % b
  if rest != 0 && (rest < 0) != (b < 0) then overflowingAdd rest b else (rest, false)

theorem toInt_ne_zero {a : Int64} (h : a ≠ 0) : a.toInt ≠ 0 :=
  fun ha => h (Int64.toInt_inj.1 ha)

theorem word?_eq_some_iff {n : Int} {w : Int64} : word? n = some w ↔ w.toInt = n := by
  unfold word?
  have hlo := w.le_toInt
  have hhi := w.toInt_lt
  constructor
  · intro h
    split at h
    · next hr =>
      obtain rfl := by simpa using h
      exact Int64.toInt_ofInt_of_le hr.1 (Int.lt_add_one_of_le hr.2)
    · simp at h
  · rintro rfl
    rw [if_pos ⟨hlo, Int.le_of_lt_add_one hhi⟩, Int64.ofInt_toInt]

theorem word?_toInt (w : Int64) : word? w.toInt = some w :=
  word?_eq_some_iff.2 rfl

theorem word?_eq_none_iff {n : Int} :
    word? n = none ↔ n < -9223372036854775808 ∨ 9223372036854775807 < n := by
  unfold word?
  split <;> simp <;> omega

/-- The value of the nearest integer in range. -/
theorem toInt_clamp (n : Int) :
    (clamp n).toInt = max (-9223372036854775808) (min n 9223372036854775807) := by
  unfold clamp
  split
  · simp only [Int64.toInt_minValue]
    omega
  · split
    · simp only [Int64.toInt_maxValue]
      omega
    · rw [Int64.toInt_ofInt_of_le (by omega) (by omega)]
      omega

theorem toInt_saturatingAdd (a b : Int64) :
    (saturatingAdd a b).toInt =
      max (-9223372036854775808) (min (a.toInt + b.toInt) 9223372036854775807) :=
  toInt_clamp _

/-- A word that is not negative is the size with its value. -/
theorem toSize_eq {a : Int64} (h : 0 ≤ a.toInt) : toSize a = a.toInt.toNat := by
  have hle : 0 ≤ a := Int64.le_iff_toInt_le.2 (by rwa [Int64.toInt_zero])
  rw [toSize, Int64.toNat_toUInt64_of_le hle, Int64.toNatClampNeg]

/-- **Sizes of words** that are not negative have a sum that does not wrap around. -/
theorem overflowingSizeAdd_toNat (a b : Int64) :
    overflowingSizeAdd a.toInt.toNat b.toInt.toNat = (a.toInt.toNat + b.toInt.toNat, false) := by
  have ha := a.toInt_lt
  have hb := b.toInt_lt
  have hlt : a.toInt.toNat + b.toInt.toNat < 0x10000000000000000 := by omega
  rw [overflowingSizeAdd, Nat.mod_eq_of_lt hlt, decide_eq_false (Nat.not_le.2 hlt)]

theorem toInt_min (a b : Int64) : (min a b).toInt = min a.toInt b.toInt := by
  have hmin : min a b = if a ≤ b then a else b := rfl
  rw [hmin]
  split
  · next hle => rw [Int.min_eq_left (Int64.le_iff_toInt_le.1 hle)]
  · next hle =>
    have hlt := mt Int64.le_iff_toInt_le.2 hle
    rw [Int.min_eq_right (by omega)]

/-- **A sum in range** does not wrap around. -/
theorem overflowingAdd_eq {a b : Int64} {n : Int} (h : a.toInt + b.toInt = n)
    (hlo : -9223372036854775808 ≤ n) (hhi : n ≤ 9223372036854775807) :
    ∃ w, overflowingAdd a b = (w, false) ∧ w.toInt = n := by
  obtain ⟨w, hw⟩ : ∃ w, word? n = some w := ⟨_, if_pos ⟨hlo, hhi⟩⟩
  refine ⟨a + b, ?_, ?_⟩
  · rw [overflowingAdd, h, hw, Option.isNone_some]
  · rw [Int64.toInt_add, h, Int.bmod_eq_of_le (by omega) (by omega)]

theorem overflowingSub_eq {a b : Int64} {n : Int} (h : a.toInt - b.toInt = n)
    (hlo : -9223372036854775808 ≤ n) (hhi : n ≤ 9223372036854775807) :
    ∃ w, overflowingSub a b = (w, false) ∧ w.toInt = n := by
  obtain ⟨w, hw⟩ : ∃ w, word? n = some w := ⟨_, if_pos ⟨hlo, hhi⟩⟩
  refine ⟨a - b, ?_, ?_⟩
  · rw [overflowingSub, h, hw, Option.isNone_some]
  · rw [Int64.toInt_sub, h, Int.bmod_eq_of_le (by omega) (by omega)]

end LiquidTemplate.Number
