import Mathlib.Data.Rat.Floor
import Mathlib.Tactic.Linarith
import LiquidTemplate.Filter

/-!
# Whole numbers in filters

Filters compute with whole numbers exactly: what is out of range becomes a double, and nothing wraps
around. The machine divides towards zero. Its quotient and its remainder are corrected where the signs
of both sides differ, and neither correction leaves the range.

* `Number.Floored`: a quotient and a remainder as floored division has them.
* `Number.floored_quotient`, `Number.floored_remainder`: they come out of the division of the machine.
* `Value.IsExact`: the result of an exact operation.
* `whole_numbers`: the filters `divided_by`, `modulo`, `plus`, `minus`, `times` and `abs`.
-/

namespace LiquidTemplate

/-! ### Floored division -/

namespace Number

variable {a b q r : Int}

/-- **Floored division** of `a` by `b`: the remainder is zero or has the sign of the divisor, and it is
smaller than that. -/
structure Floored (a b q r : Int) : Prop where
  eq : q * b + r = a
  rest : 0 ≤ r ∧ r < b ∨ b < r ∧ r ≤ 0

/-- The quotient is the floor of the exact one. -/
theorem Floored.floor (h : Floored a b q r) : ⌊(a : ℚ) / b⌋ = q := by
  have ha : (a : ℚ) = q * b + r := by exact_mod_cast h.eq.symm
  rw [Int.floor_eq_iff]
  rcases h.rest with ⟨hlo, hhi⟩ | ⟨hlo, hhi⟩
  · have hlo : (0 : ℚ) ≤ r := by exact_mod_cast hlo
    have hhi : (r : ℚ) < b := by exact_mod_cast hhi
    have hb : (0 : ℚ) < b := lt_of_le_of_lt hlo hhi
    rw [le_div_iff₀ hb, div_lt_iff₀ hb]
    constructor <;> linarith
  · have hlo : (b : ℚ) < r := by exact_mod_cast hlo
    have hhi : (r : ℚ) ≤ 0 := by exact_mod_cast hhi
    have hb : (b : ℚ) < 0 := lt_of_lt_of_le hlo hhi
    rw [le_div_iff_of_neg hb, div_lt_iff_of_neg hb]
    constructor <;> linarith

theorem Floored.remainder_eq (h : Floored a b q r) : r = a - b * ⌊(a : ℚ) / b⌋ := by
  have heq := h.eq
  rw [h.floor, Int.mul_comm b q]
  omega

theorem Floored.sign_eq (h : Floored a b q r) : r = 0 ∨ r.sign = b.sign := by
  rcases h.rest with ⟨hlo, hhi⟩ | ⟨hlo, hhi⟩
  · by_cases hr : r = 0
    · exact .inl hr
    · exact .inr (by rw [Int.sign_eq_one_of_pos (by omega), Int.sign_eq_one_of_pos (by omega)])
  · by_cases hr : r = 0
    · exact .inl hr
    · exact .inr (by rw [Int.sign_eq_neg_one_of_neg (by omega), Int.sign_eq_neg_one_of_neg (by omega)])

theorem Floored.abs_lt (h : Floored a b q r) : |r| < |b| := by
  rcases h.rest with ⟨hlo, hhi⟩ | ⟨hlo, hhi⟩
  · rwa [abs_of_nonneg hlo, abs_of_pos (lt_of_le_of_lt hlo hhi)]
  · rw [abs_of_nonpos hhi, abs_of_neg (lt_of_lt_of_le hlo hhi)]
    omega

/-- The remainder of a division towards zero has the sign of the dividend. -/
theorem tmod_bounds (hb : b ≠ 0) (a : Int) :
    (0 ≤ a → 0 ≤ a.tmod b) ∧ (a ≤ 0 → a.tmod b ≤ 0) ∧ (a.tmod b).natAbs < b.natAbs := by
  refine ⟨Int.tmod_nonneg b, fun ha => ?_, ?_⟩
  · have hneg := Int.tmod_nonneg b (Int.neg_nonneg_of_nonpos ha)
    rw [Int.neg_tmod] at hneg
    omega
  · rw [Int.natAbs_tmod]
    exact Nat.mod_lt _ (Int.natAbs_pos.2 hb)

/-- **Division towards zero** is floored where nothing remains or the signs of both sides agree. -/
theorem floored_of_agree (hb : b ≠ 0) (h : a.tmod b = 0 ∨ (a < 0 ↔ b < 0)) :
    Floored a b (a.tdiv b) (a.tmod b) := by
  obtain ⟨hnonneg, hnonpos, hlt⟩ := tmod_bounds hb a
  exact ⟨Int.tdiv_mul_add_tmod a b, by omega⟩

/-- Where something remains and the signs differ, the quotient is one too high. -/
theorem floored_of_differ (hr : a.tmod b ≠ 0) (hb : b ≠ 0) (h : ¬ (a < 0 ↔ b < 0)) :
    Floored a b (a.tdiv b - 1) (a.tmod b + b) := by
  obtain ⟨hnonneg, hnonpos, hlt⟩ := tmod_bounds hb a
  have heq := Int.tdiv_mul_add_tmod a b
  refine ⟨?_, by omega⟩
  rw [Int.sub_mul, Int.one_mul]
  omega

/-- A quotient that is rounded is at most half of the dividend. -/
theorem two_mul_natAbs_tdiv_le (hb : b ≠ 0) (hr : a.tmod b ≠ 0) :
    2 * (a.tdiv b).natAbs ≤ a.natAbs := by
  have htwo : 2 ≤ b.natAbs := by
    have := (tmod_bounds hb a).2.2
    omega
  have hquotient : (a.tdiv b).natAbs = a.natAbs / b.natAbs := Int.natAbs_tdiv a b
  rw [hquotient]
  calc 2 * (a.natAbs / b.natAbs) ≤ b.natAbs * (a.natAbs / b.natAbs) := Nat.mul_le_mul_right _ htwo
    _ ≤ a.natAbs := Nat.mul_div_le a.natAbs b.natAbs

end Number

/-! ### Division on the machine -/

namespace Number

variable {a b : Int64}

theorem cannotDivide_iff : cannotDivide a b = true ↔ b = 0 ∨ (a = Int64.minValue ∧ b = -1) := by
  simp [cannotDivide]

/-- The condition of both corrections, in terms of integers. -/
theorem differ_iff (a b r : Int64) :
    (r != 0 && (a < 0) != (b < 0)) = true ↔ r.toInt ≠ 0 ∧ ¬ (a.toInt < 0 ↔ b.toInt < 0) := by
  simp [Int64.lt_iff_toInt_lt, ← Int64.toInt_inj]

/-- **The quotient of the machine**, where there is one. -/
theorem toInt_div_of_canDivide (h : ¬ cannotDivide a b = true) :
    (a / b).toInt = a.toInt.tdiv b.toInt := by
  rw [cannotDivide_iff, not_or, not_and_or] at h
  rcases h.2 with ha | hb
  · exact Int64.toInt_div_of_ne_left a b ha
  · exact Int64.toInt_div_of_ne_right a b hb

/-- **The floored quotient** is there but for a zero divisor and where it is out of range, and its
correction does not wrap around. -/
theorem floored_quotient (h : ¬ cannotDivide a b = true) :
    ∃ (q : Int64) (r : Int), floorQuotient? a b = some (q, false) ∧
      Floored a.toInt b.toInt q.toInt r := by
  have hb : b.toInt ≠ 0 := toInt_ne_zero fun hb => h (cannotDivide_iff.2 (.inl hb))
  have hdiv := toInt_div_of_canDivide h
  have hmod : (a % b).toInt = a.toInt.tmod b.toInt := Int64.toInt_mod a b
  rw [floorQuotient?, checkedDiv, checkedRem, if_neg h, if_neg h]
  dsimp only
  by_cases hdiffer : (a % b != 0 && (a < 0) != (b < 0)) = true
  · rw [if_pos hdiffer]
    rw [differ_iff, hmod] at hdiffer
    have hhalf := two_mul_natAbs_tdiv_le hb hdiffer.1
    have hlo := a.le_toInt
    have hhi := a.toInt_lt
    obtain ⟨q, hq, hvalue⟩ := overflowingSub_eq (a := a / b) (b := 1) (n := a.toInt.tdiv b.toInt - 1)
      (by rw [hdiv]; rfl) (by omega) (by omega)
    exact ⟨q, _, by rw [hq], hvalue ▸ floored_of_differ hdiffer.1 hb hdiffer.2⟩
  · rw [if_neg hdiffer]
    rw [differ_iff, hmod] at hdiffer
    exact ⟨a / b, _, rfl, hdiv ▸ floored_of_agree hb (by tauto)⟩

theorem floorQuotient?_of_cannotDivide (h : cannotDivide a b = true) : floorQuotient? a b = none := by
  rw [floorQuotient?, checkedDiv, if_pos h]

theorem floorQuotient?_flag {q : Int64} {overflow : Bool} (h : floorQuotient? a b = some (q, overflow)) :
    overflow = false := by
  by_cases hcannot : cannotDivide a b = true
  · rw [floorQuotient?_of_cannotDivide hcannot] at h
    nomatch h
  · obtain ⟨_, _, hq, -⟩ := floored_quotient hcannot
    rw [hq] at h
    injection h with hpair
    exact (congrArg Prod.snd hpair).symm

/-- **The floored remainder**, whose correction does not wrap around either. -/
theorem floored_remainder (hb : b ≠ 0) :
    ∃ (q : Int) (r : Int64), floorRemainder a b = (r, false) ∧ Floored a.toInt b.toInt q r.toInt := by
  have hb := toInt_ne_zero hb
  have hmod : (a % b).toInt = a.toInt.tmod b.toInt := Int64.toInt_mod a b
  obtain ⟨hnonneg, hnonpos, hlt⟩ := tmod_bounds hb a.toInt
  rw [floorRemainder]
  by_cases hdiffer : (a % b != 0 && (a % b < 0) != (b < 0)) = true
  · rw [if_pos hdiffer]
    rw [differ_iff, hmod] at hdiffer
    have hlo := b.le_toInt
    have hhi := b.toInt_lt
    obtain ⟨r, hr, hvalue⟩ :=
      overflowingAdd_eq (a := a % b) (b := b) (n := a.toInt.tmod b.toInt + b.toInt)
        (by rw [hmod]) (by omega) (by omega)
    exact ⟨_, r, hr, hvalue ▸ floored_of_differ hdiffer.1 hb (by omega)⟩
  · rw [if_neg hdiffer]
    rw [differ_iff, hmod] at hdiffer
    exact ⟨_, a % b, rfl, hmod ▸ floored_of_agree hb (by omega)⟩

end Number

/-! ### Results of filters -/

/-- **Exact result** of an operation: the whole number `n` where it is in range, else a double. -/
def Value.IsExact (n : Int) : Value → Prop
  | int w => w.toInt = n
  | float _ => n < Int64.minValue.toInt ∨ Int64.maxValue.toInt < n
  | _ => False

theorem Quantity.isExact_exact (n : Int) (x : Float) : (Value.ofQuantity (exact n x)).IsExact n := by
  unfold exact
  split
  · next w hw => exact Number.word?_eq_some_iff.1 hw
  · next hnone => exact Number.word?_eq_none_iff.1 hnone

namespace Filter

variable {host : Host} {history : History} {args : FilterArguments} {a b : Int64}

/-- **A division of whole numbers**, in terms of their quotient or remainder. -/
theorem onDivision_int (a b : Int64) (f : Quantity → Quantity → Option Quantity) :
    onDivision (.int a) (.int b) f =
      match f (.int a) (.int b) with
      | some q => .ok (.ofQuantity q)
      | none => .error .divisionByZero := by
  simp only [onDivision, Value.toQuantity, bind, Except.bind]
  cases f (.int a) (.int b) <;> rfl

theorem not_isZero (hb : b ≠ 0) : ¬ (Quantity.int b).isZero = true :=
  fun h => hb (beq_iff_eq.1 h)

theorem apply_dividedBy (h : args.get? 0 "divisor" = some (.int b)) :
    dividedBy.apply host history (.int a) args =
      if b = 0 then .error .divisionByZero
      else
        match Number.floorQuotient? a b with
        | some (q, _) => .ok (.int q, history)
        | none => .ok (.float (Float.ofInt a.toInt / Float.ofInt b.toInt), history) := by
  rw [apply_of_ne_map (by decide)]
  simp only [evaluate, FilterArguments.required_eq h, bind, Except.bind, onDivision_int]
  by_cases hb : b = 0
  · subst hb
    rfl
  · rw [if_neg hb, Quantity.divide?, if_neg (not_isZero hb)]
    rcases Number.floorQuotient? a b with _ | ⟨q, overflow⟩ <;> rfl

theorem apply_modulo (h : args.get? 0 "modulus" = some (.int b)) :
    modulo.apply host history (.int a) args =
      if b = 0 then .error .divisionByZero else .ok (.int (Number.floorRemainder a b).1, history) := by
  rw [apply_of_ne_map (by decide)]
  simp only [evaluate, FilterArguments.required_eq h, bind, Except.bind, onDivision_int]
  by_cases hb : b = 0
  · subst hb
    rfl
  · rw [if_neg hb, Quantity.modulo?, if_neg (not_isZero hb)]
    rfl

/-- **A sum or a difference** of whole numbers. -/
theorem apply_onOperand {f : Filter} (op : Quantity → Quantity → Quantity) (hf : f ≠ map)
    (heval : f.evaluate (host history) (.int a) args =
      (args.required f.name 0 "operand").bind fun v => onQuantities (.int a) v op)
    (h : args.get? 0 "operand" = some (.int b)) :
    f.apply host history (.int a) args = .ok (.ofQuantity (op (.int a) (.int b)), history) := by
  rw [apply_of_ne_map hf, heval, FilterArguments.required_eq h]
  rfl

theorem apply_times (h : args.get? 0 "operand" = some (.int b)) :
    times.apply host history (.int a) args =
      .ok (.ofQuantity ((Quantity.int a).times (.int b)), history) := by
  rw [apply_of_ne_map (by decide)]
  simp only [evaluate, FilterArguments.required_eq h, bind, Except.bind]
  rfl

theorem apply_abs :
    abs.apply host history (.int a) args = .ok (.ofQuantity (Quantity.int a).absolute, history) := by
  rw [apply_of_ne_map (by decide)]
  rfl

end Filter

/-- **Whole numbers** are divided with the floor as their quotient, and with a remainder that has the
sign of the divisor. Sums, differences, products and absolute values are exact. A result out of range is
a double, and no operation of the machine wraps around on the way. -/
theorem whole_numbers (host : Host) (history : History) (a b : Int64)
    (args divisor modulus operand : FilterArguments)
    (hdivisor : divisor.get? 0 "divisor" = some (.int b))
    (hmodulus : modulus.get? 0 "modulus" = some (.int b))
    (hoperand : operand.get? 0 "operand" = some (.int b)) :
    let run (f : Filter) (args : FilterArguments) := f.apply host history (.int a) args
    let floor := ⌊(a.toInt : ℚ) / b.toInt⌋
    (run .dividedBy divisor = .error .divisionByZero ↔ b = 0) ∧
    (run .modulo modulus = .error .divisionByZero ↔ b = 0) ∧
    (b ≠ 0 →
      ∃ (quotient : Value) (r : Int64),
        run .dividedBy divisor = .ok (quotient, history) ∧
        run .modulo modulus = .ok (.int r, history) ∧
        (¬ (a = Int64.minValue ∧ b = -1) →
          ∃ q : Int64, quotient = .int q ∧ q.toInt = floor ∧ q.toInt * b.toInt + r.toInt = a.toInt) ∧
        (a = Int64.minValue → b = -1 → ∃ x, quotient = .float x) ∧
        r.toInt = a.toInt - b.toInt * floor ∧
        (r.toInt = 0 ∨ r.toInt.sign = b.toInt.sign) ∧ |r.toInt| < |b.toInt|) ∧
    (∃ v, run .plus operand = .ok (v, history) ∧ v.IsExact (a.toInt + b.toInt)) ∧
    (∃ v, run .minus operand = .ok (v, history) ∧ v.IsExact (a.toInt - b.toInt)) ∧
    (∃ v, run .times operand = .ok (v, history) ∧ v.IsExact (a.toInt * b.toInt)) ∧
    (∃ v, run .abs args = .ok (v, history) ∧ v.IsExact |a.toInt|) ∧
    (∀ q overflow, Number.floorQuotient? a b = some (q, overflow) → overflow = false) ∧
    (b ≠ 0 → (Number.floorRemainder a b).2 = false) := by
  intro run floor
  have hdivide : run .dividedBy divisor = _ := Filter.apply_dividedBy hdivisor
  have hmodulo : run .modulo modulus = _ := Filter.apply_modulo hmodulus
  refine ⟨?_, ?_, fun hb => ?_,
    ⟨_, Filter.apply_onOperand Quantity.plus (by decide) rfl hoperand, Quantity.isExact_exact _ _⟩,
    ⟨_, Filter.apply_onOperand Quantity.minus (by decide) rfl hoperand, Quantity.isExact_exact _ _⟩,
    ⟨_, Filter.apply_times hoperand, Quantity.isExact_exact _ _⟩,
    ⟨_, Filter.apply_abs, ?_⟩, fun _ _ => Number.floorQuotient?_flag, fun hb => ?_⟩
  · rw [hdivide]
    split
    · next hb => exact iff_of_true rfl hb
    · next hb => split <;> exact iff_of_false nofun hb
  · rw [hmodulo]
    split
    · next hb => exact iff_of_true rfl hb
    · next hb => exact iff_of_false nofun hb
  · obtain ⟨p, r, hr, hremainder⟩ := Number.floored_remainder (a := a) hb
    rw [if_neg hb] at hdivide hmodulo
    rw [hr] at hmodulo
    by_cases hcannot : Number.cannotDivide a b = true
    · have hends := (Number.cannotDivide_iff.1 hcannot).resolve_left hb
      rw [Number.floorQuotient?_of_cannotDivide hcannot] at hdivide
      exact ⟨_, r, hdivide, hmodulo, fun h => absurd hends h, fun _ _ => ⟨_, rfl⟩,
        hremainder.remainder_eq, hremainder.sign_eq, hremainder.abs_lt⟩
    · obtain ⟨q, _, hq, hquotient⟩ := Number.floored_quotient hcannot
      rw [hq] at hdivide
      -- the remainder belongs to the same quotient
      have hsame : q.toInt = p := hquotient.floor.symm.trans hremainder.floor
      exact ⟨_, r, hdivide, hmodulo,
        fun _ => ⟨q, rfl, hquotient.floor.symm, hsame.symm ▸ hremainder.eq⟩,
        fun ha hb => absurd (Number.cannotDivide_iff.2 (.inr ⟨ha, hb⟩)) hcannot,
        hremainder.remainder_eq, hremainder.sign_eq, hremainder.abs_lt⟩
  · rw [Int.abs_eq_natAbs]
    exact Quantity.isExact_exact _ _
  · obtain ⟨_, r, hr, -⟩ := Number.floored_remainder (a := a) hb
    rw [hr]

/-- A quotient that is rounded, with a negative dividend. -/
theorem whole_numbers_rounded :
    let host : Host := fun _ => ⟨fun _ _ => none, fun _ _ => none, fun _ => ""⟩
    let place : FilterArguments := { positional := [.int 2] }
    let name : FilterArguments := { named := [("modulus", .int 2)] }
    place.get? 0 "divisor" = some (.int 2) ∧ name.get? 0 "modulus" = some (.int 2) ∧
      place.get? 0 "operand" = some (.int 2) ∧
      Filter.dividedBy.apply host [] (.int (-7)) place = .ok (.int (-4), []) ∧
      Filter.modulo.apply host [] (.int (-7)) name = .ok (.int 1, []) ∧
      (-4 : Int64).toInt = ⌊((-7 : Int64).toInt : ℚ) / (2 : Int64).toInt⌋ := by
  intro host place name
  have hquotient : Filter.dividedBy.apply host [] (.int (-7)) place = .ok (.int (-4), []) := rfl
  have hremainder : Filter.modulo.apply host [] (.int (-7)) name = .ok (.int 1, []) := rfl
  obtain ⟨v, r, hv, -, hfloor, -⟩ :=
    (whole_numbers host [] (-7) 2 {} place name place rfl rfl rfl).2.2.1 (by decide)
  obtain ⟨q, rfl, hq, -⟩ := hfloor (by decide)
  cases hquotient.symm.trans hv
  exact ⟨rfl, rfl, rfl, hquotient, hremainder, hq⟩

end LiquidTemplate
