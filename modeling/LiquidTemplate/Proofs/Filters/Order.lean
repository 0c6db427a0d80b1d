import LiquidTemplate.Value.Order

/-!
# The order of values

Values are compared by their kinds, then numbers by their size, texts by their characters and lists by
their first difference. Two whole numbers are compared exactly, but a whole number and a double as
doubles. So two different whole numbers that are rounded to one double both compare equal to it, and
where such numbers occur together the order is not transitive.

The double nearest to an integer does not become smaller when the integer becomes greater. Between two
powers of two this is so because all integers there are rounded to multiples of one unit, and a power
of two is not changed by rounding.

* `Number.roundTo`: rounding to multiples of a unit.
* `Number.nearest53_mono`: rounding to 53 significant bits.
* `Number.keyOfInt_mono`: the double nearest to an integer.
* `Number.keyOfInt_inj`: up to `2 ^ 53` it is the integer itself.
* `Value.Within`: what a value holds at any depth.
* `Value.RoundedApart`: no double is what two different whole numbers are rounded to. Up to `2 ^ 53`
  this is always so, by `Value.roundedApart_of_small`.
* `Quantity.compare_trans`, `Value.compare_trans`: the order is transitive on such numbers, and on the
  values that hold them.
* `Value.compare_swap`, `Value.compare_of_equal`: it is turned around with its sides, and it does not
  tell equal values apart.
* `compare_preorder`: it is a total preorder.
-/

namespace LiquidTemplate

/-! ### Rounding to doubles -/

namespace Number

variable {m n unit : Nat}

/-- **Nearest multiple** of a unit, a tie going to the even one. -/
def roundTo (unit n : Nat) : Nat :=
  if unit < 2 * (n % unit) ∨ (2 * (n % unit) = unit ∧ n / unit % 2 = 1) then (n / unit + 1) * unit
  else n / unit * unit

theorem nearest53_eq (n : Nat) : nearest53 n = roundTo (twoTo (n.log2 - 52)) n := rfl

theorem roundTo_of_dvd (hunit : 0 < unit) (h : unit ∣ n) : roundTo unit n = n := by
  have hrest : n % unit = 0 := Nat.mod_eq_zero_of_dvd h
  have hstay : ¬ (unit < 2 * 0 ∨ 2 * 0 = unit ∧ n / unit % 2 = 1) := by omega
  rw [roundTo, hrest, if_neg hstay, Nat.div_mul_cancel h]

/-- **Rounding keeps the order.** Of two numbers between the same multiples, the greater one is rounded
up if the smaller one is. -/
theorem roundTo_mono (h : m ≤ n) : roundTo unit m ≤ roundTo unit n := by
  have hlow : m / unit ≤ n / unit := Nat.div_le_div_right h
  have hm := Nat.div_add_mod m unit
  have hn := Nat.div_add_mod n unit
  unfold roundTo
  rcases Nat.lt_or_eq_of_le hlow with hlt | heq
  · have hstep : (m / unit + 1) * unit ≤ n / unit * unit := Nat.mul_le_mul_right unit hlt
    have hup : n / unit * unit ≤ (n / unit + 1) * unit := Nat.mul_le_mul_right unit (Nat.le_succ _)
    have hdown : m / unit * unit ≤ (m / unit + 1) * unit := Nat.mul_le_mul_right unit (Nat.le_succ _)
    split <;> split <;> omega
  · have hup : n / unit * unit ≤ (n / unit + 1) * unit := Nat.mul_le_mul_right unit (Nat.le_succ _)
    have hrest : m % unit ≤ n % unit := by
      rw [heq] at hm
      omega
    rw [heq]
    split
    · exact Nat.le_of_eq (if_pos (by omega)).symm
    · split
      · exact hup
      · exact Nat.le_refl _

theorem twoTo_log2_le (hn : n ≠ 0) : twoTo n.log2 ≤ n :=
  Nat.log2_self_le hn

theorem lt_twoTo_of_log2_lt {k : Nat} (hn : n ≠ 0) (h : n.log2 < k) : n < twoTo k :=
  (Nat.log2_lt hn).1 h

theorem twoTo_dvd_twoTo (h : m ≤ n) : twoTo m ∣ twoTo n := by
  obtain ⟨k, rfl⟩ := Nat.exists_eq_add_of_le h
  exact ⟨twoTo k, twoTo_add m k⟩

/-- **Rounding to 53 bits keeps the order.** Numbers on both sides of a power of two, which stays as it
is, are rounded to multiples of different units. -/
theorem nearest53_mono (h : m ≤ n) : nearest53 m ≤ nearest53 n := by
  rw [nearest53_eq, nearest53_eq]
  by_cases hm : m = 0
  · rw [hm, roundTo_of_dvd (twoTo_pos _) (Nat.dvd_zero _)]
    exact Nat.zero_le _
  have hn : n ≠ 0 := by omega
  by_cases hlog : n.log2 ≤ m.log2
  · have hlog' : n.log2 = m.log2 := by
      refine Nat.le_antisymm hlog (Nat.le_of_not_lt fun hlt => ?_)
      have := lt_twoTo_of_log2_lt hn hlt
      have := twoTo_log2_le hm
      omega
    rw [hlog']
    exact roundTo_mono h
  · have hpower : m ≤ twoTo n.log2 :=
      Nat.le_of_lt (lt_twoTo_of_log2_lt hm (Nat.lt_of_not_le hlog))
    have hcoarse : twoTo (n.log2 - 52) ∣ twoTo n.log2 := twoTo_dvd_twoTo (Nat.sub_le _ _)
    have hfine : twoTo (m.log2 - 52) ∣ twoTo n.log2 := twoTo_dvd_twoTo (by omega)
    calc roundTo (twoTo (m.log2 - 52)) m
        ≤ roundTo (twoTo (m.log2 - 52)) (twoTo n.log2) := roundTo_mono hpower
      _ = twoTo n.log2 := roundTo_of_dvd (twoTo_pos _) hfine
      _ = roundTo (twoTo (n.log2 - 52)) (twoTo n.log2) := (roundTo_of_dvd (twoTo_pos _) hcoarse).symm
      _ ≤ roundTo (twoTo (n.log2 - 52)) n := roundTo_mono (twoTo_log2_le hn)

/-- **Numbers up to `2 ^ 53`** have 53 significant bits. -/
theorem nearest53_of_le (h : n ≤ twoTo 53) : nearest53 n = n := by
  rw [nearest53_eq]
  refine roundTo_of_dvd (twoTo_pos _) ?_
  rcases Nat.lt_or_eq_of_le h with hlt | rfl
  · have hlog : n.log2 - 52 = 0 := by
      by_cases hn : n = 0
      · rw [hn]
        rfl
      · have : n.log2 < 53 := (Nat.log2_lt hn).2 hlt
        omega
    rw [hlog]
    exact Nat.one_dvd n
  · exact twoTo_dvd_twoTo (Nat.le_trans (Nat.sub_le _ _) (Nat.le_of_eq Nat.log2_two_pow))

/-- **The double nearest to an integer** keeps the order. -/
theorem keyOfInt_mono {m n : Int} (h : m ≤ n) : keyOfInt m ≤ keyOfInt n := by
  have hmono {a b : Nat} (hab : a ≤ b) :
      ((nearest53 a * twoTo 1074 : Nat) : Int) ≤ (nearest53 b * twoTo 1074 : Nat) :=
    Int.ofNat_le.2 (Nat.mul_le_mul_right _ (nearest53_mono hab))
  unfold keyOfInt withSign
  by_cases hm : m < 0
  · by_cases hn : n < 0
    · have habs := hmono (a := n.natAbs) (b := m.natAbs) (by omega)
      simp only [hm, hn, decide_true, if_true]
      omega
    · simp only [hm, hn, decide_true, decide_false, if_true, Bool.false_eq_true, if_false]
      omega
  · have hn : ¬ n < 0 := by omega
    simp only [hm, hn, decide_false, Bool.false_eq_true, if_false]
    exact hmono (by omega)

theorem keyOfInt_of_le {n : Int} (h : n.natAbs ≤ twoTo 53) : keyOfInt n = n * twoTo 1074 := by
  unfold keyOfInt withSign
  rw [nearest53_of_le h, Int.natCast_mul]
  by_cases hn : n < 0
  · rw [decide_eq_true hn, if_pos rfl, ← Int.neg_mul, Int.ofNat_natAbs_of_nonpos (Int.le_of_lt hn),
      Int.neg_neg]
  · rw [decide_eq_false hn, if_neg Bool.false_ne_true, Int.natAbs_of_nonneg (Int.not_lt.1 hn)]

/-- **Integers up to `2 ^ 53`** are doubles, and different ones are different doubles. -/
theorem keyOfInt_inj {m n : Int} (hm : m.natAbs ≤ twoTo 53) (hn : n.natAbs ≤ twoTo 53)
    (h : keyOfInt m = keyOfInt n) : m = n := by
  rw [keyOfInt_of_le hm, keyOfInt_of_le hn] at h
  exact Int.eq_of_mul_eq_mul_right (Int.natCast_ne_zero.2 (Nat.ne_of_gt (twoTo_pos 1074))) h

end Number

/-! ### Numbers -/

namespace Quantity

variable {p q r : Quantity} {x y z : Int} {S : Quantity → Prop}

/-- Order by places among the doubles, where both numbers have one. -/
def compareKeys : Option Int → Option Int → Ordering
  | some x, some y => Ord.compare x y
  | _, _ => .eq

theorem compareKeys_swap (k l : Option Int) : compareKeys l k = (compareKeys k l).swap := by
  cases k with
  | none => cases l <;> rfl
  | some x =>
    cases l with
    | none => rfl
    | some y => exact (Int.compare_swap x y).symm

theorem compare_float_left (x : Float) (q : Quantity) :
    compare (float x) q = compareKeys (float x).key? q.key? := by
  cases q <;> rfl

theorem compare_float_right (p : Quantity) (y : Float) :
    compare p (float y) = compareKeys p.key? (float y).key? := by
  cases p <;> rfl

/-- **Turned around.** -/
theorem compare_swap (p q : Quantity) : compare q p = (compare p q).swap := by
  cases p with
  | float x => rw [compare_float_left, compare_float_right, compareKeys_swap]
  | int m =>
    cases q with
    | float y => rw [compare_float_left, compare_float_right, compareKeys_swap]
    | int n => exact (Int.compare_swap m.toInt n.toInt).symm

/-- **Equal numbers** compare equal. -/
theorem compare_of_equal (h : equal p q = true) : compare p q = .eq := by
  have hkeys {k l : Option Int}
      (h : (match k, l with | some x, some y => x == y | _, _ => false) = true) :
      compareKeys k l = .eq := by
    cases k with
    | none => cases h
    | some x =>
      cases l with
      | none => cases h
      | some y => exact Int.compare_eq_eq.2 (beq_iff_eq.1 h)
  cases p with
  | float x =>
    rw [compare_float_left]
    cases q <;> exact hkeys h
  | int m =>
    cases q with
    | float y => exact compare_float_right _ y ▸ hkeys h
    | int n => exact Int.compare_eq_eq.2 (congrArg Int64.toInt (beq_iff_eq.1 h))

/-- **Numbers that are ordered**: no NaN, and no two different whole numbers that are rounded to one of
the doubles. -/
structure Ordered (S : Quantity → Prop) : Prop where
  exists_key : ∀ q, S q → ∃ x, q.key? = some x
  apart : ∀ m n x, S (.int m) → S (.int n) → S (.float x) →
    (int m).key? = (float x).key? → (int n).key? = (float x).key? → m = n

/-- **A number that does not come behind another one** has no greater place among the doubles. -/
theorem key_le_of_compare (hp : p.key? = some x) (hq : q.key? = some y) (h : compare p q ≠ .gt) :
    x ≤ y := by
  have hkeys : compareKeys p.key? q.key? ≠ .gt → x ≤ y := by
    rw [hp, hq]
    exact Int.compare_ne_gt.1
  cases p with
  | float x => exact hkeys (compare_float_left _ q ▸ h)
  | int m =>
    cases q with
    | float y => exact hkeys (compare_float_right _ y ▸ h)
    | int n =>
      obtain rfl := Option.some.inj hp
      obtain rfl := Option.some.inj hq
      exact Number.keyOfInt_mono (Int.compare_ne_gt.1 h)

/-- **The order of numbers is transitive.** Whole numbers on both sides of a double have to be told
apart by it. -/
theorem compare_trans (hS : Ordered S) (hp : S p) (hq : S q) (hr : S r) (hpq : compare p q ≠ .gt)
    (hqr : compare q r ≠ .gt) : compare p r ≠ .gt := by
  obtain ⟨x, hx⟩ := hS.exists_key p hp
  obtain ⟨y, hy⟩ := hS.exists_key q hq
  obtain ⟨z, hz⟩ := hS.exists_key r hr
  have hxy := key_le_of_compare hx hy hpq
  have hyz := key_le_of_compare hy hz hqr
  have hkeys : compareKeys p.key? r.key? ≠ .gt := by
    rw [hx, hz]
    exact Int.compare_ne_gt.2 (Int.le_trans hxy hyz)
  cases p with
  | float a => exact compare_float_left a r ▸ hkeys
  | int m =>
    cases r with
    | float c => exact compare_float_right _ c ▸ hkeys
    | int n =>
      cases q with
      | int k =>
        exact Int.compare_ne_gt.2 (Int.le_trans (Int.compare_ne_gt.1 hpq) (Int.compare_ne_gt.1 hqr))
      | float b =>
        -- if `n` were smaller, both would be rounded to `b`
        refine Int.compare_ne_gt.2 (Int.not_lt.1 fun hlt => ?_)
        have hzx : z ≤ x := by
          obtain rfl := Option.some.inj hx
          obtain rfl := Option.some.inj hz
          exact Number.keyOfInt_mono (Int.le_of_lt hlt)
        have hm : (int m).key? = (float b).key? := by
          rw [hx, hy, Int.le_antisymm hxy (Int.le_trans hyz hzx)]
        have hn : (int n).key? = (float b).key? := by
          rw [hz, hy, Int.le_antisymm (Int.le_trans hzx hxy) hyz]
        obtain rfl := hS.apart m n b hp hr hq hm hn
        exact Int.lt_irrefl _ hlt

end Quantity

/-! ### Values -/

namespace Value

variable {a b c v w : Value} {as bs cs : List Value} {objects : Objects}

/-- **Within a value**: the value itself, or what is within an element of a list, an entry of a map, or
an attribute or a method of an object. -/
inductive Within (objects : Objects) (w : Value) : Value → Prop where
  | self : Within objects w w
  | element {v : Value} {items : List Value} (hv : v ∈ items) (h : Within objects w v) :
      Within objects w (list items)
  | entry {key : String} {v : Value} {entries : List (String × Value)}
      (hv : (key, v) ∈ entries) (h : Within objects w v) : Within objects w (map entries)
  | attribute {id : Nat} {name : String} {v : Value} (hv : objects.attribute? id name = some v)
      (h : Within objects w v) : Within objects w (object id)
  | method {id : Nat} {name : String} {v : Value} (hv : objects.method? id name = some v)
      (h : Within objects w v) : Within objects w (object id)

@[simp] theorem within_int {n : Int64} : w.Within objects (int n) ↔ w = int n :=
  ⟨fun h => by cases h; rfl, fun h => h ▸ .self⟩

@[simp] theorem within_float {x : Float} : w.Within objects (float x) ↔ w = float x :=
  ⟨fun h => by cases h; rfl, fun h => h ▸ .self⟩

@[simp] theorem within_list {items : List Value} :
    w.Within objects (list items) ↔ w = list items ∨ ∃ v ∈ items, w.Within objects v := by
  constructor
  · rintro (_ | ⟨hv, h⟩)
    · exact .inl rfl
    · exact .inr ⟨_, hv, h⟩
  · rintro (rfl | ⟨v, hv, h⟩)
    · exact .self
    · exact .element hv h

/-- The numbers within a value all belong to `S`. -/
def Numbers (objects : Objects) (S : Quantity → Prop) (v : Value) : Prop :=
  ∀ q, (ofQuantity q).Within objects v → S q

theorem Numbers.element {S : Quantity → Prop} {items : List Value}
    (h : (list items).Numbers objects S) (hv : v ∈ items) : v.Numbers objects S :=
  fun q hq => h q (.element hv hq)

/-! ### Kinds of values -/

theorem compare_ofQuantity (p q : Quantity) :
    compare (ofQuantity p) (ofQuantity q) = Quantity.compare p q := by
  cases p <;> cases q <;> rfl

theorem compare_of_rank_ne (h : a.rank ≠ b.rank) : compare a b = Ord.compare a.rank b.rank := by
  unfold compare
  split
  case h_8 => rfl
  all_goals exact absurd rfl h

theorem rank_le_of_compare (h : compare a b ≠ .gt) : a.rank ≤ b.rank := by
  refine Nat.le_of_not_lt fun hlt => h ?_
  rw [compare_of_rank_ne (Nat.ne_of_gt hlt)]
  exact Nat.compare_eq_gt.2 hlt

/-- Missing values, maps and objects are not told apart from their like. -/
theorem compare_of_rank_eq (h : a.rank = b.rank) (ha : a.rank = 0 ∨ 5 ≤ a.rank) :
    compare a b = .eq := by
  have hranks : Ord.compare a.rank b.rank = .eq := Nat.compare_eq_eq.2 h
  cases a with
  | undefined | none | map _ | object _ => cases b <;> exact hranks
  | bool _ | int _ | float _ | str _ | list _ =>
    simp only [rank] at ha
    omega

theorem eq_bool_of_rank (h : v.rank = 1) : ∃ b, v = bool b := by
  cases v with
  | bool b => exact ⟨b, rfl⟩
  | undefined | none | int _ | float _ | str _ | list _ | map _ | object _ => cases h

theorem eq_ofQuantity_of_rank (h : v.rank = 2) : ∃ q, v = ofQuantity q := by
  cases v with
  | int n => exact ⟨.int n, rfl⟩
  | float x => exact ⟨.float x, rfl⟩
  | undefined | none | bool _ | str _ | list _ | map _ | object _ => cases h

theorem eq_str_of_rank (h : v.rank = 3) : ∃ s, v = str s := by
  cases v with
  | str s => exact ⟨s, rfl⟩
  | undefined | none | bool _ | int _ | float _ | list _ | map _ | object _ => cases h

theorem eq_list_of_rank (h : v.rank = 4) : ∃ items, v = list items := by
  cases v with
  | list items => exact ⟨items, rfl⟩
  | undefined | none | bool _ | int _ | float _ | str _ | map _ | object _ => cases h

/-! ### Turned around -/

theorem compare_ofQuantity_swap (p q : Quantity) :
    compare (ofQuantity q) (ofQuantity p) = (compare (ofQuantity p) (ofQuantity q)).swap := by
  rw [compare_ofQuantity, compare_ofQuantity]
  exact Quantity.compare_swap p q

theorem compareAll_swap (h : ∀ a ∈ as, ∀ b ∈ bs, compare b a = (compare a b).swap) :
    compareAll bs as = (compareAll as bs).swap := by
  induction as generalizing bs with
  | nil => cases bs <;> rfl
  | cons a as ih =>
    cases bs with
    | nil => rfl
    | cons b bs =>
      rw [compareAll, compareAll, Ordering.swap_then, h a List.mem_cons_self b List.mem_cons_self,
        ih fun x hx y hy => h x (List.mem_cons_of_mem a hx) y (List.mem_cons_of_mem b hy)]

theorem compare_swap_of_rank_eq (h : a.rank = b.rank) (ha : a.rank = 0 ∨ 5 ≤ a.rank) :
    compare b a = (compare a b).swap := by
  rw [compare_of_rank_eq h ha, compare_of_rank_eq h.symm (h ▸ ha)]
  rfl

/-- **The order is turned around** with its sides. -/
theorem compare_swap (a b : Value) : compare b a = (compare a b).swap := by
  by_cases hrank : a.rank = b.rank
  · match a with
    | undefined | none | map _ | object _ =>
      exact compare_swap_of_rank_eq hrank (by simp [rank])
    | bool x =>
      obtain ⟨y, rfl⟩ := eq_bool_of_rank hrank.symm
      exact Std.OrientedOrd.eq_swap
    | int n =>
      obtain ⟨q, rfl⟩ := eq_ofQuantity_of_rank hrank.symm
      exact compare_ofQuantity_swap (.int n) q
    | float x =>
      obtain ⟨q, rfl⟩ := eq_ofQuantity_of_rank hrank.symm
      exact compare_ofQuantity_swap (.float x) q
    | str s =>
      obtain ⟨t, rfl⟩ := eq_str_of_rank hrank.symm
      exact Std.OrientedOrd.eq_swap
    | list as =>
      obtain ⟨bs, hb⟩ := eq_list_of_rank hrank.symm
      rw [hb]
      exact compareAll_swap fun x hx y hy => compare_swap x y
  · rw [compare_of_rank_ne hrank, compare_of_rank_ne (Ne.symm hrank)]
    exact (Nat.compare_swap a.rank b.rank).symm
termination_by sizeOf a + sizeOf b
decreasing_by
  have hx := List.sizeOf_lt_of_mem hx
  have hy := List.sizeOf_lt_of_mem hy
  simp only [hb, list.sizeOf_spec]
  omega

/-! ### Transitivity -/

theorem ne_gt_trans {α : Type} [Ord α] [Std.TransOrd α] {x y z : α} (hxy : Ord.compare x y ≠ .gt)
    (hyz : Ord.compare y z ≠ .gt) : Ord.compare x z ≠ .gt := by
  rw [ne_eq, ← Ordering.isLE_iff_ne_gt] at hxy hyz ⊢
  exact Std.TransCmp.isLE_trans hxy hyz

theorem compare_ofQuantity_trans {S : Quantity → Prop} {p q r : Quantity} (hS : Quantity.Ordered S)
    (hp : (ofQuantity p).Numbers objects S) (hq : (ofQuantity q).Numbers objects S)
    (hr : (ofQuantity r).Numbers objects S) (hpq : compare (ofQuantity p) (ofQuantity q) ≠ .gt)
    (hqr : compare (ofQuantity q) (ofQuantity r) ≠ .gt) :
    compare (ofQuantity p) (ofQuantity r) ≠ .gt := by
  rw [compare_ofQuantity] at hpq hqr ⊢
  exact Quantity.compare_trans hS (hp p .self) (hq q .self) (hr r .self) hpq hqr

/-- The order of three values is transitive. -/
def Chains (a b c : Value) : Prop :=
  compare a b ≠ .gt → compare b c ≠ .gt → compare a c ≠ .gt

/-- Two values of which neither comes behind the other. -/
theorem compare_eq_of_ne_gt (hab : compare a b ≠ .gt) (hba : compare b a ≠ .gt) :
    compare a b = .eq := by
  rw [compare_swap] at hba
  cases h : compare a b with
  | lt => exact absurd (h ▸ rfl) hba
  | eq => rfl
  | gt => exact absurd h hab

/-- **Lists** are ordered by their first difference. Where the outer two do not differ, neither does the
list between them. -/
theorem compareAll_trans
    (h : ∀ a ∈ as, ∀ b ∈ bs, ∀ c ∈ cs, Chains a b c ∧ Chains b c a ∧ Chains c a b)
    (hab : compareAll as bs ≠ .gt) (hbc : compareAll bs cs ≠ .gt) : compareAll as cs ≠ .gt := by
  induction as generalizing bs cs with
  | nil => cases cs <;> exact nofun
  | cons a as ih =>
    cases bs with
    | nil => exact absurd rfl hab
    | cons b bs =>
      cases cs with
      | nil => exact absurd rfl hbc
      | cons c cs =>
        obtain ⟨habc, hbca, hcab⟩ :=
          h a List.mem_cons_self b List.mem_cons_self c List.mem_cons_self
        rw [compareAll, ne_eq, Ordering.then_eq_gt, not_or, not_and] at hab hbc ⊢
        refine ⟨habc hab.1 hbc.1, fun hac => ?_⟩
        have hca : compare c a ≠ .gt := by
          rw [compare_swap, hac]
          exact nofun
        have hab' := compare_eq_of_ne_gt hab.1 (hbca hbc.1 hca)
        have hbc' := compare_eq_of_ne_gt hbc.1 (hcab hca hab.1)
        exact ih (fun x hx y hy z hz => h x (List.mem_cons_of_mem a hx) y (List.mem_cons_of_mem b hy)
          z (List.mem_cons_of_mem c hz)) (hab.2 hab') (hbc.2 hbc')

/-- **The order is transitive** on values all of whose numbers are ordered. -/
theorem compare_trans {S : Quantity → Prop} (hS : Quantity.Ordered S) {a b c : Value}
    (ha : a.Numbers objects S) (hb : b.Numbers objects S) (hc : c.Numbers objects S) :
    Chains a b c := by
  intro hab hbc
  have hrank_ab := rank_le_of_compare hab
  have hrank_bc := rank_le_of_compare hbc
  by_cases hrank : a.rank = c.rank
  · have hrank_b : b.rank = a.rank := by omega
    match a with
    | undefined | none | map _ | object _ =>
      rw [compare_of_rank_eq hrank (by simp [rank])]
      exact nofun
    | bool x =>
      obtain ⟨y, rfl⟩ := eq_bool_of_rank hrank_b
      obtain ⟨z, rfl⟩ := eq_bool_of_rank hrank.symm
      exact ne_gt_trans hab hbc
    | str s =>
      obtain ⟨t, rfl⟩ := eq_str_of_rank hrank_b
      obtain ⟨u, rfl⟩ := eq_str_of_rank hrank.symm
      exact ne_gt_trans hab hbc
    | int n =>
      obtain ⟨q, rfl⟩ := eq_ofQuantity_of_rank hrank_b
      obtain ⟨r, rfl⟩ := eq_ofQuantity_of_rank hrank.symm
      exact compare_ofQuantity_trans hS (p := .int n) ha hb hc hab hbc
    | float x =>
      obtain ⟨q, rfl⟩ := eq_ofQuantity_of_rank hrank_b
      obtain ⟨r, rfl⟩ := eq_ofQuantity_of_rank hrank.symm
      exact compare_ofQuantity_trans hS (p := .float x) ha hb hc hab hbc
    | list as =>
      obtain ⟨bs, hbs⟩ := eq_list_of_rank hrank_b
      obtain ⟨cs, hcs⟩ := eq_list_of_rank hrank.symm
      rw [hbs] at hb hab hbc
      rw [hcs] at hc hbc ⊢
      refine compareAll_trans (fun x hx y hy z hz => ?_) hab hbc
      exact ⟨compare_trans hS (ha.element hx) (hb.element hy) (hc.element hz),
        compare_trans hS (hb.element hy) (hc.element hz) (ha.element hx),
        compare_trans hS (hc.element hz) (ha.element hx) (hb.element hy)⟩
  · rw [compare_of_rank_ne hrank]
    exact Nat.compare_ne_gt.2 (Nat.le_trans hrank_ab hrank_bc)
termination_by sizeOf a + sizeOf b + sizeOf c
decreasing_by
  all_goals
    have hx := List.sizeOf_lt_of_mem hx
    have hy := List.sizeOf_lt_of_mem hy
    have hz := List.sizeOf_lt_of_mem hz
    simp only [hbs, hcs, list.sizeOf_spec]
    omega

/-! ### Equal values -/

theorem equal_ofQuantity {p q : Quantity} (h : equal (ofQuantity p) (ofQuantity q) = true) :
    Quantity.equal p q = true := by
  cases p <;> cases q <;> exact h

theorem rank_eq_of_equal (h : equal a b = true) : a.rank = b.rank := by
  have hmissing (h : b.isMissing = true) : b.rank = 0 := by
    cases b with
    | undefined | none => rfl
    | bool _ | int _ | float _ | str _ | list _ | map _ | object _ => cases h
  unfold equal at h
  split at h
  case h_1 | h_2 => exact (hmissing h).symm
  case h_12 => cases h
  all_goals rfl

theorem compareAll_of_allEqual
    (h : ∀ a ∈ as, ∀ b ∈ bs, equal a b = true → compare a b = .eq) (hequal : allEqual as bs = true) :
    compareAll as bs = .eq := by
  induction as generalizing bs with
  | nil =>
    cases bs with
    | nil => rfl
    | cons b bs => cases hequal
  | cons a as ih =>
    cases bs with
    | nil => cases hequal
    | cons b bs =>
      rw [allEqual, Bool.and_eq_true] at hequal
      rw [compareAll, h a List.mem_cons_self b List.mem_cons_self hequal.1]
      exact ih (fun x hx y hy => h x (List.mem_cons_of_mem a hx) y (List.mem_cons_of_mem b hy))
        hequal.2

/-- **Equal values compare equal.** -/
theorem compare_of_equal {a b : Value} (h : equal a b = true) : compare a b = .eq := by
  have hrank := rank_eq_of_equal h
  match a with
  | undefined | none | map _ | object _ => exact compare_of_rank_eq hrank (by simp [rank])
  | bool x =>
    obtain ⟨y, rfl⟩ := eq_bool_of_rank hrank.symm
    obtain rfl := beq_iff_eq.1 h
    exact Std.ReflOrd.compare_self
  | str s =>
    obtain ⟨t, rfl⟩ := eq_str_of_rank hrank.symm
    obtain rfl := beq_iff_eq.1 h
    exact Std.ReflOrd.compare_self
  | int n =>
    obtain ⟨q, rfl⟩ := eq_ofQuantity_of_rank hrank.symm
    rw [← ofQuantity, compare_ofQuantity]
    exact Quantity.compare_of_equal (equal_ofQuantity (p := .int n) h)
  | float x =>
    obtain ⟨q, rfl⟩ := eq_ofQuantity_of_rank hrank.symm
    rw [← ofQuantity, compare_ofQuantity]
    exact Quantity.compare_of_equal (equal_ofQuantity (p := .float x) h)
  | list as =>
    obtain ⟨bs, hbs⟩ := eq_list_of_rank hrank.symm
    rw [hbs] at h ⊢
    exact compareAll_of_allEqual (fun x hx y hy => compare_of_equal) h
termination_by sizeOf a + sizeOf b
decreasing_by
  have hx := List.sizeOf_lt_of_mem hx
  have hy := List.sizeOf_lt_of_mem hy
  simp only [hbs, list.sizeOf_spec]
  omega

/-! ### The preorder -/

/-- **Rounded apart**: no two different whole numbers among some values are rounded to the number that a
double among them is. -/
def RoundedApart (S : Value → Prop) : Prop :=
  ∀ m n x, S (int m) → S (int n) → S (float x) →
    Number.orderKey? x = some (Number.keyOfInt m.toInt) →
    Number.orderKey? x = some (Number.keyOfInt n.toInt) → m = n

/-- **Whole numbers up to `2 ^ 53`** are rounded apart, as they are doubles themselves. -/
theorem roundedApart_of_small {S : Value → Prop}
    (h : ∀ n, S (int n) → n.toInt.natAbs ≤ Number.twoTo 53) : RoundedApart S := by
  intro m n x hm hn _ hmx hnx
  have hkey : Number.keyOfInt m.toInt = Number.keyOfInt n.toInt :=
    Option.some.inj (hmx.symm.trans hnx)
  exact Int64.toInt_inj.1 (Number.keyOfInt_inj (h m hm) (h n hn) hkey)

theorem exists_orderKey? {x : Float} (h : Number.parts x ≠ .nan) :
    ∃ k, Number.orderKey? x = some k := by
  unfold Number.orderKey?
  split
  · next hnan => exact absurd hnan h
  · exact ⟨_, rfl⟩
  · exact ⟨_, rfl⟩

theorem ordered_of_roundedApart {S : Value → Prop}
    (hnan : ∀ x, S (float x) → Number.parts x ≠ .nan) (hS : RoundedApart S) :
    Quantity.Ordered fun q => S (ofQuantity q) where
  exists_key q hq := by
    cases q with
    | int n => exact ⟨_, rfl⟩
    | float x => exact exists_orderKey? (hnan x hq)
  apart m n x hm hn hx hmx hnx := hS m n x hm hn hx hmx.symm hnx.symm

end Value

/-- **The order is a total preorder** on values without NaN, and equal values compare equal. It is
transitive where no double among the numbers is what two different whole numbers are rounded to. -/
theorem compare_preorder (objects : Objects) (a b c : Value)
    (hnan : ∀ v ∈ [a, b, c], ∀ x, (Value.float x).Within objects v → Number.parts x ≠ .nan) :
    b.compare a = (a.compare b).swap ∧
    (Value.RoundedApart (fun w => ∃ v ∈ [a, b, c], w.Within objects v) →
      a.compare b ≠ .gt → b.compare c ≠ .gt → a.compare c ≠ .gt) ∧
    (a.equal b = true → a.compare b = .eq) := by
  refine ⟨Value.compare_swap a b, fun hapart => ?_, Value.compare_of_equal⟩
  have hordered := Value.ordered_of_roundedApart (fun x ⟨v, hv, hx⟩ => hnan v hv x hx) hapart
  have hnumbers {v : Value} (hv : v ∈ [a, b, c]) :
      v.Numbers objects fun q => ∃ v ∈ [a, b, c], (Value.ofQuantity q).Within objects v :=
    fun q hq => ⟨v, hv, hq⟩
  exact Value.compare_trans hordered (hnumbers (by simp)) (hnumbers (by simp)) (hnumbers (by simp))

example :
    let big : Value := .int 9007199254740993
    let double : Value := .float (.ofBits 0x4340000000000000)
    let small : Value := .int 9007199254740992
    big.compare double = .eq ∧ double.compare small = .eq ∧ big.compare small = .gt := by
  decide +kernel

/-- Lists in which a double is what one whole number is rounded to. -/
theorem compare_preorder_lists :
    let objects : Objects := ⟨fun _ _ => none, fun _ _ => none, fun _ => ""⟩
    let a : Value := .list [.int 9007199254740993, .float (.ofBits 0x3FE0000000000000)]
    let b : Value := .list [.float (.ofBits 0x4340000000000000), .int 1]
    let c : Value := .list [.int 9007199254740993, .float (.ofBits 0x3FF8000000000000)]
    (∀ v ∈ [a, b, c], ∀ x, (Value.float x).Within objects v → Number.parts x ≠ .nan) ∧
      Value.RoundedApart (fun w => ∃ v ∈ [a, b, c], w.Within objects v) ∧
      a.compare b ≠ .gt ∧ b.compare c ≠ .gt ∧ a.compare c ≠ .gt := by
  intro objects a b c
  have hdoubles : ∀ v ∈ [a, b, c], ∀ x, (Value.float x).Within objects v →
      x = .ofBits 0x3FE0000000000000 ∨ x = .ofBits 0x4340000000000000 ∨
        x = .ofBits 0x3FF8000000000000 := by
    simp [a, b, c]
  have hints : ∀ v ∈ [a, b, c], ∀ n, (Value.int n).Within objects v → n = 9007199254740993 ∨ n = 1 := by
    simp [a, b, c]
  have hnan : ∀ v ∈ [a, b, c], ∀ x, (Value.float x).Within objects v → Number.parts x ≠ .nan := by
    intro v hv x hx
    rcases hdoubles v hv x hx with rfl | rfl | rfl <;> decide +kernel
  have hapart : Value.RoundedApart (fun w => ∃ v ∈ [a, b, c], w.Within objects v) := by
    rintro m n x ⟨u, hu, hm⟩ ⟨v, hv, hn⟩ ⟨w, hw, hx⟩ hmx hnx
    have hone : Number.orderKey? x ≠ some (Number.keyOfInt (1 : Int64).toInt) := by
      rcases hdoubles w hw x hx with rfl | rfl | rfl <;> decide +kernel
    rcases hints u hu m hm with rfl | rfl
    · rcases hints v hv n hn with rfl | rfl
      · rfl
      · exact absurd hnx hone
    · exact absurd hmx hone
  have hab : a.compare b ≠ .gt := by decide +kernel
  have hbc : b.compare c ≠ .gt := by decide +kernel
  exact ⟨hnan, hapart, hab, hbc, (compare_preorder objects a b c hnan).2.1 hapart hab hbc⟩

end LiquidTemplate
