import Mathlib
import Scribe.Proofs.Decimal.Rounding

set_option autoImplicit false

/-! # Doubles that are integers

Integers of 64 bits become the doubles nearest to them, and sums of doubles that are integers are
rounded likewise. Comparing such doubles compares the integers, and taking one as an integer of 64
bits again keeps it between the bounds. -/

namespace Scribe.Double

open Float.Model Float.Model.UnpackedFloat

/-! ## Rounding -/

variable {m n : Nat} {e : Int} {s : Sign}

/-- Shifting an exact mantissa keeps how what was dropped compares to a half. -/
theorem shiftRight_ofMantissa (m k : Nat) :
    ExtendedMantissa.ofMantissaAndAccuracy m .exact >>> k =
      ⟨m / 2 ^ k, decide (2 ^ k ≤ 2 * (m % 2 ^ k)),
        decide (m % 2 ^ k ≠ 0 ∧ 2 * (m % 2 ^ k) ≠ 2 ^ k)⟩ := by
  induction k with
  | zero =>
    show (⟨m, false, false⟩ : ExtendedMantissa) = _
    simp [Nat.mod_one]
  | succ k ih =>
    have hstep : ExtendedMantissa.ofMantissaAndAccuracy m .exact >>> (k + 1) =
      (ExtendedMantissa.ofMantissaAndAccuracy m .exact >>> k).shiftRightOne := rfl
    have hmod : m % 2 ^ (k + 1) = m % 2 ^ k + 2 ^ k * (m / 2 ^ k % 2) := by
      rw [Nat.pow_succ, Nat.mod_mul]
    have hlt : m % 2 ^ k < 2 ^ k := Nat.mod_lt _ (Nat.two_pow_pos k)
    -- the last bit dropped says whether half or more is dropped, those before it whether just half
    have hround : (m / 2 ^ k % 2 != 0) = decide (2 ^ (k + 1) ≤ 2 * (m % 2 ^ (k + 1))) := by
      rw [hmod, Nat.pow_succ, Bool.eq_iff_iff, bne_iff_ne, decide_eq_true_iff]
      rcases Nat.mod_two_eq_zero_or_one (m / 2 ^ k) with hbit | hbit <;> rw [hbit] <;> omega
    have hsticky : (decide (2 ^ k ≤ 2 * (m % 2 ^ k)) ||
        decide (m % 2 ^ k ≠ 0 ∧ 2 * (m % 2 ^ k) ≠ 2 ^ k)) =
          decide (m % 2 ^ (k + 1) ≠ 0 ∧ 2 * (m % 2 ^ (k + 1)) ≠ 2 ^ (k + 1)) := by
      rw [hmod, Nat.pow_succ, Bool.eq_iff_iff, Bool.or_eq_true, decide_eq_true_iff,
        decide_eq_true_iff, decide_eq_true_iff]
      rcases Nat.mod_two_eq_zero_or_one (m / 2 ^ k) with hbit | hbit <;> rw [hbit] <;> omega
    rw [hstep, ih, ExtendedMantissa.shiftRightOne, hround, hsticky, Nat.div_div_eq_div_mul,
      ← Nat.pow_succ]

/-- An exact mantissa that is shifted is rounded half-way to even. -/
theorem roundedMantissa_shiftRight (m k : Nat) :
    (ExtendedMantissa.ofMantissaAndAccuracy m .exact >>> k).roundedMantissa = shiftEven m k := by
  rw [shiftRight_ofMantissa, shiftEven]
  generalize m / 2 ^ k = q
  generalize hr : m % 2 ^ k = r
  rcases Nat.lt_trichotomy (2 * r) (2 ^ k) with hlt | heq | hgt
  · by_cases hzero : r = 0
    · simp [hzero, ExtendedMantissa.roundedMantissa, ExtendedMantissa.accuracy,
        Accuracy.roundToNearestEven]
    · simp [hlt, hlt.ne, hlt.not_ge, hzero, ExtendedMantissa.roundedMantissa,
        ExtendedMantissa.accuracy, Accuracy.roundToNearestEven]
  · simp [heq, ExtendedMantissa.roundedMantissa, ExtendedMantissa.accuracy,
      Accuracy.roundToNearestEven]
  · have hzero : r ≠ 0 := by omega
    simp [hgt, hgt.le, hgt.ne', hgt.not_gt, hzero, ExtendedMantissa.roundedMantissa,
      ExtendedMantissa.accuracy, Accuracy.roundToNearestEven]

/-- The place of the last digit that is kept. -/
theorem targetExponent_eq (he : -52 ≤ e) :
    Format.binary64.targetExponent (totalExponent m e) = m.log2 + e - 52 := by
  simp only [Format.targetExponent, totalExponent, Format.mantissaBits, Format.minExponent]
  omega

theorem shiftToTargetExponent_eq {k : Nat} (he : -52 ≤ e) (hk : m.log2 = 52 + k) :
    shiftToTargetExponent Format.binary64 m e .exact =
      (ExtendedMantissa.ofMantissaAndAccuracy m .exact >>> k, e + k) := by
  have hshift : (m.log2 + e - 52 - e).toNat = k := by omega
  rw [shiftToTargetExponent, targetExponent_eq he, shiftToExponent, hshift]

/-- A mantissa of more than 53 digits is rounded to 53, and a carry is shifted out. -/
theorem exists_roundWithAccuracy {k : Nat} (hm : m ≠ 0) (he : -52 ≤ e) (hk : m.log2 = 52 + k) :
    ∃ (m' i : Nat) (hm' : 0 < m'),
      roundWithAccuracy Format.binary64 s m e .exact = .finite s m' (e + k + i) hm' ∧
        m'.log2 = 52 ∧ m' * 2 ^ i = shiftEven m k := by
  have hbehind : -52 ≤ e + k := by omega
  obtain ⟨hleast, hmost⟩ := shiftEven_of_log2 hm hk
  simp only [roundWithAccuracy, shiftToTargetExponent_eq he hk, roundedMantissa_shiftRight]
  rcases hmost.lt_or_eq with hlt | heq
  · have hne : shiftEven m k ≠ 0 := by omega
    have hlog : (shiftEven m k).log2 = 52 := (Nat.log2_eq_iff hne).2 ⟨hleast, hlt⟩
    refine ⟨shiftEven m k, 0, Nat.pos_of_ne_zero hne, ?_, hlog, Nat.mul_one _⟩
    simp only [shiftToTargetExponent_eq (k := 0) hbehind hlog, shiftRight_ofMantissa, Nat.pow_zero,
      Nat.div_one, dif_neg hne]
  · refine ⟨2 ^ 52, 1, by decide, ?_, Nat.log2_two_pow, heq.symm⟩
    have hlog : (2 ^ 53 : Nat).log2 = 52 + 1 := Nat.log2_two_pow
    simp only [heq, shiftToTargetExponent_eq hbehind hlog, shiftRight_ofMantissa]
    rfl

/-! ## Values -/

/-- A double is an integer, and its mantissa has 53 digits unless it is zero. -/
inductive HasValue : UnpackedFloat → Int → Prop
  | zero (s : Sign) : HasValue (.zero s) 0
  | finite (s : Sign) {m n j : Nat} {e : Int} (hm : 0 < m) (hlog : m.log2 = 52)
      (he : e = j - 52) (hn : m * 2 ^ j = n * 2 ^ 52) : HasValue (.finite s m e hm) (s.apply n)

theorem log2_of_mul_eq {j : Nat} (hm : m ≠ 0) (h : m * 2 ^ j = n * 2 ^ 52) :
    n ≠ 0 ∧ m.log2 + j = n.log2 + 52 := by
  have hn : n ≠ 0 := by
    rintro rfl
    exact absurd h (by simp [hm])
  exact ⟨hn, by rw [← log2_mul_pow hm, h, log2_mul_pow hn]⟩

/-- Rounding a natural number of any mantissa gives the nearest double. -/
theorem hasValue_round {j : Nat} (hm : m ≠ 0) (h : m * 2 ^ j = n * 2 ^ 52) :
    HasValue (UnpackedFloat.round Format.binary64 s m (j - 52)) (s.apply (nearestNat n)) := by
  obtain ⟨hn, hlog⟩ := log2_of_mul_eq hm h
  have hround : ∃ (m' i : Nat) (hm' : 0 < m'),
      UnpackedFloat.round Format.binary64 s m (j - 52) = .finite s m' (n.log2 - 52 + i) hm' ∧
        m'.log2 = 52 ∧ m' * 2 ^ i = shiftEven (n * 2 ^ 52) n.log2 := by
    have htarget : Format.binary64.targetExponent (totalExponent m (j - 52)) = n.log2 - 52 := by
      rw [targetExponent_eq (by omega)]
      omega
    simp only [UnpackedFloat.round, htarget, decreaseExponent]
    rcases Nat.le_total n.log2 j with hle | hle
    · -- zeros are put behind the mantissa
      obtain ⟨k, rfl⟩ := Nat.exists_eq_add_of_le' hle
      have hshift : (((k + n.log2 : Nat) : Int) - 52 - (n.log2 - 52)).toNat = k := by omega
      have hexponent : ((k + n.log2 : Nat) : Int) - 52 - k = n.log2 - 52 := by omega
      obtain ⟨m', i, hm', hround, hlog', hdigits⟩ := exists_roundWithAccuracy (s := s) (k := 0)
        (e := n.log2 - 52) (Nat.mul_ne_zero hm (Nat.two_pow_pos k).ne') (by omega)
        (by rw [log2_mul_pow hm]; omega)
      refine ⟨m', i, hm', ?_, hlog', ?_⟩
      · rw [hshift, hexponent, Nat.shiftLeft_eq, hround]
        simp
      · rw [hdigits, ← h, Nat.pow_add, ← Nat.mul_assoc, shiftEven_mul, shiftEven_zero]
    · -- the mantissa is long enough
      obtain ⟨k, hk⟩ := Nat.exists_eq_add_of_le' hle
      have hshift : ((j : Int) - 52 - (n.log2 - 52)).toNat = 0 := by omega
      obtain ⟨m', i, hm', hround, hlog', hdigits⟩ := exists_roundWithAccuracy (s := s) (k := k)
        (e := j - 52) hm (by omega) (by omega)
      refine ⟨m', i, hm', ?_, hlog', ?_⟩
      · rw [hshift, Nat.shiftLeft_zero, Int.natCast_zero, Int.sub_zero, hround]
        simp only [UnpackedFloat.finite.injEq, true_and]
        omega
      · rw [hdigits, ← h, hk, shiftEven_mul_pow]
  obtain ⟨m', i, hm', hround, hlog', hdigits⟩ := hround
  rw [hround]
  refine .finite s (j := n.log2 + i) hm' hlog' (by push_cast; omega) ?_
  rw [nearestNat_mul, ← hdigits, Nat.add_comm, Nat.pow_add, Nat.mul_assoc]

/-- Rounding an integer of any mantissa gives the nearest double. -/
theorem hasValue_normalize {a b : Int} {j : Nat} (h : a * 2 ^ j = b * 2 ^ 52) (zero : Sign) :
    HasValue (UnpackedFloat.normalize Format.binary64 a (j - 52) zero) (nearest b) := by
  have hnat : a.natAbs * 2 ^ j = b.natAbs * 2 ^ 52 := by
    simpa [Int.natAbs_mul, Int.natAbs_pow] using congrArg Int.natAbs h
  have hsign : a.sign = b.sign := by
    have hpow : ((2 : Int) ^ j).sign = 1 := Int.sign_eq_one_of_pos (Int.pow_pos (by decide))
    have hsigns := congrArg Int.sign h
    rwa [Int.sign_mul, Int.sign_mul, hpow, Int.mul_one,
      Int.sign_eq_one_of_pos (Int.pow_pos (by decide)), Int.mul_one] at hsigns
  rw [UnpackedFloat.normalize, nearest, ← hsign]
  rcases Int.lt_trichotomy a 0 with hneg | rfl | hpos
  · have hround := hasValue_round (s := .negative) (by omega) hnat
    rw [← show (-a).toNat = a.natAbs by omega] at hround
    rw [compare_lt_iff_lt.2 hneg, Int.sign_eq_neg_one_of_neg hneg, Int.neg_one_mul]
    exact hround
  · rw [Int.sign_zero, Int.zero_mul]
    exact .zero zero
  · have hround := hasValue_round (s := .positive) (by omega) hnat
    rw [← show a.toNat = a.natAbs by omega] at hround
    rw [compare_gt_iff_gt.2 hpos, Int.sign_eq_one_of_pos hpos, Int.one_mul]
    exact hround

theorem hasValue_ofInt (a : Int) : HasValue (UnpackedFloat.ofInt Format.binary64 a) (nearest a) :=
  hasValue_normalize (j := 52) rfl .positive

/-! ## Sums -/

variable {u w : UnpackedFloat} {a b : Int}

theorem lt_of_log2_eq (h : m.log2 = 52) : m < 2 ^ 53 := by
  have hlt : m < 2 ^ (m.log2 + 1) := Nat.lt_log2_self
  rwa [h] at hlt

theorem HasValue.nearest_eq (h : HasValue u a) : nearest a = a := by
  cases h with
  | zero s => rfl
  | @finite s m n j e hm hlog he hn =>
    have hself := nearestNat_of_mul_eq (lt_of_log2_eq hlog) hn
    cases s with
    | negative =>
      show nearest (-(n : Int)) = -(n : Int)
      rw [nearest_neg, nearest_natCast, hself]
    | positive =>
      show nearest (n : Int) = n
      rw [nearest_natCast, hself]

theorem apply_mul (s : Sign) (a b : Int) : s.apply a * b = s.apply (a * b) := by
  cases s with
  | negative => exact Int.neg_mul a b
  | positive => rfl

theorem natCast_shiftLeft_mul {j k : Nat} (hk : k ≤ j) (h : m * 2 ^ j = n * 2 ^ 52) :
    ((m <<< (j - k) : Nat) : Int) * 2 ^ k = n * 2 ^ 52 := by
  rw [Nat.shiftLeft_eq]
  have hpow : m * 2 ^ (j - k) * 2 ^ k = n * 2 ^ 52 := by
    rw [Nat.mul_assoc, ← Nat.pow_add, Nat.sub_add_cancel hk, h]
  exact_mod_cast hpow

/-- A sum of doubles is the double nearest to the sum. -/
theorem HasValue.add (hu : HasValue u a) (hw : HasValue w b) :
    HasValue (UnpackedFloat.add Format.binary64 u w) (nearest (a + b)) := by
  cases hu with
  | zero s =>
    rw [Int.zero_add, hw.nearest_eq]
    cases hw with
    | zero s' =>
      rw [UnpackedFloat.add]
      split <;> exact .zero _
    | finite s' hm' hlog' he' hn' => exact .finite s' hm' hlog' he' hn'
  | @finite s m n j e hm hlog he hn =>
    cases hw with
    | zero s' =>
      rw [Int.add_zero, (HasValue.finite s hm hlog he hn).nearest_eq]
      exact .finite s hm hlog he hn
    | @finite s' m' n' j' e' hm' hlog' he' hn' =>
      have hmin : min e e' = (min j j' : Nat) - 52 := by omega
      have hshift (i k : Nat) : ((i : Int) - 52 - ((k : Nat) - 52)).toNat = i - k := by omega
      simp only [UnpackedFloat.add, decreaseExponent, hmin]
      rw [he, he', hshift, hshift]
      refine hasValue_normalize ?_ .positive
      rw [Int.add_mul, Int.add_mul, apply_mul, apply_mul, apply_mul, apply_mul,
        natCast_shiftLeft_mul (Nat.min_le_left ..) hn,
        natCast_shiftLeft_mul (Nat.min_le_right ..) hn']

/-! ## Comparing -/

/-- Of mantissas of 53 digits the one at the higher place is greater. -/
theorem lt_of_place_lt {m' n' j j' : Nat} (hlog : m.log2 = 52) (hlog' : m'.log2 = 52)
    (h : m * 2 ^ j = n * 2 ^ 52) (h' : m' * 2 ^ j' = n' * 2 ^ 52) (hj : j < j') : n < n' := by
  refine Nat.lt_of_mul_lt_mul_right (a := 2 ^ 52) ?_
  have hm' : m' ≠ 0 := by
    rintro rfl
    cases hlog'
  calc n * 2 ^ 52 = m * 2 ^ j := h.symm
    _ < 2 ^ 53 * 2 ^ j := Nat.mul_lt_mul_of_pos_right (lt_of_log2_eq hlog) (Nat.two_pow_pos j)
    _ = 2 ^ 52 * 2 ^ (j + 1) := by rw [Nat.pow_succ]; omega
    _ ≤ m' * 2 ^ j' := Nat.mul_le_mul (hlog' ▸ Nat.log2_self_le hm')
      (Nat.pow_le_pow_right Nat.two_pos hj)
    _ = n' * 2 ^ 52 := h'

/-- Mantissas of 53 digits compare by their places first. -/
theorem compare_then {m' n' j j' : Nat} (hlog : m.log2 = 52) (hlog' : m'.log2 = 52)
    (h : m * 2 ^ j = n * 2 ^ 52) (h' : m' * 2 ^ j' = n' * 2 ^ 52) :
    (compare ((j : Int) - 52) (j' - 52)).then (compare m m') = compare n n' := by
  rcases Nat.lt_trichotomy j j' with hlt | rfl | hgt
  · rw [compare_lt_iff_lt.2 (by omega : (j : Int) - 52 < j' - 52),
      compare_lt_iff_lt.2 (lt_of_place_lt hlog hlog' h h' hlt)]
    rfl
  · have hmul (a b : Nat) {c : Nat} (hc : 0 < c) : compare (a * c) (b * c) = compare a b := by
      rw [← cmp_eq_compare, ← cmp_eq_compare, cmp_mul_pos_right hc]
    rw [compare_eq_iff_eq.2 rfl, ← hmul m m' (Nat.two_pow_pos j), h, h',
      hmul n n' (Nat.two_pow_pos 52)]
    rfl
  · rw [compare_gt_iff_gt.2 (by omega : (j' : Int) - 52 < j - 52),
      compare_gt_iff_gt.2 (lt_of_place_lt hlog' hlog h' h hgt)]
    rfl

theorem compare_natCast (m n : Nat) : compare (m : Int) n = compare m n := by
  rw [← cmp_eq_compare, ← cmp_eq_compare]
  exact Nat.strictMono_cast.cmp_map_eq m n

theorem compare_neg (a b : Int) : compare (-a) (-b) = (compare a b).swap := by
  have hanti : StrictAnti (Neg.neg : Int → Int) := fun _ _ h => Int.neg_lt_neg h
  rw [← cmp_eq_compare, ← cmp_eq_compare, cmp_swap]
  exact hanti.cmp_map_eq a b

/-- Comparing doubles compares their values. -/
theorem HasValue.compare (hu : HasValue u a) (hw : HasValue w b) :
    UnpackedFloat.compare u w = some (Ord.compare a b) := by
  have hpos {m n j : Nat} (hm : 0 < m) (h : m * 2 ^ j = n * 2 ^ 52) : (0 : Int) < n :=
    Int.natCast_pos.2 (Nat.pos_of_ne_zero (log2_of_mul_eq hm.ne' h).1)
  cases hu with
  | zero s =>
    cases hw with
    | zero s' => rfl
    | finite s' hm' hlog' he' hn' =>
      cases s' with
      | negative =>
        exact congrArg some (compare_gt_iff_gt.2 (Int.neg_neg_of_pos (hpos hm' hn'))).symm
      | positive => exact congrArg some (compare_lt_iff_lt.2 (hpos hm' hn')).symm
  | @finite s m n j e hm hlog he hn =>
    cases hw with
    | zero s' =>
      cases s with
      | negative =>
        exact congrArg some (compare_lt_iff_lt.2 (Int.neg_neg_of_pos (hpos hm hn))).symm
      | positive => exact congrArg some (compare_gt_iff_gt.2 (hpos hm hn)).symm
    | @finite s' m' n' j' e' hm' hlog' he' hn' =>
      have hthen : (Ord.compare e e').then (Ord.compare m m') = Ord.compare (n : Int) n' := by
        rw [he, he', compare_then hlog hlog' hn hn', compare_natCast]
      have hlt {n n' : Int} (hn : 0 < n) (hn' : 0 < n') : -n < n' :=
        (Int.neg_neg_of_pos hn).trans hn'
      cases s <;> cases s'
      · exact congrArg some ((congrArg Ordering.swap hthen).trans (compare_neg n n').symm)
      · exact congrArg some (compare_lt_iff_lt.2 (hlt (hpos hm hn) (hpos hm' hn'))).symm
      · exact congrArg some (compare_gt_iff_gt.2 (hlt (hpos hm' hn') (hpos hm hn))).symm
      · exact congrArg some hthen

/-! ## Integers of 64 bits -/

theorem HasValue.toInt (h : HasValue u a) (least greatest : Int) : u.toInt least greatest = a := by
  cases h with
  | zero s => rfl
  | @finite s m n j e hm hlog he hn =>
    have hdiv : m * 2 ^ (j - 52) / 2 ^ (52 - j) = n := by
      rcases Nat.le_total 52 j with hle | hle
      · obtain ⟨k, rfl⟩ := Nat.exists_eq_add_of_le' hle
        rw [Nat.pow_add, ← Nat.mul_assoc] at hn
        rw [Nat.add_sub_cancel, Nat.eq_of_mul_eq_mul_right (Nat.two_pow_pos 52) hn,
          Nat.sub_eq_zero_of_le hle, Nat.pow_zero, Nat.div_one]
      · obtain ⟨k, hk⟩ := Nat.exists_eq_add_of_le' hle
        rw [hk, Nat.pow_add, ← Nat.mul_assoc] at hn
        rw [Nat.sub_eq_zero_of_le hle, Nat.pow_zero, Nat.mul_one, hk, Nat.add_sub_cancel,
          Nat.eq_of_mul_eq_mul_right (Nat.two_pow_pos j) hn,
          Nat.mul_div_cancel _ (Nat.two_pow_pos k)]
    have hleft : (e - 0).toNat = j - 52 := by omega
    have hright : (0 - (e - (j - 52 : Nat))).toNat = 52 - j := by omega
    rw [UnpackedFloat.toInt, roundToInt]
    simp only [decreaseExponent, shiftToExponent, hleft, hright, shiftRight_ofMantissa,
      Nat.shiftLeft_eq, hdiv]

/-! ## Packing -/

/-- A double that is an integer is stored as it is, unless it is huge. -/
theorem HasValue.unpack_pack (h : HasValue u a) (ha : a.natAbs ≤ 2 ^ 200) :
    (Float.Model.pack u).unpack = u := by
  cases h with
  | zero s => cases s <;> rfl
  | @finite s m n j e hm hlog he hn =>
    have hj : j ≤ 200 := by
      have habs : (s.apply n).natAbs = n := by cases s <;> simp [Sign.apply]
      obtain ⟨hne, hplace⟩ := log2_of_mul_eq hm.ne' hn
      have hlt : n < 2 ^ 201 := by
        rw [habs] at ha
        exact Nat.lt_of_le_of_lt ha (by decide)
      have := (Nat.log2_lt hne).2 hlt
      omega
    -- The stored exponent is neither all ones nor all zeros: the double is finite and normal.
    have hbiased : (e + Format.binary64.exponentBias +
        Format.binary64.mantissaBitsWithoutImplicit).toNat = j + 1023 := by
      simp only [Format.exponentBias]
      omega
    have hsmall : ¬ 2 ^ 11 ≤ j + 1023 + 1 := by omega
    have hbits : m.log2 + 1 = Format.binary64.mantissaBits := by rw [hlog]; rfl
    have hexponent : (BitVec.ofNat 11 (j + 1023)).toNat = j + 1023 := by
      rw [BitVec.toNat_ofNat]
      omega
    have hmantissa : (1#1 ++ BitVec.ofNat 52 m).toNat = m := by
      have hlt : m < 2 ^ 53 := lt_of_log2_eq hlog
      have hle : 2 ^ 52 ≤ m := hlog ▸ Nat.log2_self_le hm.ne'
      rw [BitVec.toNat_append, ← Nat.shiftLeft_add_eq_or_of_lt (BitVec.isLt _),
        BitVec.toNat_ofNat m 52, Nat.shiftLeft_eq]
      show 1 * 2 ^ 52 + m % 2 ^ 52 = m
      omega
    have hones : BitVec.ofNat 11 (j + 1023) ≠ -1#_ := fun heq => by
      have := congrArg BitVec.toNat heq
      rw [hexponent] at this
      simp at this
      omega
    have hzeros : BitVec.ofNat 11 (j + 1023) ≠ 0#_ := fun heq => by
      have := congrArg BitVec.toNat heq
      rw [hexponent] at this
      simp at this
    show UnpackedFloat.unpack Format.binary64
      (UnpackedFloat.pack Format.binary64 (.finite s m e hm)) = .finite s m e hm
    simp only [UnpackedFloat.pack, hbiased, if_neg hsmall, if_pos hbits, UnpackedFloat.unpack,
      unpackExponent_packComponents, unpackMantissa_packComponents, unpackSign_packComponents,
      Sign.ofBitVec_toBitVec, if_neg hones, if_neg hzeros, hmantissa, hexponent]
    simp only [Format.exponentBias, UnpackedFloat.finite.injEq, true_and]
    omega

/-! ## Stored doubles -/

/-- A stored double is an integer. -/
def Represents (x : Float) (a : Int) : Prop := HasValue x.toModel.unpack a

variable {x y : Float}

theorem represents_ofInt64 (n : Int64) :
    Represents (.ofModel (.ofInt64 n)) (nearest n.toInt) := by
  have hvalue := hasValue_ofInt n.toInt
  have hsmall : n.toInt.natAbs ≤ 2 ^ 200 := by
    have hleast := n.minValue_le_toInt
    have hmost := n.toInt_le
    simp only [Int64.toInt_minValue, Int64.toInt_maxValue] at hleast hmost
    omega
  rw [Represents]
  show HasValue (Float.Model.pack (UnpackedFloat.ofInt Format.binary64 n.toInt)).unpack _
  rwa [hvalue.unpack_pack (natAbs_nearest_le hsmall)]

theorem represents_negZero : Represents (-0.0) 0 := by
  have hbits : (-0.0 : Float).toModel = Float.Model.pack (.zero .negative) := by decide +kernel
  rw [Represents, hbits]
  exact .zero .negative

namespace Represents

theorem add (hx : Represents x a) (hy : Represents y b) (h : (a + b).natAbs ≤ 2 ^ 200) :
    Represents (x + y) (nearest (a + b)) := by
  have hvalue := HasValue.add hx hy
  rw [Represents]
  show HasValue (Float.Model.pack (UnpackedFloat.add ..)).unpack _
  rwa [hvalue.unpack_pack (natAbs_nearest_le h)]

theorem lt_iff (hx : Represents x a) (hy : Represents y b) : x < y ↔ a < b := by
  show decide ((UnpackedFloat.compare x.toModel.unpack y.toModel.unpack == some .lt) = true) =
    true ↔ a < b
  rw [HasValue.compare hx hy, decide_eq_true_iff, beq_iff_eq, Option.some_inj, compare_lt_iff_lt]

theorem beq_iff (hx : Represents x a) (hy : Represents y b) : x == y ↔ a = b := by
  show (UnpackedFloat.compare x.toModel.unpack y.toModel.unpack == some .eq) = true ↔ a = b
  rw [HasValue.compare hx hy, beq_iff_eq, Option.some_inj, compare_eq_iff_eq]

theorem bne_self (hx : Represents x a) : (x != x) = false := by
  rw [bne, (hx.beq_iff hx).2 rfl]
  rfl

theorem toInt64 (hx : Represents x a) : x.toModel.toInt64 = Int64.ofIntClamp a := by
  show Int64.ofIntClamp (x.toModel.unpack.toInt _ _) = _
  rw [HasValue.toInt hx]

end Represents

end Scribe.Double
