import Mathlib.Algebra.Order.Ring.Int
import Scribe.Text.Basic

set_option autoImplicit false

/-! # Rounding integers to doubles

A double holds 53 binary digits, and an integer that has more of them is rounded: to the nearest
double, and half-way between two to the even one. -/

namespace Scribe.Double

/-- `n` without its last `k` binary digits, rounded; half-way to an even number. -/
def shiftEven (n k : Nat) : Nat :=
  if 2 * (n % 2 ^ k) < 2 ^ k then n / 2 ^ k
  else if 2 ^ k < 2 * (n % 2 ^ k) then n / 2 ^ k + 1
  else n / 2 ^ k + n / 2 ^ k % 2

/-- The double nearest to a natural number. -/
def nearestNat (n : Nat) : Nat := shiftEven n (n.log2 - 52) * 2 ^ (n.log2 - 52)

/-- The double nearest to an integer. -/
def nearest (n : Int) : Int := n.sign * nearestNat n.natAbs

variable {m n : Nat}

/-! ## Shifting -/

theorem shiftEven_zero (n : Nat) : shiftEven n 0 = n := by
  simp [shiftEven, Nat.mod_one]

/-- Rounding is down when at most half is dropped, and up when at least half is. -/
theorem shiftEven_cases (n k : Nat) :
    shiftEven n k = n / 2 ^ k ∧ 2 * (n % 2 ^ k) ≤ 2 ^ k ∨
      shiftEven n k = n / 2 ^ k + 1 ∧ 2 ^ k ≤ 2 * (n % 2 ^ k) := by
  unfold shiftEven
  split
  · exact .inl ⟨rfl, by omega⟩
  · split
    · exact .inr ⟨rfl, by omega⟩
    · rcases Nat.mod_two_eq_zero_or_one (n / 2 ^ k) with heven | hodd
      · exact .inl ⟨by omega, by omega⟩
      · exact .inr ⟨by omega, by omega⟩

theorem shiftEven_bounds (n k : Nat) :
    n / 2 ^ k ≤ shiftEven n k ∧ shiftEven n k ≤ n / 2 ^ k + 1 := by
  rcases shiftEven_cases n k with ⟨h, -⟩ | ⟨h, -⟩ <;> omega

/-- Digits that are zero make no difference. -/
theorem shiftEven_mul_pow (n k j : Nat) : shiftEven (n * 2 ^ j) (k + j) = shiftEven n k := by
  have hpos : 0 < 2 ^ j := Nat.two_pow_pos j
  have hlt (a b : Nat) : a * 2 ^ j < b * 2 ^ j ↔ a < b := Nat.mul_lt_mul_right hpos
  unfold shiftEven
  rw [Nat.pow_add, Nat.mul_div_mul_right _ _ hpos, Nat.mul_mod_mul_right, ← Nat.mul_assoc]
  simp only [hlt]

theorem shiftEven_mul (n k : Nat) : shiftEven (n * 2 ^ k) k = n := by
  have h := shiftEven_mul_pow n 0 k
  rwa [Nat.zero_add, shiftEven_zero] at h

theorem shiftEven_mono (h : m ≤ n) (k : Nat) : shiftEven m k ≤ shiftEven n k := by
  have hdiv : m / 2 ^ k ≤ n / 2 ^ k := Nat.div_le_div_right h
  rcases hdiv.lt_or_eq with hlt | heq
  · exact (shiftEven_bounds m k).2.trans (Nat.le_trans hlt (shiftEven_bounds n k).1)
  · -- with the same digits left, those that are dropped decide
    have hm := Nat.div_add_mod m (2 ^ k)
    have hn := Nat.div_add_mod n (2 ^ k)
    rw [heq] at hm
    unfold shiftEven
    rw [heq]
    split <;> split <;> (try split) <;> (try split) <;> omega

/-! ## Natural numbers -/

theorem log2_mul_pow {a : Nat} (ha : a ≠ 0) (k : Nat) : (a * 2 ^ k).log2 = a.log2 + k := by
  have hpos := Nat.two_pow_pos k
  rw [Nat.log2_eq_iff (Nat.mul_ne_zero ha hpos.ne'), Nat.add_right_comm, Nat.pow_add, Nat.pow_add]
  exact ⟨Nat.mul_le_mul_right _ (Nat.log2_self_le ha),
    Nat.mul_lt_mul_of_pos_right Nat.lt_log2_self hpos⟩

/-- The digits of the nearest double, with the point behind the first of 53. -/
theorem nearestNat_mul (n : Nat) :
    nearestNat n * 2 ^ 52 = shiftEven (n * 2 ^ 52) n.log2 * 2 ^ n.log2 := by
  rcases Nat.le_total 52 n.log2 with hle | hle
  · obtain ⟨s, hs⟩ := Nat.exists_eq_add_of_le' hle
    rw [nearestNat, hs, shiftEven_mul_pow, Nat.add_sub_cancel, Nat.mul_assoc, Nat.pow_add]
  · obtain ⟨s, hs⟩ := Nat.exists_eq_add_of_le' hle
    have hsplit : n * 2 ^ 52 = n * 2 ^ s * 2 ^ n.log2 := by
      rw [Nat.mul_assoc, ← Nat.pow_add, ← hs]
    rw [nearestNat, Nat.sub_eq_zero_of_le hle, shiftEven_zero, Nat.pow_zero, Nat.mul_one, hsplit,
      shiftEven_mul]

/-- With 53 digits left, rounding gives 53 digits, or else a one and 53 zeros. -/
theorem shiftEven_of_log2 {k : Nat} (hn : n ≠ 0) (h : n.log2 = 52 + k) :
    2 ^ 52 ≤ shiftEven n k ∧ shiftEven n k ≤ 2 ^ 53 := by
  have hpos := Nat.two_pow_pos k
  obtain ⟨hleast, hmost⟩ := shiftEven_bounds n k
  constructor
  · refine Nat.le_trans ((Nat.le_div_iff_mul_le hpos).2 ?_) hleast
    rw [← Nat.pow_add, ← h]
    exact Nat.log2_self_le hn
  · refine Nat.le_trans hmost (Nat.succ_le_of_lt ((Nat.div_lt_iff_lt_mul hpos).2 ?_))
    rw [← Nat.pow_add, Nat.add_right_comm 52 1 k, ← h]
    exact Nat.lt_log2_self

theorem digits_bounds (hn : n ≠ 0) :
    2 ^ 52 ≤ shiftEven (n * 2 ^ 52) n.log2 ∧ shiftEven (n * 2 ^ 52) n.log2 ≤ 2 ^ 53 :=
  shiftEven_of_log2 (Nat.mul_ne_zero hn (Nat.two_pow_pos 52).ne')
    ((log2_mul_pow hn 52).trans (Nat.add_comm ..))

/-- A number of at most 53 digits before zeros is a double. -/
theorem nearestNat_mul_pow {a : Nat} (ha : a < 2 ^ 53) (k : Nat) :
    nearestNat (a * 2 ^ k) = a * 2 ^ k := by
  by_cases hzero : a = 0
  · simp [hzero, nearestNat, shiftEven]
  have hlog : (a * 2 ^ k).log2 - 52 ≤ k := by
    have := (Nat.log2_lt hzero).2 ha
    rw [log2_mul_pow hzero]
    omega
  obtain ⟨j, hj⟩ := Nat.exists_eq_add_of_le' hlog
  rw [nearestNat]
  generalize (a * 2 ^ k).log2 - 52 = s at hj
  rw [hj, Nat.pow_add, ← Nat.mul_assoc, shiftEven_mul]

theorem nearestNat_of_le (hn : n ≤ 2 ^ 53) : nearestNat n = n := by
  rcases hn.lt_or_eq with hlt | rfl
  · simpa using nearestNat_mul_pow hlt 0
  · exact nearestNat_mul_pow (a := 1) (by decide) 53

/-- So is one whose digits fit when the point stands elsewhere. -/
theorem nearestNat_of_mul_eq {a k : Nat} (ha : a < 2 ^ 53) (h : a * 2 ^ k = n * 2 ^ 52) :
    nearestNat n = n := by
  rcases Nat.le_total 52 k with hle | hle
  · obtain ⟨j, rfl⟩ := Nat.exists_eq_add_of_le' hle
    rw [Nat.pow_add, ← Nat.mul_assoc] at h
    rw [← Nat.eq_of_mul_eq_mul_right (Nat.two_pow_pos 52) h]
    exact nearestNat_mul_pow ha j
  · refine nearestNat_of_le (Nat.le_trans ?_ ha.le)
    obtain ⟨j, hj⟩ := Nat.exists_eq_add_of_le' hle
    rw [hj, Nat.pow_add, ← Nat.mul_assoc] at h
    rw [Nat.eq_of_mul_eq_mul_right (Nat.two_pow_pos k) h]
    exact Nat.le_mul_of_pos_right n (Nat.two_pow_pos j)

theorem nearestNat_mono (h : m ≤ n) : nearestNat m ≤ nearestNat n := by
  by_cases hm : m = 0
  · subst hm
    exact Nat.zero_le _
  have hn : n ≠ 0 := by omega
  have hlog : m.log2 ≤ n.log2 := (Nat.le_log2 hn).2 (Nat.le_trans (Nat.log2_self_le hm) h)
  rcases hlog.lt_or_eq with hlt | heq
  · -- the power of two between them is a double
    refine Nat.le_of_mul_le_mul_right ?_ (Nat.two_pow_pos 52)
    calc nearestNat m * 2 ^ 52 = shiftEven (m * 2 ^ 52) m.log2 * 2 ^ m.log2 := nearestNat_mul m
      _ ≤ 2 ^ 53 * 2 ^ m.log2 := Nat.mul_le_mul_right _ (digits_bounds hm).2
      _ = 2 ^ 52 * 2 ^ (m.log2 + 1) := by rw [Nat.pow_succ]; omega
      _ ≤ 2 ^ 52 * 2 ^ n.log2 := Nat.mul_le_mul_left _ (Nat.pow_le_pow_right Nat.two_pos hlt)
      _ ≤ shiftEven (n * 2 ^ 52) n.log2 * 2 ^ n.log2 :=
        Nat.mul_le_mul_right _ (digits_bounds hn).1
      _ = nearestNat n * 2 ^ 52 := (nearestNat_mul n).symm
  · rw [nearestNat, nearestNat, heq]
    exact Nat.mul_le_mul_right _ (shiftEven_mono h _)

/-- No double is nearer to a number than the nearest one. -/
theorem dist_nearestNat_le {d : Nat} (hd : nearestNat d = d) :
    (n - nearestNat n) + (nearestNat n - n) ≤ (n - d) + (d - n) := by
  by_cases hn : n = 0
  · subst hn
    exact Nat.zero_le _
  have hpos := Nat.two_pow_pos (n.log2 - 52)
  have hpow : 2 ^ n.log2 ≤ n := Nat.log2_self_le hn
  -- doubles that are as long as the number are multiples of its last place
  have hplace (hle : 2 ^ n.log2 ≤ d) : ∃ c, d = c * 2 ^ (n.log2 - 52) := by
    have hlog : n.log2 ≤ d.log2 := (Nat.le_log2 (by have := Nat.two_pow_pos n.log2; omega)).2 hle
    obtain ⟨k, hk⟩ := Nat.exists_eq_add_of_le' (Nat.sub_le_sub_right hlog 52)
    refine ⟨shiftEven d (d.log2 - 52) * 2 ^ k, ?_⟩
    rw [Nat.mul_assoc, ← Nat.pow_add, ← hk, ← nearestNat, hd]
  have hsplit := Nat.div_add_mod' n (2 ^ (n.log2 - 52))
  have hround := shiftEven_cases n (n.log2 - 52)
  rw [nearestNat]
  rcases Nat.lt_or_ge n d with hlt | hge
  · have hnext : (n / 2 ^ (n.log2 - 52) + 1) * 2 ^ (n.log2 - 52) ≤ d := by
      obtain ⟨c, rfl⟩ := hplace (hpow.trans hlt.le)
      exact Nat.mul_le_mul_right _ ((Nat.div_lt_iff_lt_mul hpos).2 hlt)
    rw [Nat.add_mul] at hnext
    rcases hround with ⟨h, hhalf⟩ | ⟨h, hhalf⟩
    · rw [h]
      omega
    · rw [h, Nat.add_mul]
      omega
  · have hlast : d ≤ n / 2 ^ (n.log2 - 52) * 2 ^ (n.log2 - 52) := by
      rcases Nat.lt_or_ge d (2 ^ n.log2) with hshort | hlong
      · obtain ⟨k, hk⟩ := Nat.exists_eq_add_of_le' (Nat.sub_le n.log2 52)
        have hmul : 2 ^ n.log2 = 2 ^ k * 2 ^ (n.log2 - 52) := by rw [← Nat.pow_add, ← hk]
        refine hshort.le.trans (hmul ▸ Nat.mul_le_mul_right _ ((Nat.le_div_iff_mul_le hpos).2 ?_))
        rwa [← hmul]
      · obtain ⟨c, rfl⟩ := hplace hlong
        exact Nat.mul_le_mul_right _ ((Nat.le_div_iff_mul_le hpos).2 hge)
    rcases hround with ⟨h, hhalf⟩ | ⟨h, hhalf⟩
    · rw [h]
      omega
    · rw [h, Nat.add_mul]
      omega

/-! ## Integers -/

theorem nearest_natCast (n : Nat) : nearest n = nearestNat n := by
  rcases Nat.eq_zero_or_pos n with rfl | hn
  · rfl
  · simp [nearest, Int.sign_natCast_of_ne_zero hn.ne']

theorem nearest_neg (n : Int) : nearest (-n) = -nearest n := by
  simp [nearest]

theorem nearest_mono {a b : Int} (h : a ≤ b) : nearest a ≤ nearest b := by
  obtain ⟨m, rfl | rfl⟩ := a.eq_nat_or_neg <;> obtain ⟨n, rfl | rfl⟩ := b.eq_nat_or_neg
  · rw [nearest_natCast, nearest_natCast]
    exact Int.ofNat_le.2 (nearestNat_mono (Int.ofNat_le.1 h))
  · have hm : m = 0 := by omega
    have hn : n = 0 := by omega
    rw [hm, hn]
    rfl
  · rw [nearest_neg, nearest_natCast, nearest_natCast]
    omega
  · rw [nearest_neg, nearest_neg, nearest_natCast, nearest_natCast]
    exact Int.neg_le_neg (Int.ofNat_le.2 (nearestNat_mono (by omega)))

theorem nearest_of_natAbs_le {a : Int} (h : a.natAbs ≤ 2 ^ 53) : nearest a = a := by
  rw [nearest, nearestNat_of_le h, Int.sign_mul_natAbs]

theorem natAbs_nearest (a : Int) : (nearest a).natAbs = nearestNat a.natAbs := by
  obtain ⟨n, rfl | rfl⟩ := a.eq_nat_or_neg
  · rw [nearest_natCast]
    rfl
  · rw [nearest_neg, Int.natAbs_neg, Int.natAbs_neg, nearest_natCast]
    rfl

/-- What lies within a power of two is rounded within it. -/
theorem natAbs_nearest_le {a : Int} {k : Nat} (h : a.natAbs ≤ 2 ^ k) :
    (nearest a).natAbs ≤ 2 ^ k := by
  have hpow : nearestNat (2 ^ k) = 2 ^ k := by
    simpa using nearestNat_mul_pow (a := 1) (by decide) k
  rw [natAbs_nearest, ← hpow]
  exact nearestNat_mono h

end Scribe.Double
