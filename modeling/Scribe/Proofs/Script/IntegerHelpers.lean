import Scribe.Proofs.Decimal.Doubles
import Scribe.Script.Arithmetic

set_option autoImplicit false

/-! # Helpers on integers

The helpers for extrema and sums take integers as the doubles nearest to them. Main statement: an
extremum of integers is the first of them that has the same nearest double as the exact one, and a
sum of integers is rounded to a double item by item and kept between the bounds. -/

namespace Scribe.Helper

open Double

/-- The first of integers that has the same nearest double as `best`. -/
def firstLike (all : List Int64) (best : Int) : Option Value :=
  (all.find? fun k => nearest k.toInt = nearest best).map .int

/-- The sum of integers, rounded to a double behind every item. -/
def roundedSum (all : List Int64) : Int :=
  all.foldl (fun total k => nearest (total + nearest k.toInt)) 0

variable {all : List Int64}

theorem mapM_number?_int (all : List Int64) :
    (all.map Value.int).mapM number? = some (all.map ofInteger) := by
  induction all with
  | nil => rfl
  | cons n all ih => simp [ih, number?]

theorem all_isIntegral_int (all : List Int64) : (all.map Value.int).all isIntegral := by
  simp [isIntegral]

/-! ## Extrema -/

section Extrema

variable {pick : Float → Float → Float} {best : Int → Int → Int} {x : Float} {a : Int}

theorem represents_lesser {x y : Float} {a b : Int} (hx : Represents x a) (hy : Represents y b) :
    Represents (lesser x y) (min a b) := by
  rw [lesser, hx.bne_self, hy.bne_self]
  by_cases hlt : y < x
  · have hba := (hy.lt_iff hx).1 hlt
    simpa [hlt, min_eq_right hba.le] using hy
  · have hab := Int.not_lt.1 (mt (hy.lt_iff hx).2 hlt)
    simpa [hlt, min_eq_left hab] using hx

theorem represents_greater {x y : Float} {a b : Int} (hx : Represents x a) (hy : Represents y b) :
    Represents (greater x y) (max a b) := by
  rw [greater, hx.bne_self, hy.bne_self]
  by_cases hlt : x < y
  · have hab := (hx.lt_iff hy).1 hlt
    simpa [hlt, max_eq_right hab.le] using hy
  · have hba := Int.not_lt.1 (mt (hx.lt_iff hy).2 hlt)
    simpa [hlt, max_eq_left hba] using hx

theorem represents_foldl
    (hpick : ∀ x y a b, Represents x a → Represents y b → Represents (pick x y) (best a b))
    (hx : Represents x a) (all : List Int64) :
    Represents ((all.map ofInteger).foldl pick x)
      ((all.map fun k => nearest k.toInt).foldl best a) := by
  induction all generalizing x a with
  | nil => exact hx
  | cons n all ih => exact ih (hpick _ _ _ _ hx (represents_ofInt64 n))

/-- An extremum whose double is that of `m` is taken by the first integer with this double. -/
theorem extremum?_eq_firstLike
    (hpick : ∀ x y a b, Represents x a → Represents y b → Represents (pick x y) (best a b))
    {args : List Value} {n : Int64} {ns : List Int64} {m : Int}
    (hargs : operands args = (n :: ns).map .int)
    (hbest : (ns.map fun k => nearest k.toInt).foldl best (nearest n.toInt) = nearest m) :
    extremum? pick args = firstLike (n :: ns) m := by
  have hfold := represents_foldl hpick (represents_ofInt64 n) ns
  rw [hbest] at hfold
  have hfind (k : Int64) :
      (ofInteger k == (ns.map ofInteger).foldl pick (ofInteger n)) =
        decide (nearest k.toInt = nearest m) := by
    rw [Bool.eq_iff_iff, decide_eq_true_iff]
    exact (represents_ofInt64 k).beq_iff hfold
  have hzip : ((n :: ns).map Value.int).zip ((n :: ns).map ofInteger) =
      (n :: ns).map fun k => (.int k, ofInteger k) := List.zip_map' ..
  simp only [extremum?, hargs, mapM_number?_int, Option.bind_eq_bind, Option.bind_some]
  show Option.map Prod.fst (List.find? (fun p => p.2 == (ns.map ofInteger).foldl pick (ofInteger n))
    (((n :: ns).map Value.int).zip ((n :: ns).map ofInteger))) = _
  rw [hzip, List.find?_map, Option.map_map]
  simp only [Function.comp_def, hfind]
  rfl

end Extrema

/-- The arguments are integers, or a single list of them. -/
def AreIntegers (args : List Value) (all : List Int64) : Prop :=
  args = all.map .int ∨ args = [.list (all.map .int)]

theorem AreIntegers.operands_eq {args : List Value} (h : AreIntegers args all) :
    operands args = all.map .int := by
  rcases h with rfl | rfl
  · rcases all with _ | ⟨n, _ | ⟨_, _⟩⟩ <;> rfl
  · rfl

theorem min?_map_nearest (ms : List Int) : (ms.map nearest).min? = ms.min?.map nearest := by
  cases hmin : ms.min? with
  | none => simpa using hmin
  | some least =>
    obtain ⟨hmem, hle⟩ := List.min?_eq_some_iff.1 hmin
    refine List.min?_eq_some_iff.2 ⟨List.mem_map_of_mem hmem, fun b hb => ?_⟩
    obtain ⟨m, hm, rfl⟩ := List.mem_map.1 hb
    exact nearest_mono (hle m hm)

theorem max?_map_nearest (ms : List Int) : (ms.map nearest).max? = ms.max?.map nearest := by
  cases hmax : ms.max? with
  | none => simpa using hmax
  | some greatest =>
    obtain ⟨hmem, hle⟩ := List.max?_eq_some_iff.1 hmax
    refine List.max?_eq_some_iff.2 ⟨List.mem_map_of_mem hmem, fun b hb => ?_⟩
    obtain ⟨m, hm, rfl⟩ := List.mem_map.1 hb
    exact nearest_mono (hle m hm)

theorem eval?_min {args : List Value} (h : AreIntegers args all) :
    eval? "min".toList args = (all.map Int64.toInt).min?.bind (firstLike all) := by
  show extremum? lesser args = _
  cases all with
  | nil => simp [extremum?, h.operands_eq]
  | cons n ns =>
    have hmin := min?_map_nearest ((n :: ns).map Int64.toInt)
    rw [List.map_map] at hmin
    refine extremum?_eq_firstLike (fun _ _ _ _ => represents_lesser) h.operands_eq ?_
    exact Option.some_inj.1 hmin

theorem eval?_max {args : List Value} (h : AreIntegers args all) :
    eval? "max".toList args = (all.map Int64.toInt).max?.bind (firstLike all) := by
  show extremum? greater args = _
  cases all with
  | nil => simp [extremum?, h.operands_eq]
  | cons n ns =>
    have hmax := max?_map_nearest ((n :: ns).map Int64.toInt)
    rw [List.map_map] at hmax
    refine extremum?_eq_firstLike (fun _ _ _ _ => represents_greater) h.operands_eq ?_
    exact Option.some_inj.1 hmax

/-! ## Sums -/

/-- From far out, no integer of 64 bits leads any further. -/
theorem natAbs_nearest_add_le {total : Int} (h : total.natAbs ≤ 2 ^ 117) (k : Int64) :
    (total + nearest k.toInt).natAbs ≤ 2 ^ 117 + 2 ^ 63 ∧
      (nearest (total + nearest k.toInt)).natAbs ≤ 2 ^ 117 := by
  have hk : (nearest k.toInt).natAbs ≤ 2 ^ 63 := by
    refine natAbs_nearest_le ?_
    have hleast := k.minValue_le_toInt
    have hmost := k.toInt_le
    simp only [Int64.toInt_minValue, Int64.toInt_maxValue] at hleast hmost
    omega
  have hadd : (total + nearest k.toInt).natAbs ≤ 2 ^ 117 + 2 ^ 63 :=
    (Int.natAbs_add_le ..).trans (Nat.add_le_add h hk)
  have hfar : nearestNat (2 ^ 117 + 2 ^ 63) = 2 ^ 117 := by decide +kernel
  refine ⟨hadd, ?_⟩
  rw [natAbs_nearest, ← hfar]
  exact nearestNat_mono hadd

theorem represents_foldl_add {x : Float} {total : Int} (hx : Represents x total)
    (h : total.natAbs ≤ 2 ^ 117) (all : List Int64) :
    Represents ((all.map ofInteger).foldl (· + ·) x)
      (all.foldl (fun total k => nearest (total + nearest k.toInt)) total) := by
  induction all generalizing x total with
  | nil => exact hx
  | cons k all ih =>
    obtain ⟨hadd, hnext⟩ := natAbs_nearest_add_le h k
    exact ih (hx.add (represents_ofInt64 k) (hadd.trans (by decide))) hnext

theorem eval?_sum (all : List Int64) :
    eval? "sum".toList [.list (all.map .int)] =
      some (.int (Int64.ofIntClamp (roundedSum all))) := by
  have htotal := represents_foldl_add represents_negZero (by decide) all
  show sum? _ = _
  simp only [sum?, mapM_number?_int, Option.bind_eq_bind, Option.bind_some, all_isIntegral_int,
    if_true]
  exact congrArg (fun n => some (Value.int n)) htotal.toInt64

/-- A sum is exact as long as the items and the running totals are doubles. -/
theorem foldl_nearest_eq {total : Int} (hitems : ∀ k ∈ all, nearest k.toInt = k.toInt)
    (htotals : ∀ front, front <+: all →
      nearest (total + (front.map Int64.toInt).sum) = total + (front.map Int64.toInt).sum) :
    all.foldl (fun total k => nearest (total + nearest k.toInt)) total =
      total + (all.map Int64.toInt).sum := by
  induction all generalizing total with
  | nil => exact (Int.add_zero total).symm
  | cons k all ih =>
    have hnext : nearest (total + nearest k.toInt) = total + k.toInt := by
      have h := htotals [k] (List.prefix_append [k] all)
      rw [hitems k List.mem_cons_self]
      simpa using h
    rw [List.foldl_cons, hnext, ih (fun j hj => hitems j (List.mem_cons_of_mem k hj)) ?_,
      List.map_cons, List.sum_cons, Int.add_assoc]
    intro front hfront
    have h := htotals (k :: front) ((List.prefix_cons_inj k).2 hfront)
    rwa [List.map_cons, List.sum_cons, ← Int.add_assoc] at h

/-! ## Integers -/

/-- `m` is the first of integers that has the same nearest double as `best`. -/
def IsFirstLike (all : List Int64) (best : Int) (m : Int64) : Prop :=
  ∃ front back, all = front ++ m :: back ∧ nearest m.toInt = nearest best ∧
    ∀ k ∈ front, nearest k.toInt ≠ nearest best

/-- Every integer is a double. -/
def AreDoubles (all : List Int64) : Prop := ∀ k ∈ all, nearest k.toInt = k.toInt

/-- Every running total of integers is a double. -/
def HaveDoubleTotals (all : List Int64) : Prop :=
  ∀ front ∈ all.inits, nearest (front.map Int64.toInt).sum = (front.map Int64.toInt).sum

instance (all : List Int64) : Decidable (AreDoubles all) :=
  List.decidableBAll _ all

instance (all : List Int64) : Decidable (HaveDoubleTotals all) :=
  List.decidableBAll _ all.inits

theorem areDoubles_of_natAbs_le (h : ∀ k ∈ all, k.toInt.natAbs ≤ 2 ^ 53) : AreDoubles all :=
  fun k hk => nearest_of_natAbs_le (h k hk)

theorem exists_isFirstLike {best : Int} (h : best ∈ all.map Int64.toInt) :
    ∃ m, firstLike all best = some (.int m) ∧ IsFirstLike all best m ∧
      (AreDoubles all → m.toInt = best) := by
  obtain ⟨k, hk, rfl⟩ := List.mem_map.1 h
  cases hfind : all.find? fun m => nearest m.toInt = nearest k.toInt with
  | none => simpa using List.find?_eq_none.1 hfind k hk
  | some m =>
    obtain ⟨hm, front, back, hall, hfront⟩ := List.find?_eq_some_iff_append.1 hfind
    have hm := of_decide_eq_true hm
    refine ⟨m, by rw [firstLike, hfind]; rfl,
      ⟨front, back, hall, hm, fun j hj => by simpa using hfront j hj⟩, fun hdoubles => ?_⟩
    rw [← hdoubles m (List.mem_of_find?_eq_some hfind), hm, hdoubles k hk]

theorem roundedSum_eq (hitems : AreDoubles all) (htotals : HaveDoubleTotals all) :
    roundedSum all = (all.map Int64.toInt).sum := by
  rw [roundedSum, foldl_nearest_eq hitems, Int.zero_add]
  intro front hfront
  rw [Int.zero_add]
  exact htotals front ((List.mem_inits ..).2 hfront)

/-- Of integers, the extrema and the sum are those of their nearest doubles: an extremum is the
    first integer that has the same nearest double as the exact one, and the sum is rounded behind
    every item and kept between the bounds. They are exact when the integers, and the running totals
    of the sum, are doubles. -/
theorem eval?_integers (n : Int64) (ns : List Int64) :
    (∃ least, (∀ args, AreIntegers args (n :: ns) → eval? "min".toList args = some (.int least)) ∧
      IsFirstLike (n :: ns) (((n :: ns).map Int64.toInt).min (by simp)) least ∧
      (AreDoubles (n :: ns) → least.toInt = ((n :: ns).map Int64.toInt).min (by simp))) ∧
    (∃ greatest,
      (∀ args, AreIntegers args (n :: ns) → eval? "max".toList args = some (.int greatest)) ∧
      IsFirstLike (n :: ns) (((n :: ns).map Int64.toInt).max (by simp)) greatest ∧
      (AreDoubles (n :: ns) → greatest.toInt = ((n :: ns).map Int64.toInt).max (by simp))) ∧
    ∃ total, eval? "sum".toList [.list ((n :: ns).map .int)] = some (.int total) ∧
      total = Int64.ofIntClamp (roundedSum (n :: ns)) ∧
      (AreDoubles (n :: ns) → HaveDoubleTotals (n :: ns) →
        Int64.minValue.toInt ≤ ((n :: ns).map Int64.toInt).sum →
        ((n :: ns).map Int64.toInt).sum ≤ Int64.maxValue.toInt →
        total.toInt = ((n :: ns).map Int64.toInt).sum) := by
  have hne : (n :: ns).map Int64.toInt ≠ [] := by simp
  refine ⟨?_, ?_, _, eval?_sum (n :: ns), rfl, fun hitems htotals hleast hmost => ?_⟩
  · obtain ⟨least, hfirst, hleast⟩ := exists_isFirstLike (List.min_mem hne)
    refine ⟨least, fun args hargs => ?_, hleast⟩
    rw [eval?_min hargs, List.min?_eq_some_min hne]
    exact hfirst
  · obtain ⟨greatest, hfirst, hgreatest⟩ := exists_isFirstLike (List.max_mem hne)
    refine ⟨greatest, fun args hargs => ?_, hgreatest⟩
    rw [eval?_max hargs, List.max?_eq_some_max hne]
    exact hfirst
  · rw [roundedSum_eq hitems htotals, Int64.ofIntClamp, dif_pos hleast, dif_pos hmost,
      Int64.toInt_ofIntLE]

/-- Even integers beyond those that are all doubles, and one that is negative. -/
def evenIntegers : List Int64 := [9007199254740994, -2, 4]

theorem eval?_integers_even :
    eval? "min".toList (evenIntegers.map .int) = some (.int (-2)) ∧
      eval? "max".toList [.list (evenIntegers.map .int)] = some (.int 9007199254740994) ∧
      eval? "sum".toList [.list (evenIntegers.map .int)] = some (.int 9007199254740996) := by
  obtain ⟨⟨least, hmin, -, hleast⟩, ⟨greatest, hmax, -, hgreatest⟩, total, hsum, -, htotal⟩ :=
    eval?_integers 9007199254740994 [-2, 4]
  have hitems : AreDoubles evenIntegers := by decide +kernel
  have hleast : least = -2 := Int64.toInt_inj.1 (hleast hitems)
  have hgreatest : greatest = 9007199254740994 := Int64.toInt_inj.1 (hgreatest hitems)
  have htotal : total = 9007199254740996 :=
    Int64.toInt_inj.1 (htotal hitems (by decide +kernel) (by decide) (by decide))
  subst hleast hgreatest htotal
  exact ⟨hmin _ (.inl rfl), hmax _ (.inr rfl), hsum⟩

/-- Of two integers with the same nearest double the first is the least, and the greatest, and a sum
    loses what its double does not hold. -/
theorem eval?_integers_inexact :
    eval? "min".toList [.int 9007199254740993, .int 9007199254740992] =
        some (.int 9007199254740993) ∧
      eval? "max".toList [.int 9007199254740992, .int 9007199254740993] =
        some (.int 9007199254740992) ∧
      eval? "sum".toList [.list [.int 9007199254740993, .int 0]] =
        some (.int 9007199254740992) :=
  ⟨(@eval?_min [9007199254740993, 9007199254740992] _ (.inl rfl)).trans rfl,
    (@eval?_max [9007199254740992, 9007199254740993] _ (.inl rfl)).trans rfl,
    (eval?_sum [9007199254740993, 0]).trans rfl⟩

end Scribe.Helper
