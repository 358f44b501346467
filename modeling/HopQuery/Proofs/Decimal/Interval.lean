import HopQuery.Decimal.Shortest
import Mathlib.Algebra.Order.Field.Power
import Mathlib.Algebra.Order.Field.Rat
import Mathlib.Order.Monotone.Basic
import Mathlib.Tactic.FieldSimp
import Mathlib.Tactic.Linarith
import Mathlib.Tactic.Positivity
import Mathlib.Tactic.Ring
import Mathlib.Tactic.SplitIfs

/-!
# Intervals of magnitudes

The reals that round to a magnitude reach half-way to its neighbours, and of two neighbours the
one with the even significand has the point between them. So no real rounds to two magnitudes, and
a decimal in the interval of a magnitude tells the magnitude. The decimal that is found for a
magnitude is one, since the last of the grids that are tried is finer than the interval.

* `Magnitude.unitsAt`: the units of a rank, each rank one step above the one before;
* `Magnitude.Interval.Contains`: the reals of an interval;
* `Magnitude.eq_of_contains`: no two intervals meet;
* `Magnitude.contains_shortest`: the decimal of a magnitude lies in its interval.
-/

namespace HopQuery.Magnitude

/-! ### Units of ranks -/

/-- The units of the magnitude of a rank, for ranks beyond the finite ones as well. -/
def unitsAt (rank : Nat) : Nat :=
  (if rank < binade then rank else binade + rank % binade) * 2 ^ (rank / binade - 1)

theorem units_eq_unitsAt (m : Magnitude) : m.units = unitsAt m.rank := rfl

theorem binade_pos : 0 < binade := by decide

theorem unitsAt_of_lt {rank : Nat} (h : rank < binade) : unitsAt rank = rank := by
  simp [unitsAt, h, Nat.div_eq_of_lt h]

/-- A rank lies at a place of a binade; ranks below the first one count as a binade as well. -/
theorem exists_place (rank : Nat) :
    ∃ scale place, place < binade ∧ rank = binade * scale + place :=
  ⟨_, _, Nat.mod_lt _ binade_pos, (Nat.div_add_mod ..).symm⟩

section Place

variable {place : Nat} (h : place < binade) (scale : Nat)
include h

theorem add_place_div : (binade * scale + place) / binade = scale := by
  rw [Nat.mul_add_div binade_pos, Nat.div_eq_of_lt h, Nat.add_zero]

theorem add_place_mod : (binade * scale + place) % binade = place := by
  rw [Nat.mul_add_mod, Nat.mod_eq_of_lt h]

theorem unitsAt_add_place :
    unitsAt (binade * (scale + 1) + place) = (binade + place) * 2 ^ scale := by
  have hge : ¬ binade * (scale + 1) + place < binade := by
    rw [Nat.mul_succ]
    omega
  rw [unitsAt, if_neg hge, add_place_div h, add_place_mod h, Nat.add_sub_cancel]

end Place

/-- From one rank to the next it is one step of the scale. -/
theorem unitsAt_succ (rank : Nat) :
    unitsAt (rank + 1) = unitsAt rank + 2 ^ (rank / binade - 1) := by
  obtain ⟨scale, place, hplace, rfl⟩ := exists_place rank
  rw [add_place_div hplace, Nat.add_assoc]
  rcases Nat.lt_or_ge (place + 1) binade with hnext | hnext
  · cases scale with
    | zero => simp [unitsAt_of_lt, hplace, hnext]
    | succ scale =>
      rw [unitsAt_add_place hplace, unitsAt_add_place hnext, Nat.add_sub_cancel]
      ring
  -- the next rank begins a binade, in which steps are twice as long
  · have hlast : place + 1 = binade := by omega
    have hturn : binade * scale + (place + 1) = binade * (scale + 1) + 0 := by
      rw [hlast, Nat.mul_succ, Nat.add_zero]
    rw [hturn, unitsAt_add_place binade_pos]
    cases scale with
    | zero => simp [unitsAt_of_lt hplace, hlast]
    | succ scale =>
      rw [unitsAt_add_place hplace, Nat.add_sub_cancel, ← hlast]
      ring

theorem unitsAt_strictMono : StrictMono unitsAt :=
  strictMono_nat_of_lt_succ fun rank => by
    rw [unitsAt_succ]
    exact Nat.lt_add_of_pos_right (by positivity)

/-! ### Intervals -/

theorem high_interval (m : Magnitude) :
    m.interval.high = 2 * (unitsAt m.rank + unitsAt (m.rank + 1)) := by
  have hhigh : m.interval.high = 4 * unitsAt m.rank + 2 * 2 ^ (m.rank / binade - 1) := rfl
  rw [hhigh, unitsAt_succ]
  omega

/-- What the interval of a rank has below its value, in quarters of a unit: two steps of the rank
before, which are one step of its own where a binade begins. -/
theorem step_below (rank : Nat) :
    (if (rank + 1) % binade = 0 ∧ 2 * binade ≤ rank + 1 then 1 else 2) *
      2 ^ ((rank + 1) / binade - 1) = 2 * 2 ^ (rank / binade - 1) := by
  obtain ⟨scale, place, hplace, rfl⟩ := exists_place rank
  rw [add_place_div hplace, Nat.add_assoc]
  rcases Nat.lt_or_ge (place + 1) binade with hnext | hnext
  · rw [add_place_div hnext, add_place_mod hnext, if_neg (by omega)]
  · have hturn : binade * scale + (place + 1) = binade * (scale + 1) + 0 := by
      rw [show place + 1 = binade by omega, Nat.mul_succ, Nat.add_zero]
    rw [hturn, add_place_div binade_pos, add_place_mod binade_pos]
    cases scale with
    -- the first binade has the steps of the ranks below it
    | zero =>
      have hpos := binade_pos
      rw [if_neg (by omega)]
    | succ scale =>
      have htwo : 2 * binade ≤ binade * (scale + 1 + 1) + 0 := by
        rw [Nat.mul_comm, Nat.add_zero]
        exact Nat.mul_le_mul_left _ (by omega)
      rw [if_pos ⟨rfl, htwo⟩, Nat.add_sub_cancel, Nat.add_sub_cancel]
      ring

theorem low_interval {m : Magnitude} {rank : Nat} (h : m.rank = rank + 1) :
    m.interval.low = 2 * (unitsAt rank + unitsAt (rank + 1)) := by
  have hlow : m.interval.low = 4 * unitsAt (rank + 1) -
      (if (rank + 1) % binade = 0 ∧ 2 * binade ≤ rank + 1 then 1 else 2) *
        2 ^ ((rank + 1) / binade - 1) := by
    rw [← h]
    rfl
  rw [hlow, step_below, unitsAt_succ]
  omega

/-- The interval has its ends if the rank is even, as it then is the significand. -/
theorem closed_interval (m : Magnitude) : m.interval.closed = decide (m.rank % 2 = 0) := by
  have hbinade : binade = 2 ^ 52 := rfl
  have hsignificand : m.significand % 2 = m.rank % 2 := by
    rw [significand, hbinade]
    split_ifs <;> omega
  rw [← hsignificand]
  rfl

/-- The reals of an interval, in quarters of a unit. -/
def Interval.Contains (i : Interval) (q : ℚ) : Prop :=
  if i.closed then (i.low : ℚ) ≤ q ∧ q ≤ i.high else (i.low : ℚ) < q ∧ q < i.high

theorem Interval.contains_iff_holds (i : Interval) (num : Nat) {den : Nat} (h : 0 < den) :
    i.Contains (num / den) ↔ i.holds num den = true := by
  have hden : (0 : ℚ) < den := by exact_mod_cast h
  unfold Interval.Contains Interval.holds
  split_ifs
  · rw [le_div_iff₀ hden, div_le_iff₀ hden, Bool.and_eq_true, decide_eq_true_eq, decide_eq_true_eq]
    norm_cast
  · rw [lt_div_iff₀ hden, div_lt_iff₀ hden, Bool.and_eq_true, decide_eq_true_eq, decide_eq_true_eq]
    norm_cast

theorem Interval.Contains.low_le {i : Interval} {q : ℚ} (h : i.Contains q) : (i.low : ℚ) ≤ q := by
  unfold Interval.Contains at h
  split_ifs at h
  · exact h.1
  · exact h.1.le

theorem Interval.Contains.le_high {i : Interval} {q : ℚ} (h : i.Contains q) : q ≤ i.high := by
  unfold Interval.Contains at h
  split_ifs at h
  · exact h.2
  · exact h.2.le

theorem not_contains_of_lt {a b : Magnitude} (h : a.rank < b.rank) {q : ℚ}
    (ha : a.interval.Contains q) : ¬ b.interval.Contains q := by
  intro hb
  obtain ⟨rank, hrank⟩ : ∃ rank, b.rank = rank + 1 := ⟨b.rank - 1, by omega⟩
  have hbetween : (b.interval.low : ℚ) ≤ a.interval.high := hb.low_le.trans ha.le_high
  rw [low_interval hrank, high_interval, Nat.cast_le] at hbetween
  rcases Nat.lt_or_ge a.rank rank with hlt | hge
  -- there is a magnitude between the two
  · have hunits := unitsAt_strictMono hlt
    have hnext : unitsAt (a.rank + 1) < unitsAt (rank + 1) := unitsAt_strictMono (by omega)
    omega
  -- the two are neighbours, and one of them leaves out the point between them
  · have hnear : a.rank = rank := by omega
    have hends : (a.interval.high : ℚ) = b.interval.low := by
      rw [low_interval hrank, high_interval, hnear]
    unfold Interval.Contains at ha hb
    rw [closed_interval] at ha hb
    split_ifs at ha hb with heven heven'
    · simp only [decide_eq_true_eq] at heven heven'
      omega
    · linarith [ha.2, hb.1]
    · linarith [ha.2, hb.1]
    · linarith [ha.2, hb.1]

/-- No real lies in the intervals of two magnitudes. -/
theorem eq_of_contains {a b : Magnitude} {q : ℚ} (ha : a.interval.Contains q)
    (hb : b.interval.Contains q) : a = b := by
  rcases Nat.lt_trichotomy a.rank b.rank with hlt | heq | hgt
  · exact absurd hb (not_contains_of_lt hlt ha)
  · obtain ⟨_, _⟩ := a
    obtain ⟨_, _⟩ := b
    congr
  · exact absurd ha (not_contains_of_lt hgt hb)

theorem contains_zero {m : Magnitude} (h : m.rank = 0) : m.interval.Contains 0 := by
  have hlow : m.interval.low = 0 := by
    have hunits : m.units = 0 := by simp [units_eq_unitsAt, h, unitsAt]
    simp [interval, hunits]
  rw [Interval.Contains, if_pos (by simp [closed_interval, h]), hlow]
  exact ⟨by simp, by positivity⟩

/-- A multiple that is found lies in the interval. -/
theorem Interval.contains_of_multiple? {i : Interval} {num den number : Nat} (hden : 0 < den)
    (h : i.multiple? num den = some number) :
    i.Contains (((number * num : Nat) : ℚ) / den) := by
  rw [contains_iff_holds i _ hden]
  unfold multiple? at h
  dsimp only at h
  split at h
  · cases h
  · next hbelow _ => cases h; exact hbelow
  · next _ habove => cases h; exact habove
  · next hbelow habove =>
    split at h
    · cases h; exact hbelow
    · cases h; exact habove

/-- Steps shorter than what the interval has above its value do not miss it: the first multiple
above the value lies in it. -/
theorem exists_multiple? {m : Magnitude} {num den : Nat} (hnum : 0 < num)
    (h : num < 2 * 2 ^ m.scale * den) : ∃ number, m.interval.multiple? num den = some number := by
  have hlow : m.interval.low ≤ m.interval.value := Nat.sub_le ..
  have hhigh : m.interval.high = m.interval.value + 2 * 2 ^ m.scale := rfl
  have hlt := Nat.lt_div_mul_add (a := m.interval.value * den) hnum
  have hle := Nat.div_mul_le_self (m.interval.value * den) num
  have hlow' : m.interval.low * den ≤ m.interval.value * den := Nat.mul_le_mul_right _ hlow
  have habove :
      m.interval.holds ((m.interval.value * den / num + 1) * num) den = true := by
    rw [Interval.holds, hhigh, Nat.succ_mul, Nat.add_mul]
    split_ifs <;>
    · rw [Bool.and_eq_true, decide_eq_true_eq, decide_eq_true_eq]
      omega
  refine Option.ne_none_iff_exists'.1 fun hnone => ?_
  unfold Interval.multiple? at hnone
  dsimp only at hnone
  split at hnone
  · next hfalse => exact absurd (habove.symm.trans hfalse) (by decide)
  · cases hnone
  · cases hnone
  · split at hnone <;> cases hnone

/-! ### Shortest decimals -/

theorem one_pos : 0 < one := by decide +kernel

/-- The decimal `number * 10 ^ exponent` in quarters of a unit. -/
def quarters (number : Nat) (exponent : Int) : ℚ :=
  number * 10 ^ exponent * one

/-- A decimal as the quotient that the search for grid points works with. -/
theorem quarters_eq_div (number : Nat) (exponent : Int) :
    quarters number exponent = ((number * (Nat.pow 10 exponent.toNat * one) : Nat) : ℚ) /
      (Nat.pow 10 (-exponent).toNat : Nat) := by
  have hcast : ∀ n, ((Nat.pow 10 n : Nat) : ℚ) = 10 ^ (n : Int) := fun n => by
    rw [zpow_natCast]
    exact Nat.cast_pow 10 n
  have hpow : (10 : ℚ) ^ exponent =
      (Nat.pow 10 exponent.toNat : Nat) / (Nat.pow 10 (-exponent).toNat : Nat) := by
    rw [hcast, hcast, ← zpow_sub₀ (by norm_num)]
    congr 1
    omega
  rw [quarters, hpow, Nat.cast_mul, Nat.cast_mul]
  ring

/-- The decimal exponent of the last grid that is tried for a magnitude with its highest binary
digit at the place. -/
def lastExponent (place : Nat) : Int :=
  ((place : Int) - 1072) * 30103 / 100000 + 2 - (24 : Nat)

/-- Whether a step of the last grid is shorter than two steps of the scale. -/
def isFine (place : Nat) : Bool :=
  Nat.blt (Nat.pow 10 (lastExponent place).toNat * one * Nat.pow 2 52)
    (2 * Nat.pow 2 place * Nat.pow 10 (-lastExponent place).toNat)

/-- The last grid is fine enough for all magnitudes, the highest of which has 2098 digits. -/
theorem all_isFine : (List.range 2098).all isFine = true := by decide +kernel

theorem units_lt (m : Magnitude) : m.units < 2 ^ (53 + m.scale) := by
  have hbinade : binade = 2 ^ 52 := rfl
  have hsignificand : m.significand < 2 ^ 53 := by
    rw [significand, hbinade]
    split_ifs <;> omega
  rw [Nat.pow_add]
  exact Nat.mul_lt_mul_of_pos_right hsignificand (Nat.pow_pos (by decide))

theorem scale_lt (m : Magnitude) : m.scale < 2046 := by
  have h : m.rank / binade < 2047 := (Nat.div_lt_iff_lt_mul binade_pos).2 m.rank_lt
  rw [scale]
  omega

theorem units_ne_zero {m : Magnitude} (h : m.rank ≠ 0) : m.units ≠ 0 := by
  rw [units_eq_unitsAt]
  exact (unitsAt_strictMono (Nat.pos_of_ne_zero h)).ne_bot

/-- The search for a grid point is over at the last grid. -/
theorem exists_gridPoint? {m : Magnitude} (h : m.rank ≠ 0) :
    ∃ number, m.interval.gridPoint? (m.exponentBound - (24 : Nat)) = some number := by
  have hplace : Nat.log2 m.units < 53 + m.scale := (Nat.log2_lt (units_ne_zero h)).2 m.units_lt
  have hfine : isFine (Nat.log2 m.units) = true :=
    List.all_eq_true.1 all_isFine _ (List.mem_range.2 (by have := m.scale_lt; omega))
  have hpow : Nat.pow 2 (Nat.log2 m.units) ≤ Nat.pow 2 52 * 2 ^ m.scale := by
    refine (Nat.pow_le_pow_right (by decide) (show _ ≤ 52 + m.scale by omega)).trans_eq ?_
    exact Nat.pow_add ..
  refine exists_multiple? (Nat.mul_pos (Nat.pow_pos (by decide)) one_pos)
    (Nat.lt_of_mul_lt_mul_right ((Nat.blt_eq.mp hfine).trans_le ?_))
  calc 2 * Nat.pow 2 (Nat.log2 m.units) * Nat.pow 10 (-(m.exponentBound - (24 : Nat))).toNat
    _ ≤ 2 * (Nat.pow 2 52 * 2 ^ m.scale) *
        Nat.pow 10 (-(m.exponentBound - (24 : Nat))).toNat := by gcongr
    _ = 2 * 2 ^ m.scale * Nat.pow 10 (-(m.exponentBound - (24 : Nat))).toNat *
        Nat.pow 2 52 := by ring

/-- The decimal that is found for a magnitude other than zero lies in its interval. -/
theorem contains_shortest {m : Magnitude} (h : m.rank ≠ 0) :
    m.interval.Contains (quarters m.shortest.1 m.shortest.2) := by
  obtain ⟨number, hnumber⟩ := exists_gridPoint? h
  have hsome : ((List.range 25).findSome? fun (i : Nat) =>
      (m.interval.gridPoint? (m.exponentBound - i)).map (·, m.exponentBound - i)).isSome := by
    rw [List.findSome?_isSome_iff]
    exact ⟨24, by decide, by rw [hnumber]; rfl⟩
  obtain ⟨found, hfound⟩ := Option.isSome_iff_exists.1 hsome
  have hshortest : m.shortest = found := by rw [shortest, hfound, Option.getD_some]
  obtain ⟨i, -, hi⟩ := List.exists_of_findSome?_eq_some hfound
  obtain ⟨number, hnumber, rfl⟩ := Option.map_eq_some_iff.1 hi
  rw [hshortest, quarters_eq_div]
  exact Interval.contains_of_multiple? (Nat.pow_pos (by decide)) hnumber

end HopQuery.Magnitude
