import Mathlib.Data.Int.Log
import Mathlib.Data.Rat.Floor
import Mathlib.Tactic.Linarith
import Mathlib.Tactic.Positivity
import Wapsell.Py.Number

/-!
# Rounding to a double

Where the rounding of an exact value can end up. A value that is a double is
its own rounding, and rounding never carries another value past it, which is
all that bounds on rounded results need.

The grid of a value is the multiples of its last place. Two facts about
it do all the work: a value on the grid is its own rounding, and
rounding is monotone as far as a grid value in between is not crossed. A
power of two, a small integer and a quotient by a power of two are on
the grid of whatever is near, which is what the users of this module
have.
-/

namespace Py

/-! ## To an integer -/

theorem le_divRound {m n d : Nat} (hd : 0 < d) (h : m * d ≤ n) : m ≤ divRound n d := by
  have hq : m ≤ n / d := (Nat.le_div_iff_mul_le hd).mpr h
  simp only [divRound]
  split
  · exact hq
  · split
    · omega
    · split <;> omega

theorem divRound_le {m n d : Nat} (hd : 0 < d) (h : n ≤ m * d) : divRound n d ≤ m := by
  have hdiv := Nat.div_add_mod n d
  have hq : n / d ≤ m := Nat.div_le_of_le_mul (by rwa [Nat.mul_comm])
  have hup : 0 < n % d → n / d + 1 ≤ m := by
    intro hr
    by_contra hnot
    have heq : n / d = m := by omega
    rw [heq, Nat.mul_comm] at hdiv
    omega
  simp only [divRound]
  split
  · exact hq
  · split
    · exact hup (by omega)
    · split
      · exact hq
      · exact hup (by omega)

/-- An even number is the nearest from half a unit below it on. -/
theorem even_le_divRound_iff {k n d : Nat} (hd : 0 < d) (heven : k % 2 = 0) :
    k ≤ divRound n d ↔ (2 * k - 1) * d ≤ 2 * n := by
  have hdiv := Nat.div_add_mod n d
  have hmod := Nat.mod_lt n hd
  have hmul : (2 * k - 1) * d = 2 * (d * k) - d := by rw [Nat.sub_mul, Nat.one_mul]; ring_nf
  rw [hmul]
  rcases Nat.lt_trichotomy k (n / d + 1) with hlt | heq | hgt
  · have hle : d * k ≤ d * (n / d) := Nat.mul_le_mul_left d (Nat.le_of_lt_succ hlt)
    refine iff_of_true (le_divRound hd ?_) (by omega)
    rw [Nat.mul_comm]
    omega
  · have hprod : d * k = d * (n / d) + d := by rw [heq, Nat.mul_succ]
    simp only [divRound]
    split_ifs <;> omega
  · have hle : d * (n / d) + d + d ≤ d * k := by
      rw [← Nat.mul_succ, ← Nat.mul_succ]
      exact Nat.mul_le_mul_left d hgt
    refine iff_of_false (fun h => ?_) (by omega)
    simp only [divRound] at h
    split_ifs at h <;> omega

namespace Double

/-! ## The grid of a value -/

/-- The exponent of the last place of the doubles near a value. -/
def ulp (x : ℚ) : Int := ulpExponent x.num.natAbs x.den

/-- The magnitude a value rounds to. -/
def rounded (x : ℚ) : ℚ := roundMagnitude x.num.natAbs x.den

theorem natAbs_num_div_den {x : ℚ} (h : 0 ≤ x) : (x.num.natAbs : ℚ) / x.den = x := by
  have hnum : (x.num.natAbs : ℚ) = x.num := by
    rw [← Int.cast_natCast, Int.natAbs_of_nonneg (Rat.num_nonneg.mpr h)]
  rw [hnum, Rat.num_div_den]

theorem log_eq_iff {x : ℚ} (h : 0 < x) {j : Int} :
    Int.log 2 x = j ↔ (2 : ℚ) ^ j ≤ x ∧ x < (2 : ℚ) ^ (j + 1) := by
  have hle : (2 : ℚ) ^ j ≤ x ↔ j ≤ Int.log 2 x := by
    exact_mod_cast Int.zpow_le_iff_le_log Nat.one_lt_two h
  have hlt : x < (2 : ℚ) ^ (j + 1) ↔ Int.log 2 x < j + 1 := by
    exact_mod_cast Int.lt_zpow_iff_log_lt Nat.one_lt_two h
  rw [hle, hlt]
  omega

/-- A quotient in powers of two, up to one. -/
theorem zpow_bounds {n d : Nat} (hn : n ≠ 0) (hd : d ≠ 0) :
    (2 : ℚ) ^ ((Nat.log2 n : Int) - Nat.log2 d - 1) ≤ (n : ℚ) / d ∧
      (n : ℚ) / d < (2 : ℚ) ^ ((Nat.log2 n : Int) - Nat.log2 d + 1) := by
  have hnlow : (2 : ℚ) ^ Nat.log2 n ≤ n := by exact_mod_cast Nat.log2_self_le hn
  have hnhigh : (n : ℚ) < 2 ^ (Nat.log2 n + 1) := by exact_mod_cast Nat.lt_log2_self
  have hdlow : (2 : ℚ) ^ Nat.log2 d ≤ d := by exact_mod_cast Nat.log2_self_le hd
  have hdhigh : (d : ℚ) < 2 ^ (Nat.log2 d + 1) := by exact_mod_cast Nat.lt_log2_self
  have hdpos : (0 : ℚ) < d := by exact_mod_cast Nat.pos_of_ne_zero hd
  constructor
  · rw [le_div_iff₀ hdpos]
    calc (2 : ℚ) ^ ((Nat.log2 n : Int) - Nat.log2 d - 1) * d
        ≤ 2 ^ ((Nat.log2 n : Int) - Nat.log2 d - 1) * 2 ^ (Nat.log2 d + 1) :=
          mul_le_mul_of_nonneg_left hdhigh.le (zpow_nonneg zero_le_two _)
      _ = 2 ^ Nat.log2 n := by
        rw [← zpow_natCast, ← zpow_natCast, ← zpow_add₀ two_ne_zero]
        congr 1
        push_cast
        ring
      _ ≤ n := hnlow
  · rw [div_lt_iff₀ hdpos]
    calc (n : ℚ) < 2 ^ (Nat.log2 n + 1) := hnhigh
      _ = 2 ^ ((Nat.log2 n : Int) - Nat.log2 d + 1) * 2 ^ Nat.log2 d := by
        rw [← zpow_natCast, ← zpow_natCast, ← zpow_add₀ two_ne_zero]
        congr 1
        push_cast
        ring
      _ ≤ 2 ^ ((Nat.log2 n : Int) - Nat.log2 d + 1) * d :=
          mul_le_mul_of_nonneg_left hdlow (zpow_nonneg zero_le_two _)

/-- The last place is 52 below the leading one. -/
theorem ulpExponent_eq {n d : Nat} (hn : n ≠ 0) (hd : d ≠ 0) :
    ulpExponent n d = max (-1074) (Int.log 2 ((n : ℚ) / d) - 52) := by
  have hdpos : (0 : ℚ) < d := by exact_mod_cast Nat.pos_of_ne_zero hd
  have hpos : (0 : ℚ) < (n : ℚ) / d :=
    div_pos (by exact_mod_cast Nat.pos_of_ne_zero hn) hdpos
  obtain ⟨hlow, hhigh⟩ := zpow_bounds hn hd
  simp only [ulpExponent]
  generalize hk : (Nat.log2 n : Int) - Nat.log2 d = k at hlow hhigh ⊢
  have hfits : (if 0 ≤ k then decide (2 ^ k.toNat * d ≤ n) else decide (d ≤ 2 ^ (-k).toNat * n)) =
      decide ((2 : ℚ) ^ k ≤ (n : ℚ) / d) := by
    split
    · next hk0 =>
      obtain ⟨m, rfl⟩ := Int.eq_ofNat_of_zero_le hk0
      rw [decide_eq_decide, Int.toNat_natCast, le_div_iff₀ hdpos, zpow_natCast]
      exact_mod_cast Iff.rfl
    · next hk0 =>
      obtain ⟨m, hm⟩ := Int.eq_ofNat_of_zero_le (a := -k) (by omega)
      obtain rfl : k = -(m : Int) := by omega
      rw [decide_eq_decide, neg_neg, Int.toNat_natCast, le_div_iff₀ hdpos, zpow_neg, zpow_natCast,
        inv_mul_le_iff₀ (by positivity)]
      exact_mod_cast Iff.rfl
  rw [hfits]
  congr 2
  by_cases hle : (2 : ℚ) ^ k ≤ (n : ℚ) / d
  · rw [decide_eq_true hle, if_pos rfl]
    exact ((log_eq_iff hpos).mpr ⟨hle, hhigh⟩).symm
  · rw [decide_eq_false hle, if_neg Bool.false_ne_true]
    refine ((log_eq_iff hpos).mpr ⟨hlow, ?_⟩).symm
    rw [sub_add_cancel]
    exact not_le.mp hle

theorem ulp_eq {x : ℚ} (h : 0 < x) : ulp x = max (-1074) (Int.log 2 x - 52) := by
  have hn : x.num.natAbs ≠ 0 := by
    rw [Int.natAbs_ne_zero]
    exact (Rat.num_pos.mpr h).ne'
  rw [ulp, ulpExponent_eq hn x.den_nz, natAbs_num_div_den h.le]

/-- What a value rounds to is the integer of its last place nearest to it. -/
theorem roundMagnitude_eq (n d : Nat) (hd : 0 < d) :
    ∃ m : Nat, roundMagnitude n d = m * (2 : ℚ) ^ ulpExponent n d ∧
      (∀ j : Nat, j * (2 : ℚ) ^ ulpExponent n d ≤ (n : ℚ) / d → j ≤ m) ∧
        ∀ j : Nat, (n : ℚ) / d ≤ j * (2 : ℚ) ^ ulpExponent n d → m ≤ j := by
  have hdpos : (0 : ℚ) < d := by exact_mod_cast hd
  simp only [roundMagnitude]
  generalize ulpExponent n d = e
  split
  · next he =>
    obtain ⟨k, rfl⟩ := Int.eq_ofNat_of_zero_le he
    rw [Int.toNat_natCast, zpow_natCast]
    have hpow : 0 < d * 2 ^ k := by positivity
    refine ⟨_, rfl, fun j hj => le_divRound hpow ?_, fun j hj => divRound_le hpow ?_⟩
    · rw [le_div_iff₀ hdpos] at hj
      have : j * 2 ^ k * d ≤ n := by exact_mod_cast hj
      calc j * (d * 2 ^ k) = j * 2 ^ k * d := by ring
        _ ≤ n := this
    · rw [div_le_iff₀ hdpos] at hj
      have : n ≤ j * 2 ^ k * d := by exact_mod_cast hj
      calc n ≤ j * 2 ^ k * d := this
        _ = j * (d * 2 ^ k) := by ring
  · next he =>
    obtain ⟨k, hk⟩ := Int.eq_ofNat_of_zero_le (a := -e) (by omega)
    obtain rfl : e = -(k : Int) := by omega
    rw [neg_neg, Int.toNat_natCast, zpow_neg, zpow_natCast]
    have hpow : (0 : ℚ) < 2 ^ k := by positivity
    refine ⟨divRound (n * 2 ^ k) d, ?_, fun j hj => le_divRound hd ?_, fun j hj => divRound_le hd ?_⟩
    · rw [Rat.mkRat_eq_div]
      push_cast
      rw [div_eq_mul_inv]
    · rw [← div_eq_mul_inv, div_le_div_iff₀ hpow hdpos] at hj
      exact_mod_cast hj
    · rw [← div_eq_mul_inv, div_le_div_iff₀ hdpos hpow] at hj
      exact_mod_cast hj

/-! ## Values that are doubles -/

/-- A multiple of its own last place: a value that is a double, if it is in range. -/
def Exact (x : ℚ) : Prop := ∃ m : Nat, x = m * (2 : ℚ) ^ ulp x

theorem rounded_eq {x : ℚ} (h : 0 ≤ x) : ∃ m : Nat, rounded x = m * (2 : ℚ) ^ ulp x ∧
    (∀ j : Nat, j * (2 : ℚ) ^ ulp x ≤ x → j ≤ m) ∧ ∀ j : Nat, x ≤ j * (2 : ℚ) ^ ulp x → m ≤ j := by
  have hspec := roundMagnitude_eq x.num.natAbs x.den x.den_pos
  rw [natAbs_num_div_den h] at hspec
  exact hspec

theorem rounded_nonneg {x : ℚ} (h : 0 ≤ x) : 0 ≤ rounded x := by
  obtain ⟨m, hm, -⟩ := rounded_eq h
  rw [hm]
  exact mul_nonneg (Nat.cast_nonneg m) (zpow_nonneg zero_le_two _)

theorem ulp_mono {x y : ℚ} (hx : 0 < x) (h : x ≤ y) : ulp x ≤ ulp y := by
  rw [ulp_eq hx, ulp_eq (hx.trans_le h)]
  have hlog := Int.log_mono_right (b := 2) hx h
  omega

theorem exact_zero : Exact 0 := ⟨0, by rw [Nat.cast_zero, zero_mul]⟩

/-- Every multiple of a last place as fine as its own is a double. -/
theorem exact_of_mul {x : ℚ} {m : Nat} {e : Int} (h : x = m * (2 : ℚ) ^ e)
    (he : ulp x ≤ e) : Exact x := by
  obtain ⟨k, hk⟩ := Int.eq_ofNat_of_zero_le (a := e - ulp x) (by omega)
  refine ⟨m * 2 ^ k, ?_⟩
  have heq : e = k + ulp x := by omega
  calc x = m * (2 : ℚ) ^ (k + ulp x) := by rw [← heq]; exact h
    _ = (m * 2 ^ k : Nat) * (2 : ℚ) ^ ulp x := by
      rw [zpow_add₀ two_ne_zero, zpow_natCast]
      push_cast
      rw [mul_assoc]

/-- Rounding up to a double does not pass it. -/
theorem rounded_le {x y : ℚ} (hx : 0 ≤ x) (h : x ≤ y) (hy : Exact y) : rounded x ≤ y := by
  rcases hx.eq_or_lt with rfl | hpos
  · exact h
  obtain ⟨m, hm, -, hup⟩ := rounded_eq hx
  obtain ⟨j, hj⟩ := hy
  obtain ⟨k, hk⟩ := Int.eq_ofNat_of_zero_le (a := ulp y - ulp x) (by
    have := ulp_mono hpos h
    omega)
  have hgrid : y = ((j * 2 ^ k : Nat) : ℚ) * 2 ^ ulp x := by
    obtain heq : ulp y = k + ulp x := by omega
    rw [hj, heq, zpow_add₀ two_ne_zero, zpow_natCast]
    push_cast
    rw [mul_assoc]
  have hle : m ≤ j * 2 ^ k := hup _ (hgrid ▸ h)
  rw [hm, hgrid]
  exact mul_le_mul_of_nonneg_right (by exact_mod_cast hle) (zpow_nonneg zero_le_two _)

/-- Rounding down to a double does not pass it. -/
theorem le_rounded {x y : ℚ} (hy : 0 ≤ y) (h : y ≤ x) (hexact : Exact y) : y ≤ rounded x := by
  rcases hy.eq_or_lt with rfl | hy
  · exact rounded_nonneg h
  have hx : 0 < x := hy.trans_le h
  obtain ⟨m, hm, hdown, -⟩ := rounded_eq hx.le
  obtain ⟨j, hj⟩ := hexact
  have hpow : (0 : ℚ) ≤ 2 ^ ulp x := zpow_nonneg zero_le_two _
  rcases (ulp_mono hy h).eq_or_lt with heq | hlt
  · rw [heq] at hj
    rw [hm, hj]
    exact mul_le_mul_of_nonneg_right (by exact_mod_cast hdown j (hj ▸ h)) hpow
  · -- a power of two lies between the two grids
    have hux := ulp_eq hx
    have huy := ulp_eq hy
    have hlead : Int.log 2 x = ulp x + 52 := by omega
    have hbelow : y < (2 : ℚ) ^ (ulp x + 52) := by
      have := (Int.lt_zpow_iff_log_lt Nat.one_lt_two hy (x := ulp x + 52)).mpr (by omega)
      exact_mod_cast this
    have hpower : ((2 ^ 52 : Nat) : ℚ) * 2 ^ ulp x = 2 ^ (ulp x + 52) := by
      rw [add_comm, zpow_add₀ two_ne_zero]
      norm_num
    have hle : (2 : ℚ) ^ (ulp x + 52) ≤ x := by
      have := Int.zpow_log_le_self (R := ℚ) Nat.one_lt_two hx
      rw [hlead] at this
      exact_mod_cast this
    have hm52 : 2 ^ 52 ≤ m := hdown _ (hpower ▸ hle)
    refine hbelow.le.trans ?_
    rw [← hpower, hm]
    exact mul_le_mul_of_nonneg_right (by exact_mod_cast hm52) hpow

/-- What was rounded is a double. -/
theorem exact_rounded {x : ℚ} (hx : 0 ≤ x) : Exact (rounded x) := by
  rcases hx.eq_or_lt with rfl | h
  · exact exact_zero
  rcases (rounded_nonneg hx).eq_or_lt with hzero | hr
  · rw [← hzero]
    exact exact_zero
  obtain ⟨m, hm, -, hup⟩ := rounded_eq h.le
  have hhigh : x < (2 : ℚ) ^ (ulp x + 53) := by
    have hlog := ulp_eq h
    have := (Int.lt_zpow_iff_log_lt Nat.one_lt_two h (x := ulp x + 53)).mpr (by omega)
    exact_mod_cast this
  have hpower : ((2 ^ 53 : Nat) : ℚ) * 2 ^ ulp x = 2 ^ (ulp x + 53) := by
    rw [add_comm, zpow_add₀ two_ne_zero]
    norm_num
  have hm53 : m ≤ 2 ^ 53 := hup _ (hpower ▸ hhigh.le)
  rcases hm53.eq_or_lt with heq | hlt
  · -- the next power of two
    have hval : rounded x = ((2 ^ 52 : Nat) : ℚ) * 2 ^ (ulp x + 1) := by
      rw [hm, heq, zpow_add₀ two_ne_zero]
      norm_num
      ring
    refine exact_of_mul hval ?_
    have hlog : Int.log 2 (rounded x) = ulp x + 53 := by
      rw [hm, heq, hpower]
      exact_mod_cast Int.log_zpow (R := ℚ) Nat.one_lt_two _
    have hulp := ulp_eq h
    rw [ulp_eq hr, hlog]
    omega
  · refine exact_of_mul hm ?_
    have hbelow : rounded x < (2 : ℚ) ^ (ulp x + 53) := by
      rw [hm, ← hpower]
      exact mul_lt_mul_of_pos_right (by exact_mod_cast hlt) (zpow_pos two_pos _)
    have hlog : Int.log 2 (rounded x) < ulp x + 53 :=
      (Int.lt_zpow_iff_log_lt Nat.one_lt_two hr).mp (by exact_mod_cast hbelow)
    have hulp := ulp_eq h
    rw [ulp_eq hr]
    omega

/-- Twice a double is a double. -/
theorem Exact.double {x : ℚ} (hnonneg : 0 ≤ x) (h : Exact x) : Exact (x + x) := by
  rcases hnonneg.eq_or_lt with rfl | hx
  · rw [add_zero]
    exact exact_zero
  obtain ⟨m, hm⟩ := h
  have hval : x + x = m * (2 : ℚ) ^ (ulp x + 1) := by
    rw [zpow_add₀ two_ne_zero, zpow_one, ← mul_assoc, ← hm]
    ring
  have hpos : 0 < x + x := by linarith
  refine exact_of_mul hval ?_
  have hlog : Int.log 2 (x + x) < Int.log 2 x + 2 := by
    have hlt := Int.lt_zpow_succ_log_self (R := ℚ) Nat.one_lt_two x
    have hstep : x + x < (2 : ℚ) ^ (Int.log 2 x + 2) := by
      have hsplit : (2 : ℚ) ^ (Int.log 2 x + 2) = 2 ^ (Int.log 2 x + 1) * 2 := by
        rw [← zpow_add_one₀ two_ne_zero, add_assoc]
        rfl
      have hlt' : x < (2 : ℚ) ^ (Int.log 2 x + 1) := by exact_mod_cast hlt
      rw [hsplit]
      linarith
    exact (Int.lt_zpow_iff_log_lt Nat.one_lt_two hpos).mp (by exact_mod_cast hstep)
  rw [ulp_eq hpos, ulp_eq hx]
  omega

theorem exact_pow (k : Nat) : Exact ((2 : ℚ) ^ k) := by
  have hpos : (0 : ℚ) < 2 ^ k := by positivity
  refine exact_of_mul (m := 1) (e := k) (by rw [Nat.cast_one, one_mul, zpow_natCast]) ?_
  have hlog : Int.log 2 ((2 : ℚ) ^ k) = k := by
    exact_mod_cast Int.log_zpow (R := ℚ) Nat.one_lt_two (k : Int)
  rw [ulp_eq hpos, hlog]
  omega

theorem exact_div_pow {m k : Nat} (hm : m < 2 ^ 53) (hk : k ≤ 1074) :
    Exact ((m : ℚ) / 2 ^ k) := by
  rcases Nat.eq_zero_or_pos m with rfl | hpos
  · rw [Nat.cast_zero, zero_div]
    exact exact_zero
  have hval : (m : ℚ) / 2 ^ k = m * (2 : ℚ) ^ (-(k : Int)) := by
    rw [zpow_neg, zpow_natCast, div_eq_mul_inv]
  have hx : (0 : ℚ) < m / 2 ^ k := by positivity
  refine exact_of_mul hval ?_
  have hlog : Int.log 2 ((m : ℚ) / 2 ^ k) < 53 - k := by
    refine (Int.lt_zpow_iff_log_lt Nat.one_lt_two hx).mp ?_
    rw [hval, sub_eq_add_neg, zpow_add₀ (by norm_num)]
    exact_mod_cast mul_lt_mul_of_pos_right (show (m : ℚ) < (2 : ℚ) ^ (53 : Int) by exact_mod_cast hm)
      (zpow_pos two_pos (-(k : Int)))
  rw [ulp_eq hx]
  omega

/-- Between one half and one, the doubles are the multiples of `2 ^ -53`, and an even one is the
nearest from half a step below it on. -/
theorem even_le_rounded_iff {x : ℚ} (hlow : 1 / 2 ≤ x) (hhigh : x < 1) {k : Nat}
    (heven : k % 2 = 0) (hk : 0 < k) :
    (k : ℚ) / 2 ^ 53 ≤ rounded x ↔ (2 * k - 1 : ℚ) / 2 ^ 54 ≤ x := by
  have hx : 0 < x := lt_of_lt_of_le (by norm_num) hlow
  have hlog : Int.log 2 x = -1 := by
    refine (log_eq_iff hx).mpr ⟨?_, ?_⟩
    · simpa using hlow
    · simpa using hhigh
  have hulp : ulpExponent x.num.natAbs x.den = -53 := by
    have h := ulp_eq hx
    rw [hlog] at h
    exact h
  have hrounded : rounded x = (divRound (x.num.natAbs * 2 ^ 53) x.den : ℚ) / 2 ^ 53 := by
    have hexp : (-(-53 : Int)).toNat = 53 := rfl
    simp only [rounded, roundMagnitude, hulp]
    rw [if_neg (by norm_num), hexp, Rat.mkRat_eq_div, Nat.cast_pow, Nat.cast_ofNat,
      Int.cast_natCast]
  have hden : (0 : ℚ) < x.den := by exact_mod_cast x.den_pos
  have hcast : ((2 * k - 1 : Nat) : ℚ) = 2 * k - 1 := by
    rw [Nat.cast_sub (by omega)]
    push_cast
    rfl
  rw [hrounded, div_le_div_iff_of_pos_right (by positivity), Nat.cast_le,
    even_le_divRound_iff x.den_pos heven, ← hcast, ← Nat.cast_le (α := ℚ)]
  conv_rhs => rw [← natAbs_num_div_den hx.le]
  rw [div_le_div_iff₀ (by positivity) hden]
  push_cast
  constructor <;> intro h <;> linarith

/-! ## The rounding of a value -/

/-- A value that is not beyond the doubles. -/
theorem ofRat_eq {x : ℚ} (h : 0 ≤ x) (hbound : x ≤ 2 ^ 1023) : ofRat x = .finite (rounded x) := by
  have hsmall : rounded x < 2 ^ 1024 :=
    (rounded_le h hbound (exact_pow 1023)).trans_lt (pow_lt_pow_right₀ one_lt_two (by norm_num))
  unfold ofRat
  split
  · next hzero =>
    subst hzero
    rfl
  · rw [if_neg (show ¬ (2 : ℚ) ^ 1024 ≤ roundMagnitude x.num.natAbs x.den from hsmall.not_ge),
      if_neg h.not_gt]
    rfl

theorem ofRat_eq_of_le {x : ℚ} (h : 0 ≤ x) (hbound : x ≤ 2 ^ 200) :
    ofRat x = .finite (rounded x) :=
  ofRat_eq h (hbound.trans (pow_le_pow_right₀ one_le_two (by norm_num)))

end Double

end Py
