import Mathlib

/-!
# Nonnegative binary64 arithmetic

The values of a nonnegative IEEE-754 binary64: a rational, the infinity, or no
number. An operation rounds its exact result to the nearest multiple of the
quantum of its binade, a tie to the even one, with gradual underflow below and
the infinity from `2 ^ 1024` on.

Results:
* `nearest_mono`, `lt_of_le`: rounding keeps the order, so a converted integer
  that is below a bound stays below it when it goes down.
* `nearest_grid`, `ofNat_grid`: a multiple of its quantum is not rounded.
-/
namespace Nucleo

inductive Binary64
  | finite (value : ℚ)
  | infinity
  | nan
  deriving DecidableEq, Repr

namespace Binary64

/-! ## Rounding -/

/-- The nearest integer, of two the even one. -/
def roundEven (x : ℚ) : ℤ :=
  if x - ⌊x⌋ < 1 / 2 then ⌊x⌋
  else if 1 / 2 < x - ⌊x⌋ then ⌊x⌋ + 1
  else if ⌊x⌋ % 2 = 0 then ⌊x⌋ else ⌊x⌋ + 1

/-- The exponent of the quantum: 53 significant bits, and nothing below `2 ^ -1074`. -/
def quantum (q : ℚ) : ℤ := max (Int.log 2 q - 52) (-1074)

def nearest (q : ℚ) : ℚ := roundEven (q / 2 ^ quantum q) * 2 ^ quantum q

def round (q : ℚ) : Binary64 := if nearest q < 2 ^ 1024 then .finite (nearest q) else .infinity

/-- `n as f64`. -/
def ofNat (n : ℕ) : Binary64 := round n

/-! ## Operations -/

def add : Binary64 → Binary64 → Binary64
  | .finite a, .finite b => round (a + b)
  | .nan, _ | _, .nan => .nan
  | _, _ => .infinity

def mul : Binary64 → Binary64 → Binary64
  | .finite a, .finite b => round (a * b)
  | .nan, _ | _, .nan => .nan
  | .finite a, .infinity | .infinity, .finite a => if a = 0 then .nan else .infinity
  | .infinity, .infinity => .infinity

def div : Binary64 → Binary64 → Binary64
  | .finite a, .finite b => if b = 0 then (if a = 0 then .nan else .infinity) else round (a / b)
  | .finite _, .infinity => .finite 0
  | .infinity, .finite _ => .infinity
  | _, _ => .nan

/-- `a < b`, false of no number. -/
def lt : Binary64 → Binary64 → Bool
  | .finite a, .finite b => a < b
  | .finite _, .infinity => true
  | _, _ => false

/-! ## The order -/

theorem roundEven_bounds (x : ℚ) : ⌊x⌋ ≤ roundEven x ∧ roundEven x ≤ ⌊x⌋ + 1 := by
  unfold roundEven
  split_ifs <;> omega

theorem roundEven_mono {x y : ℚ} (h : x ≤ y) : roundEven x ≤ roundEven y := by
  have hx := roundEven_bounds x
  have hy := roundEven_bounds y
  rcases Int.lt_or_eq_of_le (Int.floor_le_floor h) with hlt | heq
  · omega
  · -- of two numbers between the same integers the greater one is rounded no less
    unfold roundEven
    rw [heq]
    split_ifs <;> first | omega | (exfalso; linarith)

theorem roundEven_intCast (n : ℤ) : roundEven n = n := by
  simp [roundEven]

/-- A bound that is a multiple of the quantum stays a bound. -/
theorem nearest_le_grid {q : ℚ} {n : ℤ} (h : q ≤ n * 2 ^ quantum q) : nearest q ≤ n * 2 ^ quantum q := by
  have hpos : (0 : ℚ) < 2 ^ quantum q := by positivity
  have hround : roundEven (q / 2 ^ quantum q) ≤ n := by
    rw [← roundEven_intCast n]
    exact roundEven_mono ((div_le_iff₀ hpos).2 h)
  unfold nearest
  gcongr

theorem grid_le_nearest {q : ℚ} {n : ℤ} (h : n * 2 ^ quantum q ≤ q) : n * 2 ^ quantum q ≤ nearest q := by
  have hpos : (0 : ℚ) < 2 ^ quantum q := by positivity
  have hround : n ≤ roundEven (q / 2 ^ quantum q) := by
    rw [← roundEven_intCast n]
    exact roundEven_mono ((le_div_iff₀ hpos).2 h)
  unfold nearest
  gcongr

/-- **What is a multiple of its quantum is not rounded.** -/
theorem nearest_grid {q : ℚ} {n : ℤ} (h : q = n * 2 ^ quantum q) : nearest q = q := by
  have hle := nearest_le_grid (Eq.le h)
  have hge := grid_le_nearest (Eq.ge h)
  rw [← h] at hle hge
  exact le_antisymm hle hge

theorem nearest_nonneg {q : ℚ} (h : 0 ≤ q) : 0 ≤ nearest q := by
  have := @grid_le_nearest q 0 (by simpa using h)
  simpa using this

/-- The powers of two from the quantum on are multiples of it. -/
theorem zpow_grid {e m : ℤ} (h : e ≤ m) : (2 : ℚ) ^ m = ((2 ^ (m - e).toNat : ℤ) : ℚ) * 2 ^ e := by
  have hsplit : m = ((m - e).toNat : ℤ) + e := by omega
  push_cast
  rw [← zpow_natCast, ← zpow_add₀ (by norm_num), ← hsplit]

/-- **Rounding keeps the order.** -/
theorem nearest_mono {a b : ℚ} (ha : 0 ≤ a) (h : a ≤ b) : nearest a ≤ nearest b := by
  rcases ha.eq_or_lt with rfl | hpos
  · have hzero : nearest 0 = 0 := by simp [nearest, roundEven]
    rw [hzero]
    exact nearest_nonneg h
  have hlog : Int.log 2 a ≤ Int.log 2 b := Int.log_mono_right hpos h
  have hquantum : quantum a ≤ quantum b := by
    unfold quantum
    omega
  rcases hquantum.eq_or_lt with heq | hlt
  · unfold nearest
    rw [heq]
    gcongr
    exact_mod_cast roundEven_mono (by gcongr)
  · -- between the two lies the power of two that the binade of `b` begins with
    have hexp : quantum b = Int.log 2 b - 52 := by
      unfold quantum at hlt ⊢
      omega
    have hbelow : a ≤ 2 ^ Int.log 2 b := by
      have hself := Int.lt_zpow_succ_log_self (b := 2) (by norm_num) a
      have hstep : (2 : ℚ) ^ (Int.log 2 a + 1) ≤ 2 ^ Int.log 2 b := by
        refine zpow_le_zpow_right₀ (by norm_num) ?_
        unfold quantum at hlt
        omega
      exact le_trans (le_of_lt (by exact_mod_cast hself)) hstep
    have habove : (2 : ℚ) ^ Int.log 2 b ≤ b := by
      exact_mod_cast Int.zpow_log_le_self (b := 2) (by norm_num) (lt_of_lt_of_le hpos h)
    have hgrid_a := zpow_grid (show quantum a ≤ Int.log 2 b by omega)
    have hgrid_b := zpow_grid (show quantum b ≤ Int.log 2 b by omega)
    calc nearest a ≤ 2 ^ Int.log 2 b := by
          rw [hgrid_a]
          exact nearest_le_grid (by rwa [← hgrid_a])
      _ ≤ nearest b := by
          rw [hgrid_b]
          exact grid_le_nearest (by rwa [← hgrid_b])

/-- A smaller number is still below what the greater one is below. -/
theorem lt_of_le {m n : ℕ} (h : m ≤ n) {bound : Binary64} (hn : (ofNat n).lt bound = true) :
    (ofNat m).lt bound = true := by
  have hmono : nearest m ≤ nearest n := nearest_mono (Nat.cast_nonneg m) (by exact_mod_cast h)
  unfold ofNat round at hn ⊢
  split at hn
  · rename_i hsmall
    rw [if_pos (lt_of_le_of_lt hmono hsmall)]
    cases bound with
    | finite value =>
      simp only [lt, decide_eq_true_eq] at hn ⊢
      exact lt_of_le_of_lt hmono hn
    | infinity => rfl
    | nan => cases hn
  · cases hn

/-- **Integers of 53 bits and zeros behind them are converted as they are.** -/
theorem ofNat_grid {m e : ℕ} (hlow : 2 ^ 52 ≤ m) (hhigh : m < 2 ^ 53) (he : e < 971) :
    ofNat (m * 2 ^ e) = .finite (m * 2 ^ e : ℕ) := by
  have hlog : Nat.log 2 (m * 2 ^ e) = 52 + e := by
    refine Nat.log_eq_of_pow_le_of_lt_pow ?_ ?_
    · rw [pow_add]
      gcongr
    · rw [show 52 + e + 1 = 53 + e by ring, pow_add]
      gcongr
  have hquantum : quantum (m * 2 ^ e : ℕ) = e := by
    unfold quantum
    rw [Int.log_natCast, hlog]
    omega
  have hnearest : nearest (m * 2 ^ e : ℕ) = (m * 2 ^ e : ℕ) := by
    refine nearest_grid (n := m) ?_
    rw [hquantum]
    push_cast
    rw [zpow_natCast]
  have hfinite : ((m * 2 ^ e : ℕ) : ℚ) < 2 ^ 1024 := by
    have hm : (m : ℚ) < 2 ^ 53 := by exact_mod_cast hhigh
    have hpow : (2 : ℚ) ^ e < 2 ^ 971 := pow_lt_pow_right₀ (by norm_num) he
    rw [show 1024 = 53 + 971 from rfl, pow_add]
    push_cast
    exact mul_lt_mul'' hm hpow (Nat.cast_nonneg m) (by positivity)
  unfold ofNat round
  rw [hnearest, if_pos hfinite]

end Binary64

end Nucleo
