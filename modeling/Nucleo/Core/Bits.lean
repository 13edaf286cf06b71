import Mathlib

/-!
# Sliding bit windows

The last positions of a growing sequence as the bits of a number: bit `i` is
the position `i` below the newest. `slide` moves the newest position forward
and forgets what leaves the window, `bitCount` is the population count.

`bitCount_slide` is the balance of a slide: what is kept and what is forgotten
is what was there and the new position. `testBit_slide` says which bits are.
-/
namespace Nucleo.Bits

/-- `int.bit_count`. -/
def bitCount (n : Nat) : Nat := (List.range (n.log2 + 1)).countP n.testBit

/-- The newest position moves by `advance`, never shifting by more than the window. -/
def slide (window bits advance : Nat) : Nat :=
  if window ≤ advance then 1 else ((bits <<< advance) ||| 1) &&& ((1 <<< window) - 1)

variable {n k window bits advance : Nat}

/-! ## Counting -/

theorem countP_range_add (p : Nat → Bool) (a b : Nat) :
    (List.range (a + b)).countP p = (List.range a).countP p + (List.range b).countP fun i => p (a + i) := by
  rw [List.range_add, List.countP_append, List.countP_map]
  rfl

/-- Any width that holds the number will do. -/
theorem bitCount_eq (h : n < 2 ^ k) : bitCount n = (List.range k).countP n.testBit := by
  have htail : ∀ a b, n < 2 ^ a → (List.range (a + b)).countP n.testBit = (List.range a).countP n.testBit := by
    intro a b ha
    rw [countP_range_add]
    refine Nat.add_eq_left.2 (List.countP_eq_zero.2 fun i _ => ?_)
    rw [Nat.testBit_lt_two_pow (Nat.lt_of_lt_of_le ha (Nat.pow_le_pow_right (by omega) (Nat.le_add_right a i)))]
    exact Bool.false_ne_true
  have hlog : n < 2 ^ (n.log2 + 1) := Nat.lt_log2_self
  unfold bitCount
  rcases Nat.le_total k (n.log2 + 1) with hle | hle
  · obtain ⟨d, hd⟩ := Nat.exists_eq_add_of_le hle
    rw [hd]
    exact htail k d h
  · obtain ⟨d, hd⟩ := Nat.exists_eq_add_of_le hle
    rw [hd]
    exact (htail _ d hlog).symm

theorem bitCount_le (h : n < 2 ^ k) : bitCount n ≤ k := by
  rw [bitCount_eq h]
  exact Nat.le_trans List.countP_le_length (Nat.le_of_eq List.length_range)

@[simp] theorem bitCount_zero : bitCount 0 = 0 := by decide

/-- Bits beyond `k` are clear. -/
theorem lt_two_pow_iff : n < 2 ^ k ↔ ∀ i, k ≤ i → n.testBit i = false := by
  constructor
  · intro h i hi
    exact Nat.testBit_lt_two_pow (Nat.lt_of_lt_of_le h (Nat.pow_le_pow_right (by omega) hi))
  · intro h
    exact Nat.lt_pow_two_of_testBit n fun i hi => h i hi

/-- One more element of a range. -/
theorem countP_range_or (p : Nat → Bool) {b : Nat} (hb : p b = false) (k : Nat) :
    (List.range k).countP (fun i => p i || decide (b = i)) =
      (List.range k).countP p + if b < k then 1 else 0 := by
  induction k with
  | zero => simp
  | succ k ih =>
    rw [List.range_succ, List.countP_append, List.countP_append, ih]
    by_cases hk : b = k
    · subst hk
      simp [hb]
    · have hlt : b < k + 1 ↔ b < k := by omega
      simp only [hlt, List.countP_singleton, hk, decide_false, Bool.or_false]
      omega

theorem testBit_set (n b i : Nat) : (n ||| (1 <<< b)).testBit i = (n.testBit i || decide (b = i)) := by
  rw [Nat.testBit_or, Nat.one_shiftLeft, Nat.testBit_two_pow]

/-- A clear bit is set. -/
theorem bitCount_set {b : Nat} (h : n < 2 ^ k) (hb : b < k) (hclear : n.testBit b = false) :
    n ||| (1 <<< b) < 2 ^ k ∧ bitCount (n ||| (1 <<< b)) = bitCount n + 1 := by
  have hlt : n ||| (1 <<< b) < 2 ^ k := by
    rw [lt_two_pow_iff]
    intro i hi
    rw [testBit_set, lt_two_pow_iff.1 h i hi]
    simp only [Bool.false_or, decide_eq_false_iff_not]
    omega
  refine ⟨hlt, ?_⟩
  rw [bitCount_eq hlt, bitCount_eq h]
  have hcount := countP_range_or n.testBit hclear k
  rw [if_pos hb] at hcount
  rw [← hcount]
  exact congrArg (fun p => (List.range k).countP p) (funext fun i => testBit_set n b i)

/-! ## Sliding -/

theorem testBit_slide (ha : 0 < advance) (i : Nat) :
    (slide window bits advance).testBit i = true ↔
      i = 0 ∨ i < window ∧ advance ≤ i ∧ bits.testBit (i - advance) = true := by
  unfold slide
  split
  · rename_i hle
    rw [Nat.testBit_one_eq_true_iff_self_eq_zero]
    constructor
    · exact .inl
    · rintro (hi | ⟨hi, hai, -⟩)
      · exact hi
      · omega
  · rename_i hlt
    rw [Nat.testBit_and, Nat.one_shiftLeft, Nat.testBit_two_pow_sub_one, Nat.testBit_or,
      Nat.testBit_shiftLeft]
    simp only [Bool.and_eq_true, Bool.or_eq_true, decide_eq_true_eq, Nat.testBit_one_eq_true_iff_self_eq_zero]
    constructor
    · rintro ⟨⟨hai, hbit⟩ | hi, hwin⟩
      · exact .inr ⟨hwin, hai, hbit⟩
      · exact .inl hi
    · rintro (hi | ⟨hwin, hai, hbit⟩)
      · exact ⟨.inr hi, by omega⟩
      · exact ⟨.inl ⟨hai, hbit⟩, hwin⟩

theorem slide_lt (hw : 0 < window) (ha : 0 < advance) :
    slide window bits advance < 2 ^ window := by
  rw [lt_two_pow_iff]
  intro i hi
  rw [Bool.eq_false_iff]
  intro hbit
  rcases (testBit_slide ha i).1 hbit with hi0 | ⟨hlt, -⟩
  · omega
  · omega

/-- **The balance of a slide.** -/
theorem bitCount_slide (hw : 0 < window) (ha : 0 < advance) (h : bits < 2 ^ window) :
    bitCount (slide window bits advance) + bitCount (bits >>> (window - advance)) = bitCount bits + 1 := by
  by_cases hle : window ≤ advance
  · have hone : slide window bits advance = 1 := if_pos hle
    have hzero : window - advance = 0 := by omega
    rw [hone, hzero, Nat.shiftRight_zero, Nat.add_comm]
    rfl
  · obtain ⟨r, hr⟩ : ∃ r, window = advance + r := Nat.exists_eq_add_of_le (by omega)
    have hrest : window - advance = r := by omega
    have hkept : bitCount (slide window bits advance) = 1 + (List.range r).countP bits.testBit := by
      rw [bitCount_eq (slide_lt hw ha), hr, countP_range_add]
      have hfirst : (List.range advance).countP (slide (advance + r) bits advance).testBit = 1 := by
        have hcongr : (List.range advance).countP (slide (advance + r) bits advance).testBit =
            (List.range advance).countP (fun i => false || decide (0 = i)) := by
          refine List.countP_congr fun i hi => ?_
          rw [List.mem_range] at hi
          rw [← hr, testBit_slide ha]
          simp only [Bool.false_or, decide_eq_true_eq]
          omega
        rw [hcongr, countP_range_or (fun _ => false) rfl, if_pos ha]
        simp
      rw [hfirst]
      congr 1
      refine List.countP_congr fun i hi => ?_
      rw [List.mem_range] at hi
      rw [← hr, testBit_slide ha, Nat.add_sub_cancel_left]
      constructor
      · rintro (h0 | ⟨-, -, hbit⟩)
        · omega
        · exact hbit
      · exact fun hbit => .inr ⟨by omega, by omega, hbit⟩
    have hforgotten : bitCount (bits >>> r) = (List.range advance).countP fun i => bits.testBit (r + i) := by
      have hlt : bits >>> r < 2 ^ advance := by
        rw [Nat.shiftRight_eq_div_pow]
        refine Nat.div_lt_of_lt_mul ?_
        rw [← Nat.pow_add, Nat.add_comm r, ← hr]
        exact h
      rw [bitCount_eq hlt]
      exact List.countP_congr fun i _ => by rw [Nat.testBit_shiftRight]
    have hall : bitCount bits = (List.range r).countP bits.testBit +
        (List.range advance).countP fun i => bits.testBit (r + i) := by
      rw [bitCount_eq h, hr, Nat.add_comm advance, countP_range_add]
    rw [hrest, hkept, hforgotten, hall]
    omega

end Nucleo.Bits
