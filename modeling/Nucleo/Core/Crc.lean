import Mathlib

/-!
# Cyclic redundancy registers

A reflected CRC register of `w` bits, one data bit at a time: the bit is added
to the low end, and the register shifts towards it, taking in the polynomial
when a one falls out. Both operations are linear in exclusive or, so two data
streams of the same length leave the same register if and only if their
difference, fed to the zero register, leaves zero.

What a difference cannot do, for a polynomial with its top bit set:
* `feed_burst`: leave zero when its ones lie within `w` consecutive bits.
* `feed_odd`: leave zero with an odd number of ones, if the polynomial has odd
  weight too.
* `feed_two`: leave zero with two ones, if the register does not return to its
  value one within the length of the stream (`avoids`, which evaluates).
-/
namespace Nucleo.Crc

variable {w : Nat}

/-! ## One shift -/

def step (poly v : BitVec w) : BitVec w :=
  if v.getLsbD 0 then (v >>> 1) ^^^ poly else v >>> 1

theorem getLsbD_step (poly v : BitVec w) (i : Nat) :
    (step poly v).getLsbD i = (v.getLsbD (i + 1) ^^ (v.getLsbD 0 && poly.getLsbD i)) := by
  unfold step
  split
  · rename_i h
    rw [BitVec.getLsbD_xor, BitVec.getLsbD_ushiftRight, h, Bool.true_and, Nat.add_comm]
  · rename_i h
    rw [BitVec.getLsbD_ushiftRight, Bool.eq_false_iff.2 h, Bool.false_and, Bool.xor_false, Nat.add_comm]

theorem step_xor (poly u v : BitVec w) : step poly (u ^^^ v) = step poly u ^^^ step poly v := by
  refine BitVec.eq_of_getLsbD_eq fun i _ => ?_
  simp only [getLsbD_step, BitVec.getLsbD_xor]
  cases u.getLsbD (i + 1) <;> cases v.getLsbD (i + 1) <;> cases u.getLsbD 0 <;> cases v.getLsbD 0 <;>
    cases poly.getLsbD i <;> rfl

@[simp] theorem step_zero (poly : BitVec w) : step poly 0#w = 0#w := by
  refine BitVec.eq_of_getLsbD_eq fun i _ => ?_
  simp [getLsbD_step]

/-- With its top bit set, the polynomial makes a shift injective. -/
theorem step_eq_zero {poly v : BitVec w} (hp : poly.getLsbD (w - 1) = true) (h : step poly v = 0#w) :
    v = 0#w := by
  have hbit : ∀ i, (v.getLsbD (i + 1) ^^ (v.getLsbD 0 && poly.getLsbD i)) = false := fun i => by
    rw [← getLsbD_step, h, BitVec.getLsbD_zero]
  have h0 : v.getLsbD 0 = false := by
    have := hbit (w - 1)
    rw [BitVec.getLsbD_of_ge v (w - 1 + 1) (by omega), hp, Bool.and_true, Bool.false_xor] at this
    exact this
  refine BitVec.eq_of_getLsbD_eq fun i _ => ?_
  rw [BitVec.getLsbD_zero]
  cases i with
  | zero => exact h0
  | succ i =>
    have := hbit i
    rw [h0, Bool.false_and, Bool.xor_false] at this
    exact this

/-- A shift undoes a left shift that lost nothing. -/
theorem step_shiftLeft (poly v : BitVec w) (h : v.getLsbD (w - 1) = false) : step poly (v <<< 1) = v := by
  refine BitVec.eq_of_getLsbD_eq fun i hi => ?_
  rw [getLsbD_step]
  simp only [BitVec.getLsbD_shiftLeft]
  by_cases hw : i + 1 < w
  · simp [hw]
  · have : i = w - 1 := by omega
    subst this
    simp [h, hw]

/-! ## Many shifts -/

def steps (poly : BitVec w) : Nat → BitVec w → BitVec w
  | 0, v => v
  | n + 1, v => steps poly n (step poly v)

theorem steps_eq_zero {poly : BitVec w} (hp : poly.getLsbD (w - 1) = true) {n : Nat} {v : BitVec w}
    (h : steps poly n v = 0#w) : v = 0#w := by
  induction n generalizing v with
  | zero => exact h
  | succ n ih => exact step_eq_zero hp (ih h)

/-- The first `n` registers from `v` on are not `target`. -/
def avoids (poly target : BitVec w) : Nat → BitVec w → Bool
  | 0, _ => true
  | n + 1, v => v != target && avoids poly target n (step poly v)

theorem avoids_steps {poly target : BitVec w} {n : Nat} {v : BitVec w}
    (h : avoids poly target n v = true) {k : Nat} (hk : k < n) : steps poly k v ≠ target := by
  induction n generalizing v k with
  | zero => omega
  | succ n ih =>
    simp only [avoids, Bool.and_eq_true, bne_iff_ne] at h
    cases k with
    | zero => exact h.1
    | succ k => exact ih h.2 (by omega)

/-! ## Parity -/

def parityTo (v : BitVec w) : Nat → Bool
  | 0 => false
  | n + 1 => parityTo v n ^^ v.getLsbD n

/-- Whether the number of ones is odd. -/
def parity (v : BitVec w) : Bool := parityTo v w

theorem parityTo_xor (u v : BitVec w) (n : Nat) :
    parityTo (u ^^^ v) n = (parityTo u n ^^ parityTo v n) := by
  induction n with
  | zero => rfl
  | succ n ih =>
    simp only [parityTo, ih, BitVec.getLsbD_xor]
    cases parityTo u n <;> cases parityTo v n <;> cases u.getLsbD n <;> cases v.getLsbD n <;> rfl

theorem parityTo_step (poly v : BitVec w) (n : Nat) : parityTo (step poly v) n =
    (parityTo v (n + 1) ^^ v.getLsbD 0 ^^ (v.getLsbD 0 && parityTo poly n)) := by
  induction n with
  | zero => simp [parityTo]
  | succ n ih =>
    rw [parityTo, ih, getLsbD_step]
    simp only [parityTo]
    cases parityTo v n <;> cases v.getLsbD n <;> cases v.getLsbD (n + 1) <;> cases v.getLsbD 0 <;>
      cases parityTo poly n <;> cases poly.getLsbD n <;> rfl

/-- A polynomial of odd weight keeps the parity of the register. -/
theorem parity_step {poly : BitVec w} (hp : parity poly = true) (v : BitVec w) :
    parity (step poly v) = parity v := by
  have htop : v.getLsbD w = false := BitVec.getLsbD_of_ge v w (Nat.le_refl w)
  unfold parity at hp ⊢
  rw [parityTo_step, hp, parityTo, htop]
  cases parityTo v w <;> cases v.getLsbD 0 <;> rfl

/-! ## Data -/

def bit (b : Bool) : BitVec w := if b then 1#w else 0#w

/-- The register after the bits of a stream, first bit first. -/
def feed (poly : BitVec w) : BitVec w → List Bool → BitVec w
  | v, [] => v
  | v, b :: bs => feed poly (step poly (v ^^^ bit b)) bs

theorem getLsbD_bit (b : Bool) (i : Nat) : (bit b : BitVec w).getLsbD i = (b && decide (i = 0 ∧ 0 < w)) := by
  cases b with
  | false => simp [bit]
  | true =>
    rw [bit, if_pos rfl, Bool.true_and, BitVec.getLsbD_one]
    cases i <;> simp

@[simp] theorem bit_false : (bit false : BitVec w) = 0#w := rfl

theorem bit_xor (a b : Bool) : (bit (a ^^ b) : BitVec w) = bit a ^^^ bit b := by
  cases a <;> cases b <;> simp [bit]

theorem parityTo_bit (b : Bool) (hw : 0 < w) (n : Nat) :
    parityTo (bit b : BitVec w) (n + 1) = b := by
  induction n with
  | zero => rw [parityTo, parityTo, getLsbD_bit]; simp [hw]
  | succ n ih => rw [parityTo, ih, getLsbD_bit]; simp

theorem parity_bit (b : Bool) (hw : 0 < w) : parity (bit b : BitVec w) = b := by
  obtain ⟨n, rfl⟩ := Nat.exists_eq_succ_of_ne_zero (Nat.ne_of_gt hw)
  exact parityTo_bit b hw n

theorem feed_append (poly v : BitVec w) (a b : List Bool) :
    feed poly v (a ++ b) = feed poly (feed poly v a) b := by
  induction a generalizing v with
  | nil => rfl
  | cons x a ih => exact ih _

/-- The difference of two runs is the run of the difference. -/
theorem feed_xor (poly : BitVec w) {a b : List Bool} (h : a.length = b.length) (u v : BitVec w) :
    feed poly (u ^^^ v) (List.zipWith xor a b) = feed poly u a ^^^ feed poly v b := by
  induction a generalizing b u v with
  | nil => cases b with
    | nil => rfl
    | cons => cases h
  | cons x a ih => cases b with
    | nil => cases h
    | cons y b =>
      have hstep : step poly (u ^^^ v ^^^ bit (x ^^ y)) =
          step poly (u ^^^ bit x) ^^^ step poly (v ^^^ bit y) := by
        rw [← step_xor, bit_xor]
        congr 1
        ac_rfl
      simp only [List.zipWith_cons_cons, feed]
      rw [hstep, ih (Nat.succ.inj h)]

/-- Streams with a difference that does not leave zero leave different registers. -/
theorem feed_ne {poly : BitVec w} {a b : List Bool} (h : a.length = b.length) (v : BitVec w)
    (hd : feed poly 0#w (List.zipWith xor a b) ≠ 0#w) : feed poly v a ≠ feed poly v b := by
  intro he
  have := feed_xor poly h v v
  rw [he, BitVec.xor_self, BitVec.xor_self] at this
  exact hd this

theorem feed_zeros (poly v : BitVec w) {bs : List Bool} (h : bs.count true = 0) :
    feed poly v bs = steps poly bs.length v := by
  induction bs generalizing v with
  | nil => rfl
  | cons b bs ih => cases b with
    | true => rw [List.count_cons_self] at h; omega
    | false =>
      rw [feed, bit_false, BitVec.xor_zero]
      exact ih _ (by simpa using h)

/-! ## Streams that fit the register -/

/-- The bits of a stream as a register, first bit lowest. -/
def ofBits : List Bool → BitVec w
  | [] => 0#w
  | b :: bs => bit b ^^^ (ofBits bs <<< 1)

theorem getLsbD_ofBits (bs : List Bool) (i : Nat) :
    (ofBits bs : BitVec w).getLsbD i = (decide (i < w) && bs.getD i false) := by
  induction bs generalizing i with
  | nil => simp [ofBits]
  | cons b bs ih =>
    rw [ofBits, BitVec.getLsbD_xor, getLsbD_bit, BitVec.getLsbD_shiftLeft]
    cases i with
    | zero => cases b <;> simp
    | succ i =>
      rw [Nat.add_sub_cancel, ih, List.getD_cons_succ]
      by_cases hi : i + 1 < w
      · simp [hi, Nat.lt_of_succ_lt hi]
      · simp [hi]

/-- Bit by bit is the same as all bits at once. -/
theorem feed_ofBits (poly v : BitVec w) {bs : List Bool} (h : bs.length ≤ w) :
    feed poly v bs = steps poly bs.length (v ^^^ ofBits bs) := by
  induction bs generalizing v with
  | nil => simp [feed, steps, ofBits]
  | cons b bs ih =>
    have htop : (ofBits bs : BitVec w).getLsbD (w - 1) = false := by
      simp only [List.length_cons] at h
      rw [getLsbD_ofBits, List.getD_eq_getElem?_getD,
        List.getElem?_eq_none (by omega), Option.getD_none, Bool.and_false]
    rw [feed, ih _ (by simp only [List.length_cons] at h; omega), List.length_cons, steps, ofBits,
      ← BitVec.xor_assoc, step_xor poly (v ^^^ bit b), step_shiftLeft _ _ htop]

theorem ofBits_ne_zero {bs : List Bool} (h : bs.length ≤ w) (ht : true ∈ bs) :
    (ofBits bs : BitVec w) ≠ 0#w := by
  intro h0
  obtain ⟨i, hi, he⟩ := List.getElem_of_mem ht
  have := getLsbD_ofBits (w := w) bs i
  rw [h0, BitVec.getLsbD_zero, List.getD_eq_getElem?_getD, List.getElem?_eq_getElem hi, he,
    decide_eq_true (by omega)] at this
  cases this

/-! ## Differences that are seen -/

/-- **Bursts.** -/
theorem feed_burst {poly : BitVec w} (hp : poly.getLsbD (w - 1) = true) {e : List Bool} (ht : true ∈ e)
    (hb : ∀ i j, e[i]? = some true → e[j]? = some true → j < i + w) : feed poly 0#w e ≠ 0#w := by
  induction e with
  | nil => cases ht
  | cons b e ih => cases b with
    | false =>
      rw [feed, bit_false, BitVec.xor_zero, step_zero]
      refine ih (by simpa using ht) fun i j hi hj => ?_
      have := hb (i + 1) (j + 1) (by simpa using hi) (by simpa using hj)
      omega
    | true =>
      -- the first one: all others are within the register's width of it
      have hfit : ∀ j, (true :: e)[j]? = some true → j < w := fun j hj => by
        have := hb 0 j rfl hj; omega
      have htake : true ∈ (true :: e).take w := by
        have := hfit 0 rfl
        exact List.mem_of_getElem? (i := 0) (by rw [List.getElem?_take_of_lt this]; rfl)
      have hdrop : ((true :: e).drop w).count true = 0 := by
        refine List.count_eq_zero.2 fun hmem => ?_
        obtain ⟨k, hk⟩ := List.getElem?_of_mem hmem
        rw [List.getElem?_drop] at hk
        have := hfit _ hk
        omega
      have hlen : ((true :: e).take w).length ≤ w := List.length_take_le _ _
      rw [← List.take_append_drop w (true :: e), feed_append, feed_zeros _ _ hdrop, feed_ofBits _ _ hlen,
        BitVec.zero_xor]
      exact fun h0 => ofBits_ne_zero hlen htake (steps_eq_zero hp (steps_eq_zero hp h0))

theorem parity_feed {poly : BitVec w} (hp : parity poly = true) (hw : 0 < w) (v : BitVec w)
    (e : List Bool) : parity (feed poly v e) = (parity v ^^ decide (e.count true % 2 = 1)) := by
  induction e generalizing v with
  | nil => simp [feed]
  | cons b e ih =>
    have hone : parity (v ^^^ bit b) = (parity v ^^ b) := by
      rw [parity, parityTo_xor]
      exact congrArg _ (parity_bit b hw)
    rw [feed, ih, parity_step hp, hone, Bool.xor_assoc]
    congr 1
    cases b with
    | false => simp
    | true =>
      have hflip : decide ((e.count true + 1) % 2 = 1) = !decide (e.count true % 2 = 1) := by
        rw [Bool.eq_iff_iff]; simp; omega
      rw [List.count_cons_self, hflip, Bool.true_xor]

/-- **Odd weights.** -/
theorem feed_odd {poly : BitVec w} (hp : parity poly = true) (hw : 0 < w) {e : List Bool}
    (he : e.count true % 2 = 1) : feed poly 0#w e ≠ 0#w := by
  intro h0
  have h := parity_feed hp hw 0#w e
  have hz : parity 0#w = false := parity_bit false hw
  rw [h0, hz, decide_eq_true he] at h
  cases h

/-- One more one in the stream brings the register to zero only from the value one. -/
theorem feed_one {poly : BitVec w} (hp : poly.getLsbD (w - 1) = true) {v : BitVec w} {e : List Bool}
    (he : e.count true = 1) (h0 : feed poly v e = 0#w) : ∃ k, k < e.length ∧ steps poly k v = bit true := by
  induction e generalizing v with
  | nil => cases he
  | cons b e ih => cases b with
    | false =>
      rw [feed, bit_false, BitVec.xor_zero] at h0
      obtain ⟨k, hk, hs⟩ := ih (by simpa using he) h0
      exact ⟨k + 1, Nat.succ_lt_succ hk, hs⟩
    | true =>
      have hrest : e.count true = 0 := by rw [List.count_cons_self] at he; omega
      rw [feed, feed_zeros _ _ hrest] at h0
      have hx := step_eq_zero hp (steps_eq_zero hp h0)
      refine ⟨0, Nat.zero_lt_succ _, ?_⟩
      exact BitVec.xor_eq_zero_iff.1 hx

/-- **Two ones.** -/
theorem feed_two {poly : BitVec w} (hp : poly.getLsbD (w - 1) = true) {n : Nat}
    (hn : avoids poly (bit true) n (step poly (bit true)) = true) {e : List Bool} (hl : e.length ≤ n)
    (he : e.count true = 2) : feed poly 0#w e ≠ 0#w := by
  intro h0
  induction e with
  | nil => cases he
  | cons b e ih => cases b with
    | false =>
      rw [feed, bit_false, BitVec.xor_zero, step_zero] at h0
      exact ih (by simp only [List.length_cons] at hl; omega) (by simpa using he) h0
    | true =>
      rw [feed, BitVec.zero_xor] at h0
      obtain ⟨k, hk, hs⟩ := feed_one hp (by rw [List.count_cons_self] at he; omega) h0
      simp only [List.length_cons] at hl
      exact avoids_steps hn (by omega) hs

end Nucleo.Crc
