import Mathlib

/-!
# Decimal text

`text n` is the decimal rendering of a number as ASCII bytes, `value?` the
reading of a digit string. The digits are those of `Nat.toDigits`; what is
added is their bytes.

Results: `value?_text` (reading back), `text_value` (writing again what has no
leading zero), `text_isDigit`, `text_ne_nil`, `text_length_le`.
-/
namespace Nucleo.Decimal

def isDigit (b : UInt8) : Bool := 48 ≤ b && b ≤ 57

def text (n : Nat) : List UInt8 := (Nat.toDigits 10 n).map fun c => UInt8.ofNat c.toNat

def value (bs : List UInt8) : Nat := bs.foldl (fun n b => 10 * n + (b.toNat - 48)) 0

/-- The value of a nonempty string of digits. -/
def value? (bs : List UInt8) : Option Nat :=
  if bs ≠ [] ∧ bs.all isDigit = true then some (value bs) else none

theorem toNat_digit {c : Char} (h : c.isDigit) :
    (UInt8.ofNat c.toNat).toNat = c.toNat ∧ 48 ≤ c.toNat ∧ c.toNat ≤ 57 := by
  obtain ⟨h1, h2⟩ := Char.isDigit_iff_toNat.1 h
  have h1 : 48 ≤ c.toNat := h1
  have h2 : c.toNat ≤ 57 := h2
  exact ⟨by simp; omega, h1, h2⟩

theorem text_ne_nil (n : Nat) : text n ≠ [] := by
  simp [text, Nat.toDigits_ne_nil]

theorem text_length_le {n k : Nat} (hk : 0 < k) (h : n < 10 ^ k) : (text n).length ≤ k := by
  rw [text, List.length_map]
  exact (Nat.length_toDigits_le_iff (by decide) hk).2 h

theorem text_isDigit {n : Nat} {b : UInt8} (hb : b ∈ text n) : isDigit b = true := by
  obtain ⟨c, hc, rfl⟩ := List.mem_map.1 hb
  obtain ⟨h1, h2, h3⟩ := toNat_digit (Nat.isDigit_of_mem_toDigits (by decide) (by decide) hc)
  simp only [isDigit, Bool.and_eq_true, decide_eq_true_eq, UInt8.le_iff_toNat_le, h1]
  exact ⟨h2, h3⟩

theorem value_text (n : Nat) : value (text n) = n := by
  have key : ∀ (cs : List Char) (acc : Nat), (∀ c ∈ cs, c.isDigit) →
      (cs.map fun c => UInt8.ofNat c.toNat).foldl (fun n b => 10 * n + (b.toNat - 48)) acc =
        Nat.ofDigitChars 10 cs acc := by
    intro cs
    induction cs with
    | nil => intro acc _; rfl
    | cons c cs ih =>
      intro acc hc
      obtain ⟨h1, -⟩ := toNat_digit (hc c List.mem_cons_self)
      rw [List.map_cons, List.foldl_cons, h1, ih _ fun c' h => hc c' (List.mem_cons_of_mem _ h),
        Nat.ofDigitChars_cons]
      rfl
  rw [value, text, key _ 0 fun c hc => Nat.isDigit_of_mem_toDigits (by decide) (by decide) hc]
  exact Nat.ofDigitChars_ten_toDigits

@[simp] theorem value?_text (n : Nat) : value? (text n) = some n := by
  have hall : (text n).all isDigit = true := List.all_eq_true.2 fun _ hb => text_isDigit hb
  rw [value?, if_pos ⟨text_ne_nil n, hall⟩, value_text]

/-- The last digit apart. -/
theorem text_eq (n : Nat) :
    text n = if n < 10 then [UInt8.ofNat (48 + n)] else text (n / 10) ++ [UInt8.ofNat (48 + n % 10)] := by
  have hdigit : ∀ k, k < 10 → UInt8.ofNat k.digitChar.toNat = UInt8.ofNat (48 + k) := by decide
  unfold text
  rw [Nat.toDigits_eq_if (by decide)]
  split
  · rename_i h
    rw [List.map_singleton, hdigit n h]
  · rw [List.map_append, List.map_singleton, hdigit _ (Nat.mod_lt _ (by decide))]

theorem value_snoc (bs : List UInt8) (b : UInt8) : value (bs ++ [b]) = 10 * value bs + (b.toNat - 48) := by
  rw [value, List.foldl_append]
  rfl

/-- A number but zero is written without a leading zero. -/
theorem text_head {n : Nat} (h : 0 < n) : (text n).head? ≠ some 48 := by
  induction n using Nat.strongRecOn with
  | ind n ih =>
    rw [text_eq]
    split
    · rename_i hlt
      have hne : ∀ k < 10, 0 < k → UInt8.ofNat (48 + k) ≠ 48 := by decide
      intro he
      exact hne n hlt h (Option.some.inj he)
    · rename_i hge
      have hne := text_ne_nil (n / 10)
      rw [List.head?_append_of_ne_nil _ hne]
      exact ih _ (by omega) (by omega)

/-- Digits without a leading zero are those of their value. -/
theorem text_value {bs : List UInt8} (hne : bs ≠ []) (hd : ∀ b ∈ bs, isDigit b = true)
    (hz : bs.head? = some 48 → bs = [48]) : text (value bs) = bs := by
  induction bs using List.reverseRecOn with
  | nil => exact absurd rfl hne
  | append_singleton bs b ih =>
    have hb := hd b (by simp)
    simp only [isDigit, Bool.and_eq_true, decide_eq_true_eq, UInt8.le_iff_toNat_le] at hb
    have h1 : 48 ≤ b.toNat := hb.1
    have h2 : b.toNat ≤ 57 := hb.2
    have hback : UInt8.ofNat (48 + (b.toNat - 48)) = b := by
      rw [show 48 + (b.toNat - 48) = b.toNat by omega, UInt8.ofNat_toNat]
    rw [value_snoc, text_eq]
    cases bs with
    | nil =>
      rw [if_pos (by simp only [value, List.foldl_nil]; omega)]
      simp only [value, List.foldl_nil, Nat.mul_zero, Nat.zero_add, hback]
      rfl
    | cons c bs =>
      have hhead : c ≠ 48 := by
        rintro rfl
        have := congrArg List.length (hz rfl)
        simp at this
      have hv := ih (by simp) (fun b hb => hd b (List.mem_append_left _ hb)) (fun h => absurd (Option.some.inj h) hhead)
      have hpos : 0 < value (c :: bs) := by
        rcases Nat.eq_zero_or_pos (value (c :: bs)) with h0 | hpos
        · rw [h0] at hv
          have : (text 0).head? = some c := by rw [hv]; rfl
          exact absurd (Option.some.inj this).symm hhead
        · exact hpos
      rw [if_neg (by omega), show (10 * value (c :: bs) + (b.toNat - 48)) / 10 = value (c :: bs) by omega,
        show (10 * value (c :: bs) + (b.toNat - 48)) % 10 = b.toNat - 48 by omega, hv, hback]

example : text 1016 = [49, 48, 49, 54] := by decide

end Nucleo.Decimal
