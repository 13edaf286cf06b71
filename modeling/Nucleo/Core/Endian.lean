import Mathlib

/-!
# Fixed-width integers as bytes

`toBE w n` is `n` in `w` bytes, most significant first, and `ofBE` reads any
byte list back; `toLE` and `ofLE` are the same in the other order. Writing is
injective below `256 ^ w` (`ofBE_toBE`) and reading is undone by writing at the
length that was read (`toBE_ofBE`).
-/
namespace Nucleo.Endian

/-- `to_be_bytes` at `w` bytes; what does not fit is dropped. -/
def toBE : Nat → Nat → List UInt8
  | 0, _ => []
  | w + 1, n => toBE w (n / 256) ++ [UInt8.ofNat n]

/-- `from_be_bytes`. -/
def ofBE (bs : List UInt8) : Nat := bs.foldl (fun n b => n * 256 + b.toNat) 0

/-- `to_le_bytes`. -/
def toLE (w n : Nat) : List UInt8 := (toBE w n).reverse

/-- `from_le_bytes`. -/
def ofLE (bs : List UInt8) : Nat := ofBE bs.reverse

@[simp] theorem ofBE_nil : ofBE [] = 0 := rfl

@[simp] theorem ofBE_snoc (bs : List UInt8) (b : UInt8) :
    ofBE (bs ++ [b]) = ofBE bs * 256 + b.toNat := by
  simp [ofBE, List.foldl_append]

@[simp] theorem toBE_length (w n : Nat) : (toBE w n).length = w := by
  induction w generalizing n with
  | zero => rfl
  | succ w ih => simp [toBE, ih]

@[simp] theorem toLE_length (w n : Nat) : (toLE w n).length = w := by simp [toLE]

theorem ofBE_lt (bs : List UInt8) : ofBE bs < 256 ^ bs.length := by
  induction bs using List.reverseRecOn with
  | nil => simp
  | append_singleton bs b ih =>
    have hb := b.toNat_lt
    rw [ofBE_snoc, List.length_append, List.length_singleton, pow_succ]
    omega

theorem ofBE_toBE {w n : Nat} (h : n < 256 ^ w) : ofBE (toBE w n) = n := by
  induction w generalizing n with
  | zero => simp at h; simp [toBE, h]
  | succ w ih =>
    have hq : n / 256 < 256 ^ w := by
      rw [pow_succ] at h
      exact Nat.div_lt_of_lt_mul (by omega)
    rw [toBE, ofBE_snoc, ih hq, UInt8.toNat_ofNat']
    omega

theorem toBE_ofBE (bs : List UInt8) : toBE bs.length (ofBE bs) = bs := by
  induction bs using List.reverseRecOn with
  | nil => rfl
  | append_singleton bs b ih =>
    have hb := b.toNat_lt
    have hq : (ofBE bs * 256 + b.toNat) / 256 = ofBE bs := by omega
    have hr : UInt8.ofNat (ofBE bs * 256 + b.toNat) = b := by
      apply UInt8.toNat_inj.mp
      rw [UInt8.toNat_ofNat']
      omega
    rw [List.length_append, List.length_singleton, ofBE_snoc, toBE, hq, ih, hr]

theorem ofLE_toLE {w n : Nat} (h : n < 256 ^ w) : ofLE (toLE w n) = n := by
  rw [ofLE, toLE, List.reverse_reverse, ofBE_toBE h]

end Nucleo.Endian
