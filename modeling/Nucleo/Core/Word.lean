import Mathlib

/-!
# Saturating machine words

`u32` values are `UInt32`; `u64` clock readings and sums are naturals with the
saturation written out. `satAdd32` and `satAdd64` are `saturating_add` at the
two widths, `ofNat32` is the truncation `as u32`.
-/
namespace Nucleo

def u32Max : Nat := 2 ^ 32 - 1

def u64Max : Nat := 2 ^ 64 - 1

/-- `u32::saturating_add`. -/
def satAdd32 (a b : UInt32) : UInt32 := UInt32.ofNat (min (a.toNat + b.toNat) u32Max)

/-- `u64::saturating_add`. -/
def satAdd64 (a b : Nat) : Nat := min (a + b) u64Max

theorem toNat_ofNat32 (n : Nat) : (UInt32.ofNat n).toNat = n % 2 ^ 32 := by simp

theorem toNat_ofNat32_le {n : Nat} (h : n ≤ u32Max) : (UInt32.ofNat n).toNat = n := by
  rw [toNat_ofNat32]; unfold u32Max at h; omega

theorem toNat_le_u32Max (a : UInt32) : a.toNat ≤ u32Max := by
  have := a.toNat_lt; unfold u32Max; omega

@[simp] theorem toNat_satAdd32 (a b : UInt32) :
    (satAdd32 a b).toNat = min (a.toNat + b.toNat) u32Max :=
  toNat_ofNat32_le (Nat.min_le_right _ _)

theorem satAdd64_eq {a b : Nat} (h : a + b ≤ u64Max) : satAdd64 a b = a + b := Nat.min_eq_left h

theorem satAdd64_le (a b : Nat) : satAdd64 a b ≤ a + b := Nat.min_le_left _ _

theorem satAdd64_mono {a a' : Nat} (b : Nat) (h : a ≤ a') : satAdd64 a b ≤ satAdd64 a' b := by
  unfold satAdd64; omega

/-- Stepping a word that is not at its maximum does not wrap. -/
theorem toNat_succ32 {a : UInt32} (h : a ≠ UInt32.ofNat u32Max) : (a + 1).toNat = a.toNat + 1 := by
  have hlt := a.toNat_lt
  have hne : a.toNat ≠ u32Max := fun e => h (UInt32.toNat_inj.mp (by
    rw [e, toNat_ofNat32_le (Nat.le_refl _)]))
  unfold u32Max at hne
  rw [UInt32.toNat_add, UInt32.toNat_one]; omega

theorem toNat_add_ofNat (a : UInt32) (n : Nat) :
    (a + UInt32.ofNat n).toNat = (a.toNat + n) % 2 ^ 32 := by
  rw [UInt32.toNat_add, toNat_ofNat32]; omega

end Nucleo
