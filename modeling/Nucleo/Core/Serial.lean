import Mathlib

/-!
# Serial numbers on 32 bits

Sequence numbers that wrap around are compared by how far one lies behind
another. `lag b a` is that distance, `(b - a) mod 2^32`.

Result:
* `card_le_of_lag_lt`: a set of numbers less than `width` behind one number
  has at most `width` elements.
-/
namespace Nucleo.Serial

/-- How far `a` lies behind `b`. -/
def lag (b a : UInt32) : Nat := (b - a).toNat

variable {a b newest : UInt32}

theorem lag_eq (b a : UInt32) : lag b a = (2 ^ 32 - a.toNat + b.toNat) % 2 ^ 32 :=
  UInt32.toNat_sub b a

theorem lag_lt (b a : UInt32) : lag b a < 2 ^ 32 := (b - a).toNat_lt

@[simp] theorem lag_self (a : UInt32) : lag a a = 0 := by simp [lag]

/-- A number on the way splits the distance. -/
theorem lag_split {v : UInt32} (h : lag v a ≤ lag b a) : lag b v + lag v a = lag b a := by
  have ha := a.toNat_lt
  have hb := b.toNat_lt
  have hv := v.toNat_lt
  rw [lag_eq v a, lag_eq b a] at h
  rw [lag_eq b v, lag_eq v a, lag_eq b a]
  omega

/-- One is as far behind as the other is ahead. -/
theorem lag_flip (h : b ≠ a) : lag b a + lag a b = 2 ^ 32 := by
  have ha := a.toNat_lt
  have hb := b.toNat_lt
  have hne : b.toNat ≠ a.toNat := fun e => h (UInt32.toNat_inj.1 e)
  rw [lag_eq, lag_eq]
  omega

theorem lag_injective (newest : UInt32) : Function.Injective (lag newest) := by
  intro a b h
  have ha := a.toNat_lt
  have hb := b.toNat_lt
  have hn := newest.toNat_lt
  rw [lag_eq, lag_eq] at h
  exact UInt32.toNat_inj.1 (by omega)

theorem lag_add_ofNat {n : Nat} (h : n < 2 ^ 32) : lag (a + UInt32.ofNat n) a = n := by
  have ha := a.toNat_lt
  rw [lag_eq, UInt32.toNat_add, UInt32.toNat_ofNat']
  omega

theorem add_ofNat_lag (b a : UInt32) : a + UInt32.ofNat (lag b a) = b := by
  simp [lag]

theorem card_le_of_lag_lt {s : Finset UInt32} {width : Nat} (h : ∀ v ∈ s, lag newest v < width) :
    s.card ≤ width := by
  have hcard := Finset.card_le_card_of_injOn (lag newest) (t := Finset.range width)
    (fun v hv => Finset.mem_coe.2 (Finset.mem_range.2 (h v hv))) ((lag_injective newest).injOn)
  rwa [Finset.card_range] at hcard

/-! ## The numbers between two -/

/-- The numbers after `a`, fewer than `n` ahead. -/
def ahead (a : UInt32) (n : Nat) : Finset UInt32 :=
  (Finset.Ico 1 n).image fun offset => a + UInt32.ofNat offset

theorem mem_ahead {n : Nat} (hn : n ≤ 2 ^ 32) {v : UInt32} :
    v ∈ ahead a n ↔ 0 < lag v a ∧ lag v a < n := by
  unfold ahead
  rw [Finset.mem_image]
  refine ⟨?_, fun h => ⟨lag v a, Finset.mem_Ico.2 ⟨h.1, h.2⟩, add_ofNat_lag v a⟩⟩
  rintro ⟨offset, ho, rfl⟩
  rw [Finset.mem_Ico] at ho
  rw [lag_add_ofNat (by omega)]
  omega

theorem card_ahead_le (a : UInt32) (n : Nat) : (ahead a n).card ≤ n - 1 := by
  refine Nat.le_trans Finset.card_image_le ?_
  rw [Nat.card_Ico]

end Nucleo.Serial
