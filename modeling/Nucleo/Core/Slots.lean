import Mathlib

/-!
# Periodic slots

Slot `j` of a period `p` started at `start` is the time `start + j * p`;
`newest` is the last slot not after `now`. A schedule that has used slots up to
`used` is due at slot `used + 1`. The lemmas recompute the schedule from the
due time alone, the way a poller does that only remembers when it is due next:
`passed_eq` gives the slots passed over, `next_due` the next due time. Both are
exact, however late the poll is, so a poller that uses them does not drift.
-/
namespace Nucleo.Slots

def slot (start p j : Nat) : Nat := start + j * p

/-- The newest slot at or before `now`. -/
def newest (start p now : Nat) : Nat := (now - start) / p

variable {start p now used : Nat}

theorem slot_mono {j k : Nat} (h : j ≤ k) : slot start p j ≤ slot start p k :=
  Nat.add_le_add_left (Nat.mul_le_mul_right p h) start

theorem slot_le_iff (hp : 0 < p) (hs : start ≤ now) {j : Nat} :
    slot start p j ≤ now ↔ j ≤ newest start p now := by
  unfold slot newest
  rw [Nat.le_div_iff_mul_le hp]
  omega

/-- Some unused slot has come exactly when the next one has. -/
theorem exists_slot_iff : (∃ j, used < j ∧ slot start p j ≤ now) ↔ slot start p (used + 1) ≤ now := by
  constructor
  · rintro ⟨j, hj, hle⟩
    exact Nat.le_trans (slot_mono hj) hle
  · intro h
    exact ⟨used + 1, Nat.lt_succ_self _, h⟩

/-- Time since the due slot, in terms of the newest. -/
theorem since_due (hp : 0 < p) (hs : start ≤ now) (hd : slot start p (used + 1) ≤ now) :
    now - slot start p (used + 1) =
      (newest start p now - (used + 1)) * p + (now - start) % p := by
  have hle := (slot_le_iff hp hs).1 hd
  have hmod := Nat.div_add_mod' (now - start) p
  have hsplit : newest start p now * p = (newest start p now - (used + 1)) * p + (used + 1) * p := by
    rw [← Nat.add_mul, Nat.sub_add_cancel hle]
  unfold slot at hd ⊢
  unfold newest at hsplit ⊢
  omega

/-- The slots between the due one and the newest. -/
theorem passed_eq (hp : 0 < p) (hs : start ≤ now) (hd : slot start p (used + 1) ≤ now) :
    (now - slot start p (used + 1)) / p = newest start p now - (used + 1) := by
  rw [since_due hp hs hd, Nat.mul_comm, Nat.mul_add_div hp,
    Nat.div_eq_of_lt (Nat.mod_lt _ hp), Nat.add_zero]

theorem next_due (hp : 0 < p) (hs : start ≤ now) (hd : slot start p (used + 1) ≤ now) :
    now + (p - (now - slot start p (used + 1)) % p) = slot start p (newest start p now + 1) := by
  have hlt := Nat.mod_lt (now - start) hp
  have hmod := Nat.div_add_mod' (now - start) p
  rw [since_due hp hs hd, Nat.mul_comm, Nat.mul_add_mod, Nat.mod_mod]
  unfold slot newest
  rw [Nat.add_mul, Nat.one_mul]
  omega

end Nucleo.Slots
