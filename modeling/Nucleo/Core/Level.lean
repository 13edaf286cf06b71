import Mathlib

/-!
# A switched level and the time it is high

A level is set at some instants and stays in between; before the first it is
low. `upTime switches a b` is the number of instants from `a` up to `b` at
which it is high.

Results:
* `upTime_append`: times add up over adjacent spans.
* `upTime_last`: from the last switch on, the whole span or nothing of it.
* `upTime_switch`: the time up to a switch and after it.
-/
namespace Nucleo.Level

/-- The level at an instant: what the last of the switches up to it set. -/
def level (switches : List (Nat × Bool)) (instant : Nat) : Bool :=
  ((switches.filter (·.1 ≤ instant)).getLast?.map (·.2)).getD false

/-- What the last of the switches set. -/
def final (switches : List (Nat × Bool)) : Bool := (switches.getLast?.map (·.2)).getD false

/-- The instants from `a` up to `b` at which the level is high. -/
def upTime (switches : List (Nat × Bool)) (a b : Nat) : Nat :=
  ((Finset.Ico a b).filter fun instant => level switches instant = true).card

variable {switches : List (Nat × Bool)} {a b m t : Nat}

@[simp] theorem final_snoc (switches : List (Nat × Bool)) (s : Nat × Bool) : final (switches ++ [s]) = s.2 := by
  simp [final]

/-- A later switch says nothing of an earlier instant. -/
theorem level_snoc {instant : Nat} (h : instant < t) (value : Bool) :
    level (switches ++ [(t, value)]) instant = level switches instant := by
  have hnone : [(t, value)].filter (·.1 ≤ instant) = [] := by simp [h]
  rw [level, List.filter_append, hnone, List.append_nil, level]

/-- After every switch, the level is the last one. -/
theorem level_final {instant : Nat} (h : ∀ s ∈ switches, s.1 ≤ instant) : level switches instant = final switches := by
  rw [level, List.filter_eq_self.2 fun s hs => by simpa using h s hs, final]

theorem upTime_self : upTime switches a a = 0 := by simp [upTime]

theorem upTime_append (h1 : a ≤ m) (h2 : m ≤ b) :
    upTime switches a b = upTime switches a m + upTime switches m b := by
  unfold upTime
  rw [← Finset.Ico_union_Ico_eq_Ico h1 h2, Finset.filter_union, Finset.card_union_of_disjoint]
  exact Finset.disjoint_filter_filter (Finset.Ico_disjoint_Ico_consecutive a m b)

/-- Only switches before the end of the span matter. -/
theorem upTime_snoc (h : b ≤ t) (value : Bool) :
    upTime (switches ++ [(t, value)]) a b = upTime switches a b := by
  unfold upTime
  refine congrArg Finset.card (Finset.filter_congr fun instant hi => ?_)
  rw [Finset.mem_Ico] at hi
  rw [level_snoc (by omega)]

/-- **From the last switch on** the level is high all the time or never. -/
theorem upTime_last (h : ∀ s ∈ switches, s.1 ≤ a) : upTime switches a b = if final switches then b - a else 0 := by
  have hat : ∀ instant ∈ Finset.Ico a b, (level switches instant = true) ↔ final switches = true := by
    intro instant hi
    rw [Finset.mem_Ico] at hi
    rw [level_final fun s hs => Nat.le_trans (h s hs) hi.1]
  unfold upTime
  rw [Finset.filter_congr hat, Finset.filter_const]
  split
  · exact Nat.card_Ico a b
  · rfl

/-- One more switch, and the span after it. -/
theorem upTime_switch (h1 : a ≤ t) (h2 : t ≤ b) (h : ∀ s ∈ switches, s.1 ≤ t) (value : Bool) :
    upTime (switches ++ [(t, value)]) a b = upTime switches a t + if value then b - t else 0 := by
  have hlast : ∀ s ∈ switches ++ [(t, value)], s.1 ≤ t := by
    intro s hs
    rcases List.mem_append.1 hs with hs | hs
    · exact h s hs
    · rw [List.mem_singleton.1 hs]
  rw [upTime_append h1 h2, upTime_snoc (Nat.le_refl t), upTime_last hlast, final_snoc]

end Nucleo.Level
