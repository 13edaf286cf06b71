import Mathlib

/-!
# How long a signal stays in a state

A signal is a function of time. `dwell f x a b` is the measure of the times
from `a` up to `b` at which it has the value `x`.

Results:
* `dwell_append`: times add up over adjacent spans.
* `dwell_cons`: a signal that is constant up to a change and follows another
  one from there on.
-/
namespace Nucleo.Dwell
open MeasureTheory

variable {S : Type} {f g : ℝ → S} {x y : S} {a b c t : ℝ}

/-- The time from `a` up to `b` that `f` spends at `x`. -/
noncomputable def dwell (f : ℝ → S) (x : S) (a b : ℝ) : ℝ :=
  (volume {τ | τ ∈ Set.Ico a b ∧ f τ = x}).toReal

theorem dwell_congr (h : ∀ τ, a ≤ τ → τ < b → f τ = g τ) : dwell f x a b = dwell g x a b := by
  unfold dwell
  congr 2
  ext τ
  simp only [Set.mem_ofPred_eq, Set.mem_Ico, and_congr_right_iff]
  intro hτ
  rw [h τ hτ.1 hτ.2]

theorem dwell_const [DecidableEq S] (hab : a ≤ b) (h : ∀ τ, a ≤ τ → τ < b → f τ = y) :
    dwell f x a b = if y = x then b - a else 0 := by
  unfold dwell
  by_cases hyx : y = x
  · have hset : {τ | τ ∈ Set.Ico a b ∧ f τ = x} = Set.Ico a b :=
      Set.ext fun τ => ⟨fun hτ => hτ.1, fun hτ => ⟨hτ, by rw [h τ hτ.1 hτ.2, hyx]⟩⟩
    rw [hset, Real.volume_Ico, ENNReal.toReal_ofReal (by linarith), if_pos hyx]
  · have hset : {τ | τ ∈ Set.Ico a b ∧ f τ = x} = ∅ := by
      refine Set.eq_empty_of_forall_notMem fun τ hτ => hyx ?_
      rw [← h τ hτ.1.1 hτ.1.2, hτ.2]
    rw [hset, measure_empty, if_neg hyx]
    rfl

theorem dwell_append (hab : a ≤ b) (hbc : b ≤ c) :
    dwell f x a c = dwell f x a b + dwell f x b c := by
  have hfin : ∀ u v : ℝ, volume {τ | τ ∈ Set.Ico u v ∧ f τ = x} ≠ ⊤ := fun u v =>
    ne_top_of_le_ne_top (measure_Ico_lt_top (μ := volume) (a := u) (b := v)).ne
      (measure_mono fun τ hτ => hτ.1)
  -- the cut at `b` is measurable, whatever the signal does
  have hsplit := measure_inter_add_sdiff (μ := volume) {τ | τ ∈ Set.Ico a c ∧ f τ = x}
    (measurableSet_Iio (a := b))
  have hleft : {τ | τ ∈ Set.Ico a c ∧ f τ = x} ∩ Set.Iio b = {τ | τ ∈ Set.Ico a b ∧ f τ = x} := by
    ext τ
    simp only [Set.mem_inter_iff, Set.mem_ofPred_eq, Set.mem_Ico, Set.mem_Iio]
    exact ⟨fun h => ⟨⟨h.1.1.1, h.2⟩, h.1.2⟩, fun h => ⟨⟨⟨h.1.1, by linarith [h.1.2]⟩, h.2⟩, h.1.2⟩⟩
  have hright : {τ | τ ∈ Set.Ico a c ∧ f τ = x} \ Set.Iio b = {τ | τ ∈ Set.Ico b c ∧ f τ = x} := by
    ext τ
    simp only [Set.mem_sdiff, Set.mem_ofPred_eq, Set.mem_Ico, Set.mem_Iio, not_lt]
    exact ⟨fun h => ⟨⟨h.2, h.1.1.2⟩, h.1.2⟩, fun h => ⟨⟨⟨by linarith [h.1.1], h.1.2⟩, h.2⟩, h.1.1⟩⟩
  rw [hleft, hright] at hsplit
  unfold dwell
  rw [← hsplit, ENNReal.toReal_add (hfin a b) (hfin b c)]

/-- A signal at `y` until a change at `t`, and like `g` from there on. -/
theorem dwell_cons [DecidableEq S] (hab : a ≤ b) (hbefore : ∀ τ, τ < t → f τ = y)
    (hafter : ∀ τ, t ≤ τ → f τ = g τ) :
    dwell f x a b = (if y = x then max a (min b t) - a else 0) + dwell g x (max a (min b t)) b := by
  have hcut : a ≤ max a (min b t) := le_max_left _ _
  have hend : max a (min b t) ≤ b := max_le hab (min_le_left _ _)
  rw [dwell_append hcut hend, dwell_const (y := y) hcut fun τ ha hτ => hbefore τ ?_]
  · rw [dwell_congr (f := f) (g := g) fun τ ha hτ => hafter τ ?_]
    have hmin := le_trans (le_max_right a (min b t)) ha
    rcases min_choice b t with hm | hm
    · rw [hm] at hmin
      linarith
    · rwa [hm] at hmin
  · rcases max_choice a (min b t) with hm | hm
    · rw [hm] at hτ
      linarith
    · rw [hm] at hτ
      exact lt_of_lt_of_le hτ (min_le_right _ _)

end Nucleo.Dwell
