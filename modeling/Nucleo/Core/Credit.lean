import Nucleo.Core.Bucket

/-!
# Continuous token buckets

A bucket whose credit grows with the clock, up to `cap`, and from which a call
that asks takes `cost`, if there is that much. The refill is lazy: only a call
that asks looks at the clock.

What a run takes until some time is paid for by the credit at the start and
the time since (`taken_le`). The first call of a window finds a bucket that is
at most full, so `window_le` needs nothing of the calls before it.
-/
namespace Nucleo

structure Credit where
  level : Nat
  mark : Nat

namespace Credit

variable {cap cost : Nat} {b : Credit}

def refill (cap : Nat) (b : Credit) (now : Nat) : Credit := ⟨min (b.level + (now - b.mark)) cap, now⟩

/-- A call that asks refills and takes its cost; the output is the time of it. -/
def machine (cap cost : Nat) : Machine Credit Bucket.Call (Option Nat) where
  step b c :=
    if c.asks = true then
      let b := b.refill cap c.now
      if b.level < cost then (b, none) else ({ b with level := b.level - cost }, some c.now)
    else (b, none)

/-- The times at which a run takes the cost. -/
def taken (cap cost : Nat) (b : Credit) (calls : List Bucket.Call) : List Nat :=
  ((machine cap cost).trace b calls).filterMap (·.2.2)

/-! ## One call -/

/-- What a call does. -/
theorem step_cases (cap cost : Nat) (b : Credit) (c : Bucket.Call) :
    (c.asks = false ∧ (machine cap cost).next b c = b ∧ (machine cap cost).out b c = none) ∨
    (c.asks = true ∧ (b.refill cap c.now).level < cost ∧
      (machine cap cost).next b c = b.refill cap c.now ∧ (machine cap cost).out b c = none) ∨
    (c.asks = true ∧ cost ≤ (b.refill cap c.now).level ∧
      (machine cap cost).next b c = { b.refill cap c.now with level := (b.refill cap c.now).level - cost } ∧
      (machine cap cost).out b c = some c.now) := by
  unfold Machine.next Machine.out machine
  cases ha : c.asks with
  | false => exact .inl ⟨rfl, by simp [ha], by simp [ha]⟩
  | true =>
    by_cases hl : (b.refill cap c.now).level < cost
    · exact .inr (.inl ⟨rfl, hl, by simp [ha, hl], by simp [ha, hl]⟩)
    · exact .inr (.inr ⟨rfl, Nat.not_lt.1 hl, by simp [ha, hl], by simp [ha, hl]⟩)

theorem next_mark {c : Bucket.Call} (hm : b.mark ≤ c.now) : ((machine cap cost).next b c).mark ≤ c.now := by
  rcases step_cases cap cost b c with ⟨-, h, -⟩ | ⟨-, -, h, -⟩ | ⟨-, -, h, -⟩
  · rw [h]
    exact hm
  · rw [h]
    exact Nat.le_refl _
  · rw [h]
    exact Nat.le_refl _

theorem next_level (h : b.level ≤ cap) (c : Bucket.Call) : ((machine cap cost).next b c).level ≤ cap := by
  have hr : (b.refill cap c.now).level ≤ cap := Nat.min_le_right _ _
  rcases step_cases cap cost b c with ⟨-, hn, -⟩ | ⟨-, -, hn, -⟩ | ⟨-, -, hn, -⟩
  · rw [hn]
    exact h
  · rw [hn]
    exact hr
  · rw [hn]
    exact Nat.le_trans (Nat.sub_le _ _) hr

theorem taken_cons (cap cost : Nat) (b : Credit) (c : Bucket.Call) (calls : List Bucket.Call) :
    taken cap cost b (c :: calls) =
      ((machine cap cost).out b c).toList ++ taken cap cost ((machine cap cost).next b c) calls := by
  unfold taken
  rw [Machine.trace_cons, List.filterMap_cons]
  cases (machine cap cost).out b c <;> rfl

/-! ## Runs -/

/-- Nothing is taken before the clock. -/
theorem le_taken {calls : List Bucket.Call} {t : Nat} (hm : Mono Bucket.Call.time t calls) :
    ∀ n ∈ taken cap cost b calls, t ≤ n := by
  induction calls generalizing b t with
  | nil =>
    intro n hn
    cases hn
  | cons c calls ih =>
    obtain ⟨ht, hm⟩ := mono_cons.1 hm
    have hle : t ≤ c.now := ht c.now rfl
    intro n hn
    rw [taken_cons] at hn
    rcases List.mem_append.1 hn with hn | hn
    · rcases step_cases cap cost b c with ⟨-, -, ho⟩ | ⟨-, -, -, ho⟩ | ⟨-, -, -, ho⟩
      · rw [ho] at hn
        cases hn
      · rw [ho] at hn
        cases hn
      · rw [ho, Option.toList_some, List.mem_singleton] at hn
        omega
    · exact Nat.le_trans hle (ih hm n hn)

/-- What is taken up to `upTo` is paid for by the credit and the time since the mark. -/
theorem taken_le {calls : List Bucket.Call} {t upTo : Nat} (hb : b.mark ≤ t)
    (hm : Mono Bucket.Call.time t calls) (ht : b.mark ≤ upTo) :
    ((taken cap cost b calls).filter (· ≤ upTo)).length * cost ≤ b.level + (upTo - b.mark) := by
  induction calls generalizing b t with
  | nil => simp [taken]
  | cons c calls ih =>
    obtain ⟨htime, hrest⟩ := mono_cons.1 hm
    have hle : t ≤ c.now := htime c.now rfl
    have hrest : Mono Bucket.Call.time c.now calls := hrest
    by_cases hc : c.now ≤ upTo
    · have hih := @ih ((machine cap cost).next b c) c.now (next_mark (Nat.le_trans hb hle)) hrest
      have hlevel : (b.refill cap c.now).level ≤ b.level + (c.now - b.mark) := Nat.min_le_left _ _
      have hmark : (b.refill cap c.now).mark = c.now := rfl
      rw [taken_cons, List.filter_append, List.length_append, Nat.add_mul]
      rcases step_cases cap cost b c with ⟨-, hn, ho⟩ | ⟨-, -, hn, ho⟩ | ⟨-, hcost, hn, ho⟩
      · rw [hn] at hih
        rw [hn, ho]
        simpa using hih ht
      · rw [hn] at hih
        have := hih (by omega)
        rw [hn, ho]
        simp only [Option.toList_none, List.filter_nil, List.length_nil]
        omega
      · rw [hn] at hih
        have := hih (by simp only; omega)
        have hkeep : (Option.toList (some c.now)).filter (· ≤ upTo) = [c.now] := by simp [hc]
        rw [hn, ho, hkeep]
        simp only [List.length_singleton] at this ⊢
        omega
    · have hnone : (taken cap cost b (c :: calls)).filter (· ≤ upTo) = [] := by
        refine List.filter_eq_nil_iff.2 fun n hn => ?_
        have := le_taken (mono_cons.2 ⟨fun n h => by cases h; exact Nat.le_refl _, hrest⟩) n hn
        simp only [decide_eq_true_eq]
        omega
      rw [hnone]
      simp

/-- **The window bound.** In a window of length `d` at most a full bucket and `d` are spent. -/
theorem window_le {calls : List Bucket.Call} {t₀ : Nat} (hb : b.mark ≤ t₀)
    (hm : Mono Bucket.Call.time t₀ calls) (t d : Nat) :
    (Bucket.window (taken cap cost b calls) t d).length * cost ≤ cap + d := by
  induction calls generalizing b t₀ with
  | nil => simp [taken, Bucket.window]
  | cons c calls ih =>
    obtain ⟨htime, hrest⟩ := mono_cons.1 hm
    have hle : t₀ ≤ c.now := htime c.now rfl
    have hrest : Mono Bucket.Call.time c.now calls := hrest
    have hmark : ((machine cap cost).next b c).mark ≤ c.now := next_mark (Nat.le_trans hb hle)
    have hih := ih hmark hrest
    rw [taken_cons]
    rcases step_cases cap cost b c with ⟨-, -, ho⟩ | ⟨-, -, -, ho⟩ | ⟨-, hcost, hn, ho⟩
    · rw [ho]
      exact hih
    · rw [ho]
      exact hih
    · rw [ho]
      unfold Bucket.window at hih ⊢
      rw [List.filter_append, List.length_append, Nat.add_mul]
      by_cases hin : t ≤ c.now ∧ c.now ≤ t + d
      · -- the first of the window: from here on the credit of a full bucket pays
        have hlevel : (b.refill cap c.now).level ≤ cap := Nat.min_le_right _ _
        have hall := @taken_le cap cost _ _ _ (t + d) hmark hrest (Nat.le_trans hmark hin.2)
        have hsub : ((taken cap cost ((machine cap cost).next b c) calls).filter
            fun n => t ≤ n ∧ n ≤ t + d).length ≤
            ((taken cap cost ((machine cap cost).next b c) calls).filter (· ≤ t + d)).length := by
          refine (List.monotone_filter_right _ fun n hn => ?_).length_le
          simp only [Bool.decide_and, Bool.and_eq_true, decide_eq_true_eq] at hn ⊢
          exact hn.2
        have hone : (Option.toList (some c.now)).filter (fun n => t ≤ n ∧ n ≤ t + d) = [c.now] := by
          simp [hin]
        have hmul := Nat.mul_le_mul_right cost hsub
        have hspent : ((machine cap cost).next b c).level + cost ≤ cap := by
          rw [hn]
          simp only
          omega
        have hnow : ((machine cap cost).next b c).mark = c.now := by
          rw [hn]
          rfl
        rw [hnow] at hall
        rw [hone, List.length_singleton]
        omega
      · have hnone : (Option.toList (some c.now)).filter (fun n => t ≤ n ∧ n ≤ t + d) = [] := by
          simpa using hin
        rw [hnone]
        simpa using hih

end Credit
end Nucleo
