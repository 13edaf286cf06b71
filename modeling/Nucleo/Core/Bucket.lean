import Nucleo.Core.Lts

/-!
# Quantised token buckets

A bucket of at most `cap` tokens that gains one token per `period`, in whole
tokens: a refill at `now` adds `(now - mark) / period` and moves `mark` up by
that many periods, so the remainder of the interval counts towards the next
token, also when the bucket is full.

The measure is the credit, tokens in units of time plus the time since
`mark`. It grows with the clock, a refill never raises it and a token costs
one period. So the number of tokens handed out in a window is bounded by the
credit at the first of them: `window_le`. A bucket that is never asked while
`Overfull` starts every window with at most `cap` periods of credit
(`window_cap`); in general it is almost one period more (`window_succ`).
-/
namespace Nucleo

structure Bucket where
  tokens : Nat
  mark : Nat

namespace Bucket

/-- One call: its clock reading and whether it asks for a token. -/
structure Call where
  now : Nat
  asks : Bool

def refill (cap period : Nat) (b : Bucket) (now : Nat) : Bucket :=
  if 0 < (now - b.mark) / period then
    ⟨min (b.tokens + (now - b.mark) / period) cap, now - (now - b.mark) % period⟩
  else b

/-- A call refills, then takes a token if it asks and there is one; the output
is the time of the token. -/
def machine (cap period : Nat) : Machine Bucket Call (Option Nat) where
  step b c :=
    let b := b.refill cap period c.now
    if c.asks = true ∧ 0 < b.tokens then ({ b with tokens := b.tokens - 1 }, some c.now) else (b, none)

/-- The times at which a run hands out tokens. -/
def taken (cap period : Nat) (b : Bucket) (calls : List Call) : List Nat :=
  ((machine cap period).trace b calls).filterMap (·.2.2)

def Call.time (c : Call) : Option Nat := some c.now

/-- Tokens and elapsed time, both as time. -/
def credit (period : Nat) (b : Bucket) (now : Nat) : Nat := b.tokens * period + (now - b.mark)

/-- Full at `now`, with a part of a period left over. -/
def Overfull (cap period : Nat) (b : Bucket) (now : Nat) : Prop :=
  cap ≤ b.tokens + (now - b.mark) / period ∧ (now - b.mark) % period ≠ 0

variable {b : Bucket} {now : Nat}

/-! ## One call -/

theorem refill_rest (cap : Nat) {period : Nat} (hp : 0 < period) (hm : b.mark ≤ now) :
    (b.refill cap period now).mark ≤ now ∧
      now - (b.refill cap period now).mark = (now - b.mark) % period := by
  have hle := Nat.mod_le (now - b.mark) period
  unfold refill
  split
  · simp only; omega
  · rename_i h
    have : now - b.mark < period := (Nat.div_eq_zero_iff.1 (Nat.eq_zero_of_not_pos h)).resolve_left (by omega)
    rw [Nat.mod_eq_of_lt this]
    exact ⟨hm, rfl⟩

theorem refill_tokens {cap : Nat} (now period : Nat) (h : b.tokens ≤ cap) : (b.refill cap period now).tokens ≤ cap := by
  unfold refill
  split
  · exact Nat.min_le_right _ _
  · exact h

theorem refill_tokens_le (cap period : Nat) (b : Bucket) (now : Nat) :
    (b.refill cap period now).tokens ≤ b.tokens + (now - b.mark) / period := by
  unfold refill
  split
  · exact Nat.min_le_left _ _
  · exact Nat.le_add_right _ _

/-- A refill never raises the credit. -/
theorem refill_credit (cap : Nat) {period : Nat} (hp : 0 < period) (hm : b.mark ≤ now) :
    (b.refill cap period now).credit period now ≤ b.credit period now := by
  unfold credit
  rw [(refill_rest cap hp hm).2]
  calc (b.refill cap period now).tokens * period + (now - b.mark) % period
      ≤ (b.tokens + (now - b.mark) / period) * period + (now - b.mark) % period :=
        Nat.add_le_add_right (Nat.mul_le_mul_right _ (refill_tokens_le cap period b now)) _
    _ = b.tokens * period + ((now - b.mark) / period * period + (now - b.mark) % period) := by
        rw [Nat.add_mul, Nat.add_assoc]
    _ = b.tokens * period + (now - b.mark) := by rw [Nat.div_add_mod']

/-- After a refill at most one period, short of a unit, comes on top of a full bucket. -/
theorem refill_credit_le {cap period : Nat} (hp : 0 < period) (hm : b.mark ≤ now) (hb : b.tokens ≤ cap) :
    (b.refill cap period now).credit period now ≤ cap * period + (period - 1) := by
  unfold credit
  rw [(refill_rest cap hp hm).2]
  have hr := Nat.mod_lt (now - b.mark) hp
  have ht := Nat.mul_le_mul_right period (refill_tokens now period hb)
  omega

/-- A bucket that is not overfull has at most a full bucket's credit. -/
theorem refill_credit_cap {cap period : Nat} (hp : 0 < period) (hm : b.mark ≤ now) (hb : b.tokens ≤ cap)
    (ho : ¬ b.Overfull cap period now) : (b.refill cap period now).credit period now ≤ cap * period := by
  have hr := Nat.mod_lt (now - b.mark) hp
  unfold credit
  rw [(refill_rest cap hp hm).2]
  by_cases hc : cap ≤ b.tokens + (now - b.mark) / period
  · have h0 : (now - b.mark) % period = 0 := Decidable.not_not.1 fun h => ho ⟨hc, h⟩
    rw [h0]
    exact Nat.mul_le_mul_right _ (refill_tokens now period hb)
  · -- below the cap a whole token is missing
    have ht : (b.refill cap period now).tokens + 1 ≤ cap := by
      have := refill_tokens_le cap period b now
      omega
    have := Nat.mul_le_mul_right period ht
    rw [Nat.add_mul, Nat.one_mul] at this
    omega

/-! ## Runs -/

theorem next_eq (cap period : Nat) (b : Bucket) (c : Call) : (machine cap period).next b c =
    if c.asks = true ∧ 0 < (b.refill cap period c.now).tokens then
      { b.refill cap period c.now with tokens := (b.refill cap period c.now).tokens - 1 }
    else b.refill cap period c.now := by
  simp only [Machine.next, machine]
  split <;> rfl

theorem out_eq (cap period : Nat) (b : Bucket) (c : Call) : (machine cap period).out b c =
    if c.asks = true ∧ 0 < (b.refill cap period c.now).tokens then some c.now else none := by
  simp only [Machine.out, machine]
  split <;> rfl

theorem next_mark (cap : Nat) {period : Nat} (hp : 0 < period) {c : Call} (hm : b.mark ≤ c.now) :
    ((machine cap period).next b c).mark ≤ c.now := by
  rw [next_eq]
  split <;> exact (refill_rest cap hp hm).1

theorem next_tokens {cap : Nat} (period : Nat) (h : b.tokens ≤ cap) (c : Call) :
    ((machine cap period).next b c).tokens ≤ cap := by
  have := refill_tokens c.now period h
  rw [next_eq]
  split
  · exact Nat.le_trans (Nat.sub_le _ _) this
  · exact this

/-- A token costs one period of credit. -/
theorem next_credit (cap period : Nat) (b : Bucket) (c : Call) :
    ((machine cap period).next b c).credit period c.now +
        (if ((machine cap period).out b c).isSome then period else 0) =
      (b.refill cap period c.now).credit period c.now := by
  rw [next_eq, out_eq]
  split
  · rename_i h
    have : (b.refill cap period c.now).tokens * period =
        ((b.refill cap period c.now).tokens - 1) * period + period := by
      rw [← Nat.succ_mul]; congr 1; omega
    simp only [credit, Option.isSome_some, if_true, this]
    omega
  · rfl

theorem taken_cons (cap period : Nat) (b : Bucket) (c : Call) (calls : List Call) :
    taken cap period b (c :: calls) =
      ((machine cap period).out b c).toList ++ taken cap period ((machine cap period).next b c) calls := by
  unfold taken
  rw [Machine.trace_cons, List.filterMap_cons]
  cases (machine cap period).out b c <;> rfl

theorem out_time {cap period : Nat} {c : Call} {n : Nat} (h : (machine cap period).out b c = some n) : n = c.now := by
  rw [out_eq] at h
  split at h
  · exact (Option.some.inj h).symm
  · cases h

/-- No token is handed out before the clock. -/
theorem le_taken (cap period : Nat) (b : Bucket) {calls : List Call} {t : Nat} (hm : Mono Call.time t calls) :
    ∀ n ∈ taken cap period b calls, t ≤ n := by
  induction calls generalizing b t with
  | nil => intro n hn; cases hn
  | cons c calls ih =>
    obtain ⟨ht, hm⟩ := mono_cons.1 hm
    have hle : t ≤ c.now := ht c.now rfl
    intro n hn
    rw [taken_cons] at hn
    rcases List.mem_append.1 hn with hn | hn
    · rw [out_time (Option.mem_toList.1 hn)]; exact hle
    · exact Nat.le_trans hle (ih _ hm n hn)

/-- Tokens handed out up to `upTo` are paid for by the credit at the start and
the time since. -/
theorem taken_le (cap : Nat) {period : Nat} (hp : 0 < period) {calls : List Call} {t upTo : Nat} (hb : b.mark ≤ t)
    (hm : Mono Call.time t calls) (ht : t ≤ upTo) :
    ((taken cap period b calls).filter (· ≤ upTo)).length * period ≤
      b.credit period t + (upTo - t) := by
  induction calls generalizing b t with
  | nil => simp [taken]
  | cons c calls ih =>
    have hall := le_taken cap period b hm
    obtain ⟨htime, hm⟩ := mono_cons.1 hm
    have hle : t ≤ c.now := htime c.now rfl
    by_cases hc : c.now ≤ upTo
    · have hih := ih (next_mark cap hp (by omega : b.mark ≤ c.now)) hm hc
      have hcost := next_credit cap period b c
      have hrefill := refill_credit cap hp (by omega : b.mark ≤ c.now)
      have hgrow : b.credit period c.now = b.credit period t + (c.now - t) := by
        unfold credit; omega
      rw [taken_cons, List.filter_append, List.length_append, Nat.add_mul]
      cases ho : (machine cap period).out b c with
      | none =>
        rw [ho] at hcost
        simp only [Option.toList_none, List.filter_nil, List.length_nil, Option.isSome_none,
          Bool.false_eq_true, if_false] at hcost ⊢
        omega
      | some n =>
        rw [ho] at hcost
        have hn : decide (n ≤ upTo) = true := by rw [out_time ho]; simpa using hc
        simp only [Option.toList_some, List.filter_cons, hn, if_true, List.filter_nil,
          List.length_singleton, Option.isSome_some] at hcost ⊢
        omega
    · have hnil : (taken cap period b (c :: calls)).filter (· ≤ upTo) = [] := by
        refine List.filter_eq_nil_iff.2 fun n hn => ?_
        have := le_taken cap period b (t := c.now)
          (mono_cons.2 ⟨fun n h => by cases h; exact Nat.le_refl _, hm⟩) n hn
        simp only [decide_eq_true_eq]; omega
      rw [hnil]; simp

/-- The tokens handed out in `[t, t + d]`. -/
def window (times : List Nat) (t d : Nat) : List Nat := times.filter fun n => t ≤ n ∧ n ≤ t + d

/-- **The window bound.** When no token is taken with more than `peak` credit,
`n` tokens in a window of length `d` cost at most `peak + d`. -/
theorem window_le {cap period : Nat} (hp : 0 < period) {peak : Nat} {calls : List Call} {t₀ : Nat} (hb : b.mark ≤ t₀)
    (hm : Mono Call.time t₀ calls)
    (hpeak : ∀ e ∈ (machine cap period).trace b calls, e.2.1.asks = true →
      (e.1.refill cap period e.2.1.now).credit period e.2.1.now ≤ peak) (t d : Nat) :
    (window (taken cap period b calls) t d).length * period ≤ peak + d := by
  induction calls generalizing b t₀ with
  | nil => simp [window, taken]
  | cons c calls ih =>
    obtain ⟨htime, hrest⟩ := mono_cons.1 hm
    have hle : t₀ ≤ c.now := htime c.now rfl
    have hm : Mono Call.time c.now calls := hrest
    have hmark := next_mark cap hp (by omega : b.mark ≤ c.now)
    have hih := ih hmark hm fun e he => hpeak e (List.mem_cons_of_mem _ he)
    rw [taken_cons]
    cases ho : (machine cap period).out b c with
    | none => exact hih
    | some n =>
      have hn := out_time ho
      have hlater := le_taken cap period ((machine cap period).next b c) hm
      simp only [Option.toList_some, List.singleton_append, window, List.filter_cons]
      split
      · -- the first token of the window pays for the rest
        rename_i hin
        simp only [decide_eq_true_eq] at hin
        have hsame : (taken cap period ((machine cap period).next b c) calls).filter
              (fun n => decide (t ≤ n ∧ n ≤ t + d)) =
            (taken cap period ((machine cap period).next b c) calls).filter (· ≤ t + d) := by
          refine List.filter_congr fun m hm => ?_
          have : t ≤ m := by have := hlater m hm; omega
          simp [this]
        have hwithin : c.now ≤ t + d := hn ▸ hin.2
        have hrest := taken_le cap hp hmark hm hwithin
        have hcost := next_credit cap period b c
        have hasks : c.asks = true := by
          rw [out_eq] at ho
          split at ho
          · rename_i h; exact h.1
          · cases ho
        have hfirst := hpeak _ List.mem_cons_self hasks
        rw [ho] at hcost
        simp only [Option.isSome_some, if_true] at hcost
        rw [hsame, List.length_cons, Nat.succ_mul]
        simp only at hfirst
        omega
      · exact hih

/-- No call asks an overfull bucket. -/
def Calm (cap period : Nat) (b : Bucket) (calls : List Call) : Prop :=
  ∀ e ∈ (machine cap period).trace b calls, e.2.1.asks = true → ¬ e.1.Overfull cap period e.2.1.now

/-- What a run keeps: the mark is not ahead of the calls, the tokens within the cap. -/
theorem trace_bounds {cap period : Nat} (hp : 0 < period) {calls : List Call} {t₀ : Nat} (hb : b.mark ≤ t₀)
    (hc : b.tokens ≤ cap) (hm : Mono Call.time t₀ calls) :
    ∀ e ∈ (machine cap period).trace b calls, e.1.mark ≤ e.2.1.now ∧ e.1.tokens ≤ cap := by
  induction calls generalizing b t₀ with
  | nil => intro e he; cases he
  | cons c calls ih =>
    obtain ⟨htime, hrest⟩ := mono_cons.1 hm
    have hle : t₀ ≤ c.now := htime c.now rfl
    have hm : Mono Call.time c.now calls := hrest
    intro e he
    rcases List.mem_cons.1 he with rfl | he
    · exact ⟨by simp only; omega, hc⟩
    · exact ih (next_mark cap hp (by omega)) (next_tokens period hc c) hm e he

/-- A calm bucket keeps the budget of a full bucket and the refill. -/
theorem window_cap {cap period : Nat} (hp : 0 < period) {calls : List Call} {t₀ : Nat} (hb : b.mark ≤ t₀)
    (hc : b.tokens ≤ cap) (hm : Mono Call.time t₀ calls) (hcalm : Calm cap period b calls) (t d : Nat) :
    (window (taken cap period b calls) t d).length ≤ cap + d / period := by
  have hw := window_le hp hb hm (fun e he ha => by
    obtain ⟨h1, h2⟩ := trace_bounds hp hb hc hm e he
    exact refill_credit_cap hp h1 h2 (hcalm e he ha)) t d
  rw [Nat.mul_comm cap, ← Nat.le_div_iff_mul_le hp, Nat.mul_add_div hp] at hw
  exact hw

/-- Any bucket is at most one token over it. -/
theorem window_succ {cap period : Nat} (hp : 0 < period) {calls : List Call} {t₀ : Nat} (hb : b.mark ≤ t₀)
    (hc : b.tokens ≤ cap) (hm : Mono Call.time t₀ calls) (t d : Nat) :
    (window (taken cap period b calls) t d).length ≤ cap + (d + (period - 1)) / period := by
  have hw := window_le hp hb hm (fun e he _ => by
    obtain ⟨h1, h2⟩ := trace_bounds hp hb hc hm e he
    exact refill_credit_le hp h1 h2) t d
  rw [Nat.add_assoc, Nat.add_comm _ d, Nat.mul_comm cap, ← Nat.le_div_iff_mul_le hp,
    Nat.mul_add_div hp] at hw
  exact hw

end Bucket
end Nucleo
