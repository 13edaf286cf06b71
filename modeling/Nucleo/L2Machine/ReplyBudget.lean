import Nucleo.Core.Bucket
import Nucleo.L2Machine.ServiceSteps

/-!
# The reply bucket

While the clock does not go back, `tokens` and `token_time` are a quantised
bucket of 10 tokens and 100 ms (`tick_bucket`, `next_bucket`), and the
capability and control replies of a run are the tokens it hands out
(`replyTimes_eq`).

The refill keeps the remainder of the interval even when the bucket is full,
so a reply taken then is paid back up to one period early. Runs without such
a reply keep "burst 10, refill 10 per second" in every window
(`reply_budget`); eleven replies within a microsecond are possible otherwise
(`reply_budget_exceeded`), and never more than one over (`reply_budget_succ`).
-/
namespace Nucleo.Benchmark
namespace Service

/-! ## Which replies the bucket limits -/

def Outcome.limited : Outcome → Bool
  | .capabilities _ | .control _ _ => true
  | _ => false

/-- The time of the capability or control reply a call returns. -/
def replyTime (s : Service) : Op → Option Nat
  | .handle request peer now =>
    if (s.outcome request peer now).limited && (s.handle request peer now).2.isSome then some now
    else none
  | _ => none

/-- The times of the capability and control replies returned along a run. -/
def replyTimes (s : Service) (ops : List Op) : List Nat :=
  (machine.trace s ops).filterMap fun e => replyTime e.1 e.2.1

/-- A discovery or control request that passes the door. -/
def asks (s : Service) (request : Envelope) : Bool := !s.refuses request && request.kind != some 5

theorem refuses_congr {s s' : Service} (h : s.identity = s'.identity) (request : Envelope) :
    s.refuses request = s'.refuses request := by
  simp only [identity, Prod.mk.injEq] at h
  obtain ⟨h1, h2, h3, h4⟩ := h
  unfold refuses
  rw [h1, h2, h3, h4]

theorem limited_eq {s : Service} (hi : Inv s) (request : Envelope) (peer : Peer) (now : Nat) :
    (s.outcome request peer now).limited = s.asks request := by
  have he := assess_effect (hi.tick now) request peer now
  have hr := refuses_congr (tick_frame s now).2.2 request
  have hnone : s.refuses request = true → s.outcome request peer now = .none := by
    intro h
    unfold outcome assess
    rw [if_pos (hr.trans h)]
  unfold asks
  cases h : s.refuses request with
  | true => rw [hnone h]; rfl
  | false =>
    rw [h] at hr
    unfold outcome
    generalize (s.tick now).assess request peer now = r at he
    have h5 : ∀ k : Int, k ≤ 4 → (some k != some 5) = true := by
      intro k hk
      simp only [bne_iff_ne, ne_eq, Option.some.injEq]; omega
    cases he with
    | refused h => rw [h.resolve_left (by simp [hr])]; rfl
    | probe hk => rw [hk]; rfl
    | capabilities hk => rw [hk]; rfl
    | duplicate ha => rw [ha.kind, h5 _ ha.range.2]; rfl
    | rejected ha => rw [ha.kind, h5 _ ha.range.2]; rfl
    | acquired ha => rw [ha.kind, h5 _ ha.range.2]; rfl
    | renewed ha => rw [ha.kind, h5 _ ha.range.2]; rfl
    | stopped ha => rw [ha.kind, h5 _ ha.range.2]; rfl

/-! ## The service refines the bucket -/

def bucket (s : Service) : Bucket := ⟨s.tokens, s.tokenTime⟩

/-- The bucket call of an operation. -/
def call (s : Service) : Op → Option Bucket.Call
  | .handle request _ now => some ⟨now, s.asks request⟩
  | .tick now | .publication _ now => some ⟨now, false⟩
  | .endLease | .reject _ => none

/-- The bucket calls of a run. -/
def calls (s : Service) (ops : List Op) : List Bucket.Call :=
  (machine.trace s ops).filterMap fun e => call e.1 e.2.1

theorem tick_bucket {s : Service} {now : Nat} (hn : s.lastTime ≤ now) :
    (s.tick now).bucket = s.bucket.refill 10 100000 now := by
  unfold tick rollback
  rw [if_neg (by omega)]
  generalize he : ({ s with lastTime := now } : Service).expire now = e
  obtain ⟨h1, h2, -⟩ := expire_frame { s with lastTime := now } now
  rw [he] at h1 h2
  simp only at h1 h2
  unfold refill Bucket.refill bucket
  rw [h2, h1]
  by_cases h : 0 < (now - s.tokenTime) / 100000
  · simp only [h, if_true, Bucket.mk.injEq, and_true]; omega
  · simp only [h, if_false, h1, h2]

theorem bucket_spend (s : Service) (reply : Envelope) : (s.spend reply).1.bucket =
      (if 0 < s.tokens then { s.bucket with tokens := s.tokens - 1 } else s.bucket) ∧
    (s.spend reply).2.isSome = decide (0 < s.tokens) := by
  unfold spend
  by_cases h : s.tokens = 0
  · rw [if_pos h]; simp [h, bucket]
  · rw [if_neg h]; simp [Nat.pos_of_ne_zero h, bucket]

/-- **Refinement, one call.** -/
theorem next_bucket {s : Service} (hi : Inv s) {op : Op} (ht : Timely Op.time s.lastTime op) :
    match call s op with
    | none => (machine.next s op).bucket = s.bucket ∧ replyTime s op = none
    | some c => (machine.next s op).bucket = (Bucket.machine 10 100000).next s.bucket c ∧
        replyTime s op = (Bucket.machine 10 100000).out s.bucket c := by
  cases op with
  | endLease =>
    obtain ⟨h1, h2, -⟩ := endLease_frame s
    exact ⟨by simp only [machine, Machine.next, bucket, h1, h2], rfl⟩
  | reject crc =>
    obtain ⟨-, h1, h2, -⟩ := reject_frame s crc
    exact ⟨by simp only [machine, Machine.next, bucket, h1, h2], rfl⟩
  | tick now =>
    simp only [call, Bucket.next_eq, Bucket.out_eq]
    exact ⟨tick_bucket (ht now rfl), rfl⟩
  | publication index now =>
    simp only [call, Bucket.next_eq, Bucket.out_eq]
    refine ⟨Eq.trans ?_ (tick_bucket (ht now rfl)), rfl⟩
    have hp := publication_polled index (hi.tick now)
    show (s.publication index now).1.bucket = (s.tick now).bucket
    generalize s.publication index now = r at hp
    cases hp with
    | silent => rfl
    | sent => rfl
  | handle request peer now =>
    simp only [call, Bucket.next_eq, Bucket.out_eq, ← tick_bucket (ht now rfl)]
    obtain ⟨-, -, h1, h2⟩ := effect_clock (assess_effect (hi.tick now) request peer now)
    have hl := limited_eq hi request peer now
    have hb : ((s.tick now).assess request peer now).1.bucket = (s.tick now).bucket := by
      simp only [bucket, h1, h2]
    simp only [replyTime, hl]
    unfold outcome at hl
    show (s.handle request peer now).1.bucket = _ ∧ _
    unfold handle
    generalize (s.tick now).assess request peer now = r at hl hb h1
    obtain ⟨s', o⟩ := r
    have hs := fun reply => bucket_spend s' reply
    simp only at hb h1
    have hbt : (s.tick now).bucket.tokens = s'.tokens := h1.symm
    cases o with
    | none =>
      simp only [Outcome.limited] at hl
      simp [← hl, hb]
    | probe =>
      simp only [Outcome.limited] at hl
      simp [← hl, hb]
    | capabilities reply =>
      simp only [Outcome.limited] at hl
      simp [← hl, hs, hb, hbt]
    | control code reply =>
      simp only [Outcome.limited] at hl
      simp [← hl, hs, hb, hbt]

theorem calls_mono {s : Service} (hi : Inv s) {ops : List Op} {t : Nat} (ht : t ≤ s.lastTime)
    (hm : Mono Op.time s.lastTime ops) : Mono Bucket.Call.time t (calls s ops) := by
  induction ops generalizing s t with
  | nil => trivial
  | cons op ops ih =>
    obtain ⟨htime, hm⟩ := mono_cons.1 hm
    rw [← next_lastTime hi op] at hm
    have hrest := fun t ht => ih (hi.next op) (t := t) ht hm
    have hn := next_lastTime hi op
    unfold calls at hrest ⊢
    rw [Machine.trace_cons, List.filterMap_cons]
    cases op with
    | endLease => exact hrest t (hn ▸ ht)
    | reject => exact hrest t (hn ▸ ht)
    | handle request peer now => exact ⟨Nat.le_trans ht (htime now rfl), hrest now (Nat.le_of_eq hn.symm)⟩
    | tick now => exact ⟨Nat.le_trans ht (htime now rfl), hrest now (Nat.le_of_eq hn.symm)⟩
    | publication index now => exact ⟨Nat.le_trans ht (htime now rfl), hrest now (Nat.le_of_eq hn.symm)⟩

/-- **Refinement, whole runs.** The limited replies are the bucket's tokens. -/
theorem replyTimes_eq {s : Service} (hi : Inv s) {ops : List Op} (hm : Mono Op.time s.lastTime ops) :
    replyTimes s ops = Bucket.taken 10 100000 s.bucket (calls s ops) := by
  induction ops generalizing s with
  | nil => rfl
  | cons op ops ih =>
    obtain ⟨htime, hm⟩ := mono_cons.1 hm
    rw [← next_lastTime hi op] at hm
    have hih := ih (hi.next op) hm
    have hstep := next_bucket hi htime
    unfold replyTimes calls at hih ⊢
    rw [Machine.trace_cons, List.filterMap_cons, List.filterMap_cons]
    simp only
    cases hc : call s op with
    | none =>
      rw [hc] at hstep
      simp only at hstep
      rw [hstep.2, ← hstep.1]
      exact hih
    | some c =>
      rw [hc] at hstep
      simp only at hstep
      rw [hstep.2, Bucket.taken_cons, ← hstep.1, ← hih]
      cases (Bucket.machine 10 100000).out s.bucket c <;> rfl

/-! ## The budget -/

/-- The bucket is full, or refilled to full, with part of a period over. -/
def Overfull (s : Service) (now : Nat) : Prop :=
  10 ≤ s.tokens + (now - s.tokenTime) / 100000 ∧ (now - s.tokenTime) % 100000 ≠ 0

instance (s : Service) (now : Nat) : Decidable (s.Overfull now) :=
  inferInstanceAs (Decidable (_ ∧ _))

/-- The call does not take a reply from an overfull bucket. -/
def Paced (s : Service) : Op → Prop
  | .handle request _ now => s.asks request = true → ¬ s.Overfull now
  | _ => True

instance (s : Service) (op : Op) : Decidable (s.Paced op) := by
  unfold Paced
  split <;> infer_instance

theorem calls_calm {s : Service} (hi : Inv s) {ops : List Op} (hm : Mono Op.time s.lastTime ops)
    (hp : ∀ e ∈ machine.trace s ops, Paced e.1 e.2.1) :
    Bucket.Calm 10 100000 s.bucket (calls s ops) := by
  induction ops generalizing s with
  | nil => intro e he; cases he
  | cons op ops ih =>
    obtain ⟨htime, hm⟩ := mono_cons.1 hm
    rw [← next_lastTime hi op] at hm
    have hih := ih (hi.next op) hm fun e he => hp e (List.mem_cons_of_mem _ he)
    have hstep := next_bucket hi htime
    have hfirst := hp _ List.mem_cons_self
    unfold calls at hih ⊢
    rw [Machine.trace_cons, List.filterMap_cons]
    simp only
    cases hc : call s op with
    | none =>
      rw [hc] at hstep
      rw [← hstep.1]
      exact hih
    | some c =>
      rw [hc] at hstep
      rw [hstep.1] at hih
      intro e he ha
      rcases List.mem_cons.1 he with rfl | he
      · cases op with
        | handle request peer now => cases hc; exact hfirst ha
        | tick => cases hc; cases ha
        | publication => cases hc; cases ha
        | endLease => cases hc
        | reject => cases hc
      · exact hih e he ha

/-- **Burst 10, refill 10 per second**, in every run in which no reply is taken
from an overfull bucket: at most `10 + d / 100 ms` capability and control
replies in any window of length `d`, and at most 10 tokens at any time. -/
theorem reply_budget (device : HString 32) (boot : HString 16) (format : Format) (crc : CrcMode)
    (start : Nat) (ops : List Op) (hm : Mono Op.time start ops)
    (hp : ∀ e ∈ machine.trace (new device boot format crc start) ops, Paced e.1 e.2.1) :
    (∀ t d, (Bucket.window (replyTimes (new device boot format crc start) ops) t d).length ≤
      10 + d / 100000) ∧
    (machine.run (new device boot format crc start) ops).tokens ≤ 10 := by
  have hi := Inv.new device boot format crc start
  refine ⟨fun t d => ?_, (hi.run ops).tokens⟩
  rw [replyTimes_eq hi hm]
  exact Bucket.window_cap (by decide) (Nat.le_refl start) (Nat.le_refl 10)
    (calls_mono hi (Nat.le_refl _) hm) (calls_calm hi hm hp) t d

/-- Eleven requests at whole periods, the last of them a period late. -/
theorem reply_budget_paced :
    let ops := List.replicate 10 (Op.handle (Sample.capabilities 1) Sample.peer 0) ++
      [.handle (Sample.capabilities 2) Sample.peer 100000]
    (∀ t d, (Bucket.window (replyTimes Sample.service ops) t d).length ≤ 10 + d / 100000) ∧
      (machine.run Sample.service ops).tokens ≤ 10 :=
  reply_budget _ _ _ _ 0 _ (by decide) (by decide +kernel)

/-- Ten replies just before a refill and one just after it: eleven in a microsecond. -/
theorem reply_budget_exceeded :
    ¬ ∀ device boot format crc start ops, Mono Op.time start ops →
      (∀ t d, (Bucket.window (replyTimes (new device boot format crc start) ops) t d).length ≤
        10 + d / 100000) ∧ (machine.run (new device boot format crc start) ops).tokens ≤ 10 := by
  intro h
  have := (h Sample.device Sample.boot .csv .on 0
    (List.replicate 10 (.handle (Sample.capabilities 1) Sample.peer 99999) ++
      [.handle (Sample.capabilities 1) Sample.peer 100000]) (by decide)).1 99999 1
  revert this
  decide +kernel

/-- Without the condition the budget is exceeded by at most one reply. -/
theorem reply_budget_succ (device : HString 32) (boot : HString 16) (format : Format) (crc : CrcMode)
    (start : Nat) (ops : List Op) (hm : Mono Op.time start ops) (t d : Nat) :
    (Bucket.window (replyTimes (new device boot format crc start) ops) t d).length ≤
      10 + (d + 99999) / 100000 := by
  have hi := Inv.new device boot format crc start
  rw [replyTimes_eq hi hm]
  exact Bucket.window_succ (by decide) (Nat.le_refl start) (Nat.le_refl 10)
    (calls_mono hi (Nat.le_refl _) hm) t d

end Service
end Nucleo.Benchmark
