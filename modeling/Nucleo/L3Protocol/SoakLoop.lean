import Nucleo.Core.Binary64
import Nucleo.L3Protocol.Capacity

/-!
# The interval loop of a soak

`BenchSocket::soak` cuts its duration into intervals and runs one load in each.
`Soak` says what the loads of such a run share; here is the loop itself, with
the plan of every interval, and the load of an interval taken as one call that
returns. Durations are nanoseconds.

A plan is itself a loop: it draws sizes until their bits, a `u64` that wraps in
a release build, come to the target, a product of `f64`. A target that no `u64`
comes to is never met; what ends the loop then is a vector that cannot grow.

Results:
* `drawn_of_le`, `not_drawn_of_lt`: a plan is drawn up to `2 ^ 64 - 2 ^ 19` bits
  and is not drawn from more than `2 ^ 64` bits on.
* `loop_covers`: with a non-zero interval and all plans drawn the loop ends, its
  intervals add up to the duration, and the totals are the sums of the interval
  counters.
* `loop_stuck`, `loop_unplanned`: with a zero interval, or a plan that is not
  drawn, a soak of a non-zero duration never returns.
* `loop_ran`: the totals that the loop returns are those of a `Soak`.
* `soak_covers_iff`: so the command lines cover their duration exactly when the
  interval and the plans, or the window that the load refuses, are as they
  should be.
-/
namespace Nucleo.Echo

/-! ## One plan -/

/-- `Duration::as_secs_f64`. -/
def asSecsF64 (duration : Nat) : Binary64 :=
  (Binary64.ofNat (duration / 1000000000)).add ((Binary64.ofNat (duration % 1000000000)).div (.finite 1000000000))

/-- `rate_mbps * 1_000_000.0 * duration.as_secs_f64()`. -/
def targetBits (rate_mbps : Binary64) (duration : Nat) : Binary64 :=
  (rate_mbps.mul (.finite 1000000)).mul (asSecsF64 duration)

/-- Sizes that pass the assertions of `mixed`. -/
def Admissible (sizes : List Nat) : Prop := sizes ≠ [] ∧ ∀ size ∈ sizes, headerLen ≤ size ∧ size ≤ 65535

/-- One step of the generator. -/
def xorshift (state : UInt64) : UInt64 :=
  let state := state ^^^ (state <<< 13)
  let state := state ^^^ (state >>> 7)
  state ^^^ (state <<< 17)

/-- The variables of `mixed`. -/
structure Mixing where
  generated : List UInt16 := []
  bits : UInt64 := 0
  state : UInt64

/-- The body of its loop. -/
def Mixing.draw (sizes : List Nat) (m : Mixing) : Mixing :=
  let state := xorshift m.state
  let size := sizes.getD (state.toNat % sizes.length) 0
  { generated := m.generated ++ [UInt16.ofNat size], bits := m.bits + UInt64.ofNat (size * 8), state }

/-- `(bits as f64) < target_bits`. -/
def Mixing.short (target : Binary64) (m : Mixing) : Bool := (Binary64.ofNat m.bits.toNat).lt target

/-- The `while` loop, in a vector that has room for so many more sizes; the `push` after them panics. -/
def mixing (sizes : List Nat) (target : Binary64) : Nat → Mixing → Option (List UInt16)
  | 0, m => if m.short target then none else some m.generated
  | room + 1, m => if m.short target then mixing sizes target room (m.draw sizes) else some m.generated

/-- A `Vec<u16>` grows by doubling, and to no more than `isize::MAX` bytes. -/
def vecRoom : Nat := 2 ^ 61

/-- mirrors Rust/tools/udp-benchmark/src/runner.rs:725-748 -/
def mixed (sizes : List Nat) (rate_mbps : Binary64) (duration : Nat) (seed : UInt64) : Option (List UInt16) :=
  mixing sizes (targetBits rate_mbps duration) vecRoom { state := max seed 1 }

/-! ## One load -/

/-- The arguments of `PayloadPlan::mixed` and of the `load` that takes its plan. -/
structure LoadCall where
  payload_sizes : List Nat
  admissible : Admissible payload_sizes
  target_mbps : Binary64
  this_interval : Nat
  seed : UInt64
  drain : Nat
  timeout : Nat
  window : Nat
  run_id : UInt64

theorem draw_admissible {sizes : List Nat} (h : Admissible sizes) (state : UInt64) :
    headerLen ≤ sizes.getD (state.toNat % sizes.length) 0 ∧ sizes.getD (state.toNat % sizes.length) 0 ≤ 65535 := by
  have hlt : state.toNat % sizes.length < sizes.length := Nat.mod_lt _ (List.length_pos_of_ne_nil h.1)
  rw [List.getD_eq_getElem _ _ hlt]
  exact h.2 _ (List.getElem_mem hlt)

/-- What a plan is made of. -/
theorem mixing_sized {sizes : List Nat} (h : Admissible sizes) {target : Binary64} {room : Nat} {m : Mixing}
    {plan : List UInt16} (hm : ∀ size ∈ m.generated, headerLen ≤ size.toNat)
    (hplan : mixing sizes target room m = some plan) :
    (∀ size ∈ plan, headerLen ≤ size.toNat) ∧ plan.length ≤ m.generated.length + room := by
  induction room generalizing m with
  | zero =>
    unfold mixing at hplan
    split at hplan
    · cases hplan
    · cases hplan
      exact ⟨hm, Nat.le_refl _⟩
  | succ room ih =>
    unfold mixing at hplan
    split at hplan
    · have hdraw := draw_admissible h (xorshift m.state)
      have hnext : ∀ size ∈ (m.draw sizes).generated, headerLen ≤ size.toNat := by
        intro size hsize
        rcases List.mem_append.1 hsize with hsize | hsize
        · exact hm size hsize
        · rw [List.mem_singleton.1 hsize, UInt16.toNat_ofNat']
          omega
      obtain ⟨hsized, hlength⟩ := ih hnext hplan
      refine ⟨hsized, ?_⟩
      simp only [Mixing.draw, List.length_append, List.length_singleton] at hlength
      omega
    · cases hplan
      exact ⟨hm, by omega⟩

/-- The plan of the call. -/
def LoadCall.plan (call : LoadCall) : Option PayloadPlan :=
  match h : mixed call.payload_sizes call.target_mbps call.this_interval call.seed with
  | none => none
  | some sizes =>
    have hplan := mixing_sized call.admissible (by simp) h
    some { sizes, sized := hplan.1, fits := Nat.lt_of_le_of_lt hplan.2 (by simp [vecRoom]) }

/-- What comes of the loads, in their order: the state both threads left. -/
abbrev Outcomes := Nat → LoadCall → PayloadPlan → Except String Load

/-- mirrors Rust/tools/udp-benchmark/src/runner.rs:751-754 -/
structure RawLoad where
  result : LoadResult
  samples : List Nat

/-- The configuration of the load's threads. -/
def LoadCall.config (call : LoadCall) (plan : PayloadPlan) : Config where
  plan := plan
  timeout_ns := min call.timeout (2 ^ 64 - 1)
  window := call.window
  run_id := call.run_id

/-- The number that the result reports; only an interval of no length gets here with an infinite one. -/
def LoadCall.offered (call : LoadCall) : ℚ :=
  match call.target_mbps with
  | .finite target => target
  | _ => 0

/-- The check and the result of `load`; every outcome of its threads is allowed.
mirrors Rust/tools/udp-benchmark/src/runner.rs:500-515,665-707 -/
def LoadCall.load (call : LoadCall) (outcomes : Outcomes) (nth : Nat) (plan : PayloadPlan) : Except String RawLoad :=
  if call.window = 0 then .error "window must be greater than zero"
  else match outcomes nth call plan with
    | .error e => .error e
    | .ok load => .ok {
        result := loadResult (call.config plan) call.offered call.this_interval call.drain load
        samples := load.samples }

/-! ## The loop -/

/-- The arguments of `BenchSocket::soak`. -/
structure SoakRequest where
  payload_sizes : List Nat
  admissible : Admissible payload_sizes
  target_mbps : Binary64
  duration : Nat
  interval : Nat
  drain : Nat
  timeout : Nat
  window : Nat
  seed : UInt64
  run_id : UInt64

/-- The variables of the loop. -/
structure SoakState where
  results : List LoadResult := []
  all_samples : List Nat := []
  totals : PacketCounters := .default
  remaining : Nat
  interval_index : UInt64 := 0

namespace SoakRequest

variable (request : SoakRequest) (outcomes : Outcomes)

/-- The call of the next interval. -/
def call (s : SoakState) : LoadCall where
  payload_sizes := request.payload_sizes
  admissible := request.admissible
  target_mbps := request.target_mbps
  this_interval := min s.remaining request.interval
  seed := request.seed ^^^ s.interval_index
  drain := request.drain
  timeout := request.timeout
  window := request.window
  run_id := request.run_id + s.interval_index

/-- What the loop does with a load that returned. -/
def record (s : SoakState) (raw : RawLoad) : SoakState where
  results := s.results ++ [raw.result]
  all_samples := s.all_samples ++ raw.samples
  totals := addCounters s.totals raw.result.counters
  remaining := s.remaining - min s.remaining request.interval
  interval_index := s.interval_index + 1

/-- The `while` loop; `none` when it has not ended after `fuel` iterations, or was in one whose plan is not
drawn.
mirrors Rust/tools/udp-benchmark/src/runner.rs:422-454 -/
def loop : Nat → SoakState → Option (Except String SoakState)
  | 0, _ => none
  | fuel + 1, s =>
    if s.remaining = 0 then some (.ok s)
    else match (request.call s).plan with
      | none => none
      | some plan => match (request.call s).load outcomes s.results.length plan with
        | .error e => some (.error e)
        | .ok raw => loop fuel (request.record s raw)

/-- mirrors Rust/tools/udp-benchmark/src/runner.rs:404-464 -/
def soak (fuel : Nat) : Option (Except String SoakState) :=
  request.loop outcomes fuel { remaining := request.duration }

end SoakRequest

/-! ## The command lines -/

/-- `Duration::from_secs`. -/
def fromSecs (seconds : UInt64) : Nat := seconds.toNat * 1000000000

/-- `Duration::from_millis`. -/
def fromMillis (millis : UInt64) : Nat := millis.toNat * 1000000

/-- What `SoakArgs` passes on, its list of sizes parsed; the rate is a positive number.
mirrors Rust/tools/udp-benchmark/src/main.rs:127-152 -/
structure SoakArgs where
  sizes : List Nat
  admissible : Admissible sizes
  rate_mbps : ℚ
  positive : 0 < rate_mbps
  duration_seconds : UInt64
  interval_seconds : UInt64
  drain_ms : UInt64
  timeout_ms : UInt64
  window : Nat
  seed : UInt64
  run_id : UInt64

/-- mirrors Rust/tools/udp-benchmark/src/main.rs:330-343 -/
def SoakArgs.request (args : SoakArgs) : SoakRequest where
  payload_sizes := args.sizes
  admissible := args.admissible
  target_mbps := .finite args.rate_mbps
  duration := fromSecs args.duration_seconds
  interval := fromSecs args.interval_seconds
  drain := fromMillis args.drain_ms
  timeout := fromMillis args.timeout_ms
  window := args.window
  seed := args.seed
  run_id := args.run_id

def runSoak (args : SoakArgs) (outcomes : Outcomes) (fuel : Nat) :
    Option (Except String SoakState) :=
  args.request.soak outcomes fuel

/-- What `StreamArgs` passes on; a larger datagram fails an assertion.
mirrors Rust/tools/udp-benchmark/src/main.rs:154-180 -/
structure StreamArgs where
  payload_bytes : Nat
  fits : payload_bytes ≤ 65535
  rate_hz : ℚ
  duration_seconds : UInt64
  interval_seconds : UInt64
  drain_ms : UInt64
  timeout_ms : UInt64
  window : Nat
  run_id : UInt64

/-- A single size that passes the check of `fixed_rate`. -/
theorem single_admissible {payload_bytes : Nat} (hmin : headerLen ≤ payload_bytes) (hmax : payload_bytes ≤ 65535) :
    Admissible [payload_bytes] := by
  refine ⟨by simp, fun size hsize => ?_⟩
  rw [List.mem_singleton.1 hsize]
  exact ⟨hmin, hmax⟩

/-- The soak that `fixed_rate` runs. -/
def StreamArgs.request (args : StreamArgs) (h : headerLen ≤ args.payload_bytes) :
    SoakRequest where
  payload_sizes := [args.payload_bytes]
  admissible := single_admissible h args.fits
  target_mbps := (((Binary64.ofNat args.payload_bytes).mul (.finite args.rate_hz)).mul (.finite 8)).div
    (.finite 1000000)
  duration := fromSecs args.duration_seconds
  interval := fromSecs args.interval_seconds
  drain := fromMillis args.drain_ms
  timeout := fromMillis args.timeout_ms
  window := args.window
  seed := args.run_id
  run_id := args.run_id

/-- mirrors Rust/tools/udp-benchmark/src/runner.rs:467-497, Rust/tools/udp-benchmark/src/main.rs:349-368 -/
def runStream (args : StreamArgs) (outcomes : Outcomes) (fuel : Nat) :
    Option (Except String SoakState) :=
  if h : headerLen ≤ args.payload_bytes then
    if 0 < args.rate_hz then (args.request h).soak outcomes fuel
    else some (.error "payload must be at least 32 bytes and rate must be positive")
  else some (.error "payload must be at least 32 bytes and rate must be positive")

/-! ## What a soak should do -/

/-- The fields of the counters. -/
def PacketCounters.fields : List (PacketCounters → Nat) :=
  [(·.planned), (·.sent), (·.valid_replies), (·.missing), (·.late), (·.duplicates), (·.reordered), (·.corrupt),
    (·.foreign), (·.send_errors)]

/-- The intervals add up to the duration, none is longer than asked for, and
the totals are the fieldwise sums. -/
structure SoakState.Covers (s : SoakState) (duration interval : Nat) : Prop where
  sum : (s.results.map (·.measurement_seconds)).sum = seconds duration
  each : ∀ result ∈ s.results, result.measurement_seconds ≤ seconds interval
  totals : ∀ field ∈ PacketCounters.fields, field s.totals = (s.results.map fun r => field r.counters).sum

/-- Whatever the loads return, the command returns, and the soak it returns covers
its duration. -/
def Covering (command : Outcomes → Nat → Option (Except String SoakState))
    (duration interval : Nat) : Prop :=
  ∀ outcomes, ∃ fuel returned, command outcomes fuel = some returned ∧
    ∀ s, returned = .ok s → s.Covers duration interval

/-- A plan is drawn: while the vector has room, the bits come to the target. -/
def Drawn (sizes : List Nat) (rate_mbps : Binary64) (duration : Nat) (seed : UInt64) : Prop :=
  ∃ n ≤ vecRoom, ((Mixing.draw sizes)^[n] { state := max seed 1 }).short (targetBits rate_mbps duration) = false

namespace SoakRequest

/-- The length of the interval with number `k`. -/
def planLength (request : SoakRequest) (k : Nat) : Nat :=
  min (request.duration - k * request.interval) request.interval

/-- Its plan is drawn. -/
def Planned (request : SoakRequest) (k : Nat) : Prop :=
  Drawn request.payload_sizes request.target_mbps (request.planLength k) (request.seed ^^^ UInt64.ofNat k)

/-- When a soak covers its duration: there is none, or a zero window is refused
once the first plan is drawn, or intervals that are not zero have their plans. -/
def Coverable (request : SoakRequest) : Prop :=
  request.duration = 0 ∨ (request.window = 0 ∧ request.Planned 0) ∨
    (request.interval ≠ 0 ∧ ∀ k, k * request.interval < request.duration → request.Planned k)

end SoakRequest

/-! ## Which plans are drawn -/

theorem mixing_isSome_iff {sizes : List Nat} {target : Binary64} {room : Nat} {m : Mixing} :
    (mixing sizes target room m).isSome = true ↔
      ∃ n ≤ room, ((Mixing.draw sizes)^[n] m).short target = false := by
  induction room generalizing m with
  | zero =>
    unfold mixing
    cases hshort : m.short target with
    | true => simp [hshort]
    | false => simp [hshort]
  | succ room ih =>
    unfold mixing
    cases hshort : m.short target with
    | true =>
      rw [if_pos rfl, ih]
      constructor
      · rintro ⟨n, hn, hend⟩
        exact ⟨n + 1, by omega, hend⟩
      · rintro ⟨n, hn, hend⟩
        cases n with
        | zero =>
          rw [Function.iterate_zero_apply, hshort] at hend
          cases hend
        | succ n => exact ⟨n, by omega, hend⟩
    | false =>
      rw [if_neg (by decide)]
      exact iff_of_true rfl ⟨0, Nat.zero_le _, hshort⟩

theorem plan_isSome_iff {call : LoadCall} : call.plan.isSome = true ↔
    Drawn call.payload_sizes call.target_mbps call.this_interval call.seed := by
  rw [Drawn, ← mixing_isSome_iff]
  unfold LoadCall.plan
  split
  · rename_i h
    rw [mixed] at h
    simp [h]
  · rename_i h
    rw [mixed] at h
    simp [h]

/-- The greatest datagram still fits behind what has been drawn. -/
def wrapMargin : Nat := 2 ^ 64 - 2 ^ 19

/-- Below the margin a draw adds at least 32 bytes, and does not wrap. -/
theorem draw_bits {sizes : List Nat} (h : Admissible sizes) {m : Mixing} (hm : m.bits.toNat ≤ wrapMargin) :
    m.bits.toNat + 256 ≤ (m.draw sizes).bits.toNat := by
  obtain ⟨hmin, hmax⟩ := draw_admissible h (xorshift m.state)
  have hmin' : 32 ≤ sizes.getD ((xorshift m.state).toNat % sizes.length) 0 := hmin
  unfold wrapMargin at hm
  simp only [Mixing.draw, UInt64.toNat_add, UInt64.toNat_ofNat']
  omega

/-- So the bits come to the margin. -/
theorem draws_reach {sizes : List Nat} (h : Admissible sizes) {room : Nat} {m : Mixing}
    (hroom : wrapMargin ≤ m.bits.toNat + 256 * room) :
    ∃ n ≤ room, wrapMargin ≤ ((Mixing.draw sizes)^[n] m).bits.toNat := by
  induction room generalizing m with
  | zero => exact ⟨0, Nat.le_refl _, by simpa using hroom⟩
  | succ room ih =>
    by_cases hm : wrapMargin ≤ m.bits.toNat
    · exact ⟨0, Nat.zero_le _, hm⟩
    · have hdraw := draw_bits h (m := m) (by omega)
      obtain ⟨n, hn, hreach⟩ := ih (m := m.draw sizes) (by omega)
      exact ⟨n + 1, by omega, hreach⟩

theorem ofNat_wrapMargin : Binary64.ofNat wrapMargin = .finite (2 ^ 64 - 2 ^ 19) := by
  rw [show wrapMargin = (2 ^ 53 - 2 ^ 8) * 2 ^ 11 from rfl,
    Binary64.ofNat_grid (by norm_num) (by norm_num) (by norm_num)]
  norm_num

theorem ofNat_wrap : Binary64.ofNat (2 ^ 64) = .finite (2 ^ 64) := by
  rw [show 2 ^ 64 = 2 ^ 52 * 2 ^ 12 from rfl, Binary64.ofNat_grid (by norm_num) (by norm_num) (by norm_num)]
  norm_num

/-- **Up to the margin every plan is drawn.** -/
theorem drawn_of_le {sizes : List Nat} (h : Admissible sizes) {rate_mbps : Binary64} {duration : Nat} (seed : UInt64)
    (hle : (Binary64.finite (2 ^ 64 - 2 ^ 19)).lt (targetBits rate_mbps duration) = false) :
    Drawn sizes rate_mbps duration seed := by
  obtain ⟨n, hn, hreach⟩ := @draws_reach sizes h vecRoom { state := max seed 1 } (by simp [wrapMargin, vecRoom])
  refine ⟨n, hn, ?_⟩
  rw [← ofNat_wrapMargin] at hle
  by_contra hshort
  rw [Bool.not_eq_false] at hshort
  rw [Binary64.lt_of_le hreach hshort] at hle
  cases hle

/-- **Beyond what a `u64` holds no plan is.** -/
theorem not_drawn_of_lt {sizes : List Nat} {rate_mbps : Binary64} {duration : Nat} {seed : UInt64}
    (hlt : (Binary64.finite (2 ^ 64)).lt (targetBits rate_mbps duration) = true) :
    ¬ Drawn sizes rate_mbps duration seed := by
  rintro ⟨n, -, hend⟩
  rw [← ofNat_wrap] at hlt
  rw [Mixing.short, Binary64.lt_of_le (Nat.le_of_lt (UInt64.toNat_lt _)) hlt] at hend
  cases hend

/-! ## The intervals -/

namespace SoakRequest

variable {request : SoakRequest} {outcomes : Outcomes}

/-- The loop on the way: what is left still has to be covered. -/
structure Partial (request : SoakRequest) (s : SoakState) : Prop where
  remaining : s.remaining = request.duration - s.results.length * request.interval
  index : s.interval_index = UInt64.ofNat s.results.length
  sum : (s.results.map (·.measurement_seconds)).sum + seconds s.remaining = seconds request.duration
  each : ∀ result ∈ s.results, result.measurement_seconds ≤ seconds request.interval
  totals : ∀ field ∈ PacketCounters.fields, field s.totals = (s.results.map fun r => field r.counters).sum

theorem addCounters_field {field : PacketCounters → Nat} (hf : field ∈ PacketCounters.fields)
    (total value : PacketCounters) : field (addCounters total value) = field total + field value := by
  simp only [PacketCounters.fields, List.mem_cons, List.not_mem_nil, or_false] at hf
  rcases hf with rfl | rfl | rfl | rfl | rfl | rfl | rfl | rfl | rfl | rfl <;> rfl

theorem default_field {field : PacketCounters → Nat} (hf : field ∈ PacketCounters.fields) :
    field .default = 0 := by
  simp only [PacketCounters.fields, List.mem_cons, List.not_mem_nil, or_false] at hf
  rcases hf with rfl | rfl | rfl | rfl | rfl | rfl | rfl | rfl | rfl | rfl <;> rfl

theorem Partial.start : request.Partial { remaining := request.duration } where
  remaining := by simp
  index := rfl
  sum := by simp
  each result h := by simp at h
  totals field hf := by simpa using default_field hf

/-- What a load that returned says of its interval. -/
theorem load_ok {call : LoadCall} {nth : Nat} {plan : PayloadPlan} {raw : RawLoad}
    (h : call.load outcomes nth plan = .ok raw) :
    raw.result.measurement_seconds = seconds call.this_interval ∧
      ∃ load, outcomes nth call plan = .ok load ∧ raw.result.counters = load.totals (call.config plan) := by
  unfold LoadCall.load at h
  split at h
  · cases h
  · split at h
    · cases h
    · rename_i load hm
      cases h
      exact ⟨rfl, load, hm, rfl⟩

theorem seconds_sub {a b : Nat} (h : b ≤ a) : seconds b + seconds (a - b) = seconds a := by
  unfold seconds
  rw [Nat.cast_sub h]
  ring

theorem seconds_le {a b : Nat} (h : a ≤ b) : seconds a ≤ seconds b := by
  unfold seconds
  gcongr

/-- One interval. -/
theorem Partial.record {s : SoakState} (h : request.Partial s) {raw : RawLoad}
    (hraw : raw.result.measurement_seconds = seconds (min s.remaining request.interval)) :
    request.Partial (request.record s raw) where
  remaining := by
    have hrest := h.remaining
    simp only [SoakRequest.record, List.length_append, List.length_singleton, Nat.add_mul, Nat.one_mul]
    omega
  index := by simp [SoakRequest.record, h.index]
  sum := by
    have hsum := h.sum
    have hrest := seconds_sub (Nat.min_le_left s.remaining request.interval)
    simp only [SoakRequest.record, List.map_append, List.map_cons, List.map_nil, List.sum_append,
      List.sum_cons, List.sum_nil, hraw]
    linarith
  each result hresult := by
    rcases List.mem_append.1 hresult with hresult | hresult
    · exact h.each result hresult
    · rw [List.mem_singleton.1 hresult, hraw]
      exact seconds_le (Nat.min_le_right _ _)
  totals field hf := by
    have := h.totals field hf
    simp [SoakRequest.record, addCounters_field hf, this]

/-- The plan of the next call is that of the next interval. -/
theorem Partial.planned_iff {s : SoakState} (h : request.Partial s) :
    (request.call s).plan.isSome = true ↔ request.Planned s.results.length := by
  rw [plan_isSome_iff, Planned, planLength, ← h.remaining, ← h.index]
  rfl

/-- **Intervals that are not zero and have their plans end the loop**: `remaining` goes down with every one. -/
theorem loop_covers (hinterval : request.interval ≠ 0)
    (hplanned : ∀ k, k * request.interval < request.duration → request.Planned k) {s : SoakState}
    (h : request.Partial s) :
    ∃ fuel returned, request.loop outcomes fuel s = some returned ∧
      ∀ s', returned = .ok s' → s'.Covers request.duration request.interval := by
  induction hn : s.remaining using Nat.strongRecOn generalizing s with
  | _ n ih =>
    by_cases hzero : s.remaining = 0
    · refine ⟨1, .ok s, if_pos hzero, fun s' hs' => ?_⟩
      cases hs'
      have hsum := h.sum
      rw [hzero] at hsum
      exact ⟨by simpa [seconds] using hsum, h.each, h.totals⟩
    · have hnext : s.results.length * request.interval < request.duration := by
        have := h.remaining
        omega
      obtain ⟨plan, hplan⟩ := Option.isSome_iff_exists.1 (h.planned_iff.2 (hplanned _ hnext))
      cases hload : (request.call s).load outcomes s.results.length plan with
      | error e =>
        refine ⟨1, .error e, ?_, fun s' hs' => by cases hs'⟩
        simp [loop, hzero, hplan, hload]
      | ok raw =>
        have hless : (request.record s raw).remaining < n := by
          simp only [SoakRequest.record]
          omega
        obtain ⟨fuel, returned, hloop, hcovers⟩ := ih _ hless (h.record (load_ok hload).1) rfl
        refine ⟨fuel + 1, returned, ?_, hcovers⟩
        simpa [loop, hzero, hplan, hload] using hloop

theorem load_refused {call : LoadCall} {nth : Nat} {plan : PayloadPlan} (h : call.window = 0) :
    call.load outcomes nth plan = .error "window must be greater than zero" := if_pos h

/-- The threads of a load that is not refused decide. -/
theorem load_runs {call : LoadCall} {nth : Nat} {plan : PayloadPlan} (h : call.window ≠ 0)
    (hok : ∃ load, outcomes nth call plan = .ok load) : ∃ raw, call.load outcomes nth plan = .ok raw := by
  obtain ⟨load, hm⟩ := hok
  unfold LoadCall.load
  rw [if_neg h, hm]
  exact ⟨_, rfl⟩

/-- One iteration of a loop that is not at its end and whose loads succeed. -/
theorem loop_goes (hwindow : request.window ≠ 0) (hok : ∀ nth call plan, ∃ load, outcomes nth call plan = .ok load)
    (fuel : Nat) {s : SoakState} (hs : s.remaining ≠ 0) :
    request.loop outcomes (fuel + 1) s = none ∨ ∃ plan raw, (request.call s).plan = some plan ∧
      (request.call s).load outcomes s.results.length plan = .ok raw ∧
      request.loop outcomes (fuel + 1) s = request.loop outcomes fuel (request.record s raw) := by
  cases hplan : (request.call s).plan with
  | none => exact .inl (by simp [loop, hs, hplan])
  | some plan =>
    obtain ⟨raw, hraw⟩ := @load_runs outcomes (request.call s) s.results.length plan hwindow (hok _ _ plan)
    exact .inr ⟨plan, raw, rfl, hraw, by simp [loop, hs, hplan, hraw]⟩

/-- **A zero interval never uses up the duration**, as long as the loads succeed. -/
theorem loop_stuck (hinterval : request.interval = 0) (hwindow : request.window ≠ 0)
    (hok : ∀ nth call plan, ∃ load, outcomes nth call plan = .ok load) (fuel : Nat) {s : SoakState}
    (hs : s.remaining ≠ 0) : request.loop outcomes fuel s = none := by
  induction fuel generalizing s with
  | zero => rfl
  | succ fuel ih =>
    rcases loop_goes hwindow hok fuel hs with hnone | ⟨plan, raw, -, -, hloop⟩
    · exact hnone
    · have hsame : (request.record s raw).remaining = s.remaining := by
        simp only [SoakRequest.record]
        omega
      rw [hloop]
      exact ih (by omega)

/-- **An interval without a plan is never passed**, as long as the loads succeed. -/
theorem loop_unplanned (hwindow : request.window ≠ 0)
    (hok : ∀ nth call plan, ∃ load, outcomes nth call plan = .ok load) {k : Nat}
    (hk : k * request.interval < request.duration) (hnot : ¬ request.Planned k) (fuel : Nat) {s : SoakState}
    (h : request.Partial s) (hle : s.results.length ≤ k) : request.loop outcomes fuel s = none := by
  induction fuel generalizing s with
  | zero => rfl
  | succ fuel ih =>
    have hs : s.remaining ≠ 0 := by
      have := h.remaining
      have := Nat.mul_le_mul_right request.interval hle
      omega
    rcases loop_goes hwindow hok fuel hs with hnone | ⟨plan, raw, hplan, hraw, hloop⟩
    · exact hnone
    · have hplanned := h.planned_iff.1 (Option.isSome_iff_exists.2 ⟨plan, hplan⟩)
      have hne : s.results.length ≠ k := fun heq => hnot (heq ▸ hplanned)
      rw [hloop]
      refine ih (h.record (load_ok hraw).1) ?_
      simp only [SoakRequest.record, List.length_append, List.length_singleton]
      omega

/-- Every load returns and has sent nothing. -/
def idle : Outcomes := fun _ call plan => .ok (Load.start (call.config plan))

theorem idle_ok (nth : Nat) (call : LoadCall) (plan : PayloadPlan) : ∃ load, idle nth call plan = .ok load := ⟨_, rfl⟩

/-- The first interval of a soak with a zero window: its plan, and the load that refuses the window. -/
theorem soak_refused (hwindow : request.window = 0) (hduration : request.duration ≠ 0)
    (hplanned : request.Planned 0) :
    request.soak outcomes 1 = some (.error "window must be greater than zero") := by
  obtain ⟨plan, hplan⟩ := Option.isSome_iff_exists.1 (Partial.start.planned_iff.2 hplanned)
  have hload := @load_refused outcomes (request.call { remaining := request.duration }) 0 plan hwindow
  unfold soak loop
  simp [hduration, hplan, hload]

theorem soak_unplanned (hduration : request.duration ≠ 0) (hnot : ¬ request.Planned 0) (fuel : Nat) :
    request.soak outcomes fuel = none := by
  have hplan : (request.call { remaining := request.duration }).plan = none := by
    rw [← Option.not_isSome_iff_eq_none]
    exact fun hsome => hnot (Partial.start.planned_iff.1 hsome)
  cases fuel with
  | zero => rfl
  | succ fuel =>
    unfold soak loop
    simp [hduration, hplan]

theorem covering_iff : Covering request.soak request.duration request.interval ↔ request.Coverable := by
  constructor
  · intro h
    obtain ⟨fuel, returned, hreturned, -⟩ := h idle
    by_contra hnot
    unfold Coverable at hnot
    simp only [not_or, not_and] at hnot
    obtain ⟨hduration, hrefused, hintervals⟩ := hnot
    by_cases hwindow : request.window = 0
    · rw [soak_unplanned hduration (hrefused hwindow)] at hreturned
      cases hreturned
    · by_cases hinterval : request.interval = 0
      · rw [soak, loop_stuck hinterval hwindow idle_ok fuel hduration] at hreturned
        cases hreturned
      · have hk := hintervals hinterval
        push Not at hk
        obtain ⟨k, hk, hunplanned⟩ := hk
        rw [soak, loop_unplanned hwindow idle_ok hk hunplanned fuel Partial.start (Nat.zero_le k)] at hreturned
        cases hreturned
  · intro h outcomes
    by_cases hduration : request.duration = 0
    · refine ⟨1, .ok { remaining := request.duration }, if_pos hduration, fun s hs => ?_⟩
      cases hs
      exact ⟨by simp [seconds, hduration], Partial.start.each, Partial.start.totals⟩
    · rcases h with hzero | ⟨hwindow, hplanned⟩ | ⟨hinterval, hplanned⟩
      · exact absurd hzero hduration
      · exact ⟨1, _, soak_refused hwindow hduration hplanned, fun s hs => by cases hs⟩
      · exact loop_covers hinterval hplanned Partial.start

/-! ## The loop runs a soak -/

/-- What the loads of the soak share. -/
def config (request : SoakRequest) : SoakConfig where
  timeout_ns := min request.timeout (2 ^ 64 - 1)
  window := request.window
  run_id := request.run_id

/-- A call of the interval with that number comes back with a load whose threads
have joined, on a network that still holds what earlier intervals sent. -/
def FromLoads (request : SoakRequest) (outcomes : Outcomes) : Prop :=
  ∀ intervals call plan load, Soak request.config intervals → outcomes intervals.length call plan = .ok load →
    (Echo.load (request.config.interval intervals.length plan)
        (intervals.flatMap fun i => i.load.wire)).Reachable load ∧ load.Joined

/-- The state of the loop after the intervals of a soak. -/
structure Ran (request : SoakRequest) (s : SoakState) (intervals : List Interval) : Prop where
  soak : Soak request.config intervals
  length : intervals.length = s.results.length
  index : s.interval_index = UInt64.ofNat s.results.length
  totals : s.totals = Echo.totals intervals

/-- The threads of an interval run under the configuration of its number. -/
theorem call_config {s : SoakState} (h : s.interval_index = UInt64.ofNat s.results.length) (plan : PayloadPlan) :
    (request.call s).config plan = request.config.interval s.results.length plan := by
  simp [LoadCall.config, call, config, SoakConfig.interval, h]

theorem Ran.record (hloads : request.FromLoads outcomes) {s : SoakState} {intervals : List Interval}
    (h : request.Ran s intervals) (hlength : s.results.length < 2 ^ 64) {plan : PayloadPlan} {raw : RawLoad}
    (hraw : (request.call s).load outcomes s.results.length plan = .ok raw) :
    ∃ i, request.Ran (request.record s raw) (intervals ++ [i]) := by
  obtain ⟨-, load, hm, hcounters⟩ := load_ok hraw
  rw [call_config h.index] at hcounters
  rw [← h.length] at hm hlength hcounters
  obtain ⟨hreach, hjoined⟩ := hloads intervals _ plan load h.soak hm
  refine ⟨⟨request.config.interval intervals.length plan, load⟩, ?_⟩
  exact {
    soak := Soak.next h.soak hlength hreach hjoined
    length := by simp [SoakRequest.record, h.length]
    index := by simp [SoakRequest.record, h.index]
    totals := by
      have htotals := h.totals
      simp only [Echo.totals] at htotals
      simp [SoakRequest.record, Echo.totals, htotals, hcounters] }

/-- A loop that returned has ended, or has drawn the plan of its next interval and recorded its load. -/
theorem loop_cases {fuel : Nat} {s s' : SoakState} (h : request.loop outcomes (fuel + 1) s = some (.ok s')) :
    s = s' ∨ ∃ plan raw, (request.call s).load outcomes s.results.length plan = .ok raw ∧
      request.loop outcomes fuel (request.record s raw) = some (.ok s') := by
  unfold loop at h
  split at h
  · cases h
    exact .inl rfl
  · split at h
    · cases h
    · rename_i plan _
      split at h
      · cases h
      · rename_i raw hraw
        exact .inr ⟨plan, raw, hraw, h⟩

theorem loop_length {fuel : Nat} {s s' : SoakState} (h : request.loop outcomes fuel s = some (.ok s')) :
    s.results.length ≤ s'.results.length := by
  induction fuel generalizing s with
  | zero => cases h
  | succ fuel ih =>
    rcases loop_cases h with rfl | ⟨plan, raw, -, hrest⟩
    · exact Nat.le_refl _
    · have := ih hrest
      simp only [SoakRequest.record, List.length_append, List.length_singleton] at this
      omega

/-- **The loop refines the soak**: what it returns are the totals of a soak with
as many intervals. -/
theorem loop_ran (hloads : request.FromLoads outcomes) {fuel : Nat} {s s' : SoakState}
    {intervals : List Interval} (h : request.Ran s intervals)
    (hloop : request.loop outcomes fuel s = some (.ok s')) (hlength : s'.results.length ≤ 2 ^ 64) :
    ∃ intervals', request.Ran s' intervals' := by
  induction fuel generalizing s intervals with
  | zero => cases hloop
  | succ fuel ih =>
    rcases loop_cases hloop with rfl | ⟨plan, raw, hraw, hrest⟩
    · exact ⟨intervals, h⟩
    · have hless := loop_length hrest
      simp only [SoakRequest.record, List.length_append, List.length_singleton] at hless
      obtain ⟨i, hi⟩ := h.record hloads (by omega) hraw
      exact ih hi hrest

/-- A soak judged reliable on the totals that the loop returned was delivered. -/
theorem soak_reliable (hloads : request.FromLoads outcomes) {fuel : Nat} {s : SoakState}
    (hsoak : request.soak outcomes fuel = some (.ok s)) (hlength : s.results.length ≤ 2 ^ 64)
    {target_hz achieved_hz : ℚ} (hreliable : streamReliable s.totals target_hz achieved_hz = true) :
    ∃ intervals, Soak request.config intervals ∧ intervals.length = s.results.length ∧
      ∀ i ∈ intervals, Delivered i.cfg i.load := by
  obtain ⟨intervals, h⟩ := loop_ran hloads ⟨Soak.start, rfl, rfl, rfl⟩ hsoak hlength
  rw [h.totals] at hreliable
  exact ⟨intervals, h.soak, h.length, fun i hi => (reliable_interval h.soak hreliable i hi).1⟩

end SoakRequest

/-- **When the command lines cover their duration**: a soak, and a stream whose
size and rate pass the check of `fixed_rate`; and which plans are drawn for
every seed, and which for none. -/
theorem soak_covers_iff (args : SoakArgs) (stream : StreamArgs) :
    (Covering (runSoak args) (fromSecs args.duration_seconds) (fromSecs args.interval_seconds) ↔
      args.request.Coverable) ∧
    (∀ hsize : headerLen ≤ stream.payload_bytes, 0 < stream.rate_hz →
      (Covering (runStream stream) (fromSecs stream.duration_seconds) (fromSecs stream.interval_seconds) ↔
        (stream.request hsize).Coverable)) ∧
    ∀ (request : SoakRequest) (k : Nat),
      ((Binary64.finite (2 ^ 64 - 2 ^ 19)).lt (targetBits request.target_mbps (request.planLength k)) = false →
        request.Planned k) ∧
      ((Binary64.finite (2 ^ 64)).lt (targetBits request.target_mbps (request.planLength k)) = true →
        ¬ request.Planned k) := by
  refine ⟨SoakRequest.covering_iff, fun hsize hrate => ?_, fun request k =>
    ⟨drawn_of_le request.admissible _, not_drawn_of_lt⟩⟩
  have hcommand : runStream stream = (stream.request hsize).soak := by
    funext outcomes fuel
    rw [runStream, dif_pos hsize, if_pos hrate]
  rw [hcommand]
  exact SoakRequest.covering_iff

/-- One hundred-byte datagram a second for an hour. -/
def hourStream : StreamArgs where
  payload_bytes := 100
  fits := by omega
  rate_hz := 1
  duration_seconds := 3600
  interval_seconds := 60
  drain_ms := 2000
  timeout_ms := 50
  window := 256
  run_id := 7

/-- `udp-benchmark soak --rate-mbps 1 --sizes 64 --duration-seconds 1 --interval-seconds 0`. -/
def zeroInterval : SoakArgs where
  sizes := [64]
  admissible := single_admissible (by decide) (by omega)
  rate_mbps := 1
  positive := by decide
  duration_seconds := 1
  interval_seconds := 0
  drain_ms := 2000
  timeout_ms := 250
  window := 256
  seed := 0x5eed0723
  run_id := 0x72300004

/-- The same with the longest duration, in one interval. -/
def longestInterval : SoakArgs :=
  { zeroInterval with duration_seconds := 0xffffffffffffffff, interval_seconds := 0xffffffffffffffff }

/-- A whole minute of the stream is about 48000 bits. -/
theorem hour_stream_length {k : Nat} (hk : k * fromSecs 60 < fromSecs 3600) :
    (hourStream.request (by decide)).planLength k = 60000000000 := by
  have hlength : (hourStream.request (by decide)).planLength k =
      min (fromSecs 3600 - k * fromSecs 60) (fromSecs 60) := rfl
  have hminute : fromSecs 60 = 60000000000 := rfl
  have hhour : fromSecs 3600 = 3600000000000 := rfl
  rw [hlength, hminute, hhour]
  rw [hminute, hhour] at hk
  omega

theorem hour_stream_covers :
    Covering (runStream hourStream) (fromSecs 3600) (fromSecs 60) := by
  obtain ⟨-, hstream, hplanned⟩ := soak_covers_iff zeroInterval hourStream
  refine (hstream (by decide) (by decide +kernel)).2 (.inr (.inr ⟨by decide, fun k hk => ?_⟩))
  refine (hplanned _ k).1 ?_
  rw [hour_stream_length hk]
  decide +kernel

/-- Neither a zero interval nor one whose bits no `u64` counts is ever over. -/
theorem zero_interval_never_ends :
    ¬ Covering (runSoak zeroInterval) (fromSecs 1) (fromSecs 0) ∧
      ¬ Covering (runSoak longestInterval) (fromSecs 0xffffffffffffffff) (fromSecs 0xffffffffffffffff) := by
  constructor
  · intro h
    rcases (@SoakRequest.covering_iff zeroInterval.request).1 h with h | ⟨h, -⟩ | ⟨h, -⟩
    · exact absurd h (by decide)
    · exact absurd h (by decide)
    · exact h rfl
  · intro h
    have hplanned : longestInterval.request.Planned 0 := by
      rcases (@SoakRequest.covering_iff longestInterval.request).1 h with h | ⟨h, -⟩ | ⟨-, h⟩
      · exact absurd h (by decide)
      · exact absurd h (by decide)
      · exact h 0 (by decide)
    have htarget : (Binary64.finite (2 ^ 64)).lt
        (targetBits longestInterval.request.target_mbps 18446744073709551615000000000) = true := by decide +kernel
    exact not_drawn_of_lt htarget hplanned

end Nucleo.Echo
