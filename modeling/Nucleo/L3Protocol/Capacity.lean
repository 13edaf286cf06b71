import Nucleo.L3Protocol.Soak

/-!
# Offered load and capacity

After a load the bytes are counted from the packet states alone: every state
but 4 counts as sent. A state is also not 4 while its sequence has not been
reached, so the count is that of the successful sends exactly when the sender
ran through the plan (`sentPayloadBytes_iff`), and too high after a `break` at
the measurement boundary.

Rates are rationals here: the verdicts in exact arithmetic.

Results:
* `zero_loss_not_saturated`: the two verdicts exclude each other for a load
  whose sender was not stopped.
* `capacity_zero_loss`: then no capacity is reported at a saturated rate.
-/
namespace Nucleo.Echo

/-! ## What `load` reports -/

/-- The sizes of the sequences whose state passes `counted`. -/
def countedBytes (cfg : Config) (s : Load) (counted : PacketState → Bool) : Nat :=
  (((s.states.zip cfg.plan.sizes).filter fun (state, _) => counted state).map
    fun (_, size) => size.toNat).sum

/-- mirrors Rust/tools/udp-benchmark/src/runner.rs:675-680 -/
def sentPayloadBytes (cfg : Config) (s : Load) : Nat := countedBytes cfg s (· ≠ .failed)

/-- mirrors Rust/tools/udp-benchmark/src/runner.rs:681-686 -/
def validPayloadBytes (cfg : Config) (s : Load) : Nat := countedBytes cfg s (· = .received)

/-- mirrors Rust/tools/udp-benchmark/src/runner.rs:883-889 -/
def percentage (numerator denominator : Nat) : ℚ :=
  if denominator = 0 then 0 else numerator * 100 / denominator

/-- mirrors Rust/tools/udp-benchmark/src/model.rs:59-73 -/
structure LoadResult where
  offered_target_mbps : ℚ
  measurement_seconds : ℚ
  drain_seconds : ℚ
  window : Nat
  offered_mbps : ℚ
  goodput_mbps : ℚ
  sent_packets_per_second : ℚ
  valid_packets_per_second : ℚ
  loss_percent : ℚ
  counters : PacketCounters

/-- `Duration::as_secs_f64`, of a duration in nanoseconds. -/
def seconds (duration_ns : Nat) : ℚ := duration_ns / 1000000000

/-- `bytes as f64 * 8.0 / seconds / 1_000_000.0`. -/
def mbps (bytes : Nat) (seconds : ℚ) : ℚ := bytes * 8 / seconds / 1000000

/-- mirrors Rust/tools/udp-benchmark/src/runner.rs:665-707 -/
def loadResult (cfg : Config) (target_mbps : ℚ) (measurement_ns drain_ns : Nat) (s : Load) :
    LoadResult where
  offered_target_mbps := target_mbps
  measurement_seconds := seconds measurement_ns
  drain_seconds := seconds drain_ns
  window := cfg.window
  offered_mbps := mbps (sentPayloadBytes cfg s) (seconds measurement_ns)
  goodput_mbps := mbps (validPayloadBytes cfg s) (seconds measurement_ns)
  sent_packets_per_second := (s.totals cfg).sent / seconds measurement_ns
  valid_packets_per_second := (s.totals cfg).valid_replies / seconds measurement_ns
  loss_percent := percentage (s.totals cfg).missing (s.totals cfg).sent
  counters := s.totals cfg

/-- mirrors Rust/tools/udp-benchmark/src/runner.rs:870-875 -/
def isZeroLoss (result : LoadResult) : Bool :=
  result.counters.missing == 0 && result.counters.corrupt == 0 &&
    result.counters.send_errors == 0 &&
    result.offered_mbps ≥ result.offered_target_mbps * (98 / 100)

/-- mirrors Rust/tools/udp-benchmark/src/runner.rs:877-881 -/
def isSaturated (result : LoadResult) : Bool :=
  result.loss_percent ≥ 1 / 10 ||
    result.offered_mbps < result.offered_target_mbps * (95 / 100) ||
    result.goodput_mbps < result.offered_target_mbps * (90 / 100)

/-! ## Capacity -/

/-- The variables of the loop over the coarse rates. -/
structure Coarse where
  trials : List LoadResult
  lower_zero : ℚ
  upper_saturated : Option ℚ

/-- The coarse rates; `measure` gives the outcome of each trial by its number.
mirrors Rust/tools/udp-benchmark/src/runner.rs:182-208 -/
def coarse (measure : Nat → ℚ → LoadResult) : List ℚ → Coarse → Coarse
  | [], c => c
  | rate :: rates, c =>
    let result := measure c.trials.length rate
    let c := { c with
      lower_zero := if isZeroLoss result then max c.lower_zero rate else c.lower_zero
      trials := c.trials ++ [result] }
    if isSaturated result then { c with upper_saturated := some rate } else coarse measure rates c

/-- The bisection between the best and the saturated rate.
mirrors Rust/tools/udp-benchmark/src/runner.rs:210-240 -/
def refinements (measure : Nat → ℚ → LoadResult) : Nat → ℚ → ℚ → Coarse → Coarse
  | 0, _, _, c => c
  | n + 1, lower, upper, c =>
    if lower ≤ 0 ∨ upper - lower < 5 / 100 then c
    else
      let rate := (lower + upper) / 2
      let result := measure c.trials.length rate
      if isZeroLoss result then
        refinements measure n rate upper
          { c with lower_zero := max c.lower_zero rate, trials := c.trials ++ [result] }
      else refinements measure n lower rate { c with trials := c.trials ++ [result] }

/-- mirrors Rust/tools/udp-benchmark/src/model.rs:75-82 -/
structure CapacityResult where
  payload_bytes : Nat
  zero_loss_mbps : ℚ
  peak_goodput_mbps : ℚ
  saturation_observed : Bool
  trials : List LoadResult

/-- The capacity of one payload size.
mirrors Rust/tools/udp-benchmark/src/runner.rs:177-253 -/
def capacityOf (measure : Nat → ℚ → LoadResult) (size : Nat) (coarse_rates_mbps : List ℚ)
    (rounds : Nat) : CapacityResult :=
  let c := coarse measure coarse_rates_mbps { trials := [], lower_zero := 0, upper_saturated := none }
  let c := match c.upper_saturated with
    | some upper => refinements measure rounds c.lower_zero upper c
    | none => c
  { payload_bytes := size
    zero_loss_mbps := c.lower_zero
    peak_goodput_mbps := (c.trials.map (·.goodput_mbps)).foldl max 0
    saturation_observed := c.upper_saturated.isSome
    trials := c.trials }

/-! ## Bytes by sequence -/

/-- The total size of some sequences. -/
def totalSize (cfg : Config) (indices : List Nat) : Nat := (indices.map cfg.size).sum

theorem countedBytes_eq {cfg : Config} {s : Load} (h : Slots cfg s) (counted : PacketState → Bool) :
    countedBytes cfg s counted =
      totalSize cfg ((List.range cfg.count).filter fun index => counted (s.state index)) := by
  have hzip : s.states.zip cfg.plan.sizes =
      (List.range cfg.count).map fun index => (s.state index, cfg.plan.sizes.getD index 0) := by
    have hlen := h.len
    refine List.ext_getElem (by simp [hlen, Config.count]) fun i hi _ => ?_
    rw [List.length_zip] at hi
    simp only [List.getElem_zip, List.getElem_map, List.getElem_range, Load.state]
    rw [List.getD_eq_getElem _ _ (by omega), List.getD_eq_getElem _ _ (by omega)]
  rw [countedBytes, totalSize, hzip, List.filter_map, List.map_map]
  rfl

/-- Two lists of sequences without repetition and with the same members. -/
theorem totalSize_congr {cfg : Config} {as bs : List Nat} (ha : as.Nodup) (hb : bs.Nodup)
    (h : ∀ index, index ∈ as ↔ index ∈ bs) : totalSize cfg as = totalSize cfg bs :=
  (((List.perm_ext_iff_of_nodup ha hb).2 h).map cfg.size).sum_eq

theorem size_pos {cfg : Config} {index : Nat} (h : index < cfg.count) : 0 < cfg.size index := by
  have hmem : cfg.plan.sizes.getD index 0 ∈ cfg.plan.sizes := by
    rw [List.getD_eq_getElem _ _ h]
    exact List.getElem_mem _
  exact Nat.lt_of_lt_of_le (by decide : 0 < headerLen) (cfg.plan.sized _ hmem)

theorem Inv.accepted_nodup {cfg : Config} {s : Load} (h : Inv cfg s) : s.accepted.Nodup :=
  h.slots.ordered.imp fun hlt => Nat.ne_of_lt hlt

/-- State 4 is left to the sends that failed, once the sender is through. -/
theorem Inv.not_failed {cfg : Config} {s : Load} (h : Inv cfg s) (hf : s.sender = .finished)
    {index : Nat} (hi : index < cfg.count) : s.state index ≠ .failed ↔ index ∈ s.accepted := by
  have hagrees := h.slots.agrees index hi
  rw [Load.phase, h.slots.finished hf] at hagrees
  constructor
  · intro hne
    by_contra hna
    rw [if_neg hna, if_pos hi] at hagrees
    exact hne hagrees
  · intro ha e
    rcases h.slots.out ha with he | he | he <;> (rw [e] at he; cases he)

/-- The valid bytes are always those of the credited sequences. -/
theorem validPayloadBytes_eq {cfg : Config} {s : Load} (h : Inv cfg s) (hj : s.Joined) :
    validPayloadBytes cfg s = totalSize cfg s.credits := by
  rw [validPayloadBytes, countedBytes_eq h.slots]
  refine totalSize_congr (List.nodup_range.filter _) h.log.once fun index => ?_
  rw [List.mem_filter, List.mem_range, decide_eq_true_eq]
  constructor
  · rintro ⟨-, hst⟩
    rcases h.book.received index hst with hc | ⟨r, hr⟩
    · exact hc
    · rw [hj.2] at hr
      cases hr
  · intro hc
    obtain ⟨ha, hst⟩ := h.book.credited index hc
    exact ⟨h.slots.accepted_lt ha, hst⟩

/-- **The sent bytes are those of the successful sends exactly when the sender
was not stopped.** -/
theorem sentPayloadBytes_iff {cfg : Config} {s : Load} (h : Inv cfg s) (hj : s.Joined) :
    sentPayloadBytes cfg s = totalSize cfg s.accepted ↔ s.sender ≠ .stopped := by
  rw [sentPayloadBytes, countedBytes_eq h.slots]
  rcases hj.1 with hf | hstop
  · refine ⟨fun _ e => by (rw [hf] at e; cases e), fun _ => ?_⟩
    refine totalSize_congr (List.nodup_range.filter _) h.accepted_nodup fun index => ?_
    rw [List.mem_filter, List.mem_range, decide_eq_true_eq]
    constructor
    · rintro ⟨hi, hst⟩
      exact (h.not_failed hf hi).1 hst
    · intro ha
      exact ⟨h.slots.accepted_lt ha, (h.not_failed hf (h.slots.accepted_lt ha)).2 ha⟩
  · refine ⟨fun e => ?_, fun hne => absurd hstop hne⟩
    exfalso
    have hlt := h.slots.inside (by rw [hstop]; rfl)
    have hna := h.slots.not_accepted (by rw [hstop]; intro e; cases e)
    have hown := h.slots.own (by rw [hstop]; rfl) (by rw [hstop]; intro e; cases e)
    rw [hstop] at hown
    have hown : s.state s.sequence = .unsent := hown
    -- the sequence the sender stopped at is counted and was not sent
    have hsub : s.accepted ++ [s.sequence] ⊆
        (List.range cfg.count).filter fun index => decide (s.state index ≠ .failed) := by
      intro index hi
      rw [List.mem_filter, List.mem_range, decide_eq_true_eq]
      rcases List.mem_append.1 hi with hi | hi
      · refine ⟨h.slots.accepted_lt hi, fun e => ?_⟩
        rcases h.slots.out hi with he | he | he <;> (rw [e] at he; cases he)
      · rw [List.mem_singleton.1 hi, hown]
        exact ⟨hlt, fun e => by cases e⟩
    have hnodup : (s.accepted ++ [s.sequence]).Nodup := by
      rw [List.nodup_append]
      refine ⟨h.accepted_nodup, List.nodup_singleton _, fun a ha b hb e => ?_⟩
      rw [e, List.mem_singleton.1 hb] at ha
      exact hna ha
    obtain ⟨l, hperm, hl⟩ := hnodup.subperm hsub
    have hsum : totalSize cfg s.accepted + cfg.size s.sequence ≤
        totalSize cfg ((List.range cfg.count).filter fun index => decide (s.state index ≠ .failed)) := by
      calc totalSize cfg s.accepted + cfg.size s.sequence
          = totalSize cfg (s.accepted ++ [s.sequence]) := by simp [totalSize]
        _ = totalSize cfg l := ((hperm.map cfg.size).sum_eq).symm
        _ ≤ _ := (hl.map cfg.size).sum_le_sum fun _ _ => Nat.zero_le _
    have := size_pos hlt
    omega

/-! ## The verdicts -/

theorem mbps_nonneg (bytes duration_ns : Nat) : 0 ≤ mbps bytes (seconds duration_ns) := by
  unfold mbps seconds
  positivity

/-- **Without a stop, a load without loss is not saturated.** -/
theorem zero_loss_not_saturated {cfg : Config} {s : Load} (h : Inv cfg s) (hj : s.Joined)
    (hstop : s.sender ≠ .stopped) (target_mbps : ℚ) (measurement_ns drain_ns : Nat)
    (hz : isZeroLoss (loadResult cfg target_mbps measurement_ns drain_ns s) = true) :
    isSaturated (loadResult cfg target_mbps measurement_ns drain_ns s) = false := by
  simp only [isZeroLoss, loadResult, Bool.and_eq_true, beq_iff_eq] at hz
  obtain ⟨⟨⟨hmissing, -⟩, -⟩, hoffered⟩ := hz
  have hoffered := of_decide_eq_true hoffered
  have hsum := (load_counts h hj).1
  have hall : s.credits.length = s.accepted.length := by
    rw [← h.sent_count hj, ← h.log.valid]
    rw [hmissing] at hsum
    exact hsum
  -- everything accepted was credited, so goodput is the offered rate
  have hsame : totalSize cfg s.credits = totalSize cfg s.accepted := by
    refine totalSize_congr h.log.once h.accepted_nodup fun index => ?_
    have hsub : s.credits ⊆ s.accepted := fun i hi => (h.book.credited i hi).1
    have hperm := (h.log.once.subperm hsub).perm_of_length_le (Nat.le_of_eq hall.symm)
    exact hperm.mem_iff
  have hgood : validPayloadBytes cfg s = sentPayloadBytes cfg s := by
    rw [validPayloadBytes_eq h hj, hsame, ((sentPayloadBytes_iff h hj).2 hstop)]
  have hpos := mbps_nonneg (sentPayloadBytes cfg s) measurement_ns
  simp only [isSaturated, loadResult, hmissing, hgood, percentage, Bool.or_eq_false_iff,
    decide_eq_false_iff_not, ge_iff_le, not_le, not_lt]
  refine ⟨⟨?_, ?_⟩, ?_⟩
  · split <;> norm_num
  · linarith
  · linarith

/-- What the metrics promise of one load. -/
def Honest (cfg : Config) (s : Load) (target_mbps : ℚ) (measurement_ns drain_ns : Nat) : Prop :=
  sentPayloadBytes cfg s = totalSize cfg s.accepted ∧
    validPayloadBytes cfg s = totalSize cfg s.credits ∧
    ¬ (isZeroLoss (loadResult cfg target_mbps measurement_ns drain_ns s) = true ∧
      isSaturated (loadResult cfg target_mbps measurement_ns drain_ns s) = true)

theorem honest_iff {cfg : Config} {s : Load} (h : Inv cfg s) (hj : s.Joined) (target_mbps : ℚ)
    (measurement_ns drain_ns : Nat) :
    Honest cfg s target_mbps measurement_ns drain_ns ↔ s.sender ≠ .stopped := by
  constructor
  · rintro ⟨hsent, -⟩
    exact (sentPayloadBytes_iff h hj).1 hsent
  · intro hstop
    refine ⟨(sentPayloadBytes_iff h hj).2 hstop, validPayloadBytes_eq h hj, fun ⟨hz, hs⟩ => ?_⟩
    rw [zero_loss_not_saturated h hj hstop target_mbps measurement_ns drain_ns hz] at hs
    cases hs

/-! ## Capacity below saturation -/

/-- Trials are labelled with their rate and never have both verdicts. -/
def Exclusive (measure : Nat → ℚ → LoadResult) : Prop :=
  ∀ n rate, (measure n rate).offered_target_mbps = rate ∧
    (isZeroLoss (measure n rate) = true → isSaturated (measure n rate) = false)

/-- Where the loop over the coarse rates ends: nothing saturated, or only the
last rate, and that above the best. -/
theorem coarse_spec {measure : Nat → ℚ → LoadResult} (hm : Exclusive measure) {rates : List ℚ}
    {c : Coarse} (hsorted : rates.Pairwise (· < ·)) (hbelow : ∀ rate ∈ rates, c.lower_zero < rate)
    (hfree : ∀ trial ∈ c.trials, isSaturated trial = false) (hnone : c.upper_saturated = none) :
    ((coarse measure rates c).upper_saturated = none ∧
        ∀ trial ∈ (coarse measure rates c).trials, isSaturated trial = false) ∨
      ∃ upper, (coarse measure rates c).upper_saturated = some upper ∧
        (coarse measure rates c).lower_zero < upper ∧
        ∀ trial ∈ (coarse measure rates c).trials, isSaturated trial = true →
          upper ≤ trial.offered_target_mbps := by
  induction rates generalizing c with
  | nil => exact .inl ⟨hnone, hfree⟩
  | cons rate rates ih =>
    rw [List.pairwise_cons] at hsorted
    have hrate := hbelow rate List.mem_cons_self
    obtain ⟨hlabel, hboth⟩ := hm c.trials.length rate
    rw [coarse]
    dsimp only
    by_cases hs : isSaturated (measure c.trials.length rate) = true
    · rw [if_pos hs]
      have hz : ¬ isZeroLoss (measure c.trials.length rate) = true := fun hz => by
        rw [hboth hz] at hs; cases hs
      refine .inr ⟨rate, rfl, ?_, fun trial ht hst => ?_⟩
      · rw [if_neg hz]
        exact hrate
      · rcases List.mem_append.1 ht with ht | ht
        · rw [hfree trial ht] at hst
          cases hst
        · rw [List.mem_singleton.1 ht, hlabel]
    · rw [if_neg hs]
      refine ih hsorted.2 (fun r hr => ?_) (fun trial ht => ?_) hnone
      · have hlt := hsorted.1 r hr
        dsimp only
        split
        · exact max_lt (lt_trans hrate hlt) hlt
        · exact lt_trans hrate hlt
      · rcases List.mem_append.1 ht with ht | ht
        · exact hfree trial ht
        · rw [List.mem_singleton.1 ht]
          exact Bool.not_eq_true _ ▸ hs

/-- The bisection keeps the best rate below every saturated one. -/
theorem refinements_spec {measure : Nat → ℚ → LoadResult} (hm : Exclusive measure) (rounds : Nat)
    {upper : ℚ} {c : Coarse} (hlt : c.lower_zero < upper)
    (htrials : ∀ trial ∈ c.trials, isSaturated trial = true → upper ≤ trial.offered_target_mbps) :
    ∀ trial ∈ (refinements measure rounds c.lower_zero upper c).trials, isSaturated trial = true →
      (refinements measure rounds c.lower_zero upper c).lower_zero < trial.offered_target_mbps := by
  induction rounds generalizing upper c with
  | zero => exact fun trial ht hs => lt_of_lt_of_le hlt (htrials trial ht hs)
  | succ rounds ih =>
    rw [refinements]
    split
    · exact fun trial ht hs => lt_of_lt_of_le hlt (htrials trial ht hs)
    · obtain ⟨hlabel, hboth⟩ := hm c.trials.length ((c.lower_zero + upper) / 2)
      have hlo : c.lower_zero < (c.lower_zero + upper) / 2 := by linarith
      have hhi : (c.lower_zero + upper) / 2 < upper := by linarith
      dsimp only
      split
      · rename_i hz
        have hmax : max c.lower_zero ((c.lower_zero + upper) / 2) = (c.lower_zero + upper) / 2 :=
          max_eq_right (le_of_lt hlo)
        rw [hmax]
        refine ih (c := { c with
          lower_zero := (c.lower_zero + upper) / 2
          trials := c.trials ++ [measure c.trials.length ((c.lower_zero + upper) / 2)] }) hhi
          fun trial ht hs => ?_
        rcases List.mem_append.1 ht with ht | ht
        · exact htrials trial ht hs
        · rw [List.mem_singleton.1 ht, hboth hz] at hs
          cases hs
      · refine ih (c := { c with
          trials := c.trials ++ [measure c.trials.length ((c.lower_zero + upper) / 2)] }) hlo
          fun trial ht hs => ?_
        rcases List.mem_append.1 ht with ht | ht
        · exact le_of_lt (lt_of_lt_of_le hhi (htrials trial ht hs))
        · rw [List.mem_singleton.1 ht, hlabel]

/-- **No capacity is reported at a rate judged saturated**, nor above one. -/
theorem capacity_zero_loss {measure : Nat → ℚ → LoadResult} (hm : Exclusive measure) (size : Nat)
    {coarse_rates_mbps : List ℚ} (hsorted : coarse_rates_mbps.Pairwise (· < ·))
    (hpos : ∀ rate ∈ coarse_rates_mbps, 0 < rate) (rounds : Nat) :
    ∀ trial ∈ (capacityOf measure size coarse_rates_mbps rounds).trials, isSaturated trial = true →
      (capacityOf measure size coarse_rates_mbps rounds).zero_loss_mbps < trial.offered_target_mbps := by
  have hspec := coarse_spec hm (c := { trials := [], lower_zero := 0, upper_saturated := none })
    hsorted hpos (fun trial ht => by cases ht) rfl
  unfold capacityOf
  dsimp only
  rcases hspec with ⟨hnone, hfree⟩ | ⟨upper, hsome, hlt, htrials⟩
  · rw [hnone]
    intro trial ht hs
    rw [hfree trial ht] at hs
    cases hs
  · rw [hsome]
    exact refinements_spec hm rounds hlt htrials

/-- A trial at the given rate whose sender ran through its plan. -/
def RanThrough (rate : ℚ) (result : LoadResult) : Prop :=
  ∃ (cfg : Config) (stale : List Bytes) (s : Load) (measurement_ns drain_ns : Nat),
    OtherRuns cfg.run_id stale ∧ (load cfg stale).Reachable s ∧ s.Joined ∧ s.sender ≠ .stopped ∧
      result = loadResult cfg rate measurement_ns drain_ns s

theorem exclusive {measure : Nat → ℚ → LoadResult} (h : ∀ n rate, RanThrough rate (measure n rate)) :
    Exclusive measure := by
  intro n rate
  obtain ⟨cfg, stale, s, measurement_ns, drain_ns, hstale, hreach, hj, hstop, he⟩ := h n rate
  rw [he]
  exact ⟨rfl, zero_loss_not_saturated (reachable_inv hstale hreach) hj hstop rate measurement_ns drain_ns⟩

/-- **Offered load is honest exactly when the sender was not stopped**: then the
bytes are those of the successful sends and of the credited replies and no
result has both verdicts, and a capacity measured from such loads at ascending
rates lies below every saturated rate. -/
theorem offered_load_honest {cfg : Config} {stale : List Bytes} (hstale : OtherRuns cfg.run_id stale)
    {s : Load} (hs : (load cfg stale).Reachable s) (hj : s.Joined) (target_mbps : ℚ)
    (measurement_ns drain_ns : Nat) :
    (Honest cfg s target_mbps measurement_ns drain_ns ↔ s.sender ≠ .stopped) ∧
    ∀ measure : Nat → ℚ → LoadResult, (∀ n rate, RanThrough rate (measure n rate)) →
      ∀ (size : Nat) (coarse_rates_mbps : List ℚ), coarse_rates_mbps.Pairwise (· < ·) →
        (∀ rate ∈ coarse_rates_mbps, 0 < rate) → ∀ rounds : Nat,
        ∀ trial ∈ (capacityOf measure size coarse_rates_mbps rounds).trials,
          isSaturated trial = true →
          (capacityOf measure size coarse_rates_mbps rounds).zero_loss_mbps ≠
            trial.offered_target_mbps := by
  constructor
  · exact honest_iff (reachable_inv hstale hs) hj target_mbps measurement_ns drain_ns
  · intro measure hm size rates hsorted hpos rounds trial ht hsat
    exact ne_of_lt (capacity_zero_loss (exclusive hm) size hsorted hpos rounds trial ht hsat)

/-! ## A sender stopped at once -/

/-- The boundary has passed before the first packet: nothing is sent. -/
theorem stopped_run : ∃ s, (load (oneSoak.interval 0 onePacket) []).Reachable s ∧ s.Joined ∧
    s.sender = .stopped ∧ s.states = [.unsent] ∧ s.accepted = [] ∧
    s.totals (oneSoak.interval 0 onePacket) = { PacketCounters.default with planned := 1 } := by
  have r0 := LTS.Reachable.start (M := load (oneSoak.interval 0 onePacket) []) rfl
  have r1 := r0.snoc (l := .sender) (SenderStep.stop rfl Nat.one_pos)
  have r2 := r1.snoc (l := .receiver) (ReceiverStep.done rfl)
  exact ⟨_, r2, ⟨.inr rfl, rfl⟩, rfl, rfl, rfl, rfl⟩

theorem no_other_runs (run_id : UInt64) : OtherRuns run_id [] := fun _ hp => by cases hp

/-- One packet in a second is enough for 256 bits a second and not for a megabit. -/
theorem one_packet_saturates {s : Load} (hst : s.states = [.received])
    (ht : s.totals (oneSoak.interval 0 onePacket) =
      { PacketCounters.default with planned := 1, sent := 1, valid_replies := 1 }) :
    isSaturated (loadResult (oneSoak.interval 0 onePacket) (256 / 1000000) 1000000000 0 s) = false ∧
      isSaturated (loadResult (oneSoak.interval 0 onePacket) 1 1000000000 0 s) = true := by
  have hsent : sentPayloadBytes (oneSoak.interval 0 onePacket) s = 32 := by
    rw [sentPayloadBytes, countedBytes, hst]
    rfl
  have hvalid : validPayloadBytes (oneSoak.interval 0 onePacket) s = 32 := by
    rw [validPayloadBytes, countedBytes, hst]
    rfl
  constructor
  · simp only [isSaturated, loadResult, hsent, hvalid, ht]
    simp [PacketCounters.default, mbps, seconds, percentage]
    norm_num
  · simp only [isSaturated, loadResult, hsent, hvalid, ht]
    simp [PacketCounters.default, mbps, seconds, percentage]
    norm_num

/-- The packet that came back was offered and was good, and trials that each
send it find a capacity of less than a megabit. -/
theorem offered_load_honest_one_packet :
    ∃ s, (load (oneSoak.interval 0 onePacket) []).Reachable s ∧ s.Joined ∧
      Honest (oneSoak.interval 0 onePacket) s 1 1000000000 0 ∧
      ∃ measure : Nat → ℚ → LoadResult, (∀ n rate, RanThrough rate (measure n rate)) ∧
        ∃ trial ∈ (capacityOf measure 32 [256 / 1000000, 1] 0).trials, isSaturated trial = true ∧
          (capacityOf measure 32 [256 / 1000000, 1] 0).zero_loss_mbps ≠ trial.offered_target_mbps := by
  obtain ⟨s, hr, hj, hf, hst, ht⟩ := one_packet_run
  have hstop : s.sender ≠ .stopped := by rw [hf]; intro e; cases e
  obtain ⟨hhonest, hcapacity⟩ := offered_load_honest (no_other_runs _) hr hj 1 1000000000 0
  have hran : ∀ rate, RanThrough rate (loadResult (oneSoak.interval 0 onePacket) rate 1000000000 0 s) :=
    fun rate => ⟨_, _, s, _, _, no_other_runs _, hr, hj, hstop, rfl⟩
  obtain ⟨hfree, hsaturated⟩ := one_packet_saturates hst ht
  have hlast : loadResult (oneSoak.interval 0 onePacket) 1 1000000000 0 s ∈ (capacityOf
      (fun _ rate => loadResult (oneSoak.interval 0 onePacket) rate 1000000000 0 s) 32
        [256 / 1000000, 1] 0).trials := by
    simp [capacityOf, coarse, refinements, hfree, hsaturated]
  exact ⟨s, hr, hj, hhonest.2 hstop, _, fun _ rate => hran rate, _, hlast, hsaturated,
    hcapacity _ (fun _ rate => hran rate) 32 [256 / 1000000, 1] (by norm_num) (by norm_num) 0 _ hlast hsaturated⟩

/-- **Nothing was sent, the whole plan is reported as offered**, and the load
is both without loss and saturated: 32 bytes in a second, at that very target. -/
theorem unsent_counted_as_offered :
    ∃ s, (load (oneSoak.interval 0 onePacket) []).Reachable s ∧ s.Joined ∧
      sentPayloadBytes (oneSoak.interval 0 onePacket) s = 32 ∧
      totalSize (oneSoak.interval 0 onePacket) s.accepted = 0 ∧
      isZeroLoss (loadResult (oneSoak.interval 0 onePacket) (256 / 1000000) 1000000000 0 s) = true ∧
      isSaturated (loadResult (oneSoak.interval 0 onePacket) (256 / 1000000) 1000000000 0 s) = true ∧
      ¬ Honest (oneSoak.interval 0 onePacket) s (256 / 1000000) 1000000000 0 := by
  obtain ⟨s, hr, hj, -, hst, hacc, ht⟩ := stopped_run
  have hsent : sentPayloadBytes (oneSoak.interval 0 onePacket) s = 32 := by
    rw [sentPayloadBytes, countedBytes, hst]
    rfl
  have hvalid : validPayloadBytes (oneSoak.interval 0 onePacket) s = 0 := by
    rw [validPayloadBytes, countedBytes, hst]
    rfl
  have hnone : totalSize (oneSoak.interval 0 onePacket) s.accepted = 0 := by rw [hacc]; rfl
  refine ⟨s, hr, hj, hsent, hnone, ?_, ?_, fun h => ?_⟩
  · simp only [isZeroLoss, loadResult, hsent, ht]
    simp [PacketCounters.default, mbps, seconds]
    norm_num
  · simp only [isSaturated, loadResult, hsent, hvalid, ht]
    simp [PacketCounters.default, mbps, seconds, percentage]
  · have := h.1
    rw [hsent, hnone] at this
    cases this

end Nucleo.Echo
