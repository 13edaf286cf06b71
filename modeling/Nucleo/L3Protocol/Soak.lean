import Nucleo.L2Machine.Load

/-!
# Soaks and the reliability verdict

A soak is one load after the other, each under its own run ID, on one network:
echoes of an interval may still arrive in a later one. `streamReliable` judges
the summed counters.

Results:
* `load_counts`: what the counters of one load say when both threads have
  joined.
* `reliable_interval`: of a soak judged reliable, every interval sent its whole
  plan and received it back, once each, in order and in time.
* `load_accounting`: both, with the outstanding counter of every reachable state.
-/
namespace Nucleo.Echo

/-! ## One load -/

/-- Neither thread is between a state change and its counter update. -/
def Load.Settled (s : Load) : Prop :=
  (∀ packet, s.sender ≠ .raise packet) ∧ (∀ now_ns, s.sender ≠ .expireSub now_ns) ∧
    s.sender ≠ .failedSub ∧ ∀ index rtt_ns, s.receiver ≠ .sub index rtt_ns

theorem Tally.settled {s : Load} (h : Tally s) (hs : s.Settled) :
    s.outstanding = (s.states.count .outstanding : Nat) := by
  obtain ⟨hraise, hexpire, hfailed, hsub⟩ := hs
  have hsender : s.sender.owes = 0 := by
    cases he : s.sender with
    | raise packet => exact absurd he (hraise packet)
    | expireSub now_ns => exact absurd he (hexpire now_ns)
    | failedSub => exact absurd he hfailed
    | _ => rfl
  have hreceiver : s.receiver.owes = 0 := by
    cases he : s.receiver with
    | sub index rtt_ns => exact absurd he (hsub index rtt_ns)
    | _ => rfl
  rw [Tally, Load.balance, hsender, hreceiver] at h
  omega

/-- Late receipts are credited. -/
theorem late_le_credits (timeout_ns : Nat) (entries : List Entry) :
    entries.countP (·.late timeout_ns) ≤
      ((entries.filter (·.receipt.credited)).map (·.index)).length := by
  rw [List.length_map, ← List.countP_eq_length_filter]
  refine List.countP_mono_left fun e _ he => ?_
  cases hr : e.receipt with
  | valid | late => rfl
  | duplicate | foreign => simp [Entry.late, hr] at he

/-- The sequences of a load that has sent and credited, in numbers. -/
theorem Inv.credits_le {cfg : Config} {s : Load} (h : Inv cfg s) :
    s.credits.length ≤ s.accepted.length := by
  have hsub : s.credits ⊆ s.accepted := fun index hi => (h.book.credited index hi).1
  exact (h.log.once.subperm hsub).length_le

theorem Inv.accepted_le {cfg : Config} {s : Load} (h : Inv cfg s) :
    s.accepted.length ≤ cfg.count := by
  have hnodup : s.accepted.Nodup := h.slots.ordered.imp fun hlt => Nat.ne_of_lt hlt
  have hsub : s.accepted ⊆ List.range cfg.count := fun index hi =>
    List.mem_range.2 (h.slots.accepted_lt hi)
  simpa using (hnodup.subperm hsub).length_le

theorem Inv.sent_count {cfg : Config} {s : Load} (h : Inv cfg s) (hj : s.Joined) :
    s.sent_count = s.accepted.length := by
  have := h.wire.sent
  rw [if_neg (by rcases hj.1 with he | he <;> (rw [he]; intro e; cases e))] at this
  exact this

/-- **The totals of a load add up.** -/
theorem load_counts {cfg : Config} {s : Load} (h : Inv cfg s) (hj : s.Joined) :
    (s.totals cfg).valid_replies + (s.totals cfg).missing = (s.totals cfg).sent ∧
      (s.totals cfg).late ≤ (s.totals cfg).valid_replies ∧
      (s.totals cfg).sent ≤ (s.totals cfg).planned := by
  have hvalid := h.log.valid
  have hlate := h.log.late
  have hle := h.credits_le
  have hsent := h.sent_count hj
  have hplan := h.accepted_le
  have := late_le_credits cfg.timeout_ns s.entries
  refine ⟨?_, ?_, ?_⟩
  · change s.counters.valid_replies + (s.sent_count - s.counters.valid_replies) = s.sent_count
    omega
  · change s.counters.late ≤ s.counters.valid_replies
    rw [hlate, hvalid]
    exact this
  · change s.sent_count ≤ cfg.count
    omega

/-! ## Soaks -/

/-- mirrors Rust/tools/udp-benchmark/src/runner.rs:899-910 -/
def addCounters (total value : PacketCounters) : PacketCounters where
  planned := total.planned + value.planned
  sent := total.sent + value.sent
  valid_replies := total.valid_replies + value.valid_replies
  missing := total.missing + value.missing
  late := total.late + value.late
  duplicates := total.duplicates + value.duplicates
  reordered := total.reordered + value.reordered
  corrupt := total.corrupt + value.corrupt
  foreign := total.foreign + value.foreign
  send_errors := total.send_errors + value.send_errors

structure SoakConfig where
  timeout_ns : Nat
  window : Nat
  run_id : UInt64

/-- The load of one interval; its run ID is `run_id.wrapping_add(interval_index)`. -/
def SoakConfig.interval (cfg : SoakConfig) (index : Nat) (plan : PayloadPlan) : Config where
  plan := plan
  timeout_ns := cfg.timeout_ns
  window := cfg.window
  run_id := cfg.run_id + UInt64.ofNat index

/-- One finished interval: its configuration and the state both threads left. -/
structure Interval where
  cfg : Config
  load : Load

/-- A soak after some intervals. What earlier intervals sent may still arrive
in a later one. `interval_index` is a `u64`.
mirrors Rust/tools/udp-benchmark/src/runner.rs:404-463 -/
inductive Soak (cfg : SoakConfig) : List Interval → Prop
  | start : Soak cfg []
  | next {intervals : List Interval} {plan : PayloadPlan} {s : Load} : Soak cfg intervals →
      intervals.length < 2 ^ 64 →
      (load (cfg.interval intervals.length plan)
        (intervals.flatMap fun i => i.load.wire)).Reachable s →
      s.Joined → Soak cfg (intervals ++ [⟨cfg.interval intervals.length plan, s⟩])

/-- The counters of a `SoakResult`. -/
def totals (intervals : List Interval) : PacketCounters :=
  (intervals.map fun i => i.load.totals i.cfg).foldl addCounters .default

/-- mirrors Rust/tools/udp-benchmark/src/main.rs:1037-1049 -/
def streamReliable (counters : PacketCounters) (target_hz achieved_hz : ℚ) : Bool :=
  achieved_hz ≥ target_hz * (98 / 100) &&
    counters.sent == counters.planned &&
    counters.valid_replies == counters.sent &&
    counters.missing == 0 &&
    counters.late == 0 &&
    counters.duplicates == 0 &&
    counters.reordered == 0 &&
    counters.corrupt == 0 &&
    counters.foreign == 0 &&
    counters.send_errors == 0

/-- mirrors Rust/tools/udp-benchmark/src/main.rs:1051-1059 -/
def streamErrorEvents (counters : PacketCounters) : Nat :=
  counters.missing + counters.late + counters.duplicates + counters.reordered + counters.corrupt +
    counters.foreign + counters.send_errors

/-- A stream is reliable when the rate was offered, all of the plan was sent
and came back, and no error event was logged. -/
theorem streamReliable_iff (counters : PacketCounters) (target_hz achieved_hz : ℚ) :
    streamReliable counters target_hz achieved_hz = true ↔
      achieved_hz ≥ target_hz * (98 / 100) ∧ counters.sent = counters.planned ∧
        counters.valid_replies = counters.sent ∧ streamErrorEvents counters = 0 := by
  simp only [streamReliable, streamErrorEvents, Bool.and_eq_true, beq_iff_eq, decide_eq_true_eq,
    Nat.add_eq_zero_iff, and_assoc]

/-- Everything sent, everything back, nothing else. -/
def Clean (c : PacketCounters) : Prop :=
  c.sent = c.planned ∧ c.valid_replies = c.sent ∧ streamErrorEvents c = 0

/-- What holds of the counters of every load. -/
def Bounded (c : PacketCounters) : Prop := c.sent ≤ c.planned ∧ c.valid_replies ≤ c.sent

/-- Clean sums have clean summands. -/
theorem clean_summands {cs : List PacketCounters} (hcs : ∀ c ∈ cs, Bounded c) {d : PacketCounters}
    (hd : Bounded d) (h : Clean (cs.foldl addCounters d)) : Clean d ∧ ∀ c ∈ cs, Clean c := by
  induction cs generalizing d with
  | nil => exact ⟨h, fun c hc => by cases hc⟩
  | cons c cs ih =>
    have hc := hcs c List.mem_cons_self
    have hsum : Bounded (addCounters d c) := by
      simp only [Bounded, addCounters] at hd hc ⊢
      omega
    obtain ⟨hdc, hrest⟩ := ih (fun c' hc' => hcs c' (List.mem_cons_of_mem _ hc')) hsum h
    have hboth : Clean d ∧ Clean c := by
      simp only [Clean, Bounded, streamErrorEvents, addCounters] at hd hc hdc ⊢
      omega
    refine ⟨hboth.1, fun c' hc' => ?_⟩
    rcases List.mem_cons.1 hc' with rfl | hc'
    · exact hboth.2
    · exact hrest c' hc'

/-! ## Intervals -/

theorem run_id_ne {run_id : UInt64} {j k : Nat} (hj : j < 2 ^ 64) (hk : k < 2 ^ 64) (hne : j ≠ k) :
    run_id + UInt64.ofNat j ≠ run_id + UInt64.ofNat k := by
  intro h
  apply hne
  have h := congrArg UInt64.toNat ((UInt64.add_right_inj _).1 h)
  rwa [UInt64.toNat_ofNat', UInt64.toNat_ofNat', Nat.mod_eq_of_lt hj, Nat.mod_eq_of_lt hk] at h

/-- An interval that kept the invariant, under the run ID of its position. -/
structure Interval.Sound (cfg : SoakConfig) (position : Nat) (i : Interval) : Prop where
  run_id : i.cfg.run_id = cfg.run_id + UInt64.ofNat position
  timeout : i.cfg.timeout_ns = cfg.timeout_ns
  inv : Inv i.cfg i.load
  joined : i.load.Joined

/-- The datagrams of a sound interval are of its own run. -/
theorem Interval.Sound.wire {cfg : SoakConfig} {position : Nat} {i : Interval}
    (h : i.Sound cfg position) {packet : Bytes} (hp : packet ∈ i.load.wire) :
    ∃ size header, encode size header = .ok packet ∧
      header.run_id = cfg.run_id + UInt64.ofNat position := by
  obtain ⟨index, -, sent_ns, he⟩ := h.inv.wire.wire packet hp
  exact ⟨_, _, he, h.run_id⟩

theorem soak_sound {cfg : SoakConfig} {intervals : List Interval} (h : Soak cfg intervals) :
    intervals.length ≤ 2 ^ 64 ∧
      ∀ (position : Nat) (i : Interval), intervals[position]? = some i → i.Sound cfg position := by
  induction h with
  | start => exact ⟨Nat.zero_le _, fun position i hi => by simp at hi⟩
  | @next intervals plan s hprev hlen hreach hjoined ih =>
    refine ⟨by rw [List.length_append, List.length_singleton]; exact hlen, fun position i hi => ?_⟩
    rcases Nat.lt_or_ge position intervals.length with hlt | hge
    · rw [List.getElem?_append_left hlt] at hi
      exact ih.2 position i hi
    · rw [List.getElem?_append_right hge] at hi
      obtain ⟨hpos, he⟩ := List.getElem?_eq_some_iff.1 hi
      rw [List.length_singleton] at hpos
      have hposition : position = intervals.length := by omega
      subst hposition
      simp only [Nat.sub_self, List.getElem_cons_zero] at he
      subst he
      have hother : OtherRuns (cfg.interval intervals.length plan).run_id
          (intervals.flatMap fun i => i.load.wire) := by
        intro packet hp
        obtain ⟨i, hi, hp⟩ := List.mem_flatMap.1 hp
        obtain ⟨j, hj⟩ := List.mem_iff_getElem?.1 hi
        obtain ⟨size, header, he, hrun⟩ := (ih.2 j i hj).wire hp
        have hjlt : j < intervals.length := (List.getElem?_eq_some_iff.1 hj).1
        exact ⟨size, header, he, by
          rw [hrun]; exact run_id_ne (Nat.lt_trans hjlt hlen) hlen (Nat.ne_of_lt hjlt)⟩
      exact ⟨rfl, rfl, reachable_inv hother hreach, hjoined⟩

/-- An increasing list of `n` numbers below `n` is all of them. -/
theorem increasing_eq_range {l : List Nat} {n : Nat} (hl : l.Pairwise (· < ·))
    (hlt : ∀ i ∈ l, i < n) (hlen : n ≤ l.length) : l = List.range n := by
  have hnodup : l.Nodup := hl.imp fun hlt => Nat.ne_of_lt hlt
  have hsub : l.Subperm (List.range n) := hnodup.subperm fun i hi => List.mem_range.2 (hlt i hi)
  have hperm : l.Perm (List.range n) :=
    hsub.perm_of_length_le (by rw [List.length_range]; exact hlen)
  exact hperm.eq_of_pairwise (fun a b _ _ hab hba => absurd hab (Nat.lt_asymm hba)) hl
    List.pairwise_lt_range

/-- What a reliable verdict vouches for in one load: the whole plan was sent in
order, and the receiver took in one echo of each sequence, in order, each in
time. -/
structure Delivered (cfg : Config) (s : Load) : Prop where
  sent : s.accepted = List.range cfg.count
  echoed : s.entries.map (·.index) = List.range cfg.count
  credited : ∀ e ∈ s.entries, e.receipt = .valid
  timely : ∀ e ∈ s.entries, e.rtt_ns ≤ cfg.timeout_ns

theorem delivered {cfg : Config} {s : Load} (h : Inv cfg s) (hj : s.Joined)
    (hclean : Clean (s.totals cfg)) : Delivered cfg s := by
  obtain ⟨hplanned, hvalid, hevents⟩ := hclean
  simp only [streamErrorEvents, Load.totals, Nat.add_eq_zero_iff] at hplanned hvalid hevents
  obtain ⟨⟨⟨⟨⟨⟨-, hlate⟩, hdup⟩, hreordered⟩, -⟩, -⟩, -⟩ := hevents
  have hsent : s.accepted = List.range cfg.count := by
    refine increasing_eq_range h.slots.ordered (fun i hi => h.slots.accepted_lt hi) ?_
    rw [← h.sent_count hj, hplanned]
  have hall : ∀ e ∈ s.entries, e.receipt = .valid ∧ e.rtt_ns ≤ cfg.timeout_ns := by
    intro e he
    have hnotlate : ¬ e.late cfg.timeout_ns = true := by
      rw [h.log.late] at hlate
      exact List.countP_eq_zero.1 hlate e he
    have hnotdup : ¬ decide (e.receipt = .duplicate) = true := by
      rw [h.log.duplicates] at hdup
      exact List.countP_eq_zero.1 hdup e he
    have hknown := h.log.known e he
    cases hr : e.receipt with
    | valid =>
      simp only [Entry.late, hr, reduceCtorEq, decide_false, decide_true, Bool.false_or,
        Bool.true_and, decide_eq_true_eq, Nat.not_lt] at hnotlate
      exact ⟨rfl, hnotlate⟩
    | late => simp [Entry.late, hr] at hnotlate
    | duplicate => simp [hr] at hnotdup
    | foreign => exact absurd hr hknown
  have hcredits : s.credits = s.entries.map (·.index) := by
    rw [Load.credits, List.filter_eq_self.2 fun e he => by rw [(hall e he).1]; rfl]
  refine ⟨hsent, ?_, fun e he => (hall e he).1, fun e he => (hall e he).2⟩
  rw [← hcredits]
  refine increasing_eq_range (h.log.reordered hreordered) (fun i hi => ?_) ?_
  · exact h.slots.accepted_lt (h.book.credited i hi).1
  · rw [← h.log.valid, hvalid, hplanned]

/-- **A soak judged reliable delivered every interval.** -/
theorem reliable_interval {cfg : SoakConfig} {intervals : List Interval} (h : Soak cfg intervals)
    {target_hz achieved_hz : ℚ} (hr : streamReliable (totals intervals) target_hz achieved_hz = true) :
    ∀ i ∈ intervals, Delivered i.cfg i.load ∧ i.cfg.timeout_ns = cfg.timeout_ns := by
  have hsound : ∀ i ∈ intervals, ∃ position, i.Sound cfg position := by
    intro i hi
    obtain ⟨position, hp⟩ := List.mem_iff_getElem?.1 hi
    exact ⟨position, (soak_sound h).2 position i hp⟩
  have hclean : Clean (totals intervals) := ((streamReliable_iff _ _ _).1 hr).2
  have hbounded : ∀ c ∈ intervals.map fun i => i.load.totals i.cfg, Bounded c := by
    intro c hc
    obtain ⟨i, hi, rfl⟩ := List.mem_map.1 hc
    obtain ⟨position, hs⟩ := hsound i hi
    obtain ⟨hsum, -, hplan⟩ := load_counts hs.inv hs.joined
    exact ⟨hplan, by omega⟩
  have hparts := (clean_summands hbounded ⟨Nat.le_refl _, Nat.le_refl _⟩ hclean).2
  intro i hi
  obtain ⟨position, hs⟩ := hsound i hi
  exact ⟨delivered hs.inv hs.joined (hparts _ (List.mem_map.2 ⟨i, hi, rfl⟩)), hs.timeout⟩

/-- **Load accounting.** In every interleaving: a sequence is credited at most
once, the outstanding counter is never negative and counts the sequences in
state 1 between updates, the totals add up, and a soak judged reliable was
delivered. -/
theorem load_accounting :
    (∀ (cfg : Config) (stale : List Bytes), OtherRuns cfg.run_id stale →
      ∀ s, (load cfg stale).Reachable s →
        s.credits.Nodup ∧ s.counters.valid_replies = s.credits.length ∧ 0 ≤ s.outstanding ∧
        (s.Settled → s.outstanding = (s.states.count .outstanding : Nat)) ∧
        (s.Joined →
          (s.totals cfg).valid_replies + (s.totals cfg).missing = (s.totals cfg).sent ∧
          (s.totals cfg).late ≤ (s.totals cfg).valid_replies)) ∧
    (∀ (cfg : SoakConfig) (intervals : List Interval), Soak cfg intervals →
      ∀ target_hz achieved_hz : ℚ,
        streamReliable (totals intervals) target_hz achieved_hz = true →
        ∀ i ∈ intervals, Delivered i.cfg i.load ∧ i.cfg.timeout_ns = cfg.timeout_ns) := by
  refine ⟨fun cfg stale hstale s hs => ?_, fun cfg intervals h _ _ hr => reliable_interval h hr⟩
  have hinv := reachable_inv hstale hs
  refine ⟨hinv.log.once, hinv.log.valid, hinv.tally.nonneg hinv.slots, hinv.tally.settled, fun hj => ?_⟩
  obtain ⟨hsum, hlate, -⟩ := load_counts hinv hj
  exact ⟨hsum, hlate⟩

/-! ## A soak of one packet -/

/-- One packet without payload. -/
def onePacket : PayloadPlan where
  sizes := [32]
  sized size hs := by rw [List.mem_singleton.1 hs]; exact Nat.le_refl 32
  fits := by norm_num

def oneSoak : SoakConfig := { timeout_ns := 100, window := 1, run_id := 7 }

theorem recv_echo {cfg : Config} {stale : List Bytes} {s : Load} {packet : Bytes} {index : Nat}
    (hpc : s.receiver = .recv) (hp : packet ∈ s.wire)
    (he : receive cfg.run_id cfg.plan.sizes packet = .echo index) :
    ReceiverStep cfg stale s { s with receiver := .time index } := by
  have hstep : ReceiverStep cfg stale s (s.judge (receive cfg.run_id cfg.plan.sizes packet)) :=
    .recv hpc (.inl hp)
  rwa [he] at hstep

/-- Sent at 5, back at 20. -/
theorem one_packet_run : ∃ s, (load (oneSoak.interval 0 onePacket) []).Reachable s ∧ s.Joined ∧
    s.sender = .finished ∧ s.states = [.received] ∧ s.totals (oneSoak.interval 0 onePacket) =
      { PacketCounters.default with planned := 1, sent := 1, valid_replies := 1 } := by
  have hpacket : encode headerLen (sentHeader 7 0 5) = .ok _ := encode_ok (Nat.le_refl headerLen)
  have hecho : receive 7 onePacket.sizes _ = .echo 0 :=
    receive_encode Nat.one_pos (by norm_num) hpacket
  have r0 := LTS.Reachable.start (M := load (oneSoak.interval 0 onePacket) []) rfl
  have r1 := r0.snoc (l := .sender) (SenderStep.next rfl Nat.one_pos)
  have r2 := r1.snoc (l := .sender) (SenderStep.room rfl Int.one_pos)
  have r3 := r2.snoc (l := .sender) (SenderStep.stamp 5 rfl hpacket)
  have r4 := r3.snoc (l := .sender) (SenderStep.publish rfl)
  have r5 := r4.snoc (l := .sender) (SenderStep.raise rfl)
  have r6 := r5.snoc (l := .sender) (SenderStep.sendOk rfl)
  have r7 := r6.snoc (l := .sender) (SenderStep.sent rfl)
  have r8 := r7.snoc (l := .sender) (SenderStep.finish rfl (Nat.le_refl 1))
  have r9 := r8.snoc (l := .receiver) (recv_echo rfl (List.mem_singleton.2 rfl) hecho)
  have r10 := r9.snoc (l := .receiver) (ReceiverStep.time 20 rfl)
  have r11 := r10.snoc (l := .receiver) (ReceiverStep.swapValid rfl rfl)
  have r12 := r11.snoc (l := .receiver) (ReceiverStep.sub rfl)
  have r13 := r12.snoc (l := .receiver) (ReceiverStep.done rfl)
  exact ⟨_, r13, ⟨.inl rfl, rfl⟩, rfl, rfl, rfl⟩

theorem load_accounting_one_packet :
    ∃ i, Soak oneSoak [i] ∧ streamReliable (totals [i]) 1 1 = true ∧ Delivered i.cfg i.load := by
  obtain ⟨s, hr, hj, -, -, ht⟩ := one_packet_run
  have hsoak : Soak oneSoak [⟨oneSoak.interval 0 onePacket, s⟩] :=
    Soak.next .start (by norm_num) hr hj
  have hreliable : streamReliable (totals [⟨oneSoak.interval 0 onePacket, s⟩]) 1 1 = true := by
    rw [streamReliable_iff, totals, List.map_singleton, ht]
    exact ⟨by norm_num, rfl, rfl, rfl⟩
  exact ⟨_, hsoak, hreliable,
    (load_accounting.2 oneSoak _ hsoak 1 1 hreliable _ (List.mem_singleton.2 rfl)).1⟩

end Nucleo.Echo
