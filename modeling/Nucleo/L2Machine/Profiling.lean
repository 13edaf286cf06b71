import Nucleo.Core.Endian
import Nucleo.Core.Level
import Nucleo.Core.Lts

/-!
# Busy cycles from a counter that wraps

`profiling.rs` times the executor: its trace hooks open and close intervals,
read off the 32 bits of DWT CYCCNT. Here true time is a cycle count without a
bound, and the counter is its low 32 bits. A snapshot reads the open interval
and leaves it open, so the hooks alone keep the readings close together.

The stack figures of a snapshot come with the call: they are read from painted
memory. The firmware's totals wrap at 64 bits.

Results:
* `wrappingSub_elapsed`: a wrapping difference of close readings is exact.
* `run_tracks`: the totals of every run, in true time.
* `profiling_exact`: what every snapshot reports.
-/
namespace Nucleo.Profiling
open Endian Level

abbrev Bytes := List UInt8

/-! ## `profiling.rs` -/

/-- `PROFILING_MAGIC`: `STRMPRF1`. -/
def profilingMagic : Bytes := [0x53, 0x54, 0x52, 0x4d, 0x50, 0x52, 0x46, 0x31]

def cpuHz : UInt32 := 400000000

def timeTicksHz : UInt32 := 32768

/-- mirrors Rust/src/profiling.rs:20-25 -/
structure State where
  busy_cycles : UInt64
  polls : UInt64
  active_since : Option UInt32
  reset_ticks : UInt64
  deriving DecidableEq

/-- The state at boot. -/
def State.boot : State := ⟨0, 0, none, 0⟩

/-- mirrors Rust/src/profiling.rs:45-55 -/
def reset (now : UInt32) (ticks : UInt64) : State where
  busy_cycles := 0
  polls := 0
  active_since := some now
  reset_ticks := ticks

/-- `now.wrapping_sub(start) as u64`, if there is a start. -/
def State.active (s : State) (now : UInt32) : UInt64 :=
  match s.active_since with
  | none => 0
  | some start => (now - start).toUInt64

/-- `_embassy_trace_poll_start`.
mirrors Rust/src/profiling.rs:108-122 -/
def State.pollStart (s : State) (now : UInt32) : State :=
  { s with busy_cycles := s.busy_cycles + s.active now, active_since := some now, polls := s.polls + 1 }

/-- `_embassy_trace_executor_idle`.
mirrors Rust/src/profiling.rs:124-133 -/
def State.executorIdle (s : State) (now : UInt32) : State :=
  { s with busy_cycles := s.busy_cycles + s.active now, active_since := none }

/-- What `stack_usage` returns. -/
structure StackUsage where
  used : UInt32
  capacity : UInt32
  deriving DecidableEq

/-- mirrors Rust/src/profiling.rs:57-77 -/
def State.encodeSnapshot (s : State) (now_cycles : UInt32) (now_ticks : UInt64) (stack : StackUsage) : Bytes :=
  profilingMagic ++ toLE 4 cpuHz.toNat ++ toLE 4 timeTicksHz.toNat ++
    toLE 8 (s.busy_cycles + s.active now_cycles).toNat ++ toLE 8 (now_ticks.toNat - s.reset_ticks.toNat) ++
    toLE 8 s.polls.toNat ++ toLE 4 stack.used.toNat ++ toLE 4 stack.capacity.toNat

/-- mirrors Rust/tools/udp-benchmark/src/profile.rs:98-100 -/
def u64At (bytes : Bytes) (offset : Nat) : Nat := ofLE ((bytes.drop offset).take 8)

/-! ## Calls in true time -/

inductive Event
  | pollStart
  | executorIdle
  | snapshot (stack : StackUsage)
  | reset
  deriving DecidableEq

/-- An event, the true time in cycles and the reading of the other clock. -/
structure Call where
  event : Event
  now : Nat
  ticks : UInt64
  deriving DecidableEq

/-- `DWT::cycle_count()`. -/
def Call.cyccnt (c : Call) : UInt32 := UInt32.ofNat c.now

/-- One call, and the record of a snapshot. -/
def machine : Machine State Call (Option Bytes) where
  step s c :=
    match c.event with
    | .pollStart => (s.pollStart c.cyccnt, none)
    | .executorIdle => (s.executorIdle c.cyccnt, none)
    | .snapshot stack => (s, some (s.encodeSnapshot c.cyccnt c.ticks stack))
    | .reset => (reset c.cyccnt c.ticks, none)

def Call.isSnapshot (c : Call) : Bool := c.event matches .snapshot _

/-! ## What a snapshot should report -/

/-- What a call makes of the executor: a poll and a reset find it busy. -/
def Event.busy : Event → Option Bool
  | .pollStart | .reset => some true
  | .executorIdle => some false
  | .snapshot _ => none

/-- When the executor became busy or idle. -/
def switches (calls : List Call) : List (Nat × Bool) :=
  calls.filterMap fun c => c.event.busy.map fun busy => (c.now, busy)

/-- The executor is busy after the calls. -/
def busy (calls : List Call) : Bool := final (switches calls)

/-- The time of the last call that was no snapshot. -/
def lastSwitch (calls : List Call) : Nat := ((switches calls).getLast?.map (·.1)).getD 0

/-- The time of the last reset, or else that of boot. -/
def since (calls : List Call) : Nat := ((calls.reverse.find? (·.event = .reset)).map (·.now)).getD 0

/-- The cycles from the last reset up to `now` at which the executor was busy. -/
def busyCycles (calls : List Call) (now : Nat) : Nat := upTime (switches calls) (since calls) now

/-- The polls since the last reset. -/
def pollStarts (calls : List Call) : Nat :=
  (calls.reverse.takeWhile (·.event ≠ .reset)).countP (·.event = .pollStart)

/-- Times that do not go back. -/
def Ordered (calls : List Call) : Prop := calls.Pairwise fun a b => a.now ≤ b.now

/-- In a busy period every call comes less than 2^32 cycles after `reference`
of the calls before it. -/
def Close (reference : List Call → Nat) (calls : List Call) : Prop :=
  ∀ before c after, calls = before ++ c :: after → busy before = true → c.now < reference before + 2 ^ 32

/-- The time of the last call of any kind. -/
def lastCall (calls : List Call) : Nat := (calls.getLast?.map (·.now)).getD 0

theorem close_nil (reference : List Call → Nat) : Close reference [] := by
  intro before c after he
  simp at he

theorem close_snoc {reference : List Call → Nat} {calls : List Call} {c : Call} :
    Close reference (calls ++ [c]) ↔
      Close reference calls ∧ (busy calls = true → c.now < reference calls + 2 ^ 32) := by
  constructor
  · intro h
    refine ⟨fun before d after he => h before d (after ++ [c]) (by simp [he]), h calls c [] rfl⟩
  · rintro ⟨h, hc⟩ before d after he
    rcases List.eq_nil_or_concat after with rfl | ⟨rest, e, rfl⟩
    · obtain ⟨rfl, hd⟩ := List.append_inj' he rfl
      obtain rfl : c = d := by simpa using hd
      exact hc
    · rw [List.concat_eq_append, ← List.cons_append, ← List.append_assoc] at he
      exact h before d rest (List.append_inj' he rfl).1

/-- **The difference of close readings is exact**, wrapped or not. -/
theorem wrappingSub_elapsed {start now : Nat} (hle : start ≤ now) (hlt : now < start + 2 ^ 32) :
    (UInt32.ofNat now - UInt32.ofNat start).toUInt64 = UInt64.ofNat (now - start) := by
  rw [← UInt64.toNat_inj, UInt32.toNat_toUInt64, UInt32.toNat_sub, UInt64.toNat_ofNat']
  have hnow : (UInt32.ofNat now).toNat = now % 2 ^ 32 := by simp
  have hstart : (UInt32.ofNat start).toNat = start % 2 ^ 32 := by simp
  rw [hnow, hstart]
  omega

/-! ## One more call -/

section
variable (calls : List Call) (c : Call)

theorem switches_snoc : switches (calls ++ [c]) =
    switches calls ++ (c.event.busy.map fun busy => (c.now, busy)).toList := by
  unfold switches
  rw [List.filterMap_append]
  cases hb : c.event.busy <;> simp [hb]

theorem since_snoc : since (calls ++ [c]) = if c.event = .reset then c.now else since calls := by
  unfold since
  rw [List.reverse_append, List.reverse_singleton, List.singleton_append, List.find?_cons]
  by_cases hr : c.event = .reset <;> simp [hr]

theorem pollStarts_snoc : pollStarts (calls ++ [c]) =
    if c.event = .reset then 0 else pollStarts calls + if c.event = .pollStart then 1 else 0 := by
  unfold pollStarts
  rw [List.reverse_append, List.reverse_singleton, List.singleton_append, List.takeWhile_cons]
  by_cases hr : c.event = .reset
  · simp [hr]
  · simp [hr, List.countP_cons]

variable {calls c}

/-- A call that finds the executor busy or idle. -/
theorem switch_snoc {value : Bool} (h : c.event.busy = some value) :
    switches (calls ++ [c]) = switches calls ++ [(c.now, value)] ∧ busy (calls ++ [c]) = value ∧
      lastSwitch (calls ++ [c]) = c.now := by
  have hs : switches (calls ++ [c]) = switches calls ++ [(c.now, value)] := by rw [switches_snoc, h]; rfl
  refine ⟨hs, ?_, ?_⟩
  · rw [busy, hs, final_snoc]
  · simp [lastSwitch, hs]

/-- A snapshot. -/
theorem idle_snoc (h : c.event.busy = none) :
    switches (calls ++ [c]) = switches calls ∧ busy (calls ++ [c]) = busy calls ∧
      lastSwitch (calls ++ [c]) = lastSwitch calls := by
  have hs : switches (calls ++ [c]) = switches calls := by rw [switches_snoc, h]; exact List.append_nil _
  exact ⟨hs, by rw [busy, hs]; rfl, by rw [lastSwitch, hs]; rfl⟩

end

/-! ## Order -/

theorem Ordered.before {calls : List Call} {c : Call} (h : Ordered (calls ++ [c])) : Ordered calls :=
  (List.pairwise_append.1 h).1

theorem Ordered.le {calls : List Call} {c : Call} (h : Ordered (calls ++ [c])) : ∀ d ∈ calls, d.now ≤ c.now :=
  fun d hd => (List.pairwise_append.1 h).2.2 d hd c (List.mem_singleton.2 rfl)

/-- The last reset is a switch, and no switch comes after the last one. -/
theorem Ordered.times {calls : List Call} (h : Ordered calls) :
    since calls ≤ lastSwitch calls ∧ (∀ s ∈ switches calls, s.1 ≤ lastSwitch calls) ∧
      ∀ t, (∀ d ∈ calls, d.now ≤ t) → lastSwitch calls ≤ t := by
  induction calls using List.reverseRecOn with
  | nil => exact ⟨Nat.le_refl 0, by simp [switches], fun t _ => Nat.zero_le t⟩
  | append_singleton calls c ih =>
    obtain ⟨hsince, hswitches, hbound⟩ := ih h.before
    have hc := h.le
    have hlast := hbound c.now hc
    cases hb : c.event.busy with
    | none =>
      obtain ⟨hs, -, hl⟩ := @idle_snoc calls c hb
      have hreset : c.event ≠ .reset := by
        intro he
        rw [he] at hb
        cases hb
      rw [since_snoc, if_neg hreset, hs, hl]
      exact ⟨hsince, hswitches, fun t ht => hbound t fun d hd => ht d (List.mem_append_left _ hd)⟩
    | some value =>
      obtain ⟨hs, -, hl⟩ := @switch_snoc calls c value hb
      rw [since_snoc, hs, hl]
      refine ⟨?_, fun s hmem => ?_, fun t ht => ht c (by simp)⟩
      · split
        · exact Nat.le_refl _
        · exact Nat.le_trans hsince hlast
      · rcases List.mem_append.1 hmem with hmem | hmem
        · exact Nat.le_trans (hswitches s hmem) hlast
        · rw [List.mem_singleton.1 hmem]

/-! ## The totals -/

/-- The state in true time. -/
structure Tracks (calls : List Call) (s : State) : Prop where
  active : s.active_since = if busy calls then some (UInt32.ofNat (lastSwitch calls)) else none
  cycles : s.busy_cycles = UInt64.ofNat (busyCycles calls (lastSwitch calls))
  polls : s.polls = UInt64.ofNat (pollStarts calls)

/-- **The open interval** brings the total up to a time that is close. -/
theorem Tracks.elapsed {calls : List Call} {s : State} (h : Tracks calls s) (ho : Ordered calls) {t : Nat}
    (hle : lastSwitch calls ≤ t) (hclose : busy calls = true → t < lastSwitch calls + 2 ^ 32) :
    s.busy_cycles + s.active (UInt32.ofNat t) = UInt64.ofNat (busyCycles calls t) := by
  obtain ⟨hsince, hswitches, -⟩ := ho.times
  have hsplit : busyCycles calls t =
      busyCycles calls (lastSwitch calls) + if busy calls then t - lastSwitch calls else 0 := by
    unfold busyCycles
    rw [upTime_append hsince hle, upTime_last hswitches]
    rfl
  rw [hsplit, UInt64.ofNat_add, h.cycles]
  congr 1
  unfold State.active
  rw [h.active]
  cases hb : busy calls with
  | false => rfl
  | true => exact wrappingSub_elapsed hle (hclose hb)

/-- A poll or an idle closes the open interval. -/
theorem Tracks.closed {calls : List Call} {c : Call} {s : State} (h : Tracks calls s) (ho : Ordered (calls ++ [c]))
    (hclose : busy calls = true → c.now < lastSwitch calls + 2 ^ 32) {value : Bool} (hb : c.event.busy = some value)
    (hr : c.event ≠ .reset) :
    s.busy_cycles + s.active c.cyccnt = UInt64.ofNat (busyCycles (calls ++ [c]) (lastSwitch (calls ++ [c]))) := by
  obtain ⟨hs, -, hl⟩ := @switch_snoc calls c value hb
  have hle := ho.before.times.2.2 c.now ho.le
  rw [Call.cyccnt, h.elapsed ho.before hle hclose, hl]
  unfold busyCycles
  rw [since_snoc, if_neg hr, hs, upTime_snoc (Nat.le_refl _)]

/-- **Every call keeps the totals in true time.** -/
theorem Tracks.next {calls : List Call} {c : Call} {s : State} (h : Tracks calls s) (ho : Ordered (calls ++ [c]))
    (hclose : busy calls = true → c.now < lastSwitch calls + 2 ^ 32) : Tracks (calls ++ [c]) (machine.next s c) := by
  obtain ⟨event, now, ticks⟩ := c
  cases event with
  | snapshot stack =>
    obtain ⟨hs, hb, hl⟩ := @idle_snoc calls ⟨.snapshot stack, now, ticks⟩ rfl
    refine ⟨?_, ?_, ?_⟩
    · rw [hb, hl]
      exact h.active
    · rw [busyCycles, since_snoc, hs, hl]
      exact h.cycles
    · rw [pollStarts_snoc]
      exact h.polls
  | pollStart =>
    obtain ⟨-, hb, hl⟩ := @switch_snoc calls ⟨.pollStart, now, ticks⟩ true rfl
    refine ⟨?_, h.closed ho hclose rfl nofun, ?_⟩
    · rw [hb, hl]
      rfl
    · rw [pollStarts_snoc]
      simp only [reduceCtorEq, if_false, if_true]
      rw [UInt64.ofNat_add, ← h.polls]
      rfl
  | executorIdle =>
    obtain ⟨-, hb, -⟩ := @switch_snoc calls ⟨.executorIdle, now, ticks⟩ false rfl
    refine ⟨?_, h.closed ho hclose rfl nofun, ?_⟩
    · rw [hb]
      rfl
    · rw [pollStarts_snoc]
      exact h.polls
  | reset =>
    obtain ⟨-, hb, hl⟩ := @switch_snoc calls ⟨.reset, now, ticks⟩ true rfl
    refine ⟨?_, ?_, ?_⟩
    · rw [hb, hl]
      rfl
    · rw [busyCycles, since_snoc, if_pos rfl, hl, upTime_self]
      rfl
    · rw [pollStarts_snoc, if_pos rfl]
      rfl

/-- **Every run keeps the totals in true time.** -/
theorem run_tracks {calls : List Call} (ho : Ordered calls) (hclose : Close lastSwitch calls) :
    Tracks calls (machine.run .boot calls) := by
  induction calls using List.reverseRecOn with
  | nil => exact ⟨rfl, by rw [busyCycles, lastSwitch, since]; simp [switches, upTime_self, State.boot], rfl⟩
  | append_singleton calls c ih =>
    obtain ⟨hbefore, hc⟩ := close_snoc.1 hclose
    rw [Machine.run_snoc]
    exact (ih ho.before hbefore).next ho hc

/-! ## Snapshots -/

theorem u64At_append {before : Bytes} {n offset : Nat} (ho : before.length = offset) (hn : n < 2 ^ 64)
    (after : Bytes) :
    u64At (before ++ (toLE 8 n ++ after)) offset = n := by
  subst ho
  have htake : (toLE 8 n ++ after).take 8 = toLE 8 n := by
    rw [List.take_append_of_le_length (by simp), List.take_of_length_le (by simp)]
  rw [u64At, List.drop_left, htake]
  exact ofLE_toLE (by omega)

/-- The two totals in the bytes of a snapshot. -/
theorem snapshot_totals (s : State) (now : UInt32) (ticks : UInt64) (stack : StackUsage) :
    u64At (s.encodeSnapshot now ticks stack) 16 = (s.busy_cycles + s.active now).toNat ∧
      u64At (s.encodeSnapshot now ticks stack) 32 = s.polls.toNat := by
  unfold State.encodeSnapshot
  constructor
  · simp only [List.append_assoc]
    rw [← List.append_assoc, ← List.append_assoc]
    exact u64At_append (by simp [profilingMagic]) (UInt64.toNat_lt _) _
  · simp only [List.append_assoc]
    rw [← List.append_assoc, ← List.append_assoc, ← List.append_assoc, ← List.append_assoc]
    exact u64At_append (by simp [profilingMagic]) (UInt64.toNat_lt _) _

theorem isSnapshot_next {c : Call} (h : c.isSnapshot = true) (s : State) : machine.next s c = s := by
  obtain ⟨event, now, ticks⟩ := c
  cases event with
  | snapshot stack => rfl
  | pollStart | executorIdle | reset => cases h

/-- Snapshots leave no trace in a run. -/
theorem run_filter (s : State) (calls : List Call) :
    machine.run s (calls.filter fun c => !c.isSnapshot) = machine.run s calls := by
  induction calls generalizing s with
  | nil => rfl
  | cons c calls ih =>
    rw [List.filter_cons, Machine.run_cons]
    cases hc : c.isSnapshot with
    | true =>
      rw [isSnapshot_next hc]
      exact ih s
    | false => exact ih (machine.next s c)

/-- **Busy cycles are exact across the wrap.** Let the poll starts, idles and
resets of each busy period follow each other in less than 2^32 cycles, and each
snapshot the last of them. Then every snapshot reports the cycles since the last
reset at which the executor was busy, and the polls since then; leaving
snapshots out changes nothing. -/
theorem profiling_exact {calls : List Call} (ho : Ordered calls) (hclose : Close lastSwitch calls) :
    (∀ before c after stack, calls = before ++ c :: after → c.event = .snapshot stack →
      ∃ bytes, machine.out (machine.run .boot before) c = some bytes ∧
        (busyCycles before c.now < 2 ^ 64 → u64At bytes 16 = busyCycles before c.now) ∧
        (pollStarts before < 2 ^ 64 → u64At bytes 32 = pollStarts before)) ∧
    ∀ s, machine.run s (calls.filter fun c => !c.isSnapshot) = machine.run s calls := by
  refine ⟨fun before c after stack he hevent => ?_, fun s => run_filter s calls⟩
  rw [he, List.append_cons] at ho hclose
  have ho : Ordered (before ++ [c]) := (List.pairwise_append.1 ho).1
  have hclose : Close lastSwitch (before ++ [c]) := fun before d rest he =>
    hclose before d (rest ++ after) (by rw [he, List.append_assoc, List.cons_append])
  obtain ⟨hbefore, hc⟩ := close_snoc.1 hclose
  have htracks := run_tracks ho.before hbefore
  have helapsed := htracks.elapsed ho.before (ho.before.times.2.2 c.now ho.le) hc
  obtain ⟨hbusy, hpolls⟩ := snapshot_totals (machine.run .boot before) c.cyccnt c.ticks stack
  refine ⟨(machine.run .boot before).encodeSnapshot c.cyccnt c.ticks stack, ?_, fun hlt => ?_, fun hlt => ?_⟩
  · simp only [Machine.out, machine, hevent]
  · rw [hbusy, Call.cyccnt, helapsed, UInt64.toNat_ofNat', Nat.mod_eq_of_lt hlt]
  · rw [hpolls, htracks.polls, UInt64.toNat_ofNat', Nat.mod_eq_of_lt hlt]

/-- A reset shortly before the counter wraps, a poll after it and a snapshot
once the executor has been idle for longer than a wrap. -/
def wrapped : List Call :=
  [⟨.reset, 4294967000, 0⟩, ⟨.pollStart, 4294967400, 0⟩, ⟨.executorIdle, 4294968000, 0⟩,
    ⟨.snapshot ⟨0, 0⟩, 9000000000, 0⟩]

theorem profiling_exact_wrapped :
    Ordered wrapped ∧ Close lastSwitch wrapped ∧ busyCycles (wrapped.take 3) 9000000000 = 1000 ∧
      ∃ bytes, machine.out (machine.run .boot (wrapped.take 3)) ⟨.snapshot ⟨0, 0⟩, 9000000000, 0⟩ = some bytes ∧
        u64At bytes 16 = 1000 ∧ u64At bytes 32 = 1 := by
  have ho : Ordered wrapped := by
    unfold Ordered wrapped
    decide
  have hclose : Close lastSwitch wrapped := by
    unfold wrapped
    rw [show ∀ a b c d : Call, [a, b, c, d] = ((([] ++ [a]) ++ [b]) ++ [c]) ++ [d] from fun _ _ _ _ => rfl]
    rw [close_snoc, close_snoc, close_snoc, close_snoc]
    exact ⟨⟨⟨⟨close_nil _, by decide⟩, by decide⟩, by decide⟩, by decide⟩
  have hcycles : busyCycles (wrapped.take 3) 9000000000 = 1000 := by
    change upTime ((([] ++ [(4294967000, true)]) ++ [(4294967400, true)]) ++ [(4294968000, false)])
      4294967000 9000000000 = 1000
    rw [upTime_switch, upTime_switch, upTime_switch, upTime_self] <;> simp
  obtain ⟨bytes, hout, hbusy, hpolls⟩ := (profiling_exact ho hclose).1 (wrapped.take 3) _ [] ⟨0, 0⟩ rfl rfl
  refine ⟨ho, hclose, hcycles, bytes, hout, ?_, ?_⟩
  · rw [hbusy (by rw [hcycles]; decide), hcycles]
  · exact hpolls (by decide)

/-- **A snapshot does not bridge the wrap.** It leaves the interval open, so
calls three billion cycles apart can still leave six billion in one interval. -/
theorem snapshot_hides_wrap :
    let before : List Call := [⟨.reset, 0, 0⟩, ⟨.snapshot ⟨0, 0⟩, 3000000000, 0⟩]
    let c : Call := ⟨.snapshot ⟨0, 0⟩, 6000000000, 0⟩
    Ordered (before ++ [c]) ∧ Close lastCall (before ++ [c]) ∧ busyCycles before c.now = 6000000000 ∧
      ∃ bytes, machine.out (machine.run .boot before) c = some bytes ∧ u64At bytes 16 = 6000000000 - 2 ^ 32 := by
  refine ⟨by unfold Ordered; decide, ?_, ?_, _, rfl, ?_⟩
  · change Close lastCall ((([] ++ [_]) ++ [_]) ++ [_])
    rw [close_snoc, close_snoc, close_snoc]
    exact ⟨⟨⟨close_nil _, by decide⟩, by decide⟩, by decide⟩
  · change upTime ([] ++ [(0, true)]) 0 6000000000 = 6000000000
    rw [upTime_switch, upTime_self] <;> simp
  · rw [(snapshot_totals _ _ _ _).1]
    decide

end Nucleo.Profiling
