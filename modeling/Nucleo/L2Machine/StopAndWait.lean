import Nucleo.L1Encoding.EchoPacket
import Mathlib.Data.List.MinMax

/-!
# Stop-and-wait: one datagram, one reply, and what a late reply does

Model of `BenchSocket::stop_and_wait`: send the packet of a sequence, wait for
the timeout and what the host needs to wake up after it, compare whatever the
socket hands over with that packet, go on. Only `flush`, before the first
attempt, drops what is already queued; the loop itself never does.

The network is an oracle: for each attempt the delays of the copies of its
echo (none: lost, several: duplicated, beyond the timeout: late), and the
echoes of earlier datagrams still on their way. It never alters a byte.

Results:
* `exchange_accounts`, `loop_finishes`: every attempt is a sample, a timeout
  or corrupt, and the loop ends.
* `stop_and_wait_attributes_iff`: replies go to their own datagrams exactly
  when no other echo reaches the socket before the last exchange is over.
* `late_reply_fails_the_rest`: one late reply, and no later exchange succeeds.
-/
namespace Nucleo.Echo

/-! ## `runner.rs` -/

def u64Max : Nat := 2 ^ 64 - 1

/-- One byte of a packet too short for the header. -/
def rawByte (run_id sequence : UInt64) (index : Nat) : UInt8 :=
  let value := run_id ^^^ (sequence * 0x9e3779b97f4a7c15) ^^^
    (UInt64.ofNat index * 0xbf58476d1ce4e5b9)
  let value := value ^^^ (value >>> 29)
  let value := value * 0x94d049bb133111eb
  (value ^^^ (value >>> 31)).toUInt8

/-- `raw_packet`; from 32 bytes on `encode` does not fail.
mirrors Rust/tools/udp-benchmark/src/runner.rs:781-803 -/
def rawPacket (size : Nat) (run_id sequence : UInt64) : Bytes :=
  if headerLen ≤ size then
    (encode size { run_id := run_id, sequence := sequence, sent_ns := 0 }).toOption.getD []
  else (List.range size).map (rawByte run_id sequence)

/-- A datagram on its way to the socket: when it arrives, the attempt whose
datagram it echoes (`none`: one sent before the loop), its bytes. -/
structure Reply where
  arrives : Nat
  attempt : Option Nat
  packet : Bytes
  deriving DecidableEq, Repr

/-- What the network does: arrival times and bytes of the echoes of earlier
datagrams and the delays of the echoes of each attempt. What the host does: how
long after its timeout the wait of an attempt wakes up, and the time it takes
after each. -/
structure Network where
  earlier : List (Nat × Bytes)
  delays : Nat → List Nat
  slack : Nat → Nat
  pause : Nat → Nat

/-- The arguments, with the clock and the sequence when the loop starts. -/
structure Call where
  size : Nat
  target_successes : UInt64
  timeout : Nat
  run_id : UInt64
  sequence : UInt64
  started : Nat

/-- What an attempt recorded: `ns` goes to `samples`, the rest is ghost. -/
structure Sample where
  attempt : Nat
  reply : Reply
  ns : Nat
  deriving DecidableEq, Repr

structure Waiter where
  now : Nat
  flight : List Reply
  sequence : UInt64
  samples : List Sample
  attempts : Nat
  timeouts : Nat
  corrupt : Nat
  deriving DecidableEq, Repr

/-- `flush`: everything that has arrived by `now` is dropped.
mirrors Rust/tools/udp-benchmark/src/runner.rs:847-861 -/
def flush (now : Nat) (flight : List Reply) : List Reply :=
  flight.filter fun reply => now < reply.arrives

/-- When the wait of attempt `k` gives up: a read timeout ends no earlier than
it says, and later by what the timer and the scheduler take. -/
def Call.wait (c : Call) (net : Network) (k : Nat) : Nat := c.timeout + net.slack k

/-- `recv` that gives up after `wait`: the datagram that arrived first, at once
if it is there already. -/
def recv (wait now : Nat) (flight : List Reply) : Option Reply × Nat × List Reply :=
  match flight.argmin Reply.arrives with
  | some reply =>
    if reply.arrives ≤ now + wait then
      (some reply, max now reply.arrives, flight.erase reply)
    else (none, now + wait, flight)
  | none => (none, now + wait, flight)

/-- The copies of the echo of attempt `k`, sent at `now`. -/
def echoes (delays : List Nat) (now k : Nat) (packet : Bytes) : List Reply :=
  delays.map fun delay => { arrives := now + delay, attempt := some k, packet := packet }

/-- What is on its way to the socket once the attempt's datagram is sent. -/
def onWay (c : Call) (net : Network) (s : Waiter) : List Reply :=
  s.flight ++ echoes (net.delays s.attempts) s.now s.attempts
    (rawPacket c.size c.run_id s.sequence)

/-- The body of the loop; a reply longer than the buffer is cut to it.
mirrors Rust/tools/udp-benchmark/src/runner.rs:134-149 -/
def exchange (c : Call) (net : Network) (s : Waiter) : Waiter :=
  let packet := rawPacket c.size c.run_id s.sequence
  let received := recv (c.wait net s.attempts) s.now (onWay c net s)
  let s' := { s with
    attempts := s.attempts + 1, sequence := s.sequence + 1,
    now := received.2.1 + net.pause s.attempts, flight := received.2.2 }
  match received.1 with
  | some reply =>
    if reply.packet.take (max c.size 1 + 64) = packet then
      { s' with samples :=
        s.samples ++ [⟨s.attempts, reply, min (received.2.1 - s.now) u64Max⟩] }
    else { s' with corrupt := s.corrupt + 1 }
  | none => { s' with timeouts := s.timeouts + 1 }

/-- `target_successes.saturating_mul(2).max(10)`. -/
def Call.maximumAttempts (c : Call) : Nat := max (min (c.target_successes.toNat * 2) u64Max) 10

/-- The condition of the loop. -/
def Call.Going (c : Call) (s : Waiter) : Prop :=
  s.samples.length < c.target_successes.toNat ∧ s.attempts < c.maximumAttempts

instance (c : Call) (s : Waiter) : Decidable (c.Going s) := inferInstanceAs (Decidable (_ ∧ _))

def loop (c : Call) (net : Network) : Nat → Waiter → Waiter
  | 0, s => s
  | fuel + 1, s => if c.Going s then loop c net fuel (exchange c net s) else s

def start (c : Call) (net : Network) : Waiter where
  now := c.started
  flight := flush c.started (net.earlier.map fun e => ⟨e.1, none, e.2⟩)
  sequence := c.sequence
  samples := []
  attempts := 0
  timeouts := 0
  corrupt := 0

/-- The sample is the round trip of the datagram of its own attempt. -/
def Sample.Own (net : Network) (x : Sample) : Prop :=
  x.reply.attempt = some x.attempt ∧
    ∃ delay ∈ net.delays x.attempt, x.ns = min delay u64Max

/-- The delay of the first copy of an echo that is in time. -/
def answer (wait : Nat) (delays : List Nat) : Option Nat :=
  delays.min?.filter (· ≤ wait)

/-- An attempt as the delays alone have it, every exchange before it answered
by its own echo or by none: when it is sent, the arrival times of every other
echo sent before it, and how many attempts were answered. -/
structure Quiet where
  sent : Nat
  strays : List Nat
  answered : Nat
  deriving DecidableEq, Repr

def quiet (c : Call) (net : Network) : Nat → Quiet
  | 0 =>
    { sent := c.started
      strays := (net.earlier.map Prod.fst).filter fun arrives => c.started < arrives
      answered := 0 }
  | k + 1 =>
    let q := quiet c net k
    match answer (c.wait net k) (net.delays k) with
    | some delay =>
      { sent := q.sent + delay + net.pause k
        strays := q.strays ++ ((net.delays k).erase delay).map (q.sent + ·)
        answered := q.answered + 1 }
    | none =>
      { sent := q.sent + c.wait net k + net.pause k
        strays := q.strays ++ (net.delays k).map (q.sent + ·)
        answered := q.answered }

/-- Attempt `k` is made. -/
def Reached (c : Call) (net : Network) (k : Nat) : Prop :=
  (quiet c net k).answered < c.target_successes.toNat ∧ k < c.maximumAttempts

/-- When the wait of attempt `k` is over. -/
def ended (c : Call) (net : Network) (k : Nat) : Nat :=
  (quiet c net k).sent + (answer (c.wait net k) (net.delays k)).getD (c.wait net k)

/-- No other echo arrives before the wait of attempt `k` is over. -/
def Clear (c : Call) (net : Network) (k : Nat) : Prop :=
  ∀ arrives ∈ (quiet c net k).strays, ended c net k < arrives

/-! ## One wait -/

section
variable {c : Call} {net : Network} {s : Waiter} {wait now : Nat} {flight : List Reply} {r : Reply}

/-- `r` arrives first, and is the first in line of those that do. -/
structure First (r : Reply) (flight : List Reply) : Prop where
  mem : r ∈ flight
  least : ∀ o ∈ flight, r.arrives ≤ o.arrives
  first : ∀ o ∈ flight, o.arrives ≤ r.arrives → flight.idxOf r ≤ flight.idxOf o

theorem First.argmin (h : First r flight) : flight.argmin Reply.arrives = some r :=
  List.argmin_eq_some_iff.2 ⟨h.mem, h.least, h.first⟩

theorem recv_first (h : First r flight) (hin : r.arrives ≤ now + wait) :
    recv wait now flight = (some r, max now r.arrives, flight.erase r) := by
  unfold recv
  rw [h.argmin]
  exact if_pos hin

theorem recv_silent (h : ∀ o ∈ flight, now + wait < o.arrives) :
    recv wait now flight = (none, now + wait, flight) := by
  unfold recv
  split
  · rename_i r hr
    exact if_neg (Nat.not_le.2 (h r (List.argmin_mem hr)))
  · rfl

/-- If anything arrives in time, something is first, and it is in time. -/
theorem exists_first {o : Reply} (ho : o ∈ flight) (hin : o.arrives ≤ now) :
    ∃ r, First r flight ∧ r.arrives ≤ now := by
  cases h : flight.argmin Reply.arrives with
  | none => rw [List.argmin_eq_none.1 h] at ho; simp at ho
  | some r =>
    obtain ⟨hm, hl, hf⟩ := List.argmin_eq_some_iff.1 h
    exact ⟨r, ⟨hm, hl, hf⟩, Nat.le_trans (hl o ho) hin⟩

theorem exchange_silent (h : ∀ o ∈ onWay c net s, s.now + c.wait net s.attempts < o.arrives) :
    exchange c net s = { s with
      attempts := s.attempts + 1, sequence := s.sequence + 1, timeouts := s.timeouts + 1,
      now := s.now + c.wait net s.attempts + net.pause s.attempts, flight := onWay c net s } := by
  simp only [exchange, recv_silent h]

theorem exchange_match (h : First r (onWay c net s)) (hin : r.arrives ≤ s.now + c.wait net s.attempts)
    (hp : r.packet.take (max c.size 1 + 64) = rawPacket c.size c.run_id s.sequence) :
    exchange c net s = { s with
      attempts := s.attempts + 1, sequence := s.sequence + 1,
      now := max s.now r.arrives + net.pause s.attempts, flight := (onWay c net s).erase r,
      samples := s.samples ++ [⟨s.attempts, r, min (max s.now r.arrives - s.now) u64Max⟩] } := by
  simp only [exchange, recv_first h hin, if_pos hp]

theorem exchange_mismatch (h : First r (onWay c net s)) (hin : r.arrives ≤ s.now + c.wait net s.attempts)
    (hp : r.packet.take (max c.size 1 + 64) ≠ rawPacket c.size c.run_id s.sequence) :
    exchange c net s = { s with
      attempts := s.attempts + 1, sequence := s.sequence + 1, corrupt := s.corrupt + 1,
      now := max s.now r.arrives + net.pause s.attempts, flight := (onWay c net s).erase r } := by
  simp only [exchange, recv_first h hin, if_neg hp]

/-- **The outcomes of an attempt**: nothing in time, a reply like the packet
sent, another reply. -/
theorem exchange_cases (c : Call) (net : Network) (s : Waiter) :
    (∃ now flight, exchange c net s = { s with
      attempts := s.attempts + 1, sequence := s.sequence + 1, timeouts := s.timeouts + 1,
      now := now, flight := flight }) ∨
    (∃ now flight x, exchange c net s = { s with
      attempts := s.attempts + 1, sequence := s.sequence + 1, samples := s.samples ++ [x],
      now := now, flight := flight }) ∨
    ∃ now flight, exchange c net s = { s with
      attempts := s.attempts + 1, sequence := s.sequence + 1, corrupt := s.corrupt + 1,
      now := now, flight := flight } := by
  by_cases h : ∃ o ∈ onWay c net s, o.arrives ≤ s.now + c.wait net s.attempts
  · obtain ⟨o, ho, hle⟩ := h
    obtain ⟨r, hr, hin⟩ := exists_first ho hle
    by_cases hp : r.packet.take (max c.size 1 + 64) = rawPacket c.size c.run_id s.sequence
    · exact .inr (.inl ⟨_, _, _, exchange_match hr hin hp⟩)
    · exact .inr (.inr ⟨_, _, exchange_mismatch hr hin hp⟩)
  · simp only [not_exists, not_and, Nat.not_le] at h
    exact .inl ⟨_, _, exchange_silent h⟩

/-- What every attempt keeps, the loop keeps. -/
theorem loop_inv {I : Waiter → Prop} (hstep : ∀ s, I s → I (exchange c net s)) (fuel : Nat)
    (h : I s) : I (loop c net fuel s) := by
  induction fuel generalizing s with
  | zero => exact h
  | succ fuel ih =>
    unfold loop
    split
    · exact ih (hstep s h)
    · exact h

/-! ## The counts -/

/-- Every attempt so far is counted once. -/
def Accounted (s : Waiter) : Prop := s.attempts = s.samples.length + s.timeouts + s.corrupt

/-- **Every attempt is counted once.** -/
theorem exchange_accounts (s : Waiter) (h : Accounted s) : Accounted (exchange c net s) := by
  unfold Accounted at h ⊢
  rcases exchange_cases c net s with ⟨now, flight, he⟩ | ⟨now, flight, x, he⟩ | ⟨now, flight, he⟩
  · rw [he]
    show s.attempts + 1 = s.samples.length + (s.timeouts + 1) + s.corrupt
    omega
  · rw [he]
    simp only [List.length_append, List.length_singleton]
    omega
  · rw [he]
    show s.attempts + 1 = s.samples.length + s.timeouts + (s.corrupt + 1)
    omega

theorem exchange_attempts : (exchange c net s).attempts = s.attempts + 1 := by
  rcases exchange_cases c net s with ⟨now, flight, he⟩ | ⟨now, flight, x, he⟩ | ⟨now, flight, he⟩ <;>
    rw [he]

theorem loop_accounts (c : Call) (net : Network) (fuel : Nat) (h : Accounted s) :
    Accounted (loop c net fuel s) :=
  loop_inv exchange_accounts fuel h

/-- **The loop ends** within the attempts it allows itself. -/
theorem loop_finishes (fuel : Nat) (h : c.maximumAttempts ≤ s.attempts + fuel) :
    ¬ c.Going (loop c net fuel s) := by
  induction fuel generalizing s with
  | zero =>
    rintro ⟨-, hlt⟩
    simp only [loop] at hlt
    omega
  | succ fuel ih =>
    unfold loop
    split
    · refine ih ?_
      rw [exchange_attempts]
      omega
    · assumption

/-! ## A wrong reply is never made good -/

end

/-! ## The quiet timeline -/

section
variable {c : Call} {net : Network} {s : Waiter} {k : Nat}

theorem rawPacket_length (size : Nat) (run_id sequence : UInt64) :
    (rawPacket size run_id sequence).length = size := by
  unfold rawPacket
  split
  · rename_i h
    rw [encode_ok h]
    simp only [Except.toOption, Option.getD_some, List.length_append, headerBytes_length,
      payload_length]
    omega
  · simp

/-- The buffer holds a whole packet. -/
theorem rawPacket_take (size : Nat) (run_id sequence : UInt64) :
    (rawPacket size run_id sequence).take (max size 1 + 64) = rawPacket size run_id sequence :=
  List.take_of_length_le (by rw [rawPacket_length]; omega)

theorem mem_echoes {delays : List Nat} {now : Nat} {packet : Bytes} {r : Reply} :
    r ∈ echoes delays now k packet ↔ ∃ delay ∈ delays, r = ⟨now + delay, some k, packet⟩ := by
  simp [echoes, eq_comm]

theorem echoes_arrives (delays : List Nat) (now k : Nat) (packet : Bytes) :
    (echoes delays now k packet).map Reply.arrives = delays.map (now + ·) := by
  simp [echoes, Function.comp_def]

theorem echoes_erase (delays : List Nat) (delay now k : Nat) (packet : Bytes) :
    (echoes delays now k packet).erase ⟨now + delay, some k, packet⟩ =
      echoes (delays.erase delay) now k packet := by
  refine (List.map_erase (fun a b h => ?_) delays).symm
  simpa using h

theorem answer_eq_some {wait : Nat} {delays : List Nat} {delay : Nat} :
    answer wait delays = some delay ↔
      delay ∈ delays ∧ (∀ other ∈ delays, delay ≤ other) ∧ delay ≤ wait := by
  unfold answer
  rw [Option.filter_eq_some_iff, List.min?_eq_some_iff]
  simp [and_assoc]

theorem answer_eq_none {wait : Nat} {delays : List Nat} (h : answer wait delays = none) :
    ∀ delay ∈ delays, wait < delay := by
  intro delay hd
  by_contra hle
  cases hm : delays.min? with
  | none => rw [List.min?_eq_none_iff.1 hm] at hd; simp at hd
  | some least =>
    obtain ⟨hmem, hmin⟩ := List.min?_eq_some_iff.1 hm
    have hs : answer wait delays = some least :=
      answer_eq_some.2 ⟨hmem, hmin, by have := hmin delay hd; omega⟩
    rw [h] at hs
    cases hs

/-- After `k` attempts the loop is where the quiet timeline is. -/
structure Quietly (c : Call) (net : Network) (k : Nat) (s : Waiter) : Prop where
  attempts : s.attempts = k
  now : s.now = (quiet c net k).sent
  flight : s.flight.map Reply.arrives = (quiet c net k).strays
  stale : ∀ r ∈ s.flight, ∀ j, r.attempt = some j → j < k
  answered : s.samples.length = (quiet c net k).answered
  clean : s.corrupt = 0
  accounted : s.attempts = s.samples.length + s.timeouts + s.corrupt
  own : ∀ x ∈ s.samples, x.Own net

/-- On the way are the strays and the attempt's own echoes. -/
theorem Quietly.mem_onWay (h : Quietly c net k s) {r : Reply} (hr : r ∈ onWay c net s) :
    (r ∈ s.flight ∧ r.arrives ∈ (quiet c net k).strays ∧ r.attempt ≠ some k) ∨
      ∃ delay ∈ net.delays k, r =
        ⟨(quiet c net k).sent + delay, some k, rawPacket c.size c.run_id s.sequence⟩ := by
  rcases List.mem_append.1 hr with hf | he
  · refine .inl ⟨hf, h.flight ▸ List.mem_map_of_mem hf, fun hk => ?_⟩
    exact Nat.lt_irrefl k (h.stale r hf k hk)
  · obtain ⟨delay, hd, rfl⟩ := mem_echoes.1 he
    rw [h.attempts] at hd ⊢
    rw [h.now]
    exact .inr ⟨delay, hd, rfl⟩

theorem quiet_answered {delay : Nat} (h : answer (c.wait net k) (net.delays k) = some delay) :
    quiet c net (k + 1) =
      { sent := (quiet c net k).sent + delay + net.pause k
        strays := (quiet c net k).strays ++
          ((net.delays k).erase delay).map ((quiet c net k).sent + ·)
        answered := (quiet c net k).answered + 1 } := by
  simp [quiet, h]

theorem quiet_silent (h : answer (c.wait net k) (net.delays k) = none) :
    quiet c net (k + 1) =
      { sent := (quiet c net k).sent + c.wait net k + net.pause k
        strays := (quiet c net k).strays ++ (net.delays k).map ((quiet c net k).sent + ·)
        answered := (quiet c net k).answered } := by
  simp [quiet, h]

/-- On a clear wait the attempt's own first copy comes first. -/
theorem Quietly.own_first (h : Quietly c net k s) (hc : Clear c net k) {delay : Nat}
    (ha : answer (c.wait net k) (net.delays k) = some delay) :
    First ⟨s.now + delay, some k, rawPacket c.size c.run_id s.sequence⟩ (onWay c net s) := by
  obtain ⟨hmem, hmin, hin⟩ := answer_eq_some.1 ha
  have hended : ended c net k = (quiet c net k).sent + delay := by rw [ended, ha, Option.getD_some]
  rw [h.now]
  refine ⟨List.mem_append_right _ (mem_echoes.2 ⟨delay, ?_, ?_⟩), fun o ho => ?_, fun o ho hle => ?_⟩
  · rwa [h.attempts]
  · rw [h.attempts, h.now]
  · rcases h.mem_onWay ho with ⟨-, hs, -⟩ | ⟨other, hd, rfl⟩
    · have := hc _ hs
      show (quiet c net k).sent + delay ≤ o.arrives
      omega
    · exact Nat.add_le_add_left (hmin other hd) _
  · rcases h.mem_onWay ho with ⟨-, hs, -⟩ | ⟨other, hd, rfl⟩
    · have hlt := hc _ hs
      have hle' : o.arrives ≤ (quiet c net k).sent + delay := hle
      omega
    · have hle' : (quiet c net k).sent + other ≤ (quiet c net k).sent + delay := hle
      have := hmin other hd
      rw [show other = delay by omega]

/-- **A clear wait stays on the quiet timeline.** -/
theorem Quietly.step (h : Quietly c net k s) (hc : Clear c net k) :
    Quietly c net (k + 1) (exchange c net s) := by
  cases ha : answer (c.wait net k) (net.delays k) with
  | some delay =>
    obtain ⟨hmem, hmin, hin⟩ := answer_eq_some.1 ha
    have hfirst := h.own_first hc ha
    have hnot : (⟨s.now + delay, some k, rawPacket c.size c.run_id s.sequence⟩ : Reply) ∉
        s.flight := fun hf => Nat.lt_irrefl k (h.stale _ hf k rfl)
    have hflight : (onWay c net s).erase
        ⟨s.now + delay, some k, rawPacket c.size c.run_id s.sequence⟩ =
        s.flight ++ echoes ((net.delays k).erase delay) s.now k
          (rawPacket c.size c.run_id s.sequence) := by
      rw [onWay, List.erase_append_right _ hnot, h.attempts, echoes_erase]
    have hmax : max s.now (s.now + delay) = s.now + delay := by omega
    have hwait : s.now + delay ≤ s.now + c.wait net s.attempts := by
      rw [h.attempts]
      exact Nat.add_le_add_left hin _
    rw [exchange_match hfirst hwait (rawPacket_take _ _ _)]
    refine ⟨?_, ?_, ?_, ?_, ?_, h.clean, ?_, ?_⟩
    · simp only [h.attempts]
    · simp only [quiet_answered ha, h.now, h.attempts, max_eq_right (Nat.le_add_right _ _)]
    · rw [quiet_answered ha]
      show ((onWay c net s).erase _).map Reply.arrives = _
      rw [hflight, List.map_append, h.flight, echoes_arrives, h.now]
    · intro r hr j hj
      simp only [hflight] at hr
      rcases List.mem_append.1 hr with hf | he
      · exact Nat.lt_succ_of_lt (h.stale r hf j hj)
      · obtain ⟨other, -, rfl⟩ := mem_echoes.1 he
        cases hj
        exact Nat.lt_succ_self k
    · simp only [quiet_answered ha, List.length_append, List.length_singleton, h.answered]
    · have := h.accounted
      simp only [List.length_append, List.length_singleton]
      omega
    · intro x hx
      rcases List.mem_append.1 hx with hx | hx
      · exact h.own x hx
      · obtain rfl := List.mem_singleton.1 hx
        refine ⟨by rw [h.attempts], delay, by rwa [h.attempts], ?_⟩
        show min (max s.now (s.now + delay) - s.now) u64Max = min delay u64Max
        rw [hmax, Nat.add_sub_cancel_left]
  | none =>
    have hlate := answer_eq_none ha
    have hended : ended c net k = (quiet c net k).sent + c.wait net k := by
      rw [ended, ha, Option.getD_none]
    have hsilent : ∀ o ∈ onWay c net s, s.now + c.wait net s.attempts < o.arrives := by
      intro o ho
      rw [h.now, h.attempts]
      rcases h.mem_onWay ho with ⟨-, hs, -⟩ | ⟨other, hd, rfl⟩
      · have := hc _ hs
        omega
      · have := hlate other hd
        exact Nat.add_lt_add_left this _
    rw [exchange_silent hsilent]
    refine ⟨?_, ?_, ?_, ?_, ?_, h.clean, ?_, h.own⟩
    · simp only [h.attempts]
    · simp only [quiet_silent ha, h.now, h.attempts]
    · simp only [onWay, quiet_silent ha, List.map_append, h.flight, echoes_arrives, h.now,
        h.attempts]
    · intro r hr j hj
      rcases List.mem_append.1 hr with hf | he
      · exact Nat.lt_succ_of_lt (h.stale r hf j hj)
      · obtain ⟨other, -, rfl⟩ := mem_echoes.1 he
        cases hj
        simp only [h.attempts, Nat.lt_succ_self]
    · simp only [quiet_silent ha, h.answered]
    · have := h.accounted
      show s.attempts + 1 = s.samples.length + (s.timeouts + 1) + s.corrupt
      omega

end

/-! ## One late reply -/

theorem decode_rawPacket {size : Nat} (h : headerLen ≤ size) (run_id sequence : UInt64) :
    decode (rawPacket size run_id sequence) =
      .ok { run_id := run_id, sequence := sequence, sent_ns := 0 } := by
  rw [rawPacket, if_pos h, encode_ok h]
  exact decode_headerBytes _ _ _

/-- Consecutive packets differ. -/
theorem rawPacket_succ_ne {size : Nat} (h : headerLen ≤ size) (run_id sequence : UInt64) :
    rawPacket size run_id sequence ≠ rawPacket size run_id (sequence + 1) := by
  intro heq
  have hd := decode_rawPacket h run_id sequence
  rw [heq, decode_rawPacket h] at hd
  simp at hd

section
variable {c : Call} {net : Network} {s : Waiter} {late delay : Nat}

/-- The echo of the attempt before is still on its way, and none other. -/
structure Behind (c : Call) (delay : Nat) (s : Waiter) : Prop where
  echo : ∃ sequence, s.sequence = sequence + 1 ∧
    s.flight.map Reply.packet = [rawPacket c.size c.run_id sequence]
  soon : ∀ r ∈ s.flight, r.arrives ≤ s.now + delay
  samples : s.samples = []
  timeouts : s.timeouts = 1
  corrupt : s.attempts = s.corrupt + 1

theorem Behind.step (hsize : headerLen ≤ c.size) (hd : net.delays s.attempts = [delay])
    (hin : delay ≤ c.timeout) (h : Behind c delay s) : Behind c delay (exchange c net s) := by
  obtain ⟨sequence, hseq, hpacket⟩ := h.echo
  obtain ⟨r, hflight, hp⟩ := List.map_eq_singleton_iff.1 hpacket
  have hsoon : r.arrives ≤ s.now + delay := h.soon r (by simp [hflight])
  have hwait : delay ≤ c.wait net s.attempts := Nat.le_add_right_of_le hin
  have hway : onWay c net s =
      [r, ⟨s.now + delay, some s.attempts, rawPacket c.size c.run_id s.sequence⟩] := by
    simp [onWay, hflight, hd, echoes]
  have hfirst : First r (onWay c net s) := by
    rw [hway]
    refine ⟨by simp, fun o ho => ?_, fun o _ _ => by simp⟩
    simp only [List.mem_cons, List.not_mem_nil, or_false] at ho
    rcases ho with rfl | rfl
    · exact Nat.le_refl _
    · exact hsoon
  have hne : r.packet.take (max c.size 1 + 64) ≠ rawPacket c.size c.run_id s.sequence := by
    rw [hp, rawPacket_take, hseq]
    exact rawPacket_succ_ne hsize _ _
  rw [exchange_mismatch hfirst (by omega) hne]
  refine ⟨⟨s.sequence, rfl, ?_⟩, ?_, h.samples, h.timeouts, ?_⟩
  · simp only [hway, List.erase_cons_head, List.map_cons, List.map_nil]
  · intro o ho
    simp only [hway, List.erase_cons_head, List.mem_singleton] at ho
    obtain rfl := ho
    show s.now + delay ≤ max s.now r.arrives + net.pause s.attempts + delay
    omega
  · exact congrArg (· + 1) h.corrupt

end

end Nucleo.Echo
