import Nucleo.Core.Lts
import Nucleo.L1Encoding.EchoPacket

/-!
# One load of the UDP benchmark

`BenchSocket::load` runs two threads over one vector of packet states. The
sender publishes a sequence as outstanding, sends it, and between packets
expires old ones when the window is full; the receiver credits echoes. `load`
interleaves their atomic accesses, one step each, with a network that may lose,
repeat, delay and reorder what was sent.

`Inv` ties every packet state to how far the sender is and to what was sent and
credited:
* `Slots`: a state is 0 before its sequence is published, 4 after its send
  failed, and 1, 2 or 3 once it was sent.
* `Tally`: the outstanding counter is the number of 1s, up to the update that
  each thread still owes.
* `Book`: the receiver's counters are those of the receipts it has given out.
-/
namespace Nucleo.Echo
open Endian

/-! ## What the threads share -/

/-- The packet state codes 0 to 4. -/
inductive PacketState
  | unsent | outstanding | received | expired | failed
  deriving DecidableEq, Repr

/-- mirrors Rust/tools/udp-benchmark/src/runner.rs:761-767 -/
inductive Receipt
  | valid | late | duplicate | foreign
  deriving DecidableEq, Repr

/-- The match of `classify_receipt` on the state it swapped out.
mirrors Rust/tools/udp-benchmark/src/runner.rs:769-779 -/
def classifyReceipt : PacketState → Receipt
  | .outstanding => .valid
  | .expired => .late
  | .received => .duplicate
  | .unsent | .failed => .foreign

theorem classifyReceipt_valid {state : PacketState} :
    classifyReceipt state = .valid ↔ state = .outstanding := by cases state <;> simp [classifyReceipt]

/-- mirrors Rust/tools/udp-benchmark/src/model.rs:45-57 -/
structure PacketCounters where
  planned : Nat
  sent : Nat
  valid_replies : Nat
  missing : Nat
  late : Nat
  duplicates : Nat
  reordered : Nat
  corrupt : Nat
  foreign : Nat
  send_errors : Nat
  deriving DecidableEq, Repr

def PacketCounters.default : PacketCounters := ⟨0, 0, 0, 0, 0, 0, 0, 0, 0, 0⟩

/-- `PayloadPlan`: sizes that pass the assertions of `fixed` and `mixed`, in a
vector the machine can index. -/
structure PayloadPlan where
  sizes : List UInt16
  sized : ∀ size ∈ sizes, headerLen ≤ size.toNat
  fits : sizes.length < 2 ^ 64

structure Config where
  plan : PayloadPlan
  timeout_ns : Nat
  window : Nat
  run_id : UInt64

/-- `packet_sizes.len()`. -/
def Config.count (cfg : Config) : Nat := cfg.plan.sizes.length

/-- `packet_sizes[index]`. -/
def Config.size (cfg : Config) (index : Nat) : Nat := (cfg.plan.sizes.getD index 0).toNat

/-! ## Program points -/

/-- Where the sender is in the body of one sequence. -/
inductive SenderAt
  /-- `for sequence in 0..count` -/
  | top
  /-- `while outstanding.load() >= window` -/
  | window
  /-- `expire_old`: `states[*cursor].load()` -/
  | expire (now_ns : UInt64)
  /-- `sent_times[*cursor].load()` -/
  | expireTime (now_ns : UInt64)
  /-- `compare_exchange(1, 3)` -/
  | expireSwap (now_ns : UInt64)
  /-- its `fetch_sub` -/
  | expireSub (now_ns : UInt64)
  /-- `sent_times[sequence].store()` -/
  | stamp
  /-- `states[sequence].store(1)` -/
  | publish (packet : Bytes)
  /-- `outstanding.fetch_add(1)` -/
  | raise (packet : Bytes)
  /-- `sender_socket.send(&packet)` -/
  | send (packet : Bytes)
  /-- `sent_count.fetch_add(1)` -/
  | sent
  /-- `states[sequence].swap(4)` -/
  | failed
  /-- its `fetch_sub` -/
  | failedSub
  /-- `send_errors.fetch_add(1)` -/
  | failedCount
  /-- the loop ran out -/
  | finished
  /-- `break` at the measurement boundary -/
  | stopped
  deriving DecidableEq, Repr

inductive ReceiverAt
  /-- `receiver_socket.recv()` -/
  | recv
  /-- `receiver_times[index].load()` -/
  | time (index : Nat)
  /-- `state.swap(2)` -/
  | swap (index : Nat) (rtt_ns : Nat)
  /-- its `fetch_sub` -/
  | sub (index : Nat) (rtt_ns : Nat)
  /-- the deadline has passed -/
  | done
  deriving DecidableEq, Repr

/-- An entry of the receiver's log: the index of an echo, what it was taken
for and its measured round trip. -/
structure Entry where
  index : Nat
  receipt : Receipt
  rtt_ns : Nat
  deriving DecidableEq, Repr

/-- One load. `outstanding` is an integer so that passing zero would show.
`wire` is every datagram a send handed over; `accepted` (the sequences of those
sends) and `entries` only record what happened. -/
structure Load where
  states : List PacketState
  sent_times : List UInt64
  outstanding : Int
  sent_count : Nat
  send_errors : Nat
  sequence : Nat
  sender : SenderAt
  cursor : Nat
  receiver : ReceiverAt
  counters : PacketCounters
  maximum_sequence : Option Nat
  samples : List Nat
  wire : List Bytes
  accepted : List Nat
  entries : List Entry
  deriving DecidableEq

def Load.start (cfg : Config) : Load where
  states := List.replicate cfg.count .unsent
  sent_times := List.replicate cfg.count 0
  outstanding := 0
  sent_count := 0
  send_errors := 0
  sequence := 0
  sender := .top
  cursor := 0
  receiver := .recv
  counters := .default
  maximum_sequence := none
  samples := []
  wire := []
  accepted := []
  entries := []

/-- `states[index].load()`. -/
def Load.state (s : Load) (index : Nat) : PacketState := s.states.getD index .unsent

/-- `sent_times[index].load()`. -/
def Load.sentNs (s : Load) (index : Nat) : UInt64 := s.sent_times.getD index 0

/-! ## The sender -/

/-- One atomic access of the sender.
mirrors Rust/tools/udp-benchmark/src/runner.rs:603-663, 805-830 -/
inductive SenderStep (cfg : Config) : Load → Load → Prop
  | finish {s : Load} : s.sender = .top → cfg.count ≤ s.sequence →
      SenderStep cfg s { s with sender := .finished }
  -- `Instant::now() >= start + measurement`
  | stop {s : Load} : s.sender = .top → s.sequence < cfg.count →
      SenderStep cfg s { s with sender := .stopped }
  | next {s : Load} : s.sender = .top → s.sequence < cfg.count →
      SenderStep cfg s { s with sender := .window }
  | room {s : Load} : s.sender = .window → s.outstanding < cfg.window →
      SenderStep cfg s { s with sender := .stamp }
  | full {s : Load} (now_ns : UInt64) : s.sender = .window → (cfg.window : Int) ≤ s.outstanding →
      SenderStep cfg s { s with sender := .expire now_ns }
  | expireEnd {s : Load} {now_ns : UInt64} : s.sender = .expire now_ns → s.sequence ≤ s.cursor →
      SenderStep cfg s { s with sender := .window }
  | expireSkip {s : Load} {now_ns : UInt64} : s.sender = .expire now_ns → s.cursor < s.sequence →
      s.state s.cursor ≠ .outstanding → SenderStep cfg s { s with cursor := s.cursor + 1 }
  | expireLook {s : Load} {now_ns : UInt64} : s.sender = .expire now_ns → s.cursor < s.sequence →
      s.state s.cursor = .outstanding → SenderStep cfg s { s with sender := .expireTime now_ns }
  | expireYoung {s : Load} {now_ns : UInt64} : s.sender = .expireTime now_ns →
      now_ns.toNat - (s.sentNs s.cursor).toNat < cfg.timeout_ns →
      SenderStep cfg s { s with sender := .window }
  | expireOld {s : Load} {now_ns : UInt64} : s.sender = .expireTime now_ns →
      cfg.timeout_ns ≤ now_ns.toNat - (s.sentNs s.cursor).toNat →
      SenderStep cfg s { s with sender := .expireSwap now_ns }
  | expireSwap {s : Load} {now_ns : UInt64} : s.sender = .expireSwap now_ns →
      s.state s.cursor = .outstanding →
      SenderStep cfg s
        { s with sender := .expireSub now_ns, states := s.states.set s.cursor .expired }
  | expireMissed {s : Load} {now_ns : UInt64} : s.sender = .expireSwap now_ns →
      s.state s.cursor ≠ .outstanding →
      SenderStep cfg s { s with sender := .expire now_ns, cursor := s.cursor + 1 }
  | expireSub {s : Load} {now_ns : UInt64} : s.sender = .expireSub now_ns →
      SenderStep cfg s
        { s with
          sender := .expire now_ns, outstanding := s.outstanding - 1, cursor := s.cursor + 1 }
  | stamp {s : Load} {packet : Bytes} (sent_ns : UInt64) : s.sender = .stamp →
      encode (cfg.size s.sequence) (sentHeader cfg.run_id s.sequence sent_ns) = .ok packet →
      SenderStep cfg s
        { s with sender := .publish packet, sent_times := s.sent_times.set s.sequence sent_ns }
  | publish {s : Load} {packet : Bytes} : s.sender = .publish packet →
      SenderStep cfg s
        { s with sender := .raise packet, states := s.states.set s.sequence .outstanding }
  | raise {s : Load} {packet : Bytes} : s.sender = .raise packet →
      SenderStep cfg s { s with sender := .send packet, outstanding := s.outstanding + 1 }
  | sendOk {s : Load} {packet : Bytes} : s.sender = .send packet →
      SenderStep cfg s
        { s with
          sender := .sent, wire := packet :: s.wire, accepted := s.accepted ++ [s.sequence] }
  | sendErr {s : Load} {packet : Bytes} : s.sender = .send packet →
      SenderStep cfg s { s with sender := .failed }
  | sent {s : Load} : s.sender = .sent →
      SenderStep cfg s
        { s with sender := .top, sent_count := s.sent_count + 1, sequence := s.sequence + 1 }
  | failedSwap {s : Load} : s.sender = .failed →
      SenderStep cfg s
        { s with
          sender := if s.state s.sequence = .outstanding then .failedSub else .failedCount
          states := s.states.set s.sequence .failed }
  | failedSub {s : Load} : s.sender = .failedSub →
      SenderStep cfg s { s with sender := .failedCount, outstanding := s.outstanding - 1 }
  | failedCount {s : Load} : s.sender = .failedCount →
      SenderStep cfg s
        { s with sender := .top, send_errors := s.send_errors + 1, sequence := s.sequence + 1 }

/-! ## The receiver -/

/-- The counters after one receipt.
mirrors Rust/tools/udp-benchmark/src/runner.rs:567-586 -/
def countReceipt (timeout_ns rtt_ns : Nat) (receipt : Receipt) (counters : PacketCounters) :
    PacketCounters :=
  match receipt with
  | .valid =>
    { counters with
      valid_replies := counters.valid_replies + 1
      late := counters.late + if timeout_ns < rtt_ns then 1 else 0 }
  | .late =>
    { counters with
      valid_replies := counters.valid_replies + 1
      late := counters.late + 1 }
  | .duplicate => { counters with duplicates := counters.duplicates + 1 }
  | .foreign => { counters with foreign := counters.foreign + 1 }

/-- A reply that was credited; the other receipts `continue`. -/
def Receipt.credited : Receipt → Bool
  | .valid | .late => true
  | .duplicate | .foreign => false

/-- The rest of the receiver's loop body once the receipt is known; it touches
nothing the sender reads.
mirrors Rust/tools/udp-benchmark/src/runner.rs:567-594 -/
def Load.account (cfg : Config) (s : Load) (index rtt_ns : Nat) (receipt : Receipt) : Load :=
  let counters := countReceipt cfg.timeout_ns rtt_ns receipt s.counters
  let s := { s with receiver := .recv, entries := s.entries ++ [Entry.mk index receipt rtt_ns] }
  if receipt.credited then
    let behind := s.maximum_sequence.any fun maximum => index < maximum
    { s with
      counters := { counters with reordered := counters.reordered + if behind then 1 else 0 }
      maximum_sequence := some (s.maximum_sequence.elim index fun value => max value index)
      samples := s.samples ++ [rtt_ns] }
  else { s with counters := counters }

/-- The loop body up to the state access, for a datagram just received. -/
def Load.judge (s : Load) : Judgement → Load
  | .corrupt => { s with counters := { s.counters with corrupt := s.counters.corrupt + 1 } }
  | .foreign => { s with counters := { s.counters with foreign := s.counters.foreign + 1 } }
  | .echo index => { s with receiver := .time index }

/-- One atomic access of the receiver. `stale` are datagrams of other runs that
may still arrive.
mirrors Rust/tools/udp-benchmark/src/runner.rs:543-600, 769-779 -/
inductive ReceiverStep (cfg : Config) (stale : List Bytes) : Load → Load → Prop
  | recv {s : Load} {packet : Bytes} : s.receiver = .recv → packet ∈ s.wire ∨ packet ∈ stale →
      ReceiverStep cfg stale s (s.judge (receive cfg.run_id cfg.plan.sizes packet))
  | time {s : Load} {index : Nat} (now_ns : UInt64) : s.receiver = .time index →
      ReceiverStep cfg stale s
        { s with receiver := .swap index (now_ns.toNat - (s.sentNs index).toNat) }
  -- `swap(2)` found 1: the counter is next
  | swapValid {s : Load} {index rtt_ns : Nat} : s.receiver = .swap index rtt_ns →
      classifyReceipt (s.state index) = .valid →
      ReceiverStep cfg stale s
        { s with receiver := .sub index rtt_ns, states := s.states.set index .received }
  | swapOther {s : Load} {index rtt_ns : Nat} : s.receiver = .swap index rtt_ns →
      classifyReceipt (s.state index) ≠ .valid →
      ReceiverStep cfg stale s
        (({ s with states := s.states.set index .received } : Load).account cfg index rtt_ns
          (classifyReceipt (s.state index)))
  | sub {s : Load} {index rtt_ns : Nat} : s.receiver = .sub index rtt_ns →
      ReceiverStep cfg stale s
        (({ s with outstanding := s.outstanding - 1 } : Load).account cfg index rtt_ns .valid)
  | done {s : Load} : s.receiver = .recv → ReceiverStep cfg stale s { s with receiver := .done }

/-! ## Runs -/

inductive Thread
  | sender | receiver
  deriving DecidableEq, Repr

/-- Both threads, one access at a time in any order. -/
def load (cfg : Config) (stale : List Bytes) : LTS Load Thread where
  init s := s = Load.start cfg
  step s thread s' := match thread with
    | .sender => SenderStep cfg s s'
    | .receiver => ReceiverStep cfg stale s s'

/-- Both threads have come to their end. -/
def Load.Joined (s : Load) : Prop :=
  (s.sender = .finished ∨ s.sender = .stopped) ∧ s.receiver = .done

/-- The counters `load` returns.
mirrors Rust/tools/udp-benchmark/src/runner.rs:665-673 -/
def Load.totals (cfg : Config) (s : Load) : PacketCounters :=
  { s.counters with
    planned := cfg.count
    sent := s.sent_count
    send_errors := s.send_errors
    missing := s.sent_count - s.counters.valid_replies }

/-! ## What the states say

`Phase` is how far a sequence has come, from the sender's position and the
accepted sends alone; `Agrees` is which state code a phase allows. -/

inductive Phase
  | ahead | published | out | refused
  deriving DecidableEq

/-- The phase of the sequence the sender is at, while it is not sent. -/
def SenderAt.phase : SenderAt → Phase
  | .raise _ | .send _ | .failed => .published
  | .failedSub | .failedCount => .refused
  | _ => .ahead

def Load.phase (s : Load) (index : Nat) : Phase :=
  if index ∈ s.accepted then .out
  else if index < s.sequence then .refused
  else if index = s.sequence then s.sender.phase
  else .ahead

def Agrees : Phase → PacketState → Prop
  | .ahead, state => state = .unsent
  | .published, state => state = .outstanding
  | .out, state => state = .outstanding ∨ state = .received ∨ state = .expired
  | .refused, state => state = .failed

/-- Whether the sender is inside the body of a sequence. -/
def SenderAt.inside : SenderAt → Bool
  | .top | .finished => false
  | _ => true

/-- The states match the phases, and the accepted sequences are in order and
behind the sender, the current one only right after its send. -/
structure Slots (cfg : Config) (s : Load) : Prop where
  len : s.states.length = cfg.count
  agrees : ∀ index < cfg.count, Agrees (s.phase index) (s.state index)
  ordered : s.accepted.Pairwise (· < ·)
  behind : ∀ index ∈ s.accepted, index < s.sequence ∨ (index = s.sequence ∧ s.sender = .sent)
  inside : s.sender.inside = true → s.sequence < cfg.count
  outside : s.sequence ≤ cfg.count
  finished : s.sender = .finished → s.sequence = cfg.count
  current : s.sender = .sent → s.sequence ∈ s.accepted

/-- A sequence on the books as accepted is within the plan. -/
theorem Slots.accepted_lt {cfg : Config} {s : Load} (h : Slots cfg s) {index : Nat}
    (hi : index ∈ s.accepted) : index < cfg.count := by
  rcases h.behind index hi with hlt | ⟨rfl, hs⟩
  · exact Nat.lt_of_lt_of_le hlt h.outside
  · exact h.inside (by rw [hs]; rfl)

theorem Slots.out {cfg : Config} {s : Load} (h : Slots cfg s) {index : Nat}
    (hi : index ∈ s.accepted) :
    s.state index = .outstanding ∨ s.state index = .received ∨ s.state index = .expired := by
  have := h.agrees index (h.accepted_lt hi)
  rwa [Load.phase, if_pos hi] at this

theorem state_set {s : Load} {index : Nat} {state : PacketState} (h : index < s.states.length)
    (other : Nat) :
    (s.states.set index state).getD other .unsent = if other = index then state else s.state other := by
  unfold Load.state
  by_cases he : other = index
  · subst he; simp [h]
  · simp [List.getD_eq_getElem?_getD, List.getElem?_set_ne (Ne.symm he), he]

/-- A sequence in state 1 is in the vector. -/
theorem state_lt {s : Load} {index : Nat} (h : s.state index = .outstanding) : index < s.states.length := by
  by_contra hge
  rw [Load.state, List.getD_eq_default _ _ (Nat.not_lt.1 hge)] at h
  cases h

/-- A step that moves neither the states, the sequence, the accepted sends nor
the phase of the current sequence keeps `Slots`. -/
theorem Slots.keep {cfg : Config} {s s' : Load} (h : Slots cfg s) (hst : s'.states = s.states)
    (hseq : s'.sequence = s.sequence) (hacc : s'.accepted = s.accepted)
    (hph : s'.sender.phase = s.sender.phase) (hsent : s'.sender = .sent ↔ s.sender = .sent)
    (hin : s'.sender.inside = true → s.sequence < cfg.count)
    (hfin : s'.sender = .finished → s.sequence = cfg.count) : Slots cfg s' where
  len := by rw [hst]; exact h.len
  agrees index hi := by
    have := h.agrees index hi
    unfold Load.phase Load.state at this ⊢
    rwa [hst, hseq, hacc, hph]
  ordered := by rw [hacc]; exact h.ordered
  behind index hi := by
    rw [hacc] at hi
    rw [hseq, hsent]
    exact h.behind index hi
  inside := by rw [hseq]; exact hin
  outside := by rw [hseq]; exact h.outside
  finished := by rw [hseq]; exact hfin
  current := by rw [hsent, hseq, hacc]; exact h.current

/-- A step that sets the state of one sequence to what its new phase allows
keeps `Slots`, if the other phases stay. -/
theorem Slots.write {cfg : Config} {s s' : Load} (h : Slots cfg s) {index : Nat} {state : PacketState}
    (hi : index < cfg.count) (hst : s'.states = s.states.set index state)
    (hseq : s'.sequence = s.sequence) (hacc : s'.accepted = s.accepted)
    (hown : Agrees (s'.phase index) state) (hph : ∀ other ≠ index, s'.phase other = s.phase other)
    (hsent : s'.sender = .sent ↔ s.sender = .sent)
    (hin : s'.sender.inside = true → s.sequence < cfg.count)
    (hfin : s'.sender = .finished → s.sequence = cfg.count) : Slots cfg s' where
  len := by rw [hst, List.length_set]; exact h.len
  agrees other ho := by
    have hstate : s'.state other = if other = index then state else s.state other := by
      rw [← state_set (by rw [h.len]; exact hi) other, ← hst]; rfl
    rw [hstate]
    split
    · rename_i he
      rwa [he]
    · rename_i he
      rw [hph other he]
      exact h.agrees other ho
  ordered := by rw [hacc]; exact h.ordered
  behind other ho := by
    rw [hacc] at ho
    rw [hseq, hsent]
    exact h.behind other ho
  inside := by rw [hseq]; exact hin
  outside := by rw [hseq]; exact h.outside
  finished := by rw [hseq]; exact hfin
  current := by rw [hsent, hseq, hacc]; exact h.current

theorem Slots.not_accepted {cfg : Config} {s : Load} (h : Slots cfg s) (hs : s.sender ≠ .sent) :
    s.sequence ∉ s.accepted := by
  intro hi
  rcases h.behind _ hi with hlt | ⟨_, he⟩
  · exact Nat.lt_irrefl _ hlt
  · exact hs he

/-- The state of the sequence the sender is at. -/
theorem Slots.own {cfg : Config} {s : Load} (h : Slots cfg s) (hin : s.sender.inside = true)
    (hs : s.sender ≠ .sent) : Agrees s.sender.phase (s.state s.sequence) := by
  have := h.agrees _ (h.inside hin)
  rwa [Load.phase, if_neg (h.not_accepted hs), if_neg (Nat.lt_irrefl _), if_pos rfl] at this

/-- An outstanding sequence was accepted, or is the one being sent. -/
theorem Slots.outstanding {cfg : Config} {s : Load} (h : Slots cfg s) {index : Nat}
    (hi : s.state index = .outstanding) (hph : s.sender.phase ≠ .published) :
    index < cfg.count ∧ index ∈ s.accepted := by
  have hlt : index < cfg.count := h.len ▸ state_lt hi
  refine ⟨hlt, ?_⟩
  by_contra hna
  have := h.agrees index hlt
  rw [Load.phase, if_neg hna, hi] at this
  split at this
  · cases this
  split at this
  · cases hp : s.sender.phase with
    | published => exact hph hp
    | ahead => rw [hp] at this; cases this
    | refused => rw [hp] at this; cases this
    | out => cases hs : s.sender <;> rw [hs] at hp <;> cases hp
  · cases this

theorem Slots.start (cfg : Config) : Slots cfg (Load.start cfg) where
  len := List.length_replicate
  agrees index hi := by
    have hst : (Load.start cfg).state index = .unsent := by
      simp [Load.state, Load.start, hi]
    have hph : (Load.start cfg).phase index = .ahead := by
      simp only [Load.phase, Load.start, List.not_mem_nil, Nat.not_lt_zero, if_false]
      exact ite_self _
    rw [hst, hph]
    rfl
  ordered := .nil
  behind _ hi := by cases hi
  inside hin := by cases hin
  outside := Nat.zero_le _
  finished he := by cases he
  current he := by cases he

/-- The next sequence is ahead: moving on keeps the phases of all others. -/
theorem Slots.advance {cfg : Config} {s s' : Load} (h : Slots cfg s) (hin : s.sender.inside = true)
    (hst : s'.states = s.states) (hseq : s'.sequence = s.sequence + 1)
    (hacc : s'.accepted = s.accepted) (hsender : s'.sender = .top)
    (hph : s.sequence ∈ s.accepted ∨ s.sender.phase = .refused) : Slots cfg s' where
  len := by rw [hst]; exact h.len
  agrees index hi := by
    have hold := h.agrees index hi
    have hstate : s'.state index = s.state index := by rw [Load.state, hst]; rfl
    have hphase : s'.phase index = s.phase index := by
      unfold Load.phase
      rw [hacc, hseq, hsender]
      by_cases ha : index ∈ s.accepted
      · rw [if_pos ha, if_pos ha]
      rw [if_neg ha, if_neg ha]
      rcases Nat.lt_trichotomy index s.sequence with hlt | rfl | hgt
      · rw [if_pos (by omega), if_pos hlt]
      · rw [if_pos (by omega), if_neg (by omega), if_pos rfl, hph.resolve_left ha]
      · rw [if_neg (show ¬ index < s.sequence + 1 by omega), if_neg (Nat.not_lt.2 (Nat.le_of_lt hgt)),
          if_neg (Nat.ne_of_gt hgt)]
        exact ite_self _
    rw [hstate, hphase]
    exact hold
  ordered := by rw [hacc]; exact h.ordered
  behind index hi := by
    rw [hacc] at hi
    rw [hseq]
    have := h.behind index hi
    omega
  inside he := by rw [hsender] at he; cases he
  outside := by rw [hseq]; exact h.inside hin
  finished he := by rw [hsender] at he; cases he
  current he := by rw [hsender] at he; cases he

/-- The send that succeeded puts its sequence behind the others. -/
theorem Slots.accept {cfg : Config} {s s' : Load} (h : Slots cfg s) (hin : s.sender.inside = true)
    (hph : s.sender.phase = .published) (hst : s'.states = s.states)
    (hseq : s'.sequence = s.sequence) (hacc : s'.accepted = s.accepted ++ [s.sequence])
    (hsender : s'.sender = .sent) : Slots cfg s' where
  len := by rw [hst]; exact h.len
  agrees index hi := by
    have hne : s.sender ≠ .sent := by intro e; rw [e] at hph; cases hph
    have hstate : s'.state index = s.state index := by rw [Load.state, hst]; rfl
    rw [hstate, Load.phase, hacc, hseq]
    by_cases he : index = s.sequence
    · subst he
      have hown := h.own hin hne
      rw [hph] at hown
      rw [if_pos (by simp)]
      exact .inl hown
    · have hold := h.agrees index hi
      rw [Load.phase] at hold
      simp only [List.mem_append, List.mem_singleton, he, or_false, if_false] at hold ⊢
      exact hold
  ordered := by
    rw [hacc, List.pairwise_append]
    refine ⟨h.ordered, List.pairwise_singleton _ _, fun a ha b hb => ?_⟩
    rw [List.mem_singleton.1 hb]
    have hne : s.sender ≠ .sent := by intro e; rw [e] at hph; cases hph
    rcases h.behind a ha with hlt | ⟨-, he⟩
    · exact hlt
    · exact absurd he hne
  behind index hi := by
    rw [hacc] at hi
    rw [hseq]
    rcases List.mem_append.1 hi with hi | hi
    · rcases h.behind index hi with hlt | ⟨he, -⟩
      · exact .inl hlt
      · exact .inr ⟨he, hsender⟩
    · exact .inr ⟨List.mem_singleton.1 hi, hsender⟩
  inside _ := by rw [hseq]; exact h.inside hin
  outside := by rw [hseq]; exact h.outside
  finished he := by rw [hsender] at he; cases he
  current _ := by rw [hseq, hacc]; simp

theorem Slots.sender {cfg : Config} {s s' : Load} (h : Slots cfg s) (hs : SenderStep cfg s s') :
    Slots cfg s' := by
  have hlt := h.inside
  cases hs with
  | finish hpc hge =>
    exact h.keep rfl rfl rfl (by rw [hpc]; rfl) (by simp [hpc]) (by intro hin; cases hin)
      fun _ => Nat.le_antisymm h.outside hge
  | stop hpc hi | next hpc hi =>
    exact h.keep rfl rfl rfl (by rw [hpc]; rfl) (by simp [hpc]) (fun _ => hi) (fun he => by cases he)
  | room hpc _ | full _ hpc _ | expireEnd hpc _ | expireLook hpc _ _ | expireYoung hpc _
  | expireOld hpc _ | expireMissed hpc _ | expireSub hpc | stamp _ hpc _ | raise hpc | sendErr hpc
  | failedSub hpc =>
    rw [hpc] at hlt
    exact h.keep rfl rfl rfl (by rw [hpc]; rfl) (by simp [hpc]) (fun _ => hlt rfl)
      (fun he => by cases he)
  | expireSkip hpc _ _ =>
    rw [hpc] at hlt
    exact h.keep rfl rfl rfl rfl Iff.rfl (fun _ => hlt rfl) (fun he => by rw [hpc] at he; cases he)
  | expireSwap hpc hst =>
    rw [hpc] at hlt
    obtain ⟨hi, ha⟩ := h.outstanding hst (by rw [hpc]; intro e; cases e)
    refine h.write hi rfl rfl rfl ?_ (fun other _ => ?_) (by simp [hpc]) (fun _ => hlt rfl)
      (fun he => by cases he)
    · rw [Load.phase, if_pos ha]
      exact .inr (.inr rfl)
    · unfold Load.phase
      rw [hpc]
      rfl
  | publish hpc =>
    have hna := h.not_accepted (by rw [hpc]; intro e; cases e)
    rw [hpc] at hlt
    refine h.write (hlt rfl) rfl rfl rfl ?_ (fun other ho => ?_) (by simp [hpc]) (fun _ => hlt rfl)
      (fun he => by cases he)
    · rw [Load.phase, if_neg hna, if_neg (Nat.lt_irrefl _), if_pos rfl]
      rfl
    · unfold Load.phase
      simp only [if_neg ho]
  | failedSwap hpc =>
    have hna := h.not_accepted (by rw [hpc]; intro e; cases e)
    rw [hpc] at hlt
    refine h.write (hlt rfl) rfl rfl rfl ?_ (fun other ho => ?_) ?_ (fun _ => hlt rfl) ?_
    · rw [Load.phase, if_neg hna, if_neg (Nat.lt_irrefl _), if_pos rfl]
      dsimp only
      split <;> rfl
    · unfold Load.phase
      simp only [if_neg ho]
    · dsimp only
      split <;> simp [hpc]
    · dsimp only
      split <;> (intro he; cases he)
  | sendOk hpc => exact h.accept (by rw [hpc]; rfl) (by rw [hpc]; rfl) rfl rfl rfl rfl
  | sent hpc => exact h.advance (by rw [hpc]; rfl) rfl rfl rfl rfl (.inl (h.current hpc))
  | failedCount hpc => exact h.advance (by rw [hpc]; rfl) rfl rfl rfl rfl (.inr (by rw [hpc]; rfl))

/-! ## Frames of the receiver -/

section Frames

variable (cfg : Config) (s : Load) (index rtt_ns : Nat) (receipt : Receipt) (j : Judgement)

@[simp] theorem account_states : (s.account cfg index rtt_ns receipt).states = s.states := by
  unfold Load.account; dsimp only; split <;> rfl

@[simp] theorem account_sequence : (s.account cfg index rtt_ns receipt).sequence = s.sequence := by
  unfold Load.account; dsimp only; split <;> rfl

@[simp] theorem account_sender : (s.account cfg index rtt_ns receipt).sender = s.sender := by
  unfold Load.account; dsimp only; split <;> rfl

@[simp] theorem account_accepted : (s.account cfg index rtt_ns receipt).accepted = s.accepted := by
  unfold Load.account; dsimp only; split <;> rfl

@[simp] theorem account_wire : (s.account cfg index rtt_ns receipt).wire = s.wire := by
  unfold Load.account; dsimp only; split <;> rfl

@[simp] theorem account_sent_count :
    (s.account cfg index rtt_ns receipt).sent_count = s.sent_count := by
  unfold Load.account; dsimp only; split <;> rfl

@[simp] theorem account_outstanding :
    (s.account cfg index rtt_ns receipt).outstanding = s.outstanding := by
  unfold Load.account; dsimp only; split <;> rfl

@[simp] theorem account_receiver : (s.account cfg index rtt_ns receipt).receiver = .recv := by
  unfold Load.account; dsimp only; split <;> rfl

@[simp] theorem account_entries :
    (s.account cfg index rtt_ns receipt).entries = s.entries ++ [⟨index, receipt, rtt_ns⟩] := by
  unfold Load.account; dsimp only; split <;> rfl

theorem judge_frame : (s.judge j).states = s.states ∧ (s.judge j).sequence = s.sequence ∧
    (s.judge j).sender = s.sender ∧ (s.judge j).accepted = s.accepted ∧
    (s.judge j).wire = s.wire ∧ (s.judge j).sent_count = s.sent_count ∧
    (s.judge j).outstanding = s.outstanding ∧ (s.judge j).entries = s.entries := by
  cases j <;> exact ⟨rfl, rfl, rfl, rfl, rfl, rfl, rfl, rfl⟩

end Frames

/-! ## The outstanding counter -/

/-- What the sender still owes the counter. -/
def SenderAt.owes : SenderAt → Int
  | .raise _ => 1
  | .expireSub _ | .failedSub => -1
  | _ => 0

def ReceiverAt.owes : ReceiverAt → Int
  | .sub _ _ => -1
  | _ => 0

/-- The counter, once both threads have paid. -/
def Load.balance (s : Load) : Int := s.outstanding + s.sender.owes + s.receiver.owes

/-- It is the number of sequences in state 1. -/
def Tally (s : Load) : Prop := s.balance = (s.states.count .outstanding : Nat)

/-- One state set, within the vector if it is set to 1. -/
theorem count_set {l : List PacketState} {index : Nat} {state : PacketState}
    (h : state = .outstanding → index < l.length) :
    ((l.set index state).count .outstanding : Int) = (l.count .outstanding : Nat) -
      (if l.getD index .unsent = .outstanding then 1 else 0) +
      (if state = .outstanding then 1 else 0) := by
  by_cases hin : index < l.length
  swap
  · rw [List.set_eq_of_length_le (Nat.not_lt.1 hin), List.getD_eq_default _ _ (Nat.not_lt.1 hin), if_neg nofun,
      if_neg fun e => hin (h e)]
    omega
  have hpos : l[index] = .outstanding → 1 ≤ l.count .outstanding := by
    intro e
    rw [← e]
    exact List.count_pos_iff.2 (List.getElem_mem hin)
  rw [List.count_set hin, List.getD_eq_getElem _ _ hin]
  by_cases h1 : l[index] = .outstanding
  · have := hpos h1
    by_cases h2 : state = .outstanding
    · simp [h1, h2]; omega
    · simp [h1, h2]; omega
  · by_cases h2 : state = .outstanding
    · simp [h1, h2]
    · simp [h1, h2]

/-- Only setting a state to 1 raises the count. -/
theorem count_set_le (l : List PacketState) (index : Nat) {state : PacketState} (h : state ≠ .outstanding) :
    (l.set index state).count .outstanding ≤ l.count .outstanding := by
  have hset := @count_set l index state fun e => absurd e h
  rw [if_neg h] at hset
  split at hset <;> omega

theorem Tally.keep {s s' : Load} (h : Tally s) (hst : s'.states = s.states)
    (hbal : s'.balance = s.balance) : Tally s' := by
  unfold Tally at h ⊢
  rw [hbal, hst, h]

theorem Tally.write {s s' : Load} (h : Tally s) {index : Nat} {state : PacketState}
    (hst : s'.states = s.states.set index state) (hi : state = .outstanding → index < s.states.length)
    (hbal : s'.balance = s.balance - (if s.state index = .outstanding then 1 else 0) +
      (if state = .outstanding then 1 else 0)) : Tally s' := by
  unfold Tally at h ⊢
  rw [hbal, hst, count_set hi, h]
  rfl

/-- The sender keeps the count, if the sequence it publishes is not yet in it. -/
theorem Tally.sender {cfg : Config} {s s' : Load} (h : Tally s)
    (hnew : ∀ packet, s.sender = .publish packet →
      s.sequence < s.states.length ∧ s.state s.sequence ≠ .outstanding)
    (hs : SenderStep cfg s s') : Tally s' := by
  -- the balance with what the sender owes at its point
  have hown : ∀ point, s.sender = point → s.balance = s.outstanding + point.owes + s.receiver.owes := by
    rintro _ rfl; rfl
  cases hs with
  | finish hpc _ | stop hpc _ | next hpc _ | room hpc _ | full _ hpc _ | expireEnd hpc _
  | expireLook hpc _ _ | expireYoung hpc _ | expireOld hpc _ | expireMissed hpc _ | stamp _ hpc _
  | sendOk hpc | sendErr hpc | sent hpc | failedCount hpc =>
    exact h.keep rfl (hown _ hpc).symm
  | expireSkip hpc _ _ => exact h.keep rfl rfl
  | expireSub hpc =>
    refine h.keep rfl ?_
    rw [hown _ hpc]
    change s.outstanding - 1 + 0 + s.receiver.owes = s.outstanding + -1 + s.receiver.owes
    ring
  | raise hpc =>
    refine h.keep rfl ?_
    rw [hown _ hpc]
    change s.outstanding + 1 + 0 + s.receiver.owes = s.outstanding + 1 + s.receiver.owes
    ring
  | failedSub hpc =>
    refine h.keep rfl ?_
    rw [hown _ hpc]
    change s.outstanding - 1 + 0 + s.receiver.owes = s.outstanding + -1 + s.receiver.owes
    ring
  | expireSwap hpc hst =>
    refine h.write rfl nofun ?_
    rw [hown _ hpc, if_pos hst]
    change s.outstanding + -1 + s.receiver.owes = s.outstanding + 0 + s.receiver.owes - 1 + 0
    ring
  | publish hpc =>
    obtain ⟨hi, hst⟩ := hnew _ hpc
    refine h.write rfl (fun _ => hi) ?_
    rw [hown _ hpc, if_neg hst]
    change s.outstanding + 1 + s.receiver.owes = s.outstanding + 0 + s.receiver.owes - 0 + 1
    ring
  | failedSwap hpc =>
    refine h.write rfl nofun ?_
    rw [hown _ hpc, Load.balance]
    dsimp only
    split
    · change s.outstanding + -1 + s.receiver.owes = s.outstanding + 0 + s.receiver.owes - 1 + 0
      ring
    · change s.outstanding + 0 + s.receiver.owes = s.outstanding + 0 + s.receiver.owes - 0 + 0
      ring

/-- What the sender publishes was not sent before. -/
theorem Slots.fresh {cfg : Config} {s : Load} (h : Slots cfg s) (packet : Bytes) (hpc : s.sender = .publish packet) :
    s.sequence < s.states.length ∧ s.state s.sequence ≠ .outstanding := by
  have hi := h.inside (by rw [hpc]; rfl)
  have hst := h.own (by rw [hpc]; rfl) (by rw [hpc]; intro e; cases e)
  rw [hpc] at hst
  refine ⟨by rw [h.len]; exact hi, ?_⟩
  rw [show s.state s.sequence = .unsent from hst]
  intro e
  cases e

/-- While the sender owes an increment, its own sequence is in state 1. -/
theorem Tally.nonneg {cfg : Config} {s : Load} (h : Tally s) (hsl : Slots cfg s) :
    0 ≤ s.outstanding := by
  unfold Tally Load.balance at h
  have hr : s.receiver.owes ≤ 0 := by
    cases s.receiver with
    | sub _ _ => exact neg_one_lt_zero.le
    | _ => exact Int.le_refl 0
  by_cases hraise : ∃ packet, s.sender = .raise packet
  · obtain ⟨packet, hpc⟩ := hraise
    have hi := hsl.inside (by rw [hpc]; rfl)
    have hown := hsl.own (by rw [hpc]; rfl) (by rw [hpc]; intro e; cases e)
    rw [hpc] at hown
    have hst : s.state s.sequence = .outstanding := hown
    have hmem : PacketState.outstanding ∈ s.states := by
      rw [← hst, Load.state, List.getD_eq_getElem _ _ (by rw [hsl.len]; exact hi)]
      exact List.getElem_mem _
    have hpos : 0 < s.states.count .outstanding := List.count_pos_iff.2 hmem
    rw [hpc, show (SenderAt.raise packet).owes = 1 from rfl] at h
    omega
  · have hle : s.sender.owes ≤ 0 := by
      cases hs : s.sender with
      | raise packet => exact absurd ⟨packet, hs⟩ hraise
      | expireSub _ | failedSub => exact neg_one_lt_zero.le
      | _ => exact Int.le_refl 0
    omega

/-! ## The books -/

/-- The sequences credited so far, in order. -/
def Load.credits (s : Load) : List Nat := (s.entries.filter (·.receipt.credited)).map (·.index)

/-- An entry `late` was raised for. -/
def Entry.late (timeout_ns : Nat) (e : Entry) : Bool :=
  e.receipt = .late || (e.receipt = .valid && timeout_ns < e.rtt_ns)

/-- Where the receiver is: with an accepted sequence, and past the swap with
one whose state it took from 1 to 2 and has not credited. -/
def Held (s : Load) : ReceiverAt → Prop
  | .recv | .done => True
  | .time index | .swap index _ => index ∈ s.accepted
  | .sub index _ => index ∈ s.accepted ∧ s.state index = .received ∧ index ∉ s.credits

/-- The receiver's counters against its log. -/
structure Log (cfg : Config) (s : Load) : Prop where
  once : s.credits.Nodup
  known : ∀ e ∈ s.entries, e.receipt ≠ .foreign
  valid : s.counters.valid_replies = s.credits.length
  late : s.counters.late = s.entries.countP (·.late cfg.timeout_ns)
  duplicates : s.counters.duplicates = s.entries.countP (·.receipt = .duplicate)
  maximum : ∀ index ∈ s.credits, ∃ m, s.maximum_sequence = some m ∧ index ≤ m
  reordered : s.counters.reordered = 0 → s.credits.Pairwise (· < ·)

/-- The log against the states: state 2 is credited, or about to be. -/
structure Book (s : Load) : Prop where
  held : Held s s.receiver
  credited : ∀ index ∈ s.credits, index ∈ s.accepted ∧ s.state index = .received
  received : ∀ index, s.state index = .received →
    index ∈ s.credits ∨ ∃ rtt_ns, s.receiver = .sub index rtt_ns

/-- The packet the sender is about to hand over. -/
def SenderAt.packet : SenderAt → Option Bytes
  | .publish packet | .raise packet | .send packet => some packet
  | _ => none

/-- The packet of a sequence, stamped at some time. -/
def Stamped (cfg : Config) (index : Nat) (packet : Bytes) : Prop :=
  ∃ sent_ns, encode (cfg.size index) (sentHeader cfg.run_id index sent_ns) = .ok packet

/-- What is on the wire, and in the sender's hands, is the packet of a sequence. -/
structure Wire (cfg : Config) (s : Load) : Prop where
  wire : ∀ packet ∈ s.wire, ∃ index ∈ s.accepted, Stamped cfg index packet
  hand : ∀ packet, s.sender.packet = some packet → Stamped cfg s.sequence packet
  sent : s.sent_count + (if s.sender = .sent then 1 else 0) = s.accepted.length

/-- **The invariant of a load.** -/
structure Inv (cfg : Config) (s : Load) : Prop where
  slots : Slots cfg s
  tally : Tally s
  log : Log cfg s
  book : Book s
  wire : Wire cfg s

/-! ## Preservation: the sender -/

theorem credits_congr {s s' : Load} (h : s'.entries = s.entries) : s'.credits = s.credits := by
  unfold Load.credits; rw [h]

theorem Log.keep {cfg : Config} {s s' : Load} (h : Log cfg s) (he : s'.entries = s.entries)
    (hc : s'.counters.valid_replies = s.counters.valid_replies ∧
      s'.counters.late = s.counters.late ∧ s'.counters.duplicates = s.counters.duplicates ∧
      s'.counters.reordered = s.counters.reordered)
    (hm : s'.maximum_sequence = s.maximum_sequence) : Log cfg s' where
  once := by rw [credits_congr he]; exact h.once
  known := by rw [he]; exact h.known
  valid := by rw [hc.1, credits_congr he]; exact h.valid
  late := by rw [hc.2.1, he]; exact h.late
  duplicates := by rw [hc.2.2.1, he]; exact h.duplicates
  maximum := by rw [credits_congr he, hm]; exact h.maximum
  reordered := by rw [hc.2.2.2, credits_congr he]; exact h.reordered

/-- What the sender does to the log: nothing. -/
theorem Log.sender {cfg : Config} {s s' : Load} (h : Log cfg s) (hs : SenderStep cfg s s') :
    Log cfg s' := by
  cases hs <;> exact h.keep rfl ⟨rfl, rfl, rfl, rfl⟩ rfl

/-- A step that makes no state received, and takes none back, keeps the books. -/
theorem Book.keep {s s' : Load} (h : Book s) (hr : s'.receiver = s.receiver)
    (he : s'.entries = s.entries) (hacc : ∀ index ∈ s.accepted, index ∈ s'.accepted)
    (hst : ∀ index, s'.state index = .received ↔ s.state index = .received) : Book s' where
  held := by
    have hheld := h.held
    rw [hr]
    cases hrc : s.receiver with
    | recv | done => trivial
    | time index | swap index rtt_ns =>
      rw [hrc] at hheld
      exact hacc _ hheld
    | sub index rtt_ns =>
      rw [hrc] at hheld
      exact ⟨hacc _ hheld.1, (hst _).2 hheld.2.1, by rw [credits_congr he]; exact hheld.2.2⟩
  credited index hi := by
    rw [credits_congr he] at hi
    obtain ⟨ha, hstate⟩ := h.credited index hi
    exact ⟨hacc _ ha, (hst _).2 hstate⟩
  received index hi := by
    rw [credits_congr he, hr]
    exact h.received index ((hst _).1 hi)

theorem received_set {s s' : Load} {index : Nat} {state : PacketState}
    (hst : s'.states = s.states.set index state) (hi : index < s.states.length)
    (hold : s.state index ≠ .received) (hnew : state ≠ .received) (other : Nat) :
    s'.state other = .received ↔ s.state other = .received := by
  have hstate : s'.state other = if other = index then state else s.state other := by
    rw [← state_set hi other, ← hst]; rfl
  rw [hstate]
  split
  · rename_i he
    rw [he]
    exact ⟨fun e => absurd e hnew, fun e => absurd e hold⟩
  · exact Iff.rfl

theorem Book.sender {cfg : Config} {s s' : Load} (h : Book s) (hsl : Slots cfg s)
    (hs : SenderStep cfg s s') : Book s' := by
  have hlen : ∀ index, index < cfg.count → index < s.states.length := by
    rw [hsl.len]; exact fun _ hi => hi
  cases hs with
  | finish _ _ | stop _ _ | next _ _ | room _ _ | full _ _ _ | expireEnd _ _ | expireSkip _ _ _
  | expireLook _ _ _ | expireYoung _ _ | expireOld _ _ | expireMissed _ _ | expireSub _
  | stamp _ _ _ | raise _ | sendErr _ | sent _ | failedSub _ | failedCount _ =>
    exact h.keep rfl rfl (fun _ ha => ha) fun _ => Iff.rfl
  | sendOk _ => exact h.keep rfl rfl (fun _ ha => List.mem_append_left _ ha) fun _ => Iff.rfl
  | expireSwap hpc hst =>
    have hi := (hsl.outstanding hst (by rw [hpc]; intro e; cases e)).1
    refine h.keep rfl rfl (fun _ ha => ha) (received_set rfl (hlen _ hi) ?_ ?_)
    · rw [hst]; intro e; cases e
    · intro e; cases e
  | publish hpc =>
    have hi := hsl.inside (by rw [hpc]; rfl)
    have hst := hsl.own (by rw [hpc]; rfl) (by rw [hpc]; intro e; cases e)
    rw [hpc] at hst
    refine h.keep rfl rfl (fun _ ha => ha) (received_set rfl (hlen _ hi) ?_ ?_)
    · rw [show s.state s.sequence = .unsent from hst]; intro e; cases e
    · intro e; cases e
  | failedSwap hpc =>
    have hi := hsl.inside (by rw [hpc]; rfl)
    have hst := hsl.own (by rw [hpc]; rfl) (by rw [hpc]; intro e; cases e)
    rw [hpc] at hst
    refine h.keep rfl rfl (fun _ ha => ha) (received_set rfl (hlen _ hi) ?_ ?_)
    · rw [show s.state s.sequence = .outstanding from hst]; intro e; cases e
    · intro e; cases e

theorem Wire.sender {cfg : Config} {s s' : Load} (h : Wire cfg s) (hs : SenderStep cfg s s') :
    Wire cfg s' := by
  cases hs with
  | finish hpc _ | stop hpc _ | next hpc _ | room hpc _ | full _ hpc _ | expireEnd hpc _
  | expireLook hpc _ _ | expireYoung hpc _ | expireOld hpc _ | expireSwap hpc _ | expireMissed hpc _
  | expireSub hpc | sendErr hpc | failedSub hpc | failedCount hpc =>
    have hsent := h.sent
    rw [hpc] at hsent
    exact ⟨h.wire, fun _ hp => by (cases hp), hsent⟩
  | expireSkip hpc _ _ => exact ⟨h.wire, h.hand, h.sent⟩
  | failedSwap hpc =>
    have hsent := h.sent
    rw [hpc] at hsent
    refine ⟨h.wire, fun packet hp => ?_, ?_⟩
    · dsimp only at hp
      split at hp <;> cases hp
    · dsimp only
      split <;> exact hsent
  | stamp sent_ns hpc hp =>
    have hsent := h.sent
    rw [hpc] at hsent
    refine ⟨h.wire, fun packet hpk => ?_, hsent⟩
    cases hpk
    exact ⟨sent_ns, hp⟩
  | publish hpc =>
    have hsent := h.sent
    rw [hpc] at hsent
    refine ⟨h.wire, fun packet hpk => ?_, hsent⟩
    cases hpk
    exact h.hand _ (by rw [hpc]; rfl)
  | raise hpc =>
    have hsent := h.sent
    rw [hpc] at hsent
    refine ⟨h.wire, fun packet hpk => ?_, hsent⟩
    cases hpk
    exact h.hand _ (by rw [hpc]; rfl)
  | sendOk hpc =>
    have hsent := h.sent
    rw [hpc] at hsent
    refine ⟨fun packet hpk => ?_, fun _ hpk => by (cases hpk), ?_⟩
    · rcases List.mem_cons.1 hpk with rfl | hpk
      · exact ⟨s.sequence, List.mem_append_right _ (List.mem_singleton.2 rfl),
          h.hand _ (by rw [hpc]; rfl)⟩
      · obtain ⟨index, hi, hr⟩ := h.wire packet hpk
        exact ⟨index, List.mem_append_left _ hi, hr⟩
    · rw [List.length_append, ← hsent]
      rfl
  | sent hpc =>
    have hsent := h.sent
    rw [hpc] at hsent
    exact ⟨h.wire, fun _ hp => by (cases hp), hsent⟩

/-! ## Preservation: the receiver -/

/-- `stale` holds packets of other runs only. -/
def OtherRuns (run_id : UInt64) (stale : List Bytes) : Prop :=
  ∀ packet ∈ stale, ∃ size header, encode size header = .ok packet ∧ header.run_id ≠ run_id

/-- What a datagram that can arrive is taken for. -/
theorem Wire.arrived {cfg : Config} {s : Load} {stale : List Bytes} {packet : Bytes} (h : Wire cfg s)
    (hsl : Slots cfg s) (hstale : OtherRuns cfg.run_id stale) (hp : packet ∈ s.wire ∨ packet ∈ stale) :
    receive cfg.run_id cfg.plan.sizes packet = .foreign ∨
      ∃ index ∈ s.accepted, receive cfg.run_id cfg.plan.sizes packet = .echo index := by
  rcases hp with hp | hp
  · obtain ⟨index, hi, sent_ns, he⟩ := h.wire packet hp
    have hlt := hsl.accepted_lt hi
    exact .inr ⟨index, hi, receive_encode hlt (Nat.lt_trans hlt cfg.plan.fits) he⟩
  · obtain ⟨size, header, he, hne⟩ := hstale packet hp
    exact .inl (receive_other hne he)

/-- The state the receiver swaps is 1, 2 or 3, never that of a packet which
was not sent. -/
theorem Slots.receipt {cfg : Config} {s : Load} (h : Slots cfg s) {index : Nat}
    (hi : index ∈ s.accepted) : classifyReceipt (s.state index) ≠ .foreign := by
  rcases h.out hi with he | he | he <;> (rw [he]; intro e; cases e)

theorem Slots.receiver {cfg : Config} {stale : List Bytes} {s s' : Load} (h : Slots cfg s)
    (hb : Book s) (hs : ReceiverStep cfg stale s s') : Slots cfg s' := by
  have keep : ∀ {s' : Load}, s'.states = s.states → s'.sequence = s.sequence →
      s'.accepted = s.accepted → s'.sender = s.sender → Slots cfg s' := by
    intro s' hst hseq hacc hsender
    exact h.keep hst hseq hacc (by rw [hsender]) (by rw [hsender]) (by rw [hsender]; exact h.inside)
      (by rw [hsender]; exact h.finished)
  have write : ∀ {s' : Load} {index : Nat}, index ∈ s.accepted →
      s'.states = s.states.set index .received → s'.sequence = s.sequence →
      s'.accepted = s.accepted → s'.sender = s.sender → Slots cfg s' := by
    intro s' index hi hst hseq hacc hsender
    have hph : s'.phase = s.phase := by unfold Load.phase; rw [hseq, hacc, hsender]
    refine h.write (h.accepted_lt hi) hst hseq hacc ?_ (fun _ _ => by rw [hph]) (by rw [hsender])
      (by rw [hsender]; exact h.inside) (by rw [hsender]; exact h.finished)
    rw [hph, Load.phase, if_pos hi]
    exact .inr (.inl rfl)
  have hheld := hb.held
  cases hs with
  | recv hpc _ =>
    obtain ⟨hst, hseq, hsender, hacc, -⟩ := judge_frame s _
    exact keep hst hseq hacc hsender
  | time _ _ | done _ => exact keep rfl rfl rfl rfl
  | swapValid hpc _ =>
    rw [hpc] at hheld
    exact write hheld rfl rfl rfl rfl
  | swapOther hpc _ =>
    rw [hpc] at hheld
    exact write hheld (by simp) (by simp) (by simp) (by simp)
  | sub hpc => exact keep (by simp) (by simp) (by simp) (by simp)

/-- The receiver keeps the count, whatever arrives. -/
theorem Tally.receiver {cfg : Config} {stale : List Bytes} {s s' : Load} (h : Tally s)
    (hs : ReceiverStep cfg stale s s') : Tally s' := by
  have hown : ∀ point, s.receiver = point → s.balance = s.outstanding + s.sender.owes + point.owes := by
    rintro _ rfl; rfl
  cases hs with
  | recv hpc _ =>
    obtain ⟨hst, -, hsender, -, -, -, hout, -⟩ := judge_frame s _
    refine h.keep hst ?_
    rw [hown _ hpc, Load.balance, hout, hsender]
    congr 1
    unfold Load.judge
    split
    · exact congrArg ReceiverAt.owes hpc
    · exact congrArg ReceiverAt.owes hpc
    · rfl
  | time _ hpc | done hpc => exact h.keep rfl (hown _ hpc).symm
  | swapValid hpc hst =>
    refine h.write rfl nofun ?_
    rw [hown _ hpc, if_pos (classifyReceipt_valid.1 hst)]
    change s.outstanding + s.sender.owes + -1 = s.outstanding + s.sender.owes + 0 - 1 + 0
    ring
  | swapOther hpc hst =>
    refine h.write (account_states ..) nofun ?_
    rw [hown _ hpc, if_neg (mt classifyReceipt_valid.2 hst), Load.balance, account_outstanding,
      account_sender, account_receiver]
    change s.outstanding + s.sender.owes + 0 = s.outstanding + s.sender.owes + 0 - 0 + 0
    ring
  | sub hpc =>
    refine h.keep (account_states ..) ?_
    rw [hown _ hpc, Load.balance, account_outstanding, account_sender, account_receiver]
    change s.outstanding - 1 + s.sender.owes + 0 = s.outstanding + s.sender.owes + -1
    ring

theorem Wire.receiver {cfg : Config} {stale : List Bytes} {s s' : Load} (h : Wire cfg s)
    (hs : ReceiverStep cfg stale s s') : Wire cfg s' := by
  have keep : ∀ {s' : Load}, s'.wire = s.wire → s'.accepted = s.accepted → s'.sender = s.sender →
      s'.sequence = s.sequence → s'.sent_count = s.sent_count → Wire cfg s' := by
    intro s' hw hacc hsender hseq hcount
    refine ⟨?_, ?_, ?_⟩
    · rw [hw, hacc]; exact h.wire
    · rw [hsender, hseq]; exact h.hand
    · rw [hsender, hacc, hcount]; exact h.sent
  cases hs with
  | recv _ _ =>
    obtain ⟨-, hseq, hsender, hacc, hw, hcount, -⟩ := judge_frame s _
    exact keep hw hacc hsender hseq hcount
  | time _ _ | swapValid _ _ | done _ => exact keep rfl rfl rfl rfl rfl
  | swapOther _ _ | sub _ => exact keep (by simp) (by simp) (by simp) (by simp) (by simp)

/-! ### One more entry -/

theorem account_credits (cfg : Config) (s : Load) (index rtt_ns : Nat) (receipt : Receipt) :
    (s.account cfg index rtt_ns receipt).credits =
      s.credits ++ if receipt.credited = true then [index] else [] := by
  rw [Load.credits, account_entries, List.filter_append, List.map_append]
  cases hr : receipt.credited <;> simp [Load.credits, hr]

theorem countReceipt_counts (timeout_ns index rtt_ns : Nat) (receipt : Receipt) (c : PacketCounters) :
    let c' := countReceipt timeout_ns rtt_ns receipt c
    c'.valid_replies = c.valid_replies + (if receipt.credited = true then 1 else 0) ∧
      c'.late = c.late + (if (Entry.mk index receipt rtt_ns).late timeout_ns = true then 1 else 0) ∧
      c'.duplicates = c.duplicates + (if receipt = .duplicate then 1 else 0) ∧
      c'.reordered = c.reordered := by
  cases receipt <;> simp [countReceipt, Receipt.credited, Entry.late]

/-- The counters, the log and the running maximum move together. -/
theorem Log.account {cfg : Config} {s : Load} (h : Log cfg s) {index rtt_ns : Nat} {receipt : Receipt}
    (hknown : receipt ≠ .foreign) (hnew : receipt.credited = true → index ∉ s.credits) :
    Log cfg (s.account cfg index rtt_ns receipt) := by
  have hentries := account_entries cfg s index rtt_ns receipt
  have hcredits := account_credits cfg s index rtt_ns receipt
  obtain ⟨hvalid, hlate, hdup, hreord⟩ :=
    countReceipt_counts cfg.timeout_ns index rtt_ns receipt s.counters
  -- the counters both branches share
  have hshared : (s.account cfg index rtt_ns receipt).counters.valid_replies =
        (countReceipt cfg.timeout_ns rtt_ns receipt s.counters).valid_replies ∧
      (s.account cfg index rtt_ns receipt).counters.late =
        (countReceipt cfg.timeout_ns rtt_ns receipt s.counters).late ∧
      (s.account cfg index rtt_ns receipt).counters.duplicates =
        (countReceipt cfg.timeout_ns rtt_ns receipt s.counters).duplicates := by
    unfold Load.account; dsimp only; split <;> exact ⟨rfl, rfl, rfl⟩
  have hknown' : ∀ e ∈ (s.account cfg index rtt_ns receipt).entries, e.receipt ≠ .foreign := by
    intro e he
    rw [hentries] at he
    rcases List.mem_append.1 he with he | he
    · exact h.known e he
    · rw [List.mem_singleton.1 he]; exact hknown
  have hvalid' : (s.account cfg index rtt_ns receipt).counters.valid_replies =
      (s.account cfg index rtt_ns receipt).credits.length := by
    rw [hshared.1, hvalid, h.valid, hcredits, List.length_append]
    split <;> rfl
  have hlate' : (s.account cfg index rtt_ns receipt).counters.late =
      (s.account cfg index rtt_ns receipt).entries.countP (·.late cfg.timeout_ns) := by
    rw [hshared.2.1, hlate, h.late, hentries, List.countP_append, List.countP_singleton]
  have hdup' : (s.account cfg index rtt_ns receipt).counters.duplicates =
      (s.account cfg index rtt_ns receipt).entries.countP (·.receipt = .duplicate) := by
    rw [hshared.2.2, hdup, h.duplicates, hentries, List.countP_append, List.countP_singleton]
    simp
  by_cases hr : receipt.credited = true
  · rw [if_pos hr] at hcredits
    have hmax : (s.account cfg index rtt_ns receipt).maximum_sequence =
        some (s.maximum_sequence.elim index fun value => max value index) := by
      unfold Load.account; dsimp only; rw [if_pos hr]
    have hbehind : (s.account cfg index rtt_ns receipt).counters.reordered = s.counters.reordered +
        if s.maximum_sequence.any (fun maximum => index < maximum) = true then 1 else 0 := by
      unfold Load.account; dsimp only; rw [if_pos hr, ← hreord]
    refine ⟨?_, hknown', hvalid', hlate', hdup', ?_, ?_⟩
    · rw [hcredits, List.nodup_append]
      refine ⟨h.once, List.nodup_singleton _, fun a ha b hb => ?_⟩
      rw [List.mem_singleton.1 hb]
      exact fun e => hnew hr (e ▸ ha)
    · intro i hi
      rw [hmax]
      refine ⟨_, rfl, ?_⟩
      rw [hcredits] at hi
      rcases List.mem_append.1 hi with hi | hi
      · obtain ⟨m, hm, hle⟩ := h.maximum i hi
        rw [hm]
        exact Nat.le_trans hle (Nat.le_max_left _ _)
      · rw [List.mem_singleton.1 hi]
        cases s.maximum_sequence with
        | none => exact Nat.le_refl _
        | some m => exact Nat.le_max_right _ _
    · intro h0
      rw [hbehind] at h0
      have hnot : ¬ s.maximum_sequence.any (fun maximum => index < maximum) = true := by
        intro hany
        rw [if_pos hany] at h0
        omega
      rw [hcredits, List.pairwise_append]
      refine ⟨h.reordered (by omega), List.pairwise_singleton _ _, fun a ha b hb => ?_⟩
      rw [List.mem_singleton.1 hb]
      obtain ⟨m, hm, hle⟩ := h.maximum a ha
      have hge : ¬ index < m := fun hlt => hnot (by rw [hm]; simpa using hlt)
      have hne : a ≠ index := fun e => hnew hr (e ▸ ha)
      omega
  · rw [if_neg hr, List.append_nil] at hcredits
    have hmax : (s.account cfg index rtt_ns receipt).maximum_sequence = s.maximum_sequence := by
      unfold Load.account; dsimp only; rw [if_neg hr]
    have hbehind : (s.account cfg index rtt_ns receipt).counters.reordered =
        s.counters.reordered := by
      unfold Load.account; dsimp only; rw [if_neg hr, hreord]
    refine ⟨?_, hknown', hvalid', hlate', hdup', ?_, ?_⟩
    · rw [hcredits]; exact h.once
    · rw [hcredits, hmax]; exact h.maximum
    · rw [hbehind, hcredits]; exact h.reordered

/-- Where state 2 is either credited or this very sequence, accounting for it
closes the books. -/
theorem Book.account {cfg : Config} {s : Load} {index rtt_ns : Nat} {receipt : Receipt}
    (hacc : index ∈ s.accepted) (hown : s.state index = .received)
    (hcred : ∀ i ∈ s.credits, i ∈ s.accepted ∧ s.state i = .received)
    (hrec : ∀ i, s.state i = .received → i ∈ s.credits ∨ i = index)
    (hdup : receipt.credited = false → index ∈ s.credits) :
    Book (s.account cfg index rtt_ns receipt) := by
  have hcredits := account_credits cfg s index rtt_ns receipt
  have hstate : ∀ i, (s.account cfg index rtt_ns receipt).state i = s.state i := by
    intro i
    rw [Load.state, account_states]
    rfl
  refine ⟨?_, fun i hi => ?_, fun i hi => .inl ?_⟩
  · rw [account_receiver]
    trivial
  · rw [hcredits] at hi
    rw [account_accepted, hstate]
    rcases List.mem_append.1 hi with hi | hi
    · exact hcred i hi
    · split at hi
      · rw [List.mem_singleton.1 hi]
        exact ⟨hacc, hown⟩
      · cases hi
  · rw [hstate] at hi
    rw [hcredits]
    rcases hrec i hi with hi | rfl
    · exact List.mem_append_left _ hi
    · cases hr : receipt.credited with
      | true => exact List.mem_append_right _ (List.mem_singleton.2 rfl)
      | false => exact List.mem_append_left _ (hdup hr)

theorem state_received {s : Load} {index : Nat} (h : index < s.states.length) (other : Nat) :
    ({ s with states := s.states.set index .received } : Load).state other =
      if other = index then .received else s.state other :=
  state_set h other

/-- What a sequence past its swap is in for. -/
theorem Book.swapped {s : Load} (h : Book s) {index rtt_ns : Nat} (hi : index < s.states.length)
    (hpc : s.receiver = .swap index rtt_ns) (i : Nat)
    (hst : ({ s with states := s.states.set index .received } : Load).state i = .received) :
    i ∈ s.credits ∨ i = index := by
  rw [state_received hi] at hst
  split at hst
  · rename_i he
    exact .inr he
  · rcases h.received i hst with hc | ⟨r, hr⟩
    · exact .inl hc
    · rw [hpc] at hr
      cases hr

theorem Book.receiver {cfg : Config} {stale : List Bytes} {s s' : Load} (h : Book s)
    (hsl : Slots cfg s) (hw : Wire cfg s) (hstale : OtherRuns cfg.run_id stale)
    (hs : ReceiverStep cfg stale s s') : Book s' := by
  have hlen : ∀ index ∈ s.accepted, index < s.states.length := by
    rw [hsl.len]; exact fun _ hi => hsl.accepted_lt hi
  have hheld := h.held
  cases hs with
  | @recv packet hpc hp =>
    have hrec : ∀ index, s.state index = .received → index ∈ s.credits := by
      intro index hi
      rcases h.received index hi with hc | ⟨r, hr⟩
      · exact hc
      · rw [hpc] at hr; cases hr
    rcases hw.arrived hsl hstale hp with hr | ⟨index, hi, hr⟩
    · rw [hr]
      refine ⟨?_, h.credited, fun index hst => .inl (hrec index hst)⟩
      change Held _ s.receiver
      rw [hpc]
      trivial
    · rw [hr]
      exact ⟨hi, h.credited, fun index hst => .inl (hrec index hst)⟩
  | time _ hpc =>
    rw [hpc] at hheld
    refine ⟨hheld, h.credited, fun index hst => ?_⟩
    rcases h.received index hst with hc | ⟨r, hr⟩
    · exact .inl hc
    · rw [hpc] at hr; cases hr
  | done hpc =>
    refine ⟨trivial, h.credited, fun index hst => ?_⟩
    rcases h.received index hst with hc | ⟨r, hr⟩
    · exact .inl hc
    · rw [hpc] at hr; cases hr
  | @swapValid index rtt_ns hpc hst =>
    rw [hpc] at hheld
    have hi := hlen _ hheld
    have hout := classifyReceipt_valid.1 hst
    refine ⟨⟨hheld, by rw [Load.state, state_set hi, if_pos rfl], fun hc => ?_⟩, fun i hc => ?_,
      fun i hrec => ?_⟩
    · have := (h.credited index hc).2
      rw [hout] at this
      cases this
    · obtain ⟨ha, hstate⟩ := h.credited i hc
      refine ⟨ha, ?_⟩
      rw [Load.state, state_set hi, hstate, ite_self]
    · rcases h.swapped hi hpc i hrec with hc | rfl
      · exact .inl hc
      · exact .inr ⟨rtt_ns, rfl⟩
  | @swapOther index rtt_ns hpc hst =>
    rw [hpc] at hheld
    have hi := hlen _ hheld
    refine Book.account hheld ?_ (fun i hc => ?_) (h.swapped hi hpc) fun hr => ?_
    · rw [state_received hi, if_pos rfl]
    · obtain ⟨ha, hstate⟩ := h.credited i hc
      exact ⟨ha, by rw [state_received hi, hstate, ite_self]⟩
    · -- a receipt that is neither valid nor late is a duplicate
      have hstate : s.state index = .received := by
        rcases hsl.out hheld with he | he | he <;> rw [he] at hr hst
        · exact absurd rfl hst
        · exact he
        · cases hr
      rcases h.received index hstate with hc | ⟨r, hr'⟩
      · exact hc
      · rw [hpc] at hr'; cases hr'
  | @sub index rtt_ns hpc =>
    rw [hpc] at hheld
    refine Book.account hheld.1 hheld.2.1 h.credited (fun i hi => ?_) fun hr => by cases hr
    rcases h.received i hi with hc | ⟨r, hr⟩
    · exact .inl hc
    · rw [hpc] at hr
      cases hr
      exact .inr rfl

theorem Log.receiver {cfg : Config} {stale : List Bytes} {s s' : Load} (h : Log cfg s)
    (hsl : Slots cfg s) (hb : Book s) (hs : ReceiverStep cfg stale s s') : Log cfg s' := by
  have hheld := hb.held
  cases hs with
  | recv _ _ =>
    unfold Load.judge
    split
    · exact h.keep rfl ⟨rfl, rfl, rfl, rfl⟩ rfl
    · exact h.keep rfl ⟨rfl, rfl, rfl, rfl⟩ rfl
    · exact h.keep rfl ⟨rfl, rfl, rfl, rfl⟩ rfl
  | time _ _ | swapValid _ _ | done _ => exact h.keep rfl ⟨rfl, rfl, rfl, rfl⟩ rfl
  | @swapOther index rtt_ns hpc hst =>
    rw [hpc] at hheld
    have hlog : Log cfg { s with states := s.states.set index .received } :=
      h.keep rfl ⟨rfl, rfl, rfl, rfl⟩ rfl
    refine hlog.account (hsl.receipt hheld) fun hr hc => ?_
    have hstate := (hb.credited index hc).2
    rw [hstate] at hr
    cases hr
  | sub hpc =>
    rw [hpc] at hheld
    have hlog : Log cfg { s with outstanding := s.outstanding - 1 } :=
      h.keep rfl ⟨rfl, rfl, rfl, rfl⟩ rfl
    refine hlog.account ?_ fun _ hc => hheld.2.2 hc
    intro e
    cases e

/-! ## Every reachable state -/

theorem Inv.start (cfg : Config) : Inv cfg (Load.start cfg) where
  slots := Slots.start cfg
  tally := by
    have hcount : (Load.start cfg).states.count .outstanding = 0 := by
      rw [List.count_eq_zero]
      intro hm
      cases List.eq_of_mem_replicate hm
    unfold Tally
    rw [hcount]
    rfl
  log := ⟨.nil, fun _ he => by (cases he), rfl, rfl, rfl, fun _ hi => by (cases hi), fun _ => .nil⟩
  book := by
    refine ⟨trivial, fun _ hi => by (cases hi), fun index hi => ?_⟩
    have hst : (Load.start cfg).state index = .unsent := by
      by_cases hlt : index < cfg.count <;> simp [Load.state, Load.start, hlt]
    rw [hst] at hi
    cases hi
  wire := ⟨fun _ hp => by (cases hp), fun _ hp => by (cases hp), rfl⟩

theorem Inv.step {cfg : Config} {stale : List Bytes} (hstale : OtherRuns cfg.run_id stale)
    (s : Load) (thread : Thread) (s' : Load) (h : Inv cfg s) (hs : (load cfg stale).step s thread s') :
    Inv cfg s' := by
  cases thread with
  | sender =>
    exact ⟨h.slots.sender hs, h.tally.sender h.slots.fresh hs, h.log.sender hs, h.book.sender h.slots hs,
      h.wire.sender hs⟩
  | receiver =>
    exact ⟨h.slots.receiver h.book hs, h.tally.receiver hs,
      h.log.receiver h.slots h.book hs, h.book.receiver h.slots h.wire hstale hs, h.wire.receiver hs⟩

theorem inductive_inv {cfg : Config} {stale : List Bytes} (hstale : OtherRuns cfg.run_id stale) :
    (load cfg stale).Inductive (Inv cfg) where
  init := by rintro s rfl; exact Inv.start cfg
  step := Inv.step hstale

/-- **Every state either thread can reach keeps the books.** -/
theorem reachable_inv {cfg : Config} {stale : List Bytes} (hstale : OtherRuns cfg.run_id stale)
    {s : Load} (h : (load cfg stale).Reachable s) : Inv cfg s :=
  (inductive_inv hstale).reachable s h

end Nucleo.Echo
