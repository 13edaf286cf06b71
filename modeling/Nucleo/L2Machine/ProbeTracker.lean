import Nucleo.Core.Json
import Nucleo.L2Machine.Metrics

/-!
# Probes of one run, seen by the sender

`ProbeTracker` and `Pacer` of `load_metrics.py`: request IDs go up, at most
`limit` of them are outstanding, each for `deadline_ns`, and a bounded history
tells a late reply from a duplicate. As in `StreamTracker`, a method that
raises leaves what it had already written.

`Tally` is a `Counter` with its keys in the order they were first counted. The
keys are open: the client counts its own errors in `counts` too.
-/
namespace Nucleo.Metrics

open Json (Str)

/-! ## `Counter`, with its keys -/

abbrev Tally := List (Str × Int)

namespace Tally

/-- `counter[key]`, zero for a missing key. -/
def get (t : Tally) (key : Str) : Int := (t.lookup key).getD 0

/-- `counter[key] += amount`. -/
def add (t : Tally) (key : Str) (amount : Int) : Tally :=
  match t with
  | [] => [(key, amount)]
  | (k, v) :: t => if k = key then (k, v + amount) :: t else (k, v) :: add t key amount

@[simp] theorem get_nil (key : Str) : get [] key = 0 := rfl

theorem get_cons (k : Str) (v : Int) (t : Tally) (key : Str) :
    get ((k, v) :: t) key = if key = k then v else t.get key := by
  unfold get
  rw [List.lookup_cons]
  by_cases h : key = k
  · simp [h]
  · rw [beq_false_of_ne h, if_neg h]

/-- Counting changes the count of its key only. -/
theorem get_add (t : Tally) (key k : Str) (amount : Int) :
    (t.add key amount).get k = t.get k + if k = key then amount else 0 := by
  induction t with
  | nil => simp [add, get_cons]
  | cons e t ih =>
    obtain ⟨k', v⟩ := e
    by_cases hk : k' = key
    · subst hk
      by_cases h : k = k' <;> simp [add, get_cons, h]
    · by_cases h : k = k'
      · subst h
        simp [add, get_cons, hk]
      · simp [add, get_cons, hk, h, ih]

theorem get_add_self (t : Tally) (key : Str) (amount : Int) : (t.add key amount).get key = t.get key + amount := by
  simp [get_add]

theorem get_add_other (t : Tally) {key k : Str} (h : k ≠ key) (amount : Int) :
    (t.add key amount).get k = t.get k := by
  simp [get_add, h]

end Tally

/-! ## `ProbeTracker` -/

/-- What is remembered of a request. -/
inductive Recent
  | timeout
  | late
  | replied
  deriving DecidableEq, Repr

/-- mirrors Rust/tools/message-demo/python/load_metrics.py:123-143 -/
structure ProbeTracker (I : Type) where
  identity : I
  limit : Nat
  deadlineNs : Nat
  history : Nat
  lastNow : Nat := 0
  /-- Oldest first: the request and when it was sent. -/
  pending : List (Nat × Nat) := []
  recent : List (Nat × Recent) := []
  lastId : Nat := 0
  counts : Tally := []
  rtt : Histogram := {}
  intervalRtt : Histogram := {}
  highWater : Nat := 0
  closed : Bool := false
  /-- An attribute the client sets, `None` until then. -/
  lastHealth : Json := .null

structure ProbeTracker.Snapshot where
  counts : Tally
  outstanding : Nat
  outstandingHighWater : Nat
  retainedRecent : Nat
  rtt : Histogram.Snapshot
  intervalRtt : Histogram.Snapshot
  closed : Bool

namespace ProbeTracker

variable {I : Type}

def new (identity : I) (limit deadlineNs history : Int) : Except String (ProbeTracker I) := do
  let limit ← integer limit 1 maxTracked "outstanding limit"
  let deadlineNs ← integer deadlineNs 1000000 maxRttNs "deadline_ns"
  let history ← integer history 1 maxTracked "recent history"
  .ok { identity, limit, deadlineNs, history }

/-- A tracker that was made has the arguments it was made with. -/
theorem new_spec {identity : I} {limit deadlineNs history : Int} {t : ProbeTracker I}
    (h : new identity limit deadlineNs history = .ok t) :
    limit = t.limit ∧ deadlineNs = t.deadlineNs ∧ history = t.history ∧
      t = { identity, limit := t.limit, deadlineNs := t.deadlineNs, history := t.history } := by
  obtain ⟨l, hl, h⟩ := except_bind_ok.1 h
  obtain ⟨d, hd, h⟩ := except_bind_ok.1 h
  obtain ⟨r, hr, h⟩ := except_bind_ok.1 h
  cases h
  exact ⟨((integer_ok (by omega)).1 hl).1, ((integer_ok (by omega)).1 hd).1, ((integer_ok (by omega)).1 hr).1, rfl⟩

/-- `self.counts[key] += amount`. -/
def count (t : ProbeTracker I) (key : String) (amount : Int) : ProbeTracker I :=
  { t with counts := t.counts.add (Str.lit key) amount }

/-- `recent[request_id] = state`. -/
def setRecent (recent : List (Nat × Recent)) (requestId : Nat) (state : Recent) : List (Nat × Recent) :=
  match recent with
  | [] => [(requestId, state)]
  | (id, s) :: recent =>
    if id = requestId then (id, state) :: recent else (id, s) :: setRecent recent requestId state

/-- The loop that drops the oldest entries, once for each of `excess`. -/
def evict : Nat → ProbeTracker I → ProbeTracker I
  | 0, t => t
  | excess + 1, t => evict excess ({ t with recent := t.recent.tail }.count "history_evictions" 1)

/-- mirrors Rust/tools/message-demo/python/load_metrics.py:145-149 -/
def remember (t : ProbeTracker I) (requestId : Nat) (state : Recent) : ProbeTracker I :=
  let recent := setRecent t.recent requestId state
  evict (recent.length - t.history) { t with recent }

/-- The loop over the pending requests, oldest first. -/
def expire (now : Nat) : List (Nat × Nat) → ProbeTracker I → ProbeTracker I
  | [], t => { t with pending := [] }
  | (requestId, sent) :: pending, t =>
    if now < sent + t.deadlineNs then { t with pending := (requestId, sent) :: pending }
    else expire now pending ((t.remember requestId .timeout).count "deadline_misses" 1)

/-- mirrors Rust/tools/message-demo/python/load_metrics.py:151-159 -/
def tick (t : ProbeTracker I) (now : Int) : Except String (ProbeTracker I) := do
  let now ← clock t.lastNow now
  .ok (expire now t.pending { t with lastNow := now })

/-- A checked request is registered.
mirrors Rust/tools/message-demo/python/load_metrics.py:166-172 -/
def register (t : ProbeTracker I) (requestId datagramBytes : Nat) : ProbeTracker I × Except String Unit :=
  if t.closed ∨ t.limit ≤ t.pending.length then (t, .error "closed tracker or full outstanding window")
  else
    let pending := t.pending ++ [(requestId, t.lastNow)]
    let t := { t with pending, lastId := requestId, highWater := max t.highWater pending.length }
    ((t.count "sent" 1).count "sent_bytes" datagramBytes, .ok ())

/-- mirrors Rust/tools/message-demo/python/load_metrics.py:161-172 -/
def sent (t : ProbeTracker I) (requestId now datagramBytes : Int) : ProbeTracker I × Except String Unit :=
  match integer requestId (t.lastId + 1) u32Max "request_id" with
  | .error e => (t, .error e)
  | .ok requestId =>
    match integer datagramBytes 1 1024 "datagram_bytes" with
    | .error e => (t, .error e)
    | .ok datagramBytes =>
      match t.tick now with
      | .error e => (t, .error e)
      | .ok t => t.register requestId datagramBytes

/-- A reply to a pending request.
mirrors Rust/tools/message-demo/python/load_metrics.py:187-191 -/
def answer (t : ProbeTracker I) (requestId sent : Nat) : ProbeTracker I × Except String String :=
  let t := { t with pending := t.pending.filter fun p => p.1 ≠ requestId }.remember requestId .replied
  match t.rtt.add (t.lastNow - sent) with
  | .error e => (t, .error e)
  | .ok rtt =>
    let t := { t with rtt }
    match t.intervalRtt.add (t.lastNow - sent) with
    | .error e => (t, .error e)
    | .ok intervalRtt => ({ t with intervalRtt }, .ok "timely_reply")

/-- The outcome of a reply.
mirrors Rust/tools/message-demo/python/load_metrics.py:180-198 -/
def classify [DecidableEq I] (t : ProbeTracker I) (identity : I) (requestId : Nat) (kind : Int) (valid : Bool) :
    ProbeTracker I × Except String String :=
  if !valid then (t, .ok "invalid_reply")
  else if identity ≠ t.identity ∨ kind ≠ 15 then (t, .ok "foreign_reply")
  else if t.closed then (t, .ok "after_close")
  else match t.pending.lookup requestId with
    | some sent => t.answer requestId sent
    | none =>
      match t.recent.lookup requestId with
      | some .timeout => ({ t with recent := setRecent t.recent requestId .late }, .ok "late_reply")
      | some _ => (t, .ok "duplicate_reply")
      | none => (t, .ok "outside_history_or_unsent")

/-- mirrors Rust/tools/message-demo/python/load_metrics.py:174-200 -/
def reply [DecidableEq I] (t : ProbeTracker I) (identity : I) (requestId : Nat) (kind now datagramBytes : Int)
    (valid : Bool) : ProbeTracker I × Except String String :=
  match t.tick now with
  | .error e => (t, .error e)
  | .ok t =>
    match integer datagramBytes 0 65535 "datagram_bytes" with
    | .error e => (t, .error e)
    | .ok datagramBytes =>
      let t := (t.count "received_datagrams" 1).count "received_bytes" datagramBytes
      match t.classify identity requestId kind valid with
      | (t, .error e) => (t, .error e)
      | (t, .ok outcome) => (t.count outcome 1, .ok outcome)

/-- mirrors Rust/tools/message-demo/python/load_metrics.py:202-209 -/
def finish (t : ProbeTracker I) (now : Int) (interrupted : Bool) : ProbeTracker I × Except String Unit :=
  match t.tick now with
  | .error e => (t, .error e)
  | .ok t =>
    if t.pending ≠ [] ∧ interrupted = false then (t, .error "normal completion requires deadline drain")
    else
      let t := if interrupted then { t.count "unresolved_at_stop" t.pending.length with pending := [] } else t
      ({ t with closed := true }, .ok ())

/-- mirrors Rust/tools/message-demo/python/load_metrics.py:211-223 -/
def snapshot (t : ProbeTracker I) (ranks : Ranks) : Snapshot where
  counts := t.counts
  outstanding := t.pending.length
  outstandingHighWater := t.highWater
  retainedRecent := t.recent.length
  rtt := t.rtt.snapshot ranks
  intervalRtt := t.intervalRtt.snapshot ranks
  closed := t.closed

end ProbeTracker

/-! ## `Pacer` -/

/-- mirrors Rust/tools/message-demo/python/load_metrics.py:226-234 -/
structure Pacer where
  start : Nat
  hz : Nat
  lastNow : Nat := 0
  nextSlot : Nat := 0
  counts : Tally := []

namespace Pacer

def new (startNs hz : Int) : Except String Pacer := do
  let start ← stamp startNs
  let hz ← integer hz 0 10000 "command_hz"
  .ok { start, hz }

def count (p : Pacer) (key : String) (amount : Int) : Pacer := { p with counts := p.counts.add (Str.lit key) amount }

/-- mirrors Rust/tools/message-demo/python/load_metrics.py:236-251 -/
def due (p : Pacer) (now : Int) (windowAvailable : Bool) : Except String (Pacer × Bool) := do
  let now ← clock p.lastNow now
  let p := { p with lastNow := now }
  if p.hz = 0 ∨ now < p.start then .ok (p, false)
  else
    let latest := (now - p.start) * p.hz / 1000000000
    if latest + 1 ≤ p.nextSlot then .ok (p, false)
    else
      let count := latest + 1 - p.nextSlot
      let p := ({ p with nextSlot := latest + 1 }.count "planned_slots" count).count "scheduling_skips" (count - 1)
      if windowAvailable then .ok (p.count "send_opportunities" 1, true)
      else .ok (p.count "window_skips" 1, false)

/-- mirrors Rust/tools/message-demo/python/load_metrics.py:253-256 -/
def nextDueNs (p : Pacer) : Option Nat :=
  if p.hz = 0 then none else some (p.start + (p.nextSlot * 1000000000 + p.hz - 1) / p.hz)

end Pacer
end Nucleo.Metrics
