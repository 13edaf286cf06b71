import Nucleo.L2Machine.Service

/-!
# The Python reference service

`benchmark_service.py`, the host's own implementation of the benchmark
service, with Python's data: clock readings in nanoseconds, unbounded integers
cut with `min` and `& MAX`, the owner and the last control kept apart, the last
control as the whole message, and the schedules a dictionary with an entry for
each enabled stream in insertion order. A message is the envelope with one field
for each key; reading a key that is not there raises, and `none` is a raise.

The reply bucket is a `float`. Its operations are the parameter `Tokens`:
nothing here depends on how they round.
-/
namespace Nucleo.Benchmark

/-- The float operations of the reply bucket. -/
structure Tokens (T : Type) where
  /-- `10.0` -/
  full : T
  /-- `min(10.0, tokens + elapsed / 1e9 * 10)` -/
  refill : T → Nat → T
  /-- `tokens < 1` -/
  short : T → Bool
  /-- `tokens - 1` -/
  spend : T → T

/-- One entry of `schedules`: `kind: [due, sequence, period]`. -/
structure PyStream where
  kind : Int
  due : Nat
  sequence : Nat
  period : Nat
  deriving DecidableEq

structure PyCounters where
  received : Nat := 0
  rejected : Nat := 0
  sendErrors : Nat := 0
  skipped : Nat := 0
  deriving DecidableEq

/-- mirrors Rust/tools/message-demo/python/benchmark_service.py:34-54 -/
structure PyService (T : Type) where
  device : HString 32
  boot : HString 16
  encoding : Format
  crc : CrcMode
  start : Nat
  lastTime : Nat
  bucketTime : Nat
  epoch : Nat
  exhausted : Bool
  owner : Option (Peer × HString 16)
  config : Option Configuration
  lastControl : Option Envelope
  expiry : Nat
  schedules : List PyStream
  tokens : T
  suppressed : Nat
  counters : PyCounters
  activeSendErrors : List Int

/-- `MAX`. -/
def pyMax : Nat := 2 ^ 32 - 1

/-- `min(MAX, self.counters[name] + amount)`. -/
def pyCount (counter amount : Nat) : Nat := min pyMax (counter + amount)

/-- mirrors Rust/tools/message-demo/python/benchmark_wire.py:19-20 -/
def pyPattern (length seed token : Nat) : Bytes :=
  (List.range length).map fun i => alphabet.getD ((seed % 62 + token % 62 + i) % 62) 0

/-- All five keys, each in range.
mirrors Rust/tools/message-demo/python/benchmark_service.py:9-31 -/
def pyValidConfiguration (c : Configuration) : Bool :=
  match c.payloadBytes, c.patternSeed, c.statusPeriodUs, c.healthPeriodUs, c.leaseMs with
  | some payload, some seed, some status, some health, some lease =>
    decide (payload.toNat ≤ 512) && decide (seed.toNat ≤ pyMax) &&
      (decide (status.toNat = 0) || decide (1000 ≤ status.toNat ∧ status.toNat ≤ 10000000)) &&
      (decide (health.toNat = 0) || decide (10000 ≤ health.toNat ∧ health.toNat ≤ 10000000)) &&
      decide (2000 ≤ lease.toNat ∧ lease.toNat ≤ 30000)
  | _, _, _, _, _ => false

/-- The entry of a due stream after a poll, with the sequence number sent and
the slots skipped. -/
def PyStream.advance (p : PyStream) (now : Nat) : PyStream × Nat × Nat :=
  let skipped := (now - p.due) / p.period
  let sequence := (p.sequence + skipped) % 2 ^ 32
  ({ p with due := p.due + (skipped + 1) * p.period, sequence := (sequence + 1) % 2 ^ 32 },
    sequence, skipped)

namespace PyService

variable {T : Type}

def new (F : Tokens T) (device : HString 32) (boot : HString 16) (encoding : Format) (crc : CrcMode)
    (start : Nat) : PyService T where
  device := device
  boot := boot
  encoding := encoding
  crc := crc
  start := start
  lastTime := start
  bucketTime := start
  epoch := 1
  exhausted := false
  owner := none
  config := none
  lastControl := none
  expiry := 0
  schedules := []
  tokens := F.full
  suppressed := 0
  counters := {}
  activeSendErrors := []

/-- `end`.
mirrors Rust/tools/message-demo/python/benchmark_service.py:66-73 -/
def endLease (s : PyService T) : PyService T :=
  match s.owner with
  | none => s
  | some _ =>
    let s := { s with owner := none, config := none, lastControl := none, schedules := [] }
    if s.epoch = pyMax then { s with exhausted := true } else { s with epoch := s.epoch + 1 }

/-- A clock rollback raises.
mirrors Rust/tools/message-demo/python/benchmark_service.py:75-82 -/
def tick (F : Tokens T) (s : PyService T) (now : Nat) : Option (PyService T) :=
  if now < s.lastTime then none
  else
    let s := { s with lastTime := now }
    let s := if s.owner.isSome ∧ s.expiry ≤ now then s.endLease else s
    some { s with tokens := F.refill s.tokens (now - s.bucketTime), bucketTime := now }

def reject (s : PyService T) : PyService T :=
  if s.owner.isSome then
    { s with counters := { s.counters with rejected := pyCount s.counters.rejected 1 } }
  else s

/-- mirrors Rust/tools/message-demo/python/benchmark_service.py:88-97 -/
def header (s : PyService T) (session : HString 16) (kind : Int) (now : Nat) : Envelope where
  protocolVersion := some 1
  kind := some kind
  deviceId := some s.device
  bootId := some s.boot
  sessionId := some session
  runEpoch := some (UInt32.ofNat s.epoch)
  uptimeMs := some (UInt32.ofNat ((now - s.start) / 1000000 % 2 ^ 32))

/-! ## `handle` -/

/-- Another device or, past discovery, another boot. -/
def misdirected (s : PyService T) (message : Envelope) (kind : Int) : Option Bool :=
  match message.deviceId with
  | none => none
  | some device =>
    if device ≠ s.device then some true
    else if kind = 1 then some false
    else message.bootId.map (· != s.boot)

/-- mirrors Rust/tools/message-demo/python/benchmark_service.py:112-123 -/
def capabilitiesReply (s : PyService T) (session : HString 16) (id : UInt32) (now : Nat) : Envelope :=
  { s.header session 11 now with
    requestId := some id
    limits := some {
      minStatusPeriodUs := some 1000
      minHealthPeriodUs := some 10000
      maxPeriodUs := some 10000000
      minLeaseMs := some 2000
      maxLeaseMs := some 30000
      encoding := some s.encoding.id
      crcEnabled := some (s.crc == .on)
      maxPayloadBytes := some 512
      maxDatagramBytes := some 1024
      available := some (s.owner.isNone && !s.exhausted) } }

/-- The probe's payload is the pattern of the configuration and its ID. -/
def payloadMatches (s : PyService T) (message : Envelope) : Option Bool := do
  let payload ← message.payload
  let config ← s.config
  let length ← config.payloadBytes
  let seed ← config.patternSeed
  let id ← message.requestId
  pure (payload.bytes == pyPattern length.toNat seed.toNat id.toNat)

/-- The three conditions under which a probe is answered, left to right. -/
def probeMatches (s : PyService T) (message : Envelope) (owner : Peer × HString 16) : Option Bool :=
  if s.owner ≠ some owner then some false
  else match message.runEpoch with
    | none => none
    | some epoch => if epoch.toNat ≠ s.epoch then some false else s.payloadMatches message

def countReceived (s : PyService T) : PyService T :=
  { s with counters := { s.counters with received := pyCount s.counters.received 1 } }

/-- mirrors Rust/tools/message-demo/python/benchmark_service.py:124-144 -/
def probe (s : PyService T) (message : Envelope) (owner : Peer × HString 16) (now : Nat) :
    Option (PyService T × Option Envelope) :=
  match s.probeMatches message owner, message.requestId with
  | some true, some id =>
    let s := s.countReceived
    some (s, some { s.header owner.2 15 now with
      requestId := some id, payload := message.payload, probeResponse := some () })
  | some false, _ => some (s.reject, none)
  | _, _ => none

/-- The schedules of a fresh lease: an entry for each enabled stream. -/
def freshSchedules (now : Nat) (status health : UInt32) : List PyStream :=
  [((21 : Int), status), (22, health)].filterMap fun (kind, period) =>
    if period = 0 then none
    else some ⟨kind, now + period.toNat * 1000, 0, period.toNat * 1000⟩

/-- `kind == 2`: counters, owner, configuration and schedules anew.
mirrors Rust/tools/message-demo/python/benchmark_service.py:171-183 -/
def acquire (s : PyService T) (message : Envelope) (owner : Peer × HString 16) (now : Nat) :
    Option (PyService T) := do
  let config ← message.configure
  let status ← config.statusPeriodUs
  let health ← config.healthPeriodUs
  pure { s with counters := {}, activeSendErrors := [], owner := some owner, config := some config,
                schedules := freshSchedules now status health }

/-- mirrors Rust/tools/message-demo/python/benchmark_service.py:184-187 -/
def apply (s : PyService T) (message : Envelope) (kind : Int) (now : Nat) :
    Option (PyService T × Int) :=
  let s := { s.countReceived with lastControl := some message }
  if kind = 4 then some (s.endLease, 3)
  else do
    let config ← s.config
    let lease ← config.leaseMs
    pure ({ s with expiry := now + lease.toNat * 1000000 }, 1)

/-- mirrors Rust/tools/message-demo/python/benchmark_service.py:146-187 -/
def resultCode (s : PyService T) (message : Envelope) (owner : Peer × HString 16) (kind : Int)
    (id epoch : UInt32) (now : Nat) : Option (PyService T × Int) :=
  if epoch.toNat ≠ s.epoch then some (s, 6)
  else if s.exhausted then some (s, 10)
  else if s.owner.isSome ∧ s.owner ≠ some owner then some (s, 5)
  else if s.lastControl.any (·.requestId == some id) then
    some (s, if s.lastControl = some message then 2 else 8)
  else if s.lastControl.any (·.requestId.any (id < ·)) then some (s, 7)
  else if kind = 2 ∧ message.configure = none then none
  else if kind = 2 ∧ ¬ message.configure.any pyValidConfiguration then some (s, 4)
  else if kind = 2 ∧ s.owner.isSome then some (s, 5)
  else if (kind = 3 ∨ kind = 4) ∧ s.owner = none then some (s, 9)
  else if kind = 2 then
    match s.acquire message owner now with
    | none => none
    | some s => s.apply message kind now
  else s.apply message kind now

/-- `max(0, (self.expiry - now) // 1_000_000)` for the owner in its run. -/
def remaining (s : PyService T) (owner : Peer × HString 16) (epoch : UInt32) (now : Nat) : Nat :=
  if s.owner = some owner ∧ epoch.toNat = s.epoch then (s.expiry - now) / 1000000 else 0

/-- mirrors Rust/tools/message-demo/python/benchmark_service.py:190-200 -/
def controlReply (s : PyService T) (owner : Peer × HString 16) (id epoch : UInt32) (code : Int)
    (now : Nat) : Envelope :=
  { s.header owner.2 12 now with
    runEpoch := some epoch
    requestId := some id
    result := some { code := some code
                     leaseRemainingMs := some (UInt32.ofNat (s.remaining owner epoch now)) } }

/-- mirrors Rust/tools/message-demo/python/benchmark_service.py:201-205 -/
def spend (F : Tokens T) (s : PyService T) (reply : Envelope) : PyService T × Option Envelope :=
  if F.short s.tokens then ({ s with suppressed := s.suppressed + 1 }, none)
  else ({ s with tokens := F.spend s.tokens }, some reply)

def control (F : Tokens T) (s : PyService T) (message : Envelope) (owner : Peer × HString 16)
    (kind : Int) (now : Nat) : Option (PyService T × Option Envelope) := do
  let id ← message.requestId
  let epoch ← message.runEpoch
  let (s, code) ← s.resultCode message owner kind id epoch now
  let s := if code = 1 ∨ code = 2 ∨ code = 3 then s else s.reject
  pure (s.spend F (s.controlReply owner id epoch code now))

/-- mirrors Rust/tools/message-demo/python/benchmark_service.py:101-205 -/
def afterTick (F : Tokens T) (s : PyService T) (message : Envelope) (peer : Peer) (now : Nat) :
    Option (PyService T × Option Envelope) := do
  let kind ← message.kind
  if ¬ (1 ≤ kind ∧ kind ≤ 5) then some (s.reject, none)
  else match s.misdirected message kind with
    | none => none
    | some true => some (s.reject, none)
    | some false => do
      let session ← message.sessionId
      if kind = 1 then do
        let id ← message.requestId
        some (s.spend F (s.capabilitiesReply session id now))
      else if kind = 5 then s.probe message (peer, session) now
      else s.control F message (peer, session) kind now

/-- mirrors Rust/tools/message-demo/python/benchmark_service.py:99-205 -/
def handle (F : Tokens T) (s : PyService T) (message : Envelope) (peer : Peer) (now : Nat) :
    Option (PyService T × Option Envelope) := do
  let s ← s.tick F now
  s.afterTick F message peer now

/-! ## `publications` -/

/-- mirrors Rust/tools/message-demo/python/benchmark_service.py:229-233 -/
def health (s : PyService T) : Health where
  state := some (if s.activeSendErrors.isEmpty then 1 else 2)
  receivedRequests := some (UInt32.ofNat s.counters.received)
  rejectedDatagrams := some (UInt32.ofNat s.counters.rejected)
  sendErrors := some (UInt32.ofNat s.counters.sendErrors)
  skippedPublications := some (UInt32.ofNat s.counters.skipped)

def sample (s : PyService T) (kind : Int) (session : HString 16) (sequence : Nat)
    (payload : HString 512) (now : Nat) : Envelope :=
  let message := { s.header session kind now with
    sequence := some (UInt32.ofNat sequence), payload := some payload }
  if kind = 21 then
    { message with status := some { temperatureCelsius := some .pos25, validity := some 1,
                                    synthetic := some true } }
  else { message with health := some s.health }

/-- One turn of the loop over the schedules. -/
def publish (s : PyService T) (stream : PyStream) (now : Nat) :
    Option (PyService T × PyStream × Option Envelope) :=
  if now < stream.due then some (s, stream, none)
  else do
    let (stream, sequence, skipped) := stream.advance now
    let s := { s with counters := { s.counters with skipped := pyCount s.counters.skipped skipped } }
    let owner ← s.owner
    let config ← s.config
    let length ← config.payloadBytes
    let seed ← config.patternSeed
    let payload ← HString.ofBytes? 512 (pyPattern length.toNat seed.toNat sequence)
    pure (s, stream, some (s.sample stream.kind owner.2 sequence payload now))

/-- The loop over the schedules: state, entries updated in place, messages. -/
def publishAll (s : PyService T) (now : Nat) :
    List PyStream → Option (PyService T × List PyStream × List Envelope)
  | [] => some (s, [], [])
  | stream :: rest => do
    let (s, stream, message) ← s.publish stream now
    let (s, rest, messages) ← publishAll s now rest
    pure (s, stream :: rest, message.toList ++ messages)

/-- mirrors Rust/tools/message-demo/python/benchmark_service.py:207-235 -/
def publications (F : Tokens T) (s : PyService T) (now : Nat) :
    Option (PyService T × List Envelope) := do
  let s ← s.tick F now
  let (s, schedules, messages) ← s.publishAll now s.schedules
  pure ({ s with schedules := schedules }, messages)

end PyService
end Nucleo.Benchmark
