import Nucleo.Core.Lts
import Nucleo.L1Encoding.Benchmark

/-!
# The benchmark service

`benchmark/service.rs` as a pure step on its state: leased control with an
epoch that no run reuses, two publication schedules, a reply bucket and
run-scoped counters. Clock readings are microseconds.

`handle` is cut where the source's own block ends: `tick`, then `assess` (who
is asking, which code, which mutation), then `spend`, the reply bucket.
`Outcome` is what `assess` hands to the bucket, so the code of a control is
visible whether or not its reply is suppressed afterwards. A `?` that leaves
`handle` early keeps the state built so far.
-/
namespace Nucleo

/-- mirrors Rust/messaging/src/service.rs:76-96 -/
structure Counters where
  received : UInt32 := 0
  rejected : UInt32 := 0
  crcRejections : UInt32 := 0
  sendErrors : UInt32 := 0
  skipped : UInt32 := 0
  active : Vector Bool 3 := Vector.replicate 3 false
  deriving DecidableEq

namespace Counters

def new : Counters := {}

/-- mirrors Rust/messaging/src/service.rs:97-101 -/
def skip (c : Counters) (amount : Nat) : Counters :=
  { c with skipped := satAdd32 c.skipped (UInt32.ofNat (min amount u32Max)) }

/-- mirrors Rust/messaging/src/service.rs:108-116 -/
def health (c : Counters) : Model.Health where
  state := some (if c.active.toList.any (·) then 2 else 1)
  receivedRequests := some c.received
  rejectedDatagrams := some c.rejected
  sendErrors := some c.sendErrors
  skippedPublications := some c.skipped

def countReceived (c : Counters) : Counters := { c with received := satAdd32 c.received 1 }

end Counters

namespace Benchmark

structure Peer where
  address : Vector UInt8 4
  port : UInt16
  deriving DecidableEq

/-- Kind, ID and contents of an accepted control. -/
structure Control where
  kind : Int
  id : UInt32
  configuration : Option Configuration
  deriving DecidableEq

structure Lease where
  peer : Peer
  session : HString 16
  configuration : Configuration
  last : Control
  expiry : Nat
  deriving DecidableEq

/-- One stream's schedule; `period = 0` is a disabled stream. -/
structure Publication where
  due : Nat := 0
  period : UInt32 := 0
  sequence : UInt32 := 0
  deriving DecidableEq

/-- `[Publication::default(); 2]`. -/
def cleared : Vector Publication 2 := Vector.replicate 2 {}

/-- mirrors Rust/messaging/src/benchmark/service.rs:32-46 -/
structure Service where
  device : HString 32
  boot : HString 16
  format : Format
  crc : CrcMode
  epoch : UInt32
  exhausted : Bool
  lease : Option Lease
  schedules : Vector Publication 2
  tokens : Nat
  tokenTime : Nat
  lastTime : Nat
  counters : Counters
  suppressedReplies : UInt32
  deriving DecidableEq

/-! ## The payload pattern -/

/-- `ALPHABET`. -/
def alphabet : Bytes := ascii "0123456789ABCDEFGHIJKLMNOPQRSTUVWXYZabcdefghijklmnopqrstuvwxyz"

def patternByte (seed token : UInt32) (i : Nat) : UInt8 :=
  alphabet.getD ((seed.toNat % 62 + token.toNat % 62 + i) % 62) 0

def patternBytes (length : Nat) (seed token : UInt32) : Bytes :=
  (List.range length).map (patternByte seed token)

theorem alphabet_alnum (k : Nat) (h : k < 62) : isAlnum (alphabet.getD k 0) = true := by
  have key : ∀ k < 62, isAlnum (alphabet.getD k 0) = true := by decide +kernel
  exact key k h

theorem isAlnum_ascii {b : UInt8} (h : isAlnum b = true) : b < 0x80 := by
  simp only [isAlnum, isDigit, Bool.or_eq_true, Bool.and_eq_true, decide_eq_true_eq] at h
  rcases h with (⟨-, h⟩ | ⟨-, h⟩) | ⟨-, h⟩ <;>
    simp only [UInt8.le_iff_toNat_le, UInt8.lt_iff_toNat_lt] at h ⊢ <;>
    simp only [UInt8.toNat_ofNat] at h ⊢ <;> omega

theorem patternBytes_alnum (length : Nat) (seed token : UInt32) :
    ∀ b ∈ patternBytes length seed token, isAlnum b = true := by
  intro b hb
  obtain ⟨i, -, rfl⟩ := List.mem_map.1 hb
  exact alphabet_alnum _ (Nat.mod_lt _ (by decide))

/-- mirrors Rust/messaging/src/benchmark/service.rs:47-58 -/
def pattern (length seed token : UInt32) : Option (HString 512) :=
  if h : 512 < length.toNat then none
  else some (.ofAscii (patternBytes length.toNat seed token)
    (by simp only [patternBytes, List.length_map, List.length_range]; omega)
    fun b hb => isAlnum_ascii (patternBytes_alnum _ _ _ b hb))

/-- The schedule after a poll at `now` that finds it due, with the sequence
number to send and the slots passed over. -/
def Publication.advance (p : Publication) (now : Nat) : Publication × UInt32 × Nat :=
  let skipped := (now - p.due) / p.period.toNat
  let sequence := p.sequence + UInt32.ofNat skipped
  ({ p with sequence := sequence + 1
            due := satAdd64 now (p.period.toNat - (now - p.due) % p.period.toNat) },
    sequence, skipped)

/-! ## State changes shared by the calls -/

namespace Service

/-- mirrors Rust/messaging/src/benchmark/service.rs:60-82 -/
def new (device : HString 32) (boot : HString 16) (format : Format) (crc : CrcMode) (now : Nat) :
    Service where
  device := device
  boot := boot
  format := format
  crc := crc
  epoch := 1
  exhausted := false
  lease := none
  schedules := cleared
  tokens := 10
  tokenTime := now
  lastTime := now
  counters := .new
  suppressedReplies := 0

def active (s : Service) : Bool := s.lease.isSome

/-- `end`: terminate once, step the epoch or latch `exhausted`.
mirrors Rust/messaging/src/benchmark/service.rs:90-99 -/
def endLease (s : Service) : Service :=
  match s.lease with
  | none => s
  | some _ =>
    if s.epoch = UInt32.ofNat u32Max then
      { s with lease := none, schedules := cleared, exhausted := true }
    else { s with lease := none, schedules := cleared, epoch := s.epoch + 1 }

/-- The clock part of `tick`: a reading before the last one ends the run and
restarts the bucket. -/
def rollback (s : Service) (now : Nat) : Service :=
  if now < s.lastTime then { s.endLease with tokenTime := now } else s

/-- The expiry part of `tick`: at or past the expiry the run ends. -/
def expire (s : Service) (now : Nat) : Service :=
  if s.lease.any (·.expiry ≤ now) then s.endLease else s

/-- The bucket part of `tick`: whole tokens since `token_time`, capped at 10;
the remainder of the interval is kept. -/
def refill (s : Service) (now : Nat) : Service :=
  let refill := (now - s.tokenTime) / 100000
  if 0 < refill then
    { s with tokens := min (min (s.tokens + min refill 10) 255) 10,
             tokenTime := now - (now - s.tokenTime) % 100000 }
  else s

/-- mirrors Rust/messaging/src/benchmark/service.rs:100-114 -/
def tick (s : Service) (now : Nat) : Service :=
  (({ s.rollback now with lastTime := now } : Service).expire now).refill now

/-- mirrors Rust/messaging/src/benchmark/service.rs:115-122 -/
def reject (s : Service) (crc : Bool) : Service :=
  if s.active then
    { s with counters := { s.counters with
        rejected := satAdd32 s.counters.rejected 1,
        crcRejections :=
          if crc then satAdd32 s.counters.crcRejections 1 else s.counters.crcRejections } }
  else s

/-- mirrors Rust/messaging/src/benchmark/service.rs:123-134 -/
def base (s : Service) (session : HString 16) (kind : Int) (now : Nat) : Envelope where
  protocolVersion := some 1
  kind := some kind
  deviceId := some s.device
  bootId := some s.boot
  sessionId := some session
  runEpoch := some s.epoch
  uptimeMs := some (UInt32.ofNat (now / 1000))

/-! ## `handle` -/

/-- The requester holds the lease. -/
def owner (s : Service) (peer : Peer) (session : HString 16) : Bool :=
  s.lease.any fun l => l.peer == peer && l.session == session

/-- The request is dropped at the door: it does not validate, names another
device or boot, or is no request kind. -/
def refuses (s : Service) (request : Envelope) : Bool :=
  !(validate request s.format s.crc).isOk || request.deviceId != some s.device ||
    !request.kind.any isRequest || (request.kind != some 1 && request.bootId != some s.boot)

/-- What `handle` does with its caller before the reply bucket: nothing to
send, a probe reply (which bypasses the bucket), or a reply that takes a token. -/
inductive Outcome where
  | none
  | probe (out : Envelope)
  | capabilities (reply : Envelope)
  | control (code : Int) (reply : Envelope)
  deriving DecidableEq

/-- mirrors Rust/messaging/src/benchmark/service.rs:152-166 -/
def capabilitiesReply (s : Service) (session : HString 16) (id : UInt32) (now : Nat) : Envelope :=
  { s.base session 11 now with
    requestId := some id
    limits := some {
      encoding := some s.format.id
      crcEnabled := some (s.crc == .on)
      maxPayloadBytes := some 512
      maxDatagramBytes := some 1024
      minStatusPeriodUs := some 1000
      minHealthPeriodUs := some 10000
      maxPeriodUs := some 10000000
      minLeaseMs := some 2000
      maxLeaseMs := some 30000
      available := some (!s.active && !s.exhausted) } }

/-- `self.counters.received = self.counters.received.saturating_add(1)`. -/
def counted (s : Service) : Service := { s with counters := s.counters.countReceived }

def probeReply (s : Service) (request : Envelope) (session : HString 16) (id : UInt32) (now : Nat) :
    Envelope :=
  { s.base session 15 now with
    payload := request.payload
    probeResponse := some ()
    requestId := some id }

/-- mirrors Rust/messaging/src/benchmark/service.rs:167-182 -/
def probe (s : Service) (request : Envelope) (owner : Bool) (session : HString 16) (id : UInt32)
    (now : Nat) : Service × Outcome :=
  if !owner || request.runEpoch != some s.epoch then (s.reject false, .none)
  else match s.lease with
    | none => (s, .none)
    | some lease =>
      match lease.configuration.payloadBytes, lease.configuration.patternSeed with
      | some length, some seed =>
        if request.payload != pattern length seed id then (s.reject false, .none)
        else (s.counted, .probe (s.counted.probeReply request session id now))
      | _, _ => (s, .none)

/-- The acquisition in the last branch of the chain: schedules, counters and
lease are replaced together, or nothing is when a field is missing.
mirrors Rust/messaging/src/benchmark/service.rs:210-230 -/
def acquire (s : Service) (request : Envelope) (peer : Peer) (session : HString 16)
    (control : Control) (now : Nat) : Option Service :=
  match request.configure with
  | none => none
  | some config =>
    match config.statusPeriodUs, config.healthPeriodUs with
    | some statusPeriod, some healthPeriod => some { s with
        schedules := #v[
          { due := satAdd64 now statusPeriod.toNat, period := statusPeriod, sequence := 0 },
          { due := satAdd64 now healthPeriod.toNat, period := healthPeriod, sequence := 0 }]
        counters := .new
        lease := some { peer := peer, session := session, configuration := config,
                        last := control, expiry := 0 } }
    | _, _ => none

/-- The rest of the last branch: count the control, then stop or (re)start the
lease's clock.
mirrors Rust/messaging/src/benchmark/service.rs:231-241 -/
def apply (s : Service) (control : Control) (now : Nat) : Service × Option Int :=
  let s := s.counted
  if control.kind = 4 then (s.endLease, some 3)
  else match s.lease with
    | none => (s, none)
    | some lease =>
      let lease := { lease with last := control }
      match lease.configuration.leaseMs with
      | none => ({ s with lease := some lease }, none)
      | some ms =>
        ({ s with lease := some { lease with expiry := satAdd64 now (ms.toNat * 1000) } }, some 1)

/-- The chain of result codes, first match first, and the mutation of its last
branch; `none` is a `?` leaving `handle`.
mirrors Rust/messaging/src/benchmark/service.rs:189-242 -/
def resultCode (s : Service) (request : Envelope) (peer : Peer) (owner : Bool) (session : HString 16)
    (control : Control) (now : Nat) : Service × Option Int :=
  if request.runEpoch ≠ some s.epoch then (s, some 6)
  else if s.exhausted then (s, some 10)
  else if s.active && !owner then (s, some 5)
  else if s.lease.any (·.last.id == control.id) then
    (s, some (if s.lease.any (·.last == control) then 2 else 8))
  else if s.lease.any (fun l => control.id < l.last.id) then (s, some 7)
  else if control.kind = 2 ∧ request.configure = none then (s, none)
  else if control.kind = 2 ∧ ¬ request.configure.any configurationValid then (s, some 4)
  else if control.kind = 2 ∧ s.active then (s, some 5)
  else if control.kind ≠ 2 ∧ ¬ s.active then (s, some 9)
  else if control.kind = 2 then
    match s.acquire request peer session control now with
    | none => (s, none)
    | some s => s.apply control now
  else s.apply control now

/-- Remaining lease in whole milliseconds, zero unless the caller holds the
lease of the epoch it names.
mirrors Rust/messaging/src/benchmark/service.rs:246-252 -/
def remaining (s : Service) (request : Envelope) (peer : Peer) (session : HString 16) (now : Nat) :
    UInt32 :=
  match s.lease with
  | none => 0
  | some l =>
    if l.peer = peer ∧ l.session = session ∧ request.runEpoch = some s.epoch then
      UInt32.ofNat ((l.expiry - now) / 1000)
    else 0

def controlReply (s : Service) (request : Envelope) (peer : Peer) (session : HString 16)
    (id : UInt32) (code : Int) (now : Nat) : Envelope :=
  { s.base session 12 now with
    runEpoch := request.runEpoch
    requestId := some id
    result := some { code := some code
                     leaseRemainingMs := some (s.remaining request peer session now) } }

/-- The end of the control branch: count a failed control, build the reply.
mirrors Rust/messaging/src/benchmark/service.rs:243-260 -/
def conclude (request : Envelope) (peer : Peer) (session : HString 16) (id : UInt32) (now : Nat) :
    Service × Option Int → Service × Outcome
  | (s, none) => (s, .none)
  | (s, some code) =>
    let s := if 1 ≤ code ∧ code ≤ 3 then s else s.reject false
    (s, .control code (s.controlReply request peer session id code now))

/-- mirrors Rust/messaging/src/benchmark/service.rs:183-260 -/
def control (s : Service) (request : Envelope) (peer : Peer) (owner : Bool) (kind : Int)
    (session : HString 16) (id : UInt32) (now : Nat) : Service × Outcome :=
  conclude request peer session id now
    (s.resultCode request peer owner session ⟨kind, id, request.configure⟩ now)

/-- `handle` between `tick` and the reply bucket.
mirrors Rust/messaging/src/benchmark/service.rs:137-260 -/
def assess (s : Service) (request : Envelope) (peer : Peer) (now : Nat) : Service × Outcome :=
  if s.refuses request then (s.reject false, .none)
  else match request.kind, request.sessionId, request.requestId with
    | some kind, some session, some id =>
      let owner := s.owner peer session
      if kind = 1 then (s, .capabilities (s.capabilitiesReply session id now))
      else if kind = 5 then s.probe request owner session id now
      else s.control request peer owner kind session id now
    | _, _, _ => (s, .none)

/-- The reply bucket.
mirrors Rust/messaging/src/benchmark/service.rs:262-268 -/
def spend (s : Service) (reply : Envelope) : Service × Option Envelope :=
  if s.tokens = 0 then ({ s with suppressedReplies := satAdd32 s.suppressedReplies 1 }, none)
  else ({ s with tokens := s.tokens - 1 }, some reply)

/-- mirrors Rust/messaging/src/benchmark/service.rs:135-269 -/
def handle (s : Service) (request : Envelope) (peer : Peer) (now : Nat) :
    Service × Option Envelope :=
  match (s.tick now).assess request peer now with
  | (s, .none) => (s, none)
  | (s, .probe out) => (s, some out)
  | (s, .capabilities reply) => s.spend reply
  | (s, .control _ reply) => s.spend reply

/-! ## `publication` -/

/-- The message of stream `index`: a synthetic status sample or the counters. -/
def sample (s : Service) (index : Nat) (session : HString 16) (sequence : UInt32)
    (payload : HString 512) (now : Nat) : Envelope :=
  let out := { s.base session (21 + index) now with
    sequence := some sequence, payload := some payload }
  if index = 0 then
    { out with status := some { temperatureCelsius := some .pos25, validity := some 1,
                                synthetic := some true } }
  else { out with health := some s.counters.health }

/-- At most the newest due sample of one stream.
mirrors Rust/messaging/src/benchmark/service.rs:271-310 -/
def publication (s : Service) (index : Nat) (now : Nat) : Service × Option Envelope :=
  let s := s.tick now
  match s.lease with
  | none => (s, none)
  | some lease =>
    if h : index < 2 then
      let schedule := s.schedules[index]
      if schedule.period = 0 ∨ now < schedule.due then (s, none)
      else
        let (schedule, sequence, skipped) := schedule.advance now
        let s := { s with schedules := s.schedules.set index schedule
                          counters := s.counters.skip skipped }
        match lease.configuration.payloadBytes, lease.configuration.patternSeed with
        | some length, some seed =>
          match pattern length seed sequence with
          | none => (s, none)
          | some payload => (s, some (s.sample index lease.session sequence payload now))
        | _, _ => (s, none)
    else (s, none)

/-! ## Runs -/

/-- One call on the service. -/
inductive Op where
  | handle (request : Envelope) (peer : Peer) (now : Nat)
  | tick (now : Nat)
  | publication (index now : Nat)
  | endLease
  | reject (crc : Bool)
  deriving DecidableEq

/-- The clock reading a call is made with. -/
def Op.time : Op → Option Nat
  | .handle _ _ now | .tick now | .publication _ now => some now
  | .endLease | .reject _ => none

/-- The service as a machine: one call, one optional message out. -/
def machine : Machine Service Op (Option Envelope) where
  step s
    | .handle request peer now => s.handle request peer now
    | .tick now => (s.tick now, none)
    | .publication index now => s.publication index now
    | .endLease => (s.endLease, none)
    | .reject crc => (s.reject crc, none)

/-- The outcome `handle` computes at `s`, before the bucket. -/
def outcome (s : Service) (request : Envelope) (peer : Peer) (now : Nat) : Outcome :=
  ((s.tick now).assess request peer now).2

/-- The result code of a control, when one was computed. -/
def Outcome.code : Outcome → Option Int
  | .control code _ => some code
  | _ => Option.none

@[simp] theorem Outcome.code_none : Outcome.none.code = Option.none := rfl
@[simp] theorem Outcome.code_probe (out : Envelope) : (Outcome.probe out).code = Option.none := rfl
@[simp] theorem Outcome.code_capabilities (reply : Envelope) :
    (Outcome.capabilities reply).code = Option.none := rfl
@[simp] theorem Outcome.code_control (code : Int) (reply : Envelope) :
    (Outcome.control code reply).code = some code := rfl

end Service

/-! ## Sample messages

The identities and requests that the concrete runs below each theorem use. -/

namespace Sample

def device : HString 32 := Nucleo.Sample.device
def boot : HString 16 := Nucleo.Sample.boot
def session : HString 16 := Nucleo.Sample.session
def peer : Peer := ⟨#v[192, 168, 1, 20], 40000⟩

/-- A configuration with both streams on. -/
def configuration : Configuration where
  payloadBytes := some 4
  patternSeed := some 7
  statusPeriodUs := some 1000
  healthPeriodUs := some 10000
  leaseMs := some 2000

/-- A request of `kind` without its body. -/
def request (kind : Int) (id epoch : UInt32) : Envelope where
  protocolVersion := some 1
  kind := some kind
  deviceId := some device
  bootId := some boot
  sessionId := some session
  requestId := some id
  runEpoch := some epoch

def capabilities (id : UInt32) : Envelope :=
  { request 1 id 0 with bootId := none, runEpoch := none, capabilities := some () }

def configure (id epoch : UInt32) : Envelope :=
  { request 2 id epoch with configure := some configuration }

def renew (id epoch : UInt32) : Envelope := { request 3 id epoch with renew := some () }

/-- The service at time 0. -/
def service : Service := .new device boot .csv .on 0

end Sample
end Benchmark
end Nucleo
