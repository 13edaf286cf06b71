import Nucleo.Core.Outbox
import Nucleo.L1Encoding.RoundTrip
import Nucleo.L2Machine.Commands
import Nucleo.L2Machine.Epoch
import Nucleo.L2Machine.Publishers
import Nucleo.L2Machine.Sendable

/-!
# The coordinator of the benchmark firmware

`embassy_benchmark.rs`: one task owns the service, a command socket and a
socket for each stream. A pass of its loop has no await inside, so the network
takes datagrams from the sockets only between passes. What a pass finds (clock
readings, the link, the addresses, a received datagram, whether the stack
refuses a bind or a send) is the record `Pass`, and nothing is assumed of it.

The socket of `embassy_net` is an `Outbox`: closing it drops what waits, an
empty queue is what `try_flush` asks for.

Results:
* `Settled.next`: what waits between two passes belongs to the generation that
  the task remembers, or nothing waits.
* `coordinator_fresh`: what the network takes is valid, and no message of a run
  leaves after its end.
* `coordinator_replies`: a reply goes to who asked, one for each request.
* `coordinator_network`: a run ends with the network it began in.
-/
namespace Nucleo.Benchmark

/-- The IPv4 addresses. -/
abbrev Address := Vector UInt8 4

/-- The sockets, each with its port. -/
inductive Port
  | command
  | status
  | health
  deriving DecidableEq

/-- `COMMAND`, `STATUS`, `HEALTH`. -/
def Port.number : Port → UInt16
  | .command => 42010
  | .status => 42011
  | .health => 42012

/-- `GROUP`. -/
def group : Address := #v[239, 255, 42, 1]

/-- A datagram and where it goes. -/
structure Datagram where
  dest : Peer
  bytes : Bytes

namespace Coordinator

/-- `config_v4`, its address and gateway. -/
structure Config where
  address : Address
  maskLength : UInt8
  gateway : Option Address
  deriving DecidableEq

/-- `UdpMetadata`; the endpoint is `none` for another address family. -/
structure Remote where
  endpoint : Option Peer
  localAddress : Option Address

/-- What `try_recv_from` returns. -/
inductive Received
  | nothing
  | failed
  | datagram (bytes : Bytes) (remote : Remote)

/-- What a stream finds: whether its socket can be bound, the clock, whether it can be bound again, the
clock, whether the datagram is taken. -/
structure Turn where
  bind : Bool
  now : Nat
  rebind : Bool
  later : Nat
  send : Bool

/-- What a pass finds, in the order it asks. -/
structure Pass where
  now : Nat
  config : Option Config
  linkUp : Bool
  binds : Port → Bool
  received : Received
  handled : Nat
  bind : Bool
  later : Nat
  send : Bool
  status : Turn
  health : Turn

def Pass.ready (p : Pass) : Bool := p.linkUp && p.config.isSome

end Coordinator

/-- The task between two passes; `halted` is `pending`, which never returns. -/
structure Coordinator where
  state : Service
  generation : UInt32 × Bool
  previousConfig : Option Coordinator.Config
  sockets : Port → Outbox Datagram
  halted : Bool

namespace Coordinator

variable {W : Type} (crates : Formats W Envelope) (build : Build)

/-- `&output[..n]` after `encode`; what the buffer held before is not part of it. -/
def encoded (m : Envelope) : Option Bytes :=
  match Codec.encode crates build.format build.crc m (List.replicate 1024 0) with
  | .ok (buffer, n) => some (buffer.take n)
  | .error _ => none

/-- The service of the firmware.
mirrors Rust/src/servers/embassy_benchmark.rs:24-32 -/
def service (boot : HString 16) (now : Nat) : Service :=
  Service.new Commands.deviceId boot build.format build.crc now

def close (c : Coordinator) : Coordinator := { c with sockets := fun _ => .closed }

/-- The tuple that the loop compares its generation with. -/
def current (c : Coordinator) : UInt32 × Bool := (c.state.epoch, c.state.active)

/-- `if generation != (state.epoch(), state.active())`. -/
def fence (c : Coordinator) : Coordinator :=
  if c.generation ≠ c.current then { c.close with generation := c.current } else c

/-- `core::future::pending`, after the run was ended and the sockets were closed. -/
def halt (c : Coordinator) : Coordinator := { c.close with state := c.state.endLease, halted := true }

def push (c : Coordinator) (port : Port) (d : Datagram) : Coordinator :=
  { c with sockets := Function.update c.sockets port ((c.sockets port).push d) }

/-- `encoded.is_ok_and(|n| socket.try_send_to(&output[..n], dest).is_ok())`; `room` is what the stack says. -/
def trySend (c : Coordinator) (port : Port) (dest : Peer) (bytes : Option Bytes) (room : Bool) : Coordinator × Bool :=
  match bytes with
  | some bytes => if (c.sockets port).isOpen && room then (c.push port ⟨dest, bytes⟩, true) else (c, false)
  | none => (c, false)

def bind (c : Coordinator) (port : Port) : Coordinator :=
  { c with sockets := Function.update c.sockets port .bound }

/-- The task before its first pass.
mirrors Rust/src/servers/embassy_benchmark.rs:111-125 -/
def start (boot : HString 16) (now : Nat) (config : Option Config) (binds : Port → Bool) : Coordinator :=
  let state := service build boot now
  let opened := binds .command && binds .status && binds .health
  { state
    generation := (state.epoch, state.active)
    previousConfig := config
    sockets := fun _ => if opened then .bound else .closed
    halted := !opened }

/-- The clock, the network and the fence.
mirrors Rust/src/servers/embassy_benchmark.rs:130-146 -/
def refresh (c : Coordinator) (p : Pass) : Coordinator :=
  let c := { c with state := c.state.tick p.now }
  let c := if !p.ready || p.config ≠ c.previousConfig then
      { c.close with state := c.state.endLease, previousConfig := p.config }
    else c
  c.fence

/-- Every socket that is closed is bound, or the task halts.
mirrors Rust/src/servers/embassy_benchmark.rs:151-161 -/
def rebind (c : Coordinator) (p : Pass) : Option Coordinator :=
  if [Port.command, .status, .health].all fun port => (c.sockets port).isOpen || p.binds port then
    some { c with sockets := fun port => if (c.sockets port).isOpen then c.sockets port else .bound }
  else none

/-- The reply, unless it belongs to a run that has ended.
mirrors Rust/src/servers/embassy_benchmark.rs:193-204 -/
def answer (c : Coordinator) (p : Pass) (peer : Peer) (reply : Envelope) : Coordinator :=
  let c := { c with state := c.state.tick p.later }
  if reply.kind != some 15 || reply.runEpoch == some c.state.epoch && c.state.active then
    let (c, sent) := c.trySend .command peer (encoded crates build reply) p.send
    { c with state := { c.state with counters := c.state.counters.sent Commands.commandSocket sent } }
  else c

/-- A decoded request; the flag is the `continue` after a failed bind.
mirrors Rust/src/servers/embassy_benchmark.rs:181-206 -/
def serve (c : Coordinator) (p : Pass) (peer : Peer) (request : Envelope) : Coordinator × Bool :=
  let (state, reply) := c.state.handle request peer p.handled
  let c := ({ c with state } : Coordinator).fence
  if !(c.sockets .command).isOpen && !p.bind then ({ c with state := c.state.endLease }, true)
  else
    let c := if (c.sockets .command).isOpen then c else c.bind .command
    match reply with
    | none => (c, false)
    | some reply => (c.answer crates build p peer reply, false)

/-- mirrors Rust/src/servers/embassy_benchmark.rs:162-210 -/
def receive (c : Coordinator) (p : Pass) : Coordinator × Bool :=
  match p.received with
  | .nothing => (c, false)
  | .failed => ({ c with state := c.state.reject false }, false)
  | .datagram bytes remote =>
    if remote.localAddress ≠ p.config.map Config.address then ({ c with state := c.state.reject false }, false)
    else match remote.endpoint with
      | none => (c, false)
      | some peer => match Codec.decode crates build.format build.crc bytes with
        | .ok request => c.serve crates build p peer request
        | .error error => ({ c with state := c.state.reject (error = .crc) }, false)

/-- The datagram of a stream, unless its run has ended.
mirrors Rust/src/servers/embassy_benchmark.rs:235-246 -/
def publish (c : Coordinator) (port : Port) (index : Fin 2) (t : Turn) (message : Envelope) : Coordinator :=
  let c := { c with state := c.state.tick t.later }
  if !c.state.active || message.runEpoch != some c.state.epoch then c
  else
    let (c, sent) := c.trySend port ⟨group, port.number⟩ (encoded crates build message) t.send
    let counters := c.state.counters.sent index.succ sent
    { c with state := { c.state with counters := if sent then counters else counters.skip 1 } }

/-- A sample that still waits gives way; the flag is the `break`.
mirrors Rust/src/servers/embassy_benchmark.rs:226-234 -/
def replace (c : Coordinator) (port : Port) (t : Turn) : Coordinator × Bool :=
  if (c.sockets port).queue = [] then (c, false)
  else
    let c := { c with state := { c.state with counters := c.state.counters.skip 1 },
                      sockets := Function.update c.sockets port .closed }
    if !t.rebind then ({ c with state := c.state.endLease }, true) else (c.bind port, false)

/-- One turn of the loop over the streams; the flag is its `break`.
mirrors Rust/src/servers/embassy_benchmark.rs:218-247 -/
def stream (c : Coordinator) (port : Port) (index : Fin 2) (t : Turn) : Coordinator × Bool :=
  if !(c.sockets port).isOpen && !t.bind then ({ c with state := c.state.endLease }, true)
  else
    let c := if (c.sockets port).isOpen then c else c.bind port
    let (state, message) := c.state.publication index t.now
    let c := { c with state }
    match message with
    | none => (c, false)
    | some message => match c.replace port t with
      | (c, true) => (c, true)
      | (c, false) => (c.publish crates build port index t message, false)

/-- mirrors Rust/src/servers/embassy_benchmark.rs:217-248 -/
def streams (c : Coordinator) (p : Pass) : Coordinator :=
  match c.stream crates build .status 0 p.status with
  | (c, true) => c
  | (c, false) => (c.stream crates build .health 1 p.health).1

/-- One pass of the loop.
mirrors Rust/src/servers/embassy_benchmark.rs:128-257 -/
def pass (c : Coordinator) (p : Pass) : Coordinator :=
  let c := c.refresh p
  if !p.ready then c
  else match c.rebind p with
    | none => c.halt
    | some c => match c.receive crates build p with
      | (c, true) => c
      | (c, false) => (c.fence.streams crates build p).fence

/-- A pass, or the network takes a datagram from a socket. -/
inductive Event
  | pass (p : Pass)
  | transmit (port : Port)

/-- The firmware; a halted task makes no passes. -/
def machine : Machine Coordinator Event (Option Datagram) where
  step c
    | .pass p => (if c.halted then c else c.pass crates build p, none)
    | .transmit port =>
      ({ c with sockets := Function.update c.sockets port (c.sockets port).pop.1 }, (c.sockets port).pop.2)

/-! ## What the service keeps of a run -/

/-- A run that goes on is the run before. -/
def Stays (s s' : Service) : Prop := s'.active = true → s.active = true ∧ s'.epoch = s.epoch

section
variable {s s' s'' : Service}

theorem Stays.refl (s : Service) : Stays s s := fun h => ⟨h, rfl⟩

theorem Stays.trans (h : Stays s s') (h' : Stays s' s'') : Stays s s'' := fun ha =>
  have ⟨ha', he'⟩ := h' ha
  have ⟨ha, he⟩ := h ha'
  ⟨ha, he'.trans he⟩

theorem Stays.of_tenure (h : s'.tenure = s.tenure) : Stays s s' := by
  obtain ⟨hl, -, he, -⟩ := Service.tenure_eq_iff.1 h
  exact fun ha => ⟨by rwa [Service.active, hl] at ha, he⟩

theorem Stays.endLease (s : Service) : Stays s s.endLease := by
  intro ha
  rw [Service.active, Service.endLease_lease] at ha
  cases ha

theorem Stays.tick (s : Service) (now : Nat) : Stays s (s.tick now) := by
  intro ha
  obtain ⟨l, hl⟩ := Option.isSome_iff_exists.1 ha
  exact Stays.of_tenure (Service.tick_lease_some hl).1 ha

theorem Stays.reject (s : Service) (crc : Bool) : Stays s (s.reject crc) :=
  .of_tenure (Service.reject_frame s crc).1

theorem Stays.publication {now : Nat} (hi : Service.Inv (s.tick now)) (index : Nat) :
    Stays s (s.publication index now).1 := by
  have hp := Service.publication_polled index hi
  refine (Stays.tick s now).trans ?_
  generalize s.publication index now = r at hp
  cases hp with
  | silent => exact .refl _
  | sent => exact fun ha => ⟨ha, rfl⟩

end

/-! ## One pass -/

/-- What a reply is, when it is handed over in generation `g`. -/
structure Replied (s : Service) (p : Pass) (g : UInt32 × Bool) (d : Datagram) : Prop where
  ready : p.ready = true
  reply : ∃ bytes remote request reply, p.received = .datagram bytes remote ∧
    remote.localAddress = p.config.map Config.address ∧ remote.endpoint = some d.dest ∧
    Codec.decode crates build.format build.crc bytes = .ok request ∧
    (s.handle request d.dest p.handled).2 = some reply ∧ encoded crates build reply = some d.bytes ∧
    (reply.kind ≠ some 15 ∨ reply.runEpoch = some g.1 ∧ g.2 = true)

/-- What a sample is, when it is handed over in generation `g`. -/
structure Published (s : Service) (port : Port) (index : Fin 2) (g : UInt32 × Bool) (d : Datagram) : Prop where
  sample : ∃ now message, (s.publication index now).2 = some message ∧
    encoded crates build message = some d.bytes ∧ message.runEpoch = some g.1
  active : g.2 = true
  dest : d.dest = ⟨group, port.number⟩

/-- `Q` holds of what a pass hands over. -/
structure Admits (identity : HString 32 × HString 16 × Format × CrcMode) (p : Pass)
    (Q : Port → UInt32 × Bool → Datagram → Prop) : Prop where
  replied : ∀ s g d, Service.Sound identity s → Replied crates build s p g d → Q .command g d
  status : ∀ s g d, Service.Sound identity s → Published crates build s .status 0 g d → Q .status g d
  health : ∀ s g d, Service.Sound identity s → Published crates build s .health 1 g d → Q .health g d

/-- Inside a pass: what waits satisfies `Q` in the generation that the task remembers. -/
structure Mid (identity : HString 32 × HString 16 × Format × CrcMode) (Q : Port → UInt32 × Bool → Datagram → Prop)
    (c : Coordinator) : Prop where
  sound : Service.Sound identity c.state
  holds : ∀ port, (c.sockets port).Holds (Q port c.generation)

/-- A run that goes on is the one the task remembers. -/
def Tracks (c : Coordinator) : Prop := c.state.active = true → c.generation = c.current

/-- Nothing waits. -/
def Drained (c : Coordinator) : Prop := ∀ port, (c.sockets port).queue = []

section
variable {crates build} {identity : HString 32 × HString 16 × Format × CrcMode}
  {Q : Port → UInt32 × Bool → Datagram → Prop} {c : Coordinator} {p : Pass}

theorem Tracks.of_current (h : c.generation = c.current) : Tracks c := fun _ => h

theorem Tracks.stays (h : Tracks c) {s : Service} (hs : Stays c.state s) : Tracks { c with state := s } := by
  intro ha
  obtain ⟨ha', he⟩ := hs ha
  have hg := h ha'
  rw [show c.generation = (c.state.epoch, c.state.active) from hg, ha', ← he]
  exact Prod.ext rfl ha.symm

theorem Mid.state (h : Mid identity Q c) {s : Service} (hs : Service.Sound identity s) :
    Mid identity Q { c with state := s } := ⟨hs, h.holds⟩

theorem Mid.counters (h : Mid identity Q c) (counters : Counters) :
    Mid identity Q { c with state := { c.state with counters } } :=
  h.state (h.sound.next (.counters counters c.state.suppressedReplies))

/-- One socket changes. -/
theorem Mid.socket (h : Mid identity Q c) {port : Port} {o : Outbox Datagram} (ho : o.Holds (Q port c.generation)) :
    Mid identity Q { c with sockets := Function.update c.sockets port o } where
  sound := h.sound
  holds port' := by
    by_cases hp : port' = port
    · subst hp
      simpa using ho
    · simpa [Function.update_of_ne hp] using h.holds port'

theorem Mid.bind (h : Mid identity Q c) (port : Port) : Mid identity Q (c.bind port) := h.socket .bound

theorem Mid.push (h : Mid identity Q c) {port : Port} {d : Datagram} (hd : Q port c.generation d) :
    Mid identity Q (c.push port d) := h.socket ((h.holds port).push hd)

/-- Nothing waits in closed sockets, whatever the task remembers. -/
theorem Mid.closed {s : Service} (hs : Service.Sound identity s) (generation : UInt32 × Bool)
    (config : Option Config) (halted : Bool) :
    Mid identity Q ⟨s, generation, config, fun _ => .closed, halted⟩ := ⟨hs, fun _ => .closed⟩

theorem fence_cases (c : Coordinator) : c.fence = c ∧ c.generation = c.current ∨
    c.fence = { c.close with generation := c.current } := by
  unfold fence
  split
  · exact .inr rfl
  · rename_i h
    exact .inl ⟨rfl, Decidable.not_not.1 h⟩

theorem fence_state (c : Coordinator) : c.fence.state = c.state := by
  rcases fence_cases c with ⟨h, -⟩ | h <;> rw [h]
  rfl

theorem fence_current (c : Coordinator) : c.fence.generation = c.fence.current := by
  rcases fence_cases c with ⟨h, hg⟩ | h <;> rw [h]
  · exact hg
  · rfl

/-- A socket that the fence closed has nothing waiting, and neither have the others. -/
theorem fence_drained (hopen : ∀ port, (c.sockets port).isOpen = true)
    (hclosed : (c.fence.sockets .command).isOpen = false) : Drained c.fence := by
  intro port
  rcases fence_cases c with ⟨hf, -⟩ | hf <;> rw [hf] at hclosed ⊢
  · exact absurd ((hopen .command).symm.trans hclosed) (by decide)
  · rfl

theorem Mid.fence (h : Mid identity Q c) : Mid identity Q c.fence := by
  rcases fence_cases c with ⟨hf, -⟩ | hf <;> rw [hf]
  · exact h
  · exact Mid.closed h.sound _ _ _

/-- The top of the loop ends in the current generation. -/
theorem Mid.refresh (h : Mid identity Q c) (p : Pass) :
    Mid identity Q (c.refresh p) ∧ (c.refresh p).generation = (c.refresh p).current := by
  unfold Coordinator.refresh
  refine ⟨Mid.fence ?_, fence_current _⟩
  have ht := h.state (h.sound.tick p.now)
  split
  · exact Mid.closed ht.sound.endLease _ _ _
  · exact ht

/-- After the binds every socket is open; nothing else has changed. -/
theorem rebind_some {c' : Coordinator} (h : c.rebind p = some c') :
    c'.state = c.state ∧ c'.generation = c.generation ∧ (∀ port, (c'.sockets port).isOpen = true) ∧
      ∀ port, c'.sockets port = c.sockets port ∨ c'.sockets port = .bound := by
  unfold rebind at h
  split at h
  · cases h
    refine ⟨rfl, rfl, fun port => ?_, fun port => ?_⟩ <;> dsimp only <;> split
    · assumption
    · rfl
    · exact .inl rfl
    · exact .inr rfl
  · cases h

theorem Mid.rebind (h : Mid identity Q c) {c' : Coordinator} (hr : c.rebind p = some c') : Mid identity Q c' := by
  obtain ⟨hs, hg, -, hsockets⟩ := rebind_some hr
  refine ⟨hs ▸ h.sound, fun port => ?_⟩
  rw [hg]
  rcases hsockets port with ho | ho <;> rw [ho]
  · exact h.holds port
  · exact .bound

theorem trySend_frame (c : Coordinator) (port : Port) (dest : Peer) (bytes : Option Bytes) (room : Bool) :
    (c.trySend port dest bytes room).1.state = c.state ∧
      (c.trySend port dest bytes room).1.generation = c.generation := by
  unfold trySend
  split
  · split <;> exact ⟨rfl, rfl⟩
  · exact ⟨rfl, rfl⟩

theorem Mid.trySend (h : Mid identity Q c) {port : Port} {dest : Peer} {bytes : Option Bytes} (room : Bool)
    (hd : ∀ b, bytes = some b → Q port c.generation ⟨dest, b⟩) :
    Mid identity Q (c.trySend port dest bytes room).1 := by
  unfold Coordinator.trySend
  split
  · split
    · exact h.push (hd _ rfl)
    · exact h
  · exact h

theorem Tracks.trySend (h : Tracks c) (port : Port) (dest : Peer) (bytes : Option Bytes) (room : Bool)
    (counters : Counters) :
    Tracks { (c.trySend port dest bytes room).1 with
      state := { (c.trySend port dest bytes room).1.state with counters } } := by
  obtain ⟨hs, hg⟩ := trySend_frame c port dest bytes room
  unfold Tracks current
  rw [hs, hg]
  exact h

/-- A run that goes on after a tick is the one the task remembers. -/
theorem Tracks.active (h : Tracks c) (ha : c.state.active = true) :
    c.generation.2 = true ∧ c.generation.1 = c.state.epoch := by
  rw [h ha]
  exact ⟨ha, rfl⟩

theorem Mid.answer (h : Mid identity Q c) (ht : Tracks c) (hq : Admits crates build identity p Q) {s : Service}
    (hs : Service.Sound identity s) {bytes : Bytes} {remote : Remote} {peer : Peer} {request reply : Envelope}
    (hready : p.ready = true) (hreceived : p.received = .datagram bytes remote)
    (hlocal : remote.localAddress = p.config.map Config.address) (hendpoint : remote.endpoint = some peer)
    (hdecode : Codec.decode crates build.format build.crc bytes = .ok request)
    (hreply : (s.handle request peer p.handled).2 = some reply) :
    Mid identity Q (c.answer crates build p peer reply) ∧ Tracks (c.answer crates build p peer reply) := by
  have hm := h.state (h.sound.tick p.later)
  have ht' := ht.stays (Stays.tick c.state p.later)
  unfold Coordinator.answer
  dsimp only
  split
  · rename_i hcond
    refine ⟨(hm.trySend p.send fun b hb => ?_).counters _, ht'.trySend _ _ _ _ _⟩
    refine hq.replied s _ _ hs ⟨hready, bytes, remote, request, reply, hreceived, hlocal, hendpoint, hdecode, hreply,
      hb, ?_⟩
    rw [Bool.or_eq_true, bne_iff_ne, Bool.and_eq_true, beq_iff_eq] at hcond
    refine hcond.imp_right fun ⟨hepoch, ha⟩ => ?_
    obtain ⟨hactive, hcurrent⟩ := ht'.active ha
    exact ⟨hepoch.trans (congrArg some hcurrent.symm), hactive⟩
  · exact ⟨hm, ht'⟩

/-- A request is served in a state whose sockets are open; a failed bind finds nothing waiting. -/
theorem Mid.serve (h : Mid identity Q c) (hopen : ∀ port, (c.sockets port).isOpen = true)
    (hq : Admits crates build identity p Q) {bytes : Bytes} {remote : Remote} {peer : Peer} {request : Envelope}
    (hready : p.ready = true) (hreceived : p.received = .datagram bytes remote)
    (hlocal : remote.localAddress = p.config.map Config.address) (hendpoint : remote.endpoint = some peer)
    (hdecode : Codec.decode crates build.format build.crc bytes = .ok request) :
    Mid identity Q (c.serve crates build p peer request).1 ∧ Tracks (c.serve crates build p peer request).1 ∧
      ((c.serve crates build p peer request).2 = true → Drained (c.serve crates build p peer request).1) := by
  have hm := (h.state (h.sound.handle request peer p.handled)).fence
  have hcurrent := fence_current { c with state := (c.state.handle request peer p.handled).1 }
  have hdrained := fence_drained (c := { c with state := (c.state.handle request peer p.handled).1 }) hopen
  unfold Coordinator.serve
  dsimp only
  generalize ({ c with state := (c.state.handle request peer p.handled).1 } : Coordinator).fence = f at *
  split
  · rename_i hbind
    rw [Bool.and_eq_true, Bool.not_eq_true'] at hbind
    exact ⟨hm.state hm.sound.endLease, (Tracks.of_current hcurrent).stays (.endLease _), fun _ => hdrained hbind.1⟩
  -- the command socket is open
  have hopened : Mid identity Q (if (f.sockets .command).isOpen then f else f.bind .command) ∧
      (if (f.sockets .command).isOpen then f else f.bind .command).generation =
        (if (f.sockets .command).isOpen then f else f.bind .command).current := by
    split
    · exact ⟨hm, hcurrent⟩
    · exact ⟨hm.bind .command, hcurrent⟩
  generalize (if (f.sockets .command).isOpen then f else f.bind .command) = f' at hopened ⊢
  obtain ⟨hm, hcurrent⟩ := hopened
  cases hreply : (c.state.handle request peer p.handled).2 with
  | none => exact ⟨hm, .of_current hcurrent, fun h => by cases h⟩
  | some reply =>
    obtain ⟨hm, ht⟩ := hm.answer (.of_current hcurrent) hq h.sound hready hreceived hlocal hendpoint hdecode hreply
    exact ⟨hm, ht, fun h => by cases h⟩

/-- The receiving half of a pass. -/
theorem Mid.receive (h : Mid identity Q c) (hg : c.generation = c.current)
    (hopen : ∀ port, (c.sockets port).isOpen = true) (hq : Admits crates build identity p Q)
    (hready : p.ready = true) :
    Mid identity Q (c.receive crates build p).1 ∧ Tracks (c.receive crates build p).1 ∧
      ((c.receive crates build p).2 = true → Drained (c.receive crates build p).1) := by
  have hreject : ∀ crc, Mid identity Q { c with state := c.state.reject crc } ∧
      Tracks { c with state := c.state.reject crc } := fun crc =>
    ⟨h.state (h.sound.reject crc), (Tracks.of_current hg).stays (.reject _ crc)⟩
  unfold Coordinator.receive
  split
  · exact ⟨h, .of_current hg, fun h => by cases h⟩
  · exact ⟨(hreject false).1, (hreject false).2, fun h => by cases h⟩
  rename_i bytes remote hreceived
  split
  · exact ⟨(hreject false).1, (hreject false).2, fun h => by cases h⟩
  rename_i hlocal
  split
  · exact ⟨h, .of_current hg, fun h => by cases h⟩
  rename_i peer hendpoint
  split
  · rename_i request hdecode
    exact h.serve hopen hq hready hreceived (Decidable.not_not.1 hlocal) hendpoint hdecode
  · rename_i error _
    exact ⟨(hreject _).1, (hreject _).2, fun h => by cases h⟩

/-! ### The streams -/

theorem Mid.replace (h : Mid identity Q c) (ht : Tracks c) (port : Port) (t : Turn) :
    Mid identity Q (c.replace port t).1 ∧ Tracks (c.replace port t).1 := by
  unfold Coordinator.replace
  split
  · exact ⟨h, ht⟩
  dsimp only
  have hskip : Mid identity Q { c with
      state := { c.state with counters := c.state.counters.skip 1 }
      sockets := Function.update c.sockets port .closed } := (h.counters _).socket .closed
  split
  · exact ⟨hskip.state hskip.sound.endLease, ht.stays (.endLease _)⟩
  · exact ⟨hskip.bind port, ht⟩

theorem Mid.publish (h : Mid identity Q c) (ht : Tracks c) {s : Service} (hs : Service.Sound identity s)
    {port : Port} {index : Fin 2} (hq : ∀ s g d, Service.Sound identity s →
      Published crates build s port index g d → Q port g d) (t : Turn) {now : Nat} {message : Envelope}
    (hmessage : (s.publication index now).2 = some message) :
    Mid identity Q (c.publish crates build port index t message) ∧
      Tracks (c.publish crates build port index t message) := by
  have hm := h.state (h.sound.tick t.later)
  have ht' := ht.stays (Stays.tick c.state t.later)
  unfold Coordinator.publish
  dsimp only
  split
  · exact ⟨hm, ht'⟩
  · rename_i hcond
    rw [Bool.or_eq_true, Bool.not_eq_true', not_or, Bool.not_eq_false, bne_iff_ne, ne_eq, Decidable.not_not] at hcond
    obtain ⟨hactive, hcurrent⟩ := ht'.active hcond.1
    refine ⟨(hm.trySend t.send fun b hb => ?_).counters _, ht'.trySend _ _ _ _ _⟩
    exact hq s _ _ hs ⟨⟨now, message, hmessage, hb, hcond.2.trans (congrArg some hcurrent.symm)⟩, hactive, rfl⟩

theorem Mid.stream (h : Mid identity Q c) (ht : Tracks c) {port : Port} {index : Fin 2}
    (hq : ∀ s g d, Service.Sound identity s → Published crates build s port index g d → Q port g d) (t : Turn) :
    Mid identity Q (c.stream crates build port index t).1 ∧ Tracks (c.stream crates build port index t).1 := by
  unfold Coordinator.stream
  split
  · exact ⟨h.state h.sound.endLease, ht.stays (.endLease _)⟩
  dsimp only
  -- the socket of the stream is open
  have hopened : Mid identity Q (if (c.sockets port).isOpen then c else c.bind port) ∧
      Tracks (if (c.sockets port).isOpen then c else c.bind port) := by
    split
    · exact ⟨h, ht⟩
    · exact ⟨h.bind port, ht⟩
  generalize (if (c.sockets port).isOpen then c else c.bind port) = f at hopened ⊢
  obtain ⟨hm, ht⟩ := hopened
  have hpolled := hm.state (hm.sound.publication index t.now)
  have ht' := ht.stays (Stays.publication (hm.sound.tick t.now).inv index)
  cases hmessage : (f.state.publication index t.now).2 with
  | none => exact ⟨hpolled, ht'⟩
  | some message =>
    dsimp only
    obtain ⟨hreplaced, htr⟩ := hpolled.replace ht' port t
    split
    · rename_i f' hf
      rw [hf] at hreplaced htr
      exact ⟨hreplaced, htr⟩
    · rename_i f' hf
      rw [hf] at hreplaced htr
      exact hreplaced.publish htr hm.sound hq t hmessage

theorem Mid.streams (h : Mid identity Q c) (ht : Tracks c) (hq : Admits crates build identity p Q) :
    Mid identity Q (c.streams crates build p) ∧ Tracks (c.streams crates build p) := by
  obtain ⟨hm, ht⟩ := h.stream ht hq.status p.status
  unfold Coordinator.streams
  split
  · rename_i f hf
    rw [hf] at hm ht
    exact ⟨hm, ht⟩
  · rename_i f hf
    rw [hf] at hm ht
    exact hm.stream ht hq.health p.health

/-! ### A whole pass -/

/-- Between two passes: the task remembers the current generation, or nothing waits. -/
structure Settled (identity : HString 32 × HString 16 × Format × CrcMode)
    (Q : Port → UInt32 × Bool → Datagram → Prop) (c : Coordinator) : Prop extends Mid identity Q c where
  settled : c.generation = c.current ∨ Drained c

theorem Settled.mono (h : Settled identity Q c) {Q' : Port → UInt32 × Bool → Datagram → Prop}
    (hq : ∀ port g d, Q port g d → Q' port g d) : Settled identity Q' c :=
  ⟨⟨h.sound, fun port => (h.holds port).mono (hq port _)⟩, h.settled⟩

/-- What waits between two passes satisfies `Q` in the current generation. -/
theorem Settled.waiting (h : Settled identity Q c) (port : Port) : (c.sockets port).Holds (Q port c.current) := by
  rcases h.settled with hg | hd
  · exact hg ▸ h.holds port
  · intro d hd'
    rw [hd port] at hd'
    cases hd'

/-- **One pass.** -/
theorem Settled.pass (h : Settled identity Q c) (hq : Admits crates build identity p Q) :
    Settled identity Q (c.pass crates build p) := by
  obtain ⟨hm, hg⟩ := h.toMid.refresh p
  unfold Coordinator.pass
  dsimp only
  generalize c.refresh p = c at hm hg ⊢
  split
  · exact ⟨hm, .inl hg⟩
  rename_i hready
  rw [Bool.not_eq_true', Bool.not_eq_false] at hready
  cases hr : c.rebind p with
  | none => exact ⟨Mid.closed hm.sound.endLease _ _ _, .inr fun _ => rfl⟩
  | some c' =>
    obtain ⟨hs, hg', hopen, -⟩ := rebind_some hr
    have hg : c'.generation = c'.current := by
      unfold current
      rw [hg', hg, hs]
      rfl
    obtain ⟨hm, ht, hdrained⟩ := (hm.rebind hr).receive hg hopen hq hready
    dsimp only
    split
    · rename_i f hf
      rw [hf] at hm hdrained
      exact ⟨hm, .inr (hdrained rfl)⟩
    · rename_i f hf
      rw [hf] at hm ht
      obtain ⟨hm, -⟩ := hm.fence.streams (.of_current (fence_current f)) hq
      exact ⟨hm.fence, .inl (fence_current _)⟩

/-- **One event.** -/
theorem Settled.next (h : Settled identity Q c) (e : Event)
    (hq : ∀ p, e = .pass p → Admits crates build identity p Q) :
    Settled identity Q ((machine crates build).next c e) := by
  cases e with
  | pass p =>
    show Settled identity Q (if c.halted then c else c.pass crates build p)
    split
    · exact h
    · exact h.pass (hq p rfl)
  | transmit port =>
    refine ⟨h.toMid.socket (h.holds port).pop, h.settled.imp id fun hd port' => ?_⟩
    show (Function.update c.sockets port (c.sockets port).pop.1 port').queue = []
    by_cases hp : port' = port
    · subst hp
      rw [Function.update_self, Outbox.pop_queue, hd port']
      rfl
    · rw [Function.update_of_ne hp]
      exact hd port'

end

/-! ## The task uses the service by its calls -/

/-- `c'` comes from `c` by calls of the service and writes to its counters, without a look at the network. -/
structure Uses (c c' : Coordinator) : Prop where
  calls : ∃ accesses, c'.state = Service.served.run c.state accesses
  config : c'.previousConfig = c.previousConfig
  halted : c'.halted = c.halted

section
variable {c c' c'' : Coordinator}

theorem Uses.of_state (hs : c'.state = c.state) (hconfig : c'.previousConfig = c.previousConfig)
    (hhalted : c'.halted = c.halted) : Uses c c' := ⟨⟨[], hs⟩, hconfig, hhalted⟩

theorem Uses.refl (c : Coordinator) : Uses c c := .of_state rfl rfl rfl

theorem Uses.trans (h : Uses c c') (h' : Uses c' c'') : Uses c c'' := by
  obtain ⟨accesses, hs⟩ := h.calls
  obtain ⟨accesses', hs'⟩ := h'.calls
  refine ⟨⟨accesses ++ accesses', ?_⟩, h'.config.trans h.config, h'.halted.trans h.halted⟩
  rw [hs', hs]
  exact (Machine.run_append _ _ _ _).symm

theorem Uses.access (c : Coordinator) (access : Service.Access) :
    Uses c { c with state := Service.served.next c.state access } := ⟨⟨[access], rfl⟩, rfl, rfl⟩

theorem Uses.tick (c : Coordinator) (now : Nat) : Uses c { c with state := c.state.tick now } :=
  .access c (.op (.tick now))

theorem Uses.endLease (c : Coordinator) : Uses c { c with state := c.state.endLease } := .access c (.op .endLease)

theorem Uses.reject (c : Coordinator) (crc : Bool) : Uses c { c with state := c.state.reject crc } :=
  .access c (.op (.reject crc))

theorem Uses.counters (c : Coordinator) (counters : Counters) :
    Uses c { c with state := { c.state with counters } } :=
  .access c (.counters counters c.state.suppressedReplies)

theorem Uses.fence (c : Coordinator) : Uses c c.fence := by
  rcases fence_cases c with ⟨hf, -⟩ | hf <;> rw [hf]
  · exact .refl c
  · exact .of_state rfl rfl rfl

theorem Uses.opened (c : Coordinator) (port : Port) :
    Uses c (if (c.sockets port).isOpen then c else c.bind port) := by
  split
  · exact .refl c
  · exact .of_state rfl rfl rfl

end

section

theorem rebind_uses {c c' : Coordinator} {p : Pass} (h : c.rebind p = some c') : Uses c c' := by
  unfold rebind at h
  split at h
  · cases h
    exact .of_state rfl rfl rfl
  · cases h

theorem trySend_uses (c : Coordinator) (port : Port) (dest : Peer) (bytes : Option Bytes) (room : Bool) :
    Uses c (c.trySend port dest bytes room).1 := by
  unfold trySend
  split
  · split
    · exact .of_state rfl rfl rfl
    · exact .refl c
  · exact .refl c

theorem answer_uses (c : Coordinator) (p : Pass) (peer : Peer) (reply : Envelope) :
    Uses c (c.answer crates build p peer reply) := by
  have hticked := Uses.tick c p.later
  unfold answer
  dsimp only
  split
  · exact hticked.trans ((trySend_uses _ _ _ _ _).trans (.counters _ _))
  · exact hticked

theorem serve_uses (c : Coordinator) (p : Pass) (peer : Peer) (request : Envelope) :
    Uses c (c.serve crates build p peer request).1 := by
  have hhandle : Uses c { c with state := (c.state.handle request peer p.handled).1 } :=
    .access c (.op (.handle request peer p.handled))
  have hfenced := hhandle.trans (.fence _)
  unfold serve
  dsimp only
  generalize ({ c with state := (c.state.handle request peer p.handled).1 } : Coordinator).fence = f at hfenced ⊢
  split
  · exact hfenced.trans (.endLease f)
  have hopened := hfenced.trans (.opened f .command)
  split
  · exact hopened
  · exact hopened.trans (answer_uses crates build _ p peer _)

theorem receive_uses (c : Coordinator) (p : Pass) : Uses c (c.receive crates build p).1 := by
  unfold receive
  split
  · exact .refl c
  · exact .reject c _
  split
  · exact .reject c _
  split
  · exact .refl c
  split
  · exact serve_uses crates build c p _ _
  · exact .reject c _

theorem replace_uses (c : Coordinator) (port : Port) (t : Turn) : Uses c (c.replace port t).1 := by
  unfold replace
  split
  · exact .refl c
  have hskipped : Uses c { c with
      state := { c.state with counters := c.state.counters.skip 1 }
      sockets := Function.update c.sockets port .closed } :=
    (Uses.counters c _).trans (.of_state rfl rfl rfl)
  dsimp only
  split
  · exact hskipped.trans (.endLease _)
  · exact hskipped.trans (.of_state rfl rfl rfl)

theorem publish_uses (c : Coordinator) (port : Port) (index : Fin 2) (t : Turn) (message : Envelope) :
    Uses c (c.publish crates build port index t message) := by
  have hticked := Uses.tick c t.later
  unfold publish
  dsimp only
  split
  · exact hticked
  · exact hticked.trans ((trySend_uses _ _ _ _ _).trans (.counters _ _))

theorem stream_uses (c : Coordinator) (port : Port) (index : Fin 2) (t : Turn) :
    Uses c (c.stream crates build port index t).1 := by
  unfold stream
  split
  · exact .endLease c
  have hopened := Uses.opened c port
  dsimp only
  generalize (if (c.sockets port).isOpen then c else c.bind port) = f at hopened ⊢
  have hpolled : Uses f { f with state := (f.state.publication index t.now).1 } :=
    .access f (.op (.publication index t.now))
  split
  · exact hopened.trans hpolled
  have hreplaced := replace_uses { f with state := (f.state.publication index t.now).1 } port t
  split
  · rename_i f' hf
    rw [hf] at hreplaced
    exact hopened.trans (hpolled.trans hreplaced)
  · rename_i f' hf
    rw [hf] at hreplaced
    exact hopened.trans (hpolled.trans (hreplaced.trans (publish_uses crates build f' port index t _)))

theorem streams_uses (c : Coordinator) (p : Pass) : Uses c (c.streams crates build p) := by
  have hstatus := stream_uses crates build c .status 0 p.status
  unfold streams
  split
  · rename_i f hf
    rw [hf] at hstatus
    exact hstatus
  · rename_i f hf
    rw [hf] at hstatus
    exact hstatus.trans (stream_uses crates build f .health 1 p.health)

/-- The rest of a pass, after the network was looked at: the task uses the service, or it halts. -/
theorem pass_uses (c : Coordinator) (p : Pass) :
    Uses (c.refresh p) (c.pass crates build p) ∨ c.pass crates build p = (c.refresh p).halt := by
  unfold pass
  dsimp only
  generalize c.refresh p = c
  split
  · exact .inl (.refl c)
  cases hr : c.rebind p with
  | none => exact .inr rfl
  | some f =>
    have hreceived := (rebind_uses hr).trans (receive_uses crates build f p)
    left
    dsimp only
    split
    · rename_i g hg
      rw [hg] at hreceived
      exact hreceived
    · rename_i g hg
      rw [hg] at hreceived
      exact hreceived.trans ((Uses.fence g).trans ((streams_uses crates build _ p).trans (.fence _)))

end

end Coordinator

namespace Sample

def csvBuild : Build := ⟨.csv, .off⟩

def boardConfig : Coordinator.Config := ⟨#v[192, 168, 1, 2], 24, none⟩

/-- A `configure` for the firmware. -/
def boardConfigure : Envelope := { configure 1 1 with deviceId := some Commands.deviceId }

def asked : Coordinator.Received :=
  .datagram ((Coordinator.encoded (generated boardConfigure) csvBuild boardConfigure).getD [])
    ⟨some peer, some boardConfig.address⟩

/-- A pass at `now` that nothing is refused in. -/
def passAt (now : Nat) (received : Coordinator.Received) : Coordinator.Pass where
  now
  config := some boardConfig
  linkUp := true
  binds _ := true
  received
  handled := now
  bind := true
  later := now
  send := true
  status := ⟨true, now, true, now, true⟩
  health := ⟨true, now, true, now, true⟩

/-- The run starts, its reply leaves, and so does a sample of each stream. -/
def started : List Coordinator.Event := [.pass (passAt 1 asked), .transmit .command]

def sampled : List Coordinator.Event := [.pass (passAt 20000 .nothing), .transmit .status, .transmit .health]

def board : Coordinator := .start csvBuild boot 0 (some boardConfig) fun _ => true

end Sample

namespace Coordinator

variable {W : Type} (crates : Formats W Envelope) (build : Build)

/-! ## What is transmitted -/

/-- The identity of the firmware. -/
def identity (build : Build) (boot : HString 16) : HString 32 × HString 16 × Format × CrcMode :=
  (Commands.deviceId, boot, build.format, build.crc)

theorem start_settled {build : Build} {boot : HString 16} {Q : Port → UInt32 × Bool → Datagram → Prop} (now : Nat)
    (config : Option Config) (binds : Port → Bool) :
    Settled (identity build boot) Q (start build boot now config binds) := by
  refine ⟨⟨Service.Sound.new _ _ _ _ _, fun port => ?_⟩, .inl rfl⟩
  unfold start
  dsimp only
  split
  · exact .bound
  · exact .closed

/-- The message names the device and its boot. -/
def Signed (boot : HString 16) (m : Envelope) : Prop := m.deviceId = some Commands.deviceId ∧ m.bootId = some boot

/-- A message of a run: the reply to a probe or a sample. -/
def RunBound (m : Envelope) : Prop := m.kind = some 15 ∨ m.kind = some 21 ∨ m.kind = some 22

/-- The datagram carries `m`: it is its encoding, and whoever decodes it has `m`. -/
structure Carries (boot : HString 16) (d : Datagram) (m : Envelope) : Prop where
  encoded : encoded crates build m = some d.bytes
  valid : validate m build.format build.crc = .ok ()
  signed : Signed boot m
  size : d.bytes.length ≤ 1024
  decodes : Codec.decode crates build.format build.crc d.bytes = .ok (normalize m)

section
variable {build} {boot : HString 16} {s : Service} (h : Service.Sound (identity build boot) s)
include h

theorem signed_of_sound {m : Envelope} (hm : m.deviceId = some s.device ∧ m.bootId = some s.boot) : Signed boot m :=
  ⟨hm.1.trans (congrArg some (congrArg Prod.fst h.identity)),
    hm.2.trans (congrArg some (congrArg (fun i => i.2.1) h.identity))⟩

theorem sound_validates {m : Envelope} (hm : Service.Valid s m) : validate m build.format build.crc = .ok () := by
  have hid := h.identity
  simp only [Service.identity, identity, Prod.mk.injEq] at hid
  rw [← hid.2.2.1, ← hid.2.2.2]
  exact hm.validates

/-- A reply names device and boot and is no sample. -/
theorem handle_origin {request : Envelope} {peer : Peer} {now : Nat} {m : Envelope}
    (hm : (s.handle request peer now).2 = some m) :
    Signed boot m ∧ (m.kind = some 11 ∨ m.kind = some 12 ∨ m.kind = some 15) := by
  obtain ⟨s', ha⟩ := Service.handle_some hm
  have hsound := (h.tick now).assess request peer (Service.tick_frame s now).1
  have he := Service.assess_effect (h.tick now).inv request peer now
  rcases ha with ha | ha | ⟨code, ha⟩ <;> rw [ha] at he hsound
  · cases he with
    | probe => exact ⟨signed_of_sound hsound ⟨rfl, rfl⟩, .inr (.inr rfl)⟩
  · cases he with
    | capabilities => exact ⟨signed_of_sound hsound ⟨rfl, rfl⟩, .inl rfl⟩
  · obtain ⟨_, _, -, -, rfl⟩ := Service.control_reply he
    exact ⟨signed_of_sound hsound ⟨rfl, rfl⟩, .inr (.inl rfl)⟩

theorem publication_origin {index now : Nat} {m : Envelope} (hm : (s.publication index now).2 = some m) :
    Signed boot m := by
  have hsound := h.publication index now
  have hp := Service.publication_polled index (h.tick now).inv
  generalize s.publication index now = r at hm hsound hp
  cases hp with
  | silent => cases hm
  | sent _ hx =>
    cases hm
    refine signed_of_sound hsound ?_
    unfold Service.sample
    dsimp only
    split <;> exact ⟨rfl, rfl⟩

end

section
variable {crates build} (hc : crates.Lawful (Envelope.json crates.float) Envelope.proto) {r : Wire.Reader}
  (hr : r.Lawful utf8Valid) (hpb : GeneratedPb crates r)
  (hserde : build.format = .json → ∀ m, validate m build.format build.crc = .ok () →
    crates.fromSlice (m.json crates.float) = some (m, (m.json crates.float).length))
include hc hr hpb hserde

/-- What is encoded for a valid message is at most 1024 bytes and is read back. -/
theorem Carries.of_valid {boot : HString 16} {m : Envelope} (hm : validate m build.format build.crc = .ok ())
    (hsigned : Signed boot m) {d : Datagram} (hd : Coordinator.encoded crates build m = some d.bytes) :
    Carries crates build boot d m := by
  obtain ⟨buffer, n, henc, hn, hdec⟩ := Codec.codec_round_trip hr hpb hc hm (fun hf => hserde hf m hm)
    (Nat.le_of_eq List.length_replicate.symm)
  have hbytes : buffer.take n = d.bytes := by
    unfold Coordinator.encoded at hd
    rw [henc] at hd
    exact Option.some.inj hd
  refine ⟨hd, hm, hsigned, ?_, hbytes ▸ hdec⟩
  have hextra : maxBody + Framing.extra build.crc ≤ 1024 := by cases build.crc <;> decide
  rw [← hbytes, List.length_take]
  omega

variable (crates build) in
/-- In generation `g` only messages of its run wait, if they belong to a run. -/
def Fresh (boot : HString 16) (_ : Port) (g : UInt32 × Bool) (d : Datagram) : Prop :=
  ∃ m, Carries crates build boot d m ∧ (RunBound m → g.2 = true ∧ m.runEpoch = some g.1)

theorem admits_fresh {boot : HString 16} (hboot : nonce (some boot) = true) (p : Pass) :
    Admits crates build (identity build boot) p (Fresh crates build boot) := by
  have hdevice : deviceIdValid (some Commands.deviceId) = true := by decide
  have hpublished : ∀ s port (index : Fin 2) g d, Service.Sound (identity build boot) s →
      Published crates build s port index g d → Fresh crates build boot port g d := by
    rintro s port index g d hs ⟨⟨now, m, hm, hbytes, hepoch⟩, hactive, -⟩
    have hmvalid := sound_validates (hs.publication index now) (hs.publication_valid hdevice hboot hm)
    exact ⟨m, .of_valid hc hr hpb hserde hmvalid (publication_origin hs hm) hbytes, fun _ => ⟨hactive, hepoch⟩⟩
  refine ⟨?_, fun s => hpublished s .status 0, fun s => hpublished s .health 1⟩
  rintro s g d hs ⟨-, bytes, remote, request, m, -, -, -, -, hm, hbytes, hepoch⟩
  obtain ⟨hsigned, hkind⟩ := handle_origin hs hm
  have hmvalid := sound_validates (hs.handle request d.dest p.handled) (hs.handle_valid hdevice hboot hm).1
  refine ⟨m, .of_valid hc hr hpb hserde hmvalid hsigned hbytes, fun hrun => ?_⟩
  -- of the replies only that to a probe belongs to a run
  have hprobe : m.kind = some 15 := by
    rcases hkind with hk | hk | hk <;> rw [RunBound, hk] at hrun
    · simp at hrun
    · simp at hrun
    · exact hk
  obtain ⟨hepoch, hactive⟩ := hepoch.resolve_left (not_not_intro hprobe)
  exact ⟨hactive, hepoch⟩

/-- **Nothing of an ended run is transmitted.** Over every run of the task and the network, whatever the clocks
read, whatever is received and whatever the stack refuses: a datagram that leaves a socket is at most 1024 bytes
and decodes to a valid message of this device and boot, and a sample or the reply to a probe belongs to the run
that is active when it leaves. -/
theorem coordinator_fresh {boot : HString 16} (hboot : nonce (some boot) = true) (now : Nat) (config : Option Config)
    (binds : Port → Bool) (events : List Event) :
    ∀ e ∈ (machine crates build).trace (start build boot now config binds) events, ∀ d, e.2.2 = some d →
      ∃ m, Carries crates build boot d m ∧
        (RunBound m → e.1.state.active = true ∧ m.runEpoch = some e.1.state.epoch) := by
  rintro ⟨c, event, out⟩ he d rfl
  obtain ⟨hsettled, hout⟩ := (machine crates build).trace_inv
    (fun _ l hs => hs.next l fun p _ => admits_fresh hc hr hpb hserde hboot p) _ (start_settled now config binds)
    events _ he
  cases event with
  | pass p => cases hout
  | transmit port =>
    obtain ⟨m, hm, hfresh⟩ := (hsettled.waiting port).popped hout.symm
    exact ⟨m, hm, fun hrun => ⟨(hfresh hrun).1, (hfresh hrun).2⟩⟩

end

/-- All three of them. -/
theorem coordinator_fresh_sample :
    ((machine (Sample.generated Sample.boardConfigure) Sample.csvBuild).trace Sample.board
        (Sample.started ++ Sample.sampled)).countP (·.2.2.isSome) = 3 ∧
      ∀ e ∈ (machine (Sample.generated Sample.boardConfigure) Sample.csvBuild).trace Sample.board
          (Sample.started ++ Sample.sampled), ∀ d, e.2.2 = some d →
        ∃ m, Carries (Sample.generated Sample.boardConfigure) Sample.csvBuild Sample.boot d m ∧
          (RunBound m → e.1.state.active = true ∧ m.runEpoch = some e.1.state.epoch) :=
  ⟨by decide +kernel, coordinator_fresh (Sample.generated_lawful _) (Wire.Reader.standard_lawful _ _) (fun _ => rfl)
    (fun h => by cases h) (by decide) _ _ _ _⟩

/-! ## Replies -/

/-- What waits on the command socket. -/
def waiting (c : Coordinator) : Nat := (c.sockets .command).queue.length

/-- The pass received a datagram. -/
def Pass.asked (p : Pass) : Nat :=
  match p.received with
  | .datagram _ _ => 1
  | _ => 0

section

theorem fence_waiting (c : Coordinator) : c.fence.waiting ≤ c.waiting := by
  rcases fence_cases c with ⟨hf, -⟩ | hf
  · exact Nat.le_of_eq (congrArg waiting hf)
  · rw [hf]
    exact Nat.zero_le _

theorem refresh_waiting (c : Coordinator) (p : Pass) : (c.refresh p).waiting ≤ c.waiting := by
  unfold refresh
  refine Nat.le_trans (fence_waiting _) ?_
  dsimp only
  split
  · exact Nat.zero_le _
  · exact Nat.le_refl _

theorem update_waiting {c : Coordinator} {port : Port} (hp : port ≠ .command) (o : Outbox Datagram) :
    waiting { c with sockets := Function.update c.sockets port o } = c.waiting := by
  unfold waiting
  dsimp only
  rw [Function.update_of_ne hp.symm]

theorem trySend_waiting (c : Coordinator) (port : Port) (dest : Peer) (bytes : Option Bytes) (room : Bool) :
    (c.trySend port dest bytes room).1.waiting ≤ c.waiting + (if port = .command then 1 else 0) := by
  unfold trySend
  split
  · split
    · by_cases hp : port = .command
      · subst hp
        unfold push waiting
        dsimp only
        rw [Function.update_self]
        exact Outbox.push_length _ _
      · exact Nat.le_trans (Nat.le_of_eq (update_waiting hp _)) (Nat.le_add_right _ _)
    · exact Nat.le_add_right _ _
  · exact Nat.le_add_right _ _

theorem answer_waiting (c : Coordinator) (p : Pass) (peer : Peer) (reply : Envelope) :
    (c.answer crates build p peer reply).waiting ≤ c.waiting + 1 := by
  unfold answer
  dsimp only
  split
  · exact trySend_waiting { c with state := c.state.tick p.later } .command peer _ _
  · exact Nat.le_succ _

theorem serve_waiting (c : Coordinator) (p : Pass) (peer : Peer) (request : Envelope) :
    (c.serve crates build p peer request).1.waiting ≤ c.waiting + 1 := by
  have hf := fence_waiting { c with state := (c.state.handle request peer p.handled).1 }
  unfold serve
  dsimp only
  generalize ({ c with state := (c.state.handle request peer p.handled).1 } : Coordinator).fence = f at hf ⊢
  have hf : f.waiting ≤ c.waiting := hf
  split
  · exact Nat.le_succ_of_le hf
  have hopened : (if (f.sockets .command).isOpen then f else f.bind .command).waiting ≤ c.waiting := by
    split
    · exact hf
    · unfold bind waiting
      dsimp only
      rw [Function.update_self]
      exact Nat.zero_le _
  generalize (if (f.sockets .command).isOpen then f else f.bind .command) = f' at hopened ⊢
  split
  · exact Nat.le_succ_of_le hopened
  · exact Nat.le_trans (answer_waiting crates build f' p peer _) (Nat.succ_le_succ hopened)

theorem receive_waiting (c : Coordinator) (p : Pass) :
    (c.receive crates build p).1.waiting ≤ c.waiting + p.asked := by
  unfold receive Pass.asked
  cases p.received with
  | nothing => exact Nat.le_refl _
  | failed => exact Nat.le_refl _
  | datagram bytes remote =>
    dsimp only
    split
    · exact Nat.le_succ _
    split
    · exact Nat.le_succ _
    split
    · exact serve_waiting crates build c p _ _
    · exact Nat.le_succ _

theorem replace_waiting (c : Coordinator) {port : Port} (hp : port ≠ .command) (t : Turn) :
    (c.replace port t).1.waiting = c.waiting := by
  unfold replace
  split
  · rfl
  dsimp only
  split
  · exact update_waiting hp _
  · exact (update_waiting hp _).trans (update_waiting hp _)

theorem publish_waiting (c : Coordinator) {port : Port} (hp : port ≠ .command) (index : Fin 2) (t : Turn)
    (message : Envelope) : (c.publish crates build port index t message).waiting ≤ c.waiting := by
  unfold publish
  dsimp only
  split
  · exact Nat.le_refl _
  · have hsent := trySend_waiting { c with state := c.state.tick t.later } port ⟨group, port.number⟩
      (Coordinator.encoded crates build message) t.send
    rw [if_neg hp] at hsent
    exact hsent

/-- The streams leave the command socket alone. -/
theorem stream_waiting (c : Coordinator) {port : Port} (hp : port ≠ .command) (index : Fin 2) (t : Turn) :
    (c.stream crates build port index t).1.waiting ≤ c.waiting := by
  unfold stream
  split
  · exact Nat.le_refl _
  dsimp only
  have hopened : (if (c.sockets port).isOpen then c else c.bind port).waiting = c.waiting := by
    split
    · rfl
    · exact update_waiting hp _
  generalize (if (c.sockets port).isOpen then c else c.bind port) = f at hopened ⊢
  rw [← hopened]
  have hreplaced := replace_waiting { f with state := (f.state.publication index t.now).1 } hp t
  split
  · exact Nat.le_refl _
  split
  · rename_i f' hf
    rw [hf] at hreplaced
    exact Nat.le_of_eq hreplaced
  · rename_i f' hf
    rw [hf] at hreplaced
    exact Nat.le_trans (publish_waiting crates build f' hp index t _) (Nat.le_of_eq hreplaced)

theorem streams_waiting (c : Coordinator) (p : Pass) : (c.streams crates build p).waiting ≤ c.waiting := by
  have hstatus := stream_waiting crates build c (show Port.status ≠ .command by decide) 0 p.status
  unfold streams
  split
  · rename_i f hf
    rw [hf] at hstatus
    exact hstatus
  · rename_i f hf
    rw [hf] at hstatus
    exact Nat.le_trans (stream_waiting crates build f (by decide) 1 p.health) hstatus

/-- A pass hands over one reply, if it received a datagram. -/
theorem pass_waiting (c : Coordinator) (p : Pass) : (c.pass crates build p).waiting ≤ c.waiting + p.asked := by
  have hrefreshed := refresh_waiting c p
  unfold pass
  dsimp only
  generalize c.refresh p = f at hrefreshed ⊢
  split
  · exact Nat.le_add_right_of_le hrefreshed
  cases hr : f.rebind p with
  | none => exact Nat.zero_le _
  | some c' =>
    obtain ⟨-, -, -, hsockets⟩ := rebind_some hr
    have hbound : c'.waiting ≤ f.waiting := by
      unfold waiting
      rcases hsockets .command with ho | ho <;> rw [ho]
      exact Nat.zero_le _
    have hreceived := receive_waiting crates build c' p
    dsimp only
    split
    · rename_i g hg
      rw [hg] at hreceived
      exact Nat.le_trans hreceived (by omega)
    · rename_i g hg
      rw [hg] at hreceived
      have hstreams := streams_waiting crates build g.fence p
      have hfence := fence_waiting g
      have hlast := fence_waiting (g.fence.streams crates build p)
      dsimp only at hreceived
      omega

/-- Command datagrams that the network took. -/
def taken (c : Coordinator) (events : List Event) : Nat :=
  ((machine crates build).trace c events).countP fun e =>
    match e.2.1 with
    | .transmit .command => e.2.2.isSome
    | _ => false

/-- Datagrams that were received. -/
def asked : List Event → Nat
  | [] => 0
  | .pass p :: events => p.asked + asked events
  | .transmit _ :: events => asked events

/-- What was taken and what still waits was asked for. -/
theorem taken_le (c : Coordinator) (events : List Event) :
    taken crates build c events + ((machine crates build).run c events).waiting ≤ c.waiting + asked events := by
  induction events generalizing c with
  | nil => exact Nat.le_of_eq (Nat.zero_add _)
  | cons e events ih =>
    have ih := ih ((machine crates build).next c e)
    rw [Machine.run_cons]
    unfold taken at ih ⊢
    rw [Machine.trace_cons, List.countP_cons]
    cases e with
    | pass p =>
      have hpass : ((machine crates build).next c (.pass p)).waiting ≤ c.waiting + p.asked := by
        show (if c.halted then c else c.pass crates build p).waiting ≤ c.waiting + p.asked
        split
        · exact Nat.le_add_right _ _
        · exact pass_waiting crates build c p
      dsimp only [asked]
      simp only [Bool.false_eq_true, if_false, Nat.add_zero]
      omega
    | transmit port =>
      cases port with
      | command =>
        have hpop := Outbox.pop_length (c.sockets .command)
        have hnext : ((machine crates build).next c (.transmit .command)).waiting =
            (c.sockets .command).pop.1.queue.length := by
          show (Function.update c.sockets .command (c.sockets .command).pop.1 .command).queue.length = _
          rw [Function.update_self]
        have hout : (machine crates build).out c (.transmit .command) = (c.sockets .command).pop.2 := rfl
        dsimp only [asked]
        rw [hout]
        unfold waiting at ih hnext ⊢
        cases hd : (c.sockets .command).pop.2 with
        | none =>
          rw [hd] at hpop
          simp only [Option.isSome_none, Bool.false_eq_true, if_false, Option.toList_none, List.length_nil] at hpop ⊢
          omega
        | some d =>
          rw [hd] at hpop
          simp only [Option.isSome_some, if_true, Option.toList_some, List.length_singleton] at hpop ⊢
          omega
      | status =>
        have hnext : ((machine crates build).next c (.transmit .status)).waiting = c.waiting :=
          update_waiting (by decide) _
        rw [hnext] at ih
        exact ih
      | health =>
        have hnext : ((machine crates build).next c (.transmit .health)).waiting = c.waiting :=
          update_waiting (by decide) _
        rw [hnext] at ih
        exact ih

end

/-- The passes of a run so far. -/
def passes : List Event → List Pass
  | [] => []
  | .pass p :: events => p :: passes events
  | .transmit _ :: events => passes events

/-- Where a datagram goes: a reply to who asked for it, a sample to the group. -/
def Addressed (history : List Pass) (port : Port) (d : Datagram) : Prop :=
  match port with
  | .command => ∃ p ∈ history, p.ready = true ∧ ∃ bytes remote request reply, p.received = .datagram bytes remote ∧
      remote.localAddress = p.config.map Config.address ∧ remote.endpoint = some d.dest ∧
      Codec.decode crates build.format build.crc bytes = .ok request ∧
      encoded crates build reply = some d.bytes ∧ Service.Echoes request reply
  | port => d.dest = ⟨group, port.number⟩

section
variable {boot : HString 16} (hboot : nonce (some boot) = true)
include hboot

theorem admits_addressed {history : List Pass} {p : Pass} (hp : p ∈ history) :
    Admits crates build (identity build boot) p (fun port _ => Addressed crates build history port) where
  replied := by
    rintro s g d hs ⟨hready, bytes, remote, request, reply, hreceived, hlocal, hendpoint, hdecode, hm, hbytes, -⟩
    have hechoes := (hs.handle_valid (by decide) hboot hm).2
    exact ⟨p, hp, hready, bytes, remote, request, reply, hreceived, hlocal, hendpoint, hdecode, hbytes, hechoes⟩
  status _ _ _ _ hd := hd.dest
  health _ _ _ _ hd := hd.dest

omit hboot in
theorem passes_append (events events' : List Event) :
    passes (events ++ events') = passes events ++ passes events' := by
  induction events with
  | nil => rfl
  | cons e events ih =>
    cases e with
    | pass p => exact congrArg (p :: ·) ih
    | transmit port => exact ih

omit hboot in
theorem Addressed.mono {history history' : List Pass} (hsub : ∀ p ∈ history, p ∈ history') {port : Port}
    {d : Datagram} (h : Addressed crates build history port d) : Addressed crates build history' port d := by
  cases port with
  | command =>
    obtain ⟨p, hp, hd⟩ := h
    exact ⟨p, hsub p hp, hd⟩
  | status => exact h
  | health => exact h

/-- Along a run what waits is addressed. -/
theorem run_addressed (now : Nat) (config : Option Config) (binds : Port → Bool) (events : List Event) :
    Settled (identity build boot) (fun port _ => Addressed crates build (passes events) port)
      ((machine crates build).run (start build boot now config binds) events) := by
  induction events using List.reverseRecOn with
  | nil => exact start_settled now config binds
  | append_singleton events e ih =>
    rw [Machine.run_snoc, passes_append]
    have hwider : Settled (identity build boot)
        (fun port _ => Addressed crates build (passes events ++ passes [e]) port)
        ((machine crates build).run (start build boot now config binds) events) :=
      ih.mono fun port g d hd => hd.mono crates build fun p hp => List.mem_append_left _ hp
    refine hwider.next e fun p hp => admits_addressed crates build hboot (List.mem_append_right _ ?_)
    rw [hp]
    exact List.mem_singleton_self p

/-- **Replies go to who asked, one for each request.** Over every run, a datagram that leaves the command socket
answers a datagram that came to the address of the device before it: it goes to its sender and echoes its
session and ID. A sample goes to the group, and no more replies leave than datagrams came. -/
theorem coordinator_replies (now : Nat) (config : Option Config) (binds : Port → Bool) (events : List Event) :
    (∀ port d, (machine crates build).out ((machine crates build).run (start build boot now config binds) events)
        (.transmit port) = some d → Addressed crates build (passes events) port d) ∧
      taken crates build (start build boot now config binds) events ≤ asked events := by
  refine ⟨fun port d hd => ?_, ?_⟩
  · have hsettled := run_addressed crates build hboot now config binds events
    exact (hsettled.waiting port).popped hd
  · have hstart : (start build boot now config binds).waiting = 0 := by
      unfold start waiting
      dsimp only
      split <;> rfl
    have := taken_le crates build (start build boot now config binds) events
    omega

end

theorem coordinator_replies_sample :
    (machine (Sample.generated Sample.boardConfigure) Sample.csvBuild).out
        ((machine (Sample.generated Sample.boardConfigure) Sample.csvBuild).run Sample.board [.pass (Sample.passAt 1
          Sample.asked)]) (.transmit .command) ≠ none ∧
      (∀ port d, (machine (Sample.generated Sample.boardConfigure) Sample.csvBuild).out
        ((machine (Sample.generated Sample.boardConfigure) Sample.csvBuild).run Sample.board [.pass (Sample.passAt 1
          Sample.asked)]) (.transmit port) = some d →
        Addressed (Sample.generated Sample.boardConfigure) Sample.csvBuild [Sample.passAt 1 Sample.asked] port d) ∧
      taken (Sample.generated Sample.boardConfigure) Sample.csvBuild Sample.board [.pass (Sample.passAt 1
        Sample.asked)] ≤ 1 :=
  ⟨by decide +kernel, coordinator_replies _ _ (by decide) 0 (some Sample.boardConfig) (fun _ => true) _⟩

/-! ## The network -/

open Nucleo.Fence (Reached Past)

/-- Writes to the counters are nothing to the fence. -/
theorem served_fence {s : Service} (hi : Service.Inv s) (accesses : List Service.Access) :
    ∃ events, (Nucleo.Fence.fence Lease u32Max).Run s.fence events (Service.served.run s accesses).fence := by
  induction accesses generalizing s with
  | nil => exact ⟨[], .nil _⟩
  | cons access accesses ih =>
    cases access with
    | op op =>
      obtain ⟨events, hrun⟩ := ih (hi.next op)
      obtain ⟨h1, h2⟩ := Service.step_moves hi op
      exact ⟨_, (h1.append h2).append hrun⟩
    | counters counters suppressed =>
      exact ih (s := { s with counters, suppressedReplies := suppressed }) (hi.of_tenure rfl hi.tokens)

theorem past_endLease {t : Nat} {s : Service} (hi : Service.Inv s) (h : Reached t s.fence) :
    Past t s.endLease.fence := by
  rcases h with ⟨hl, ht⟩ | hp
  · rcases (Service.moves_endLease s).ended hl (Service.endLease_lease s) with ⟨-, htoken, -⟩ | ⟨-, -, hspent⟩
    · exact .inl (by omega)
    · exact .inr hspent
  · exact Nucleo.Fence.run_past (Service.moves_endLease s) (Service.fence_ok hi) hp

section
variable {c c' : Coordinator} {t : Nat}

theorem Uses.reached (h : Uses c c') (hi : Service.Inv c.state) (hr : Reached t c.state.fence) :
    Reached t c'.state.fence := by
  obtain ⟨accesses, hs⟩ := h.calls
  obtain ⟨events, hrun⟩ := served_fence hi accesses
  rw [hs]
  exact Nucleo.Fence.run_reached hrun (Service.fence_ok hi) hr

theorem Uses.past (h : Uses c c') (hi : Service.Inv c.state) (hp : Past t c.state.fence) :
    Past t c'.state.fence := by
  obtain ⟨accesses, hs⟩ := h.calls
  obtain ⟨events, hrun⟩ := served_fence hi accesses
  rw [hs]
  exact Nucleo.Fence.run_past hrun (Service.fence_ok hi) hp

/-- The top of the loop finds the network as it was, or no run goes on. -/
theorem refresh_reached (hi : Service.Inv c.state) (p : Pass) (hr : Reached t c.state.fence) :
    (p.ready = true ∧ p.config = c.previousConfig ∧ Uses c (c.refresh p)) ∨ Past t (c.refresh p).state.fence := by
  have hticked : Reached t (c.state.tick p.now).fence := (Uses.tick c p.now).reached hi hr
  unfold refresh
  dsimp only
  split
  · right
    rw [fence_state]
    exact past_endLease (hi.tick p.now) hticked
  · rename_i hsame
    rw [Bool.or_eq_true, Bool.not_eq_true', decide_eq_true_eq, not_or, Bool.not_eq_false, ne_eq,
      Decidable.not_not] at hsame
    exact .inl ⟨hsame.1, hsame.2, (Uses.tick c p.now).trans (.fence _)⟩

/-- A task that halted has no run. -/
def Quiet (c : Coordinator) : Prop := c.halted = true → c.state.lease = none

/-- Run `t` goes on and the network was all along as `config` has it, or the run is past. -/
def Steady (t : Nat) (config : Option Config) (seen : List Pass) (c : Coordinator) : Prop :=
  (Reached t c.state.fence ∧ c.previousConfig = config ∧ c.halted = false ∧
    ∀ p ∈ seen, p.ready = true ∧ p.config = config) ∨ Past t c.state.fence

variable {identity : HString 32 × HString 16 × Format × CrcMode} {Q : Port → UInt32 × Bool → Datagram → Prop}

theorem refresh_halted (c : Coordinator) (p : Pass) : (c.refresh p).halted = c.halted := by
  unfold refresh
  dsimp only
  rw [(Uses.fence _).halted]
  split <;> rfl

theorem Quiet.next (h : Quiet c) (e : Event) : Quiet ((machine crates build).next c e) := by
  cases e with
  | transmit port => exact h
  | pass p =>
    show Quiet (if c.halted then c else c.pass crates build p)
    split
    · exact h
    rename_i hgoes
    rcases pass_uses crates build c p with hu | hu
    · intro hh
      rw [hu.halted, refresh_halted] at hh
      exact absurd hh hgoes
    · rw [hu]
      exact fun _ => Service.endLease_lease _

/-- The rest of a pass leaves behind what is past. -/
theorem pass_past (hc : Settled identity Q c) (p : Pass) (hp : Past t (c.refresh p).state.fence) :
    Past t (c.pass crates build p).state.fence := by
  have hi := (hc.toMid.refresh p).1.sound.inv
  rcases pass_uses crates build c p with hu | hu
  · exact hu.past hi hp
  · rw [hu]
    exact past_endLease hi (.inr hp)

/-- **One pass and the network.** -/
theorem Steady.pass (hc : Settled identity Q c) {config : Option Config} {seen : List Pass}
    (h : Steady t config seen c) (p : Pass) : Steady t config (seen ++ [p]) (c.pass crates build p) := by
  have hi := hc.sound.inv
  rcases h with ⟨hr, hconfig, hgoes, hseen⟩ | hp
  · rcases refresh_reached hi p hr with ⟨hready, hsame, hu⟩ | hp
    · rcases pass_uses crates build c p with hu' | hu'
      · have hu := hu.trans hu'
        refine .inl ⟨hu.reached hi hr, hu.config.trans hconfig, hu.halted.trans hgoes, fun q hq => ?_⟩
        rcases List.mem_append.1 hq with hq | hq
        · exact hseen q hq
        · rw [List.mem_singleton.1 hq]
          exact ⟨hready, hsame.trans hconfig⟩
      · rw [hu']
        exact .inr (past_endLease (hc.toMid.refresh p).1.sound.inv (hu.reached hi hr))
    · exact .inr (pass_past crates build hc p hp)
  · refine .inr (pass_past crates build hc p ?_)
    rcases refresh_reached hi p (.inr hp) with ⟨-, -, hu⟩ | hp
    · exact hu.past hi hp
    · exact hp

theorem Steady.next (hc : Settled identity Q c) {config : Option Config} {seen : List Pass}
    (h : Steady t config seen c) (e : Event) :
    Steady t config (seen ++ passes [e]) ((machine crates build).next c e) := by
  cases e with
  | transmit port =>
    show Steady t config (seen ++ []) _
    rw [List.append_nil]
    exact h
  | pass p =>
    show Steady t config (seen ++ [p]) (if c.halted then c else c.pass crates build p)
    split
    · rename_i hhalted
      -- a halted task has not seen `p`, and it has no run
      exact .inr (h.resolve_left fun ⟨_, _, hgoes, _⟩ => by
        rw [hhalted] at hgoes
        cases hgoes)
    · exact h.pass crates build hc p

end

section
variable {boot : HString 16} {now : Nat} {config : Option Config} {binds : Port → Bool}

/-- What the task hands over is no matter here. -/
theorem admits_any (boot : HString 16) (p : Pass) : Admits crates build (identity build boot) p fun _ _ _ => True :=
  ⟨fun _ _ _ _ _ => trivial, fun _ _ _ _ _ => trivial, fun _ _ _ _ _ => trivial⟩

theorem run_settled {c : Coordinator} (hc : Settled (identity build boot) (fun _ _ _ => True) c)
    (events : List Event) :
    Settled (identity build boot) (fun _ _ _ => True) ((machine crates build).run c events) :=
  (machine crates build).run_inv (fun _ _ hs => hs.next _ fun p _ => admits_any crates build boot p) _ hc events

theorem run_quiet (events : List Event) :
    Quiet ((machine crates build).run (start build boot now config binds) events) :=
  (machine crates build).run_inv (fun _ e hs => hs.next crates build e) _ (fun _ => rfl) events

/-- Along a run that follows `c`. -/
theorem run_steady {c : Coordinator} {t : Nat} (hc : Settled (identity build boot) (fun _ _ _ => True) c)
    {seen : List Pass} (h : Steady t config seen c) (between : List Event) :
    Steady t config (seen ++ passes between) ((machine crates build).run c between) := by
  induction between generalizing c seen with
  | nil =>
    show Steady t config (seen ++ []) c
    rw [List.append_nil]
    exact h
  | cons e between ih =>
    have hnext := ih (run_settled crates build hc [e]) (h.next crates build hc e)
    rw [List.append_assoc, ← passes_append] at hnext
    exact hnext

/-- **A run does not outlive the network it began in.** Over every run: while one benchmark run lasts, every pass
of the task found the link up and the address and gateway of before, and the task did not halt. -/
theorem coordinator_network (boot : HString 16) (now : Nat) (config : Option Config) (binds : Port → Bool)
    (before between : List Event) :
    let c := (machine crates build).run (start build boot now config binds) before
    let c' := (machine crates build).run c between
    c.state.active = true → c'.state.active = true → c'.state.epoch = c.state.epoch →
      c'.halted = false ∧ c'.previousConfig = c.previousConfig ∧
        ∀ p ∈ passes between, p.ready = true ∧ p.config = c.previousConfig := by
  intro c c' ha ha' he
  have hc : Settled (identity build boot) (fun _ _ _ => True) c :=
    run_settled crates build (start_settled now config binds) before
  have hgoes : c.halted = false := by
    cases hh : c.halted with
    | false => rfl
    | true =>
      have hidle : c.state.lease = none := run_quiet crates build before hh
      rw [Service.active, hidle] at ha
      cases ha
  have hfirst : Steady c.state.epoch.toNat c.previousConfig [] c :=
    .inl ⟨.inl ⟨ha, rfl⟩, rfl, hgoes, fun _ h => by cases h⟩
  rcases run_steady crates build hc hfirst between with ⟨-, hconfig, hgoes, hall⟩ | hp
  · exact ⟨hgoes, hconfig, hall⟩
  · have hok := Service.fence_ok (run_settled crates build hc between).sound.inv
    exact absurd ⟨ha', congrArg UInt32.toNat he⟩ (hp.not_held hok)

end

/-- A run that began in the first pass is on in the second, and ends when the address changes. -/
theorem coordinator_network_sample :
    let c := (machine (Sample.generated Sample.boardConfigure) Sample.csvBuild).run Sample.board Sample.started
    let c' := (machine (Sample.generated Sample.boardConfigure) Sample.csvBuild).run c Sample.sampled
    (c'.halted = false ∧ c'.previousConfig = c.previousConfig ∧
      ∀ p ∈ passes Sample.sampled, p.ready = true ∧ p.config = c.previousConfig) ∧
    (c'.pass (Sample.generated Sample.boardConfigure) Sample.csvBuild
      { Sample.passAt 30000 .nothing with config := some ⟨#v[192, 168, 1, 3], 24, none⟩ }).state.active = false :=
  ⟨coordinator_network _ _ Sample.boot 0 (some Sample.boardConfig) (fun _ => true) Sample.started Sample.sampled
    (by decide +kernel) (by decide +kernel) (by decide +kernel), by decide +kernel⟩

end Coordinator

end Nucleo.Benchmark
