import Nucleo.L1Encoding.Formats
import Nucleo.L2Machine.CommandPolicy
import Nucleo.L2Machine.Publishers

/-!
# The command loops

What the firmware task `commands` and the host's `serve` loop do with a
datagram: parse it, let the policy decide, count, build the reply and frame it.
Both build the same reply from their own identity, sample and counters
(`reply`); where the source would abort, `reply` names the panic. The counters
of the firmware are shared with the publishers, whose updates are events of
the run, and so is the fate of a reply after it was framed.

Results:
* `reply_ok`: an answered request gets a valid reply of its own kind.
* `serve_same`: the host decides and answers like the firmware.
* `commands_exact`: every datagram of a run is counted exactly once, and the
  reply it asks for is built, valid and framed.
-/
namespace Nucleo
open Model (Envelope Status Health)

namespace Commands

/-- Where building a reply can abort. -/
inductive Panic
  | unwrap
  | unreachable
  deriving DecidableEq, Repr

/-- What a loop answers from. -/
structure Answers where
  version : HString 32
  encoding : Format
  status : Status
  health : Health

/-- The reply to `request` in the envelope `template`: the error `error`, or what the request's
kind asks for. Without an error the kind is an accepted one, so its sum cannot overflow. -/
def reply (template : Envelope) (answers : Answers) (request : Envelope) (error : Option Int) :
    Except Panic Envelope :=
  let kind? := if error.isSome then some 14 else request.kind.map (· + 10)
  match kind? with
  | none => .error .unwrap
  | some kind =>
    let message := { template with
      kind := some kind
      clientSession := request.clientSession
      requestId := request.requestId }
    if kind = 11 then .ok { message with
      deviceInfo := some { firmwareVersion := some answers.version, encoding := some answers.encoding.id } }
    else if kind = 12 then .ok { message with status := some answers.status }
    else if kind = 13 then .ok { message with health := some answers.health }
    else if kind = 14 then .ok { message with error := some { code := error } }
    else .error .unreachable

/-- What became of a datagram. -/
inductive Handled
  | malformed (error : CodecError)
  | unanswered (decision : Decision)
  | panicked (decision : Decision) (panic : Panic)
  /-- A reply was built; `framed` is the length of its datagram. -/
  | replied (decision : Decision) (reply : Envelope) (framed : Except CodecError Nat)

def Handled.decision : Handled → Option Decision
  | .malformed _ => none
  | .unanswered decision | .panicked decision _ | .replied decision _ _ => some decision

def Handled.reply : Handled → Option Envelope
  | .replied _ reply _ => some reply
  | _ => none

/-- `Decision::Accept => None`, `Decision::Error(code) => Some(code)`; the other two are not answered. -/
def errorOf : Decision → Option (Option Int)
  | .accept => some none
  | .error code => some (some code)
  | .ignore | .rateLimited => none

end Commands

/-! ## The firmware -/

/-- `FORMAT` and `CRC`, features of the build. -/
structure Build where
  format : Format
  crc : CrcMode

/-- The task between two datagrams; `output` is its datagram buffer. -/
structure Commands where
  policy : CommandPolicy
  counters : Counters
  output : Bytes

namespace Counters

def reject (c : Counters) : Counters := { c with rejected := satAdd32 c.rejected 1 }

/-- A datagram that did not parse. -/
def malformed (c : Counters) (error : CodecError) : Counters :=
  if error = .crc then { c.reject with crcRejections := satAdd32 c.crcRejections 1 } else c.reject

/-- A parsed request, as the policy assessed it. -/
def assessed (c : Counters) (assessment : Assessment) : Counters :=
  let c := if assessment.rejection.isSome then c.reject else c
  if assessment.decision = .accept then c.countReceived else c

end Counters

namespace Commands

/-- `DEVICE_ID`. -/
def deviceId : HString 32 := ⟨ascii "board-01", by decide, by decide⟩

/-- `FIRMWARE_VERSION`. -/
def firmwareVersion : HString 32 := ⟨ascii "messaging-0.1.0", by decide, by decide⟩

/-- `25.5`. -/
def sample : F32 := ⟨0x41CC0000⟩

/-- mirrors Rust/src/servers/embassy_messaging.rs:36-42 -/
def status : Status := { temperatureCelsius := some sample, validity := some 1, synthetic := some true }

/-- mirrors Rust/src/servers/embassy_messaging.rs:43-51 -/
def base (boot : HString 16) (now : Nat) : Envelope where
  protocolVersion := some 1
  deviceId := some deviceId
  bootId := some boot
  uptimeMs := some (UInt32.ofNat now)

/-- mirrors Rust/src/servers/embassy_messaging.rs:52-81 -/
def response (build : Build) (boot : HString 16) (counters : Counters) (request : Envelope) (error : Option Int)
    (now : Nat) : Except Panic Envelope :=
  reply (base boot now) ⟨firmwareVersion, build.format, status, counters.health⟩ request error

/-- `CommandPolicy::new`, `Counters::new` and `[0; DATAGRAM_CAPACITY]`. -/
def new (now : Nat) : Commands := ⟨.new now, .new, List.replicate 1024 0⟩

variable {W : Type} (crates : Formats W Envelope) (build : Build) (boot : HString 16)

/-- From the reply on, up to the frame; `later` is the second clock reading. What a failed encoding leaves in
the buffer is not read.
mirrors Rust/src/servers/embassy_messaging.rs:232-237 -/
def respond (s : Commands) (decision : Decision) (request : Envelope) (error : Option Int) (later : Nat) :
    Commands × Handled :=
  match response build boot s.counters request error later with
  | .error panic => (s, .panicked decision panic)
  | .ok reply => match Framed.encode crates build.format build.crc reply s.output with
    | .error e => ({ s with counters := s.counters.activate 0 }, .replied decision reply (.error e))
    | .ok (output, length) => ({ s with output }, .replied decision reply (.ok length))

/-- A parsed request.
mirrors Rust/src/servers/embassy_messaging.rs:220-237 -/
def answer (s : Commands) (request : Envelope) (now later : Nat) : Commands × Handled :=
  let (policy, assessment) := s.policy.assess request build.format deviceId.bytes now
  let s := { s with policy, counters := s.counters.assessed assessment }
  match errorOf assessment.decision with
  | none => (s, .unanswered assessment.decision)
  | some error => s.respond crates build boot assessment.decision request error later

/-- A datagram that passed the address check.
mirrors Rust/src/servers/embassy_messaging.rs:208-237 -/
def datagram (s : Commands) (input : Bytes) (now later : Nat) : Commands × Handled :=
  match Framed.parse crates build.format build.crc input with
  | .error error => ({ s with counters := s.counters.malformed error }, .malformed error)
  | .ok request => s.answer crates build boot request now later

/-- The command socket among the three that are counted. -/
def commandSocket : Fin 3 := 0

/-- What changes the state of the task: a datagram, one that did not get past the socket and the
address check, and the updates of the shared counters, its own and those of the publishers. -/
inductive Event
  | datagram (input : Bytes) (now later : Nat)
  | refused
  | sent (socket : Fin 3) (success : Bool)
  | activate (socket : Fin 3)
  | skip (amount : Nat)

/-- mirrors Rust/src/servers/embassy_messaging.rs:163-256 -/
def machine : Machine Commands Event (Option Handled) where
  step s
    | .datagram input now later =>
      let r := s.datagram crates build boot input now later
      (r.1, some r.2)
    | .refused => ({ s with counters := s.counters.reject }, none)
    | .sent socket success => ({ s with counters := s.counters.sent socket success }, none)
    | .activate socket => ({ s with counters := s.counters.activate socket }, none)
    | .skip amount => ({ s with counters := s.counters.skip amount }, none)

end Commands

/-! ## The host -/

/-- The options of `serve`, and its boot nonce. -/
structure ServeOptions where
  format : Format
  crc : CrcMode
  device : HString 32
  boot : HString 16
  status : Status

structure Serve where
  policy : CommandPolicy
  counters : HostCounters
  output : Bytes

namespace HostCounters

/-- mirrors Rust/tools/message-demo/src/main.rs:48-64 -/
def health (c : HostCounters) : Health where
  state := some (if c.activeSendError || c.activeStreamError.toList.any (·) then 2 else 1)
  receivedRequests := some c.received
  rejectedDatagrams := some c.rejected
  sendErrors := some c.sendErrors
  skippedPublications := some c.skipped

end HostCounters

namespace Serve

open Commands (Handled errorOf)

/-- `"host-demo-0.1.0"`. -/
def hostVersion : HString 32 := ⟨ascii "host-demo-0.1.0", by decide, by decide⟩

/-- mirrors Rust/tools/message-demo/src/main.rs:87-92 -/
def template (options : ServeOptions) : Envelope where
  protocolVersion := some 1
  deviceId := some options.device
  bootId := some options.boot

/-- mirrors Rust/tools/message-demo/src/main.rs:207-228 -/
def response (options : ServeOptions) (counters : HostCounters) (request : Envelope) (error : Option Int)
    (elapsed : Nat) : Except Commands.Panic Envelope :=
  Commands.reply { template options with uptimeMs := some (UInt32.ofNat elapsed) }
    ⟨hostVersion, options.format, options.status, counters.health⟩ request error

variable {W : Type} (crates : Formats W Envelope) (options : ServeOptions)

/-- A failed encoding ends the loop; the state is then not used again.
mirrors Rust/tools/message-demo/src/main.rs:207-230 -/
def respond (s : Serve) (decision : Decision) (request : Envelope) (error : Option Int) (later : Nat) :
    Serve × Handled :=
  match response options s.counters request error later with
  | .error panic => (s, .panicked decision panic)
  | .ok reply => match Framed.encode crates options.format options.crc reply s.output with
    | .error e => (s, .replied decision reply (.error e))
    | .ok (output, length) => ({ s with output }, .replied decision reply (.ok length))

/-- A parsed request, its log entries left out.
mirrors Rust/tools/message-demo/src/main.rs:163-230 -/
def answer (s : Serve) (request : Envelope) (now later : Nat) : Serve × Handled :=
  let (policy, assessment) := s.policy.assess request options.format options.device.bytes now
  let counters := if assessment.rejection.isSome then
    { s.counters with rejected := satAdd32 s.counters.rejected 1 } else s.counters
  match errorOf assessment.decision with
  | none => ({ s with policy, counters }, .unanswered assessment.decision)
  | some error =>
    let counters := if assessment.decision = .accept then
      { counters with received := satAdd32 counters.received 1 } else counters
    ({ s with policy, counters } : Serve).respond crates options assessment.decision request error later

end Serve

/-! ## One reply -/

namespace Commands

/-- The envelope a reply starts from. -/
def identity (device : HString 32) (boot : HString 16) (uptime : UInt32) : Envelope where
  protocolVersion := some 1
  deviceId := some device
  bootId := some boot
  uptimeMs := some uptime

structure Answers.Valid (answers : Answers) (format : Format) : Prop where
  version : answers.version.bytes ≠ [] ∧ ∀ b ∈ answers.version.bytes, Validation.isPrintable b = true
  encoding : answers.encoding = format
  status : Validation.statusValid answers.status = true
  health : Validation.healthValid answers.health = true

/-- What a request may be answered with: its error, or, for one of the three requests, its answer. -/
inductive Asks (request : Envelope) : Option Int → Prop
  | error {code : Int} (h : code = 1 ∨ code = 2) : Asks request (some code)
  | answer {kind : Int} (hkind : request.kind = some kind) (h : 1 ≤ kind ∧ kind ≤ 3) : Asks request none

/-- A valid reply to `request` of the right kind. -/
structure Replied (format : Format) (answers : Answers) (request : Envelope) (error : Option Int) (m : Envelope) :
    Prop where
  kind : m.kind = if error.isSome then some 14 else request.kind.map (· + 10)
  session : m.clientSession = request.clientSession
  requestId : m.requestId = request.requestId
  health : error = none → request.kind = some 3 → m.health = some answers.health
  valid : Validation.validate m format = .ok ()

section
variable {device : HString 32} {boot : HString 16} {uptime : UInt32} {request : Envelope} {answers : Answers}
  {format : Format} (hdevice : deviceIdValid (some device) = true) (hboot : nonce (some boot) = true)
  (hr : Validation.correlation request = true)
include hdevice hboot hr

/-- The identity of the producer and the correlation of the request make a valid header; what is left to
check is the body. -/
theorem valid_reply {m : Envelope} {kind : Int} (hk : Validation.isResponse kind = true)
    (hm : { m with deviceInfo := none, status := none, health := none, error := none } =
      { identity device boot uptime with
        kind := some kind, clientSession := request.clientSession, requestId := request.requestId })
    (hone : Validation.bodies m = 1) (hbody : Validation.bodyMatches m kind = true)
    (hinfo : ∀ info, m.deviceInfo = some info → Validation.deviceInfoValid info format = true)
    (hstatus : ∀ status, m.status = some status → Validation.statusValid status = true)
    (hhealth : ∀ health, m.health = some health → Validation.healthValid health = true)
    (herror : ∀ e, m.error = some e → (e.code == some 1 || e.code == some 2) = true) :
    Validation.validate m format = .ok () := by
  simp only [Envelope.mk.injEq, identity] at hm
  obtain ⟨hversion, hkind, hd, hb, hsession, hid, hsequence, hup, -⟩ := hm
  simp only [Validation.correlation, Bool.and_eq_true, beq_iff_eq] at hr
  have hcorrelation : Validation.correlation m = true := by
    simp only [Validation.correlation, Bool.and_eq_true, beq_iff_eq, hversion, hd, hsession, hid]
    exact ⟨⟨⟨trivial, hdevice⟩, hr.1.2⟩, hr.2⟩
  have hnot : Validation.isRequest kind = false ∧ Validation.isPublication kind = false := by
    simp only [Validation.isResponse, Validation.isRequest, Validation.isPublication, Bool.and_eq_true,
      decide_eq_true_eq, Bool.and_eq_false_iff, decide_eq_false_iff_not, Bool.or_eq_false_iff,
      beq_eq_false_iff_ne] at hk ⊢
    omega
  refine Validation.validate_ok_iff.2 ⟨kind, hversion, hd ▸ hdevice, hkind, by simp [hk], hone, hbody,
    fun h => ?_, fun _ => ?_, fun h => ?_, hinfo, hstatus, hhealth, herror⟩
  · rw [hnot.1] at h
    cases h
  · simp [hb, hboot, hup, hsequence, hcorrelation]
  · rw [hnot.2] at h
    cases h

theorem reply_ok {error : Option Int} (ha : answers.Valid format) (hask : Asks request error) :
    ∃ m, reply (identity device boot uptime) answers request error = .ok m ∧
      Replied format answers request error m := by
  have hnone : ∀ {α : Type} {P : α → Prop}, ∀ v, (none : Option α) = some v → P v := fun _ h => by cases h
  cases hask with
  | @error code h =>
    refine ⟨_, rfl, rfl, rfl, rfl, fun he => (by cases he), ?_⟩
    refine valid_reply hdevice hboot hr (show Validation.isResponse 14 = true from rfl) rfl rfl rfl
      hnone hnone hnone ?_
    rintro e he
    cases he
    rcases h with rfl | rfl <;> rfl
  | @answer kind hkind h =>
    rcases (show kind = 1 ∨ kind = 2 ∨ kind = 3 by omega) with rfl | rfl | rfl
    all_goals
      unfold reply
      rw [hkind]
    · refine ⟨_, rfl, by rw [hkind]; rfl, rfl, rfl, fun _ h => (by rw [hkind] at h; cases h), ?_⟩
      refine valid_reply hdevice hboot hr (show Validation.isResponse 11 = true from rfl) rfl rfl rfl
        ?_ hnone hnone hnone
      rintro info hinfo
      cases hinfo
      simpa [Validation.deviceInfoValid, ha.encoding, ha.version.1] using ha.version.2
    · refine ⟨_, rfl, by rw [hkind]; rfl, rfl, rfl, fun _ h => (by rw [hkind] at h; cases h), ?_⟩
      refine valid_reply hdevice hboot hr (show Validation.isResponse 12 = true from rfl) rfl rfl rfl
        hnone ?_ hnone hnone
      rintro status hstatus
      cases hstatus
      exact ha.status
    · refine ⟨_, rfl, by rw [hkind]; rfl, rfl, rfl, fun _ _ => rfl, ?_⟩
      refine valid_reply hdevice hboot hr (show Validation.isResponse 13 = true from rfl) rfl rfl rfl
        hnone hnone ?_ hnone
      rintro health hhealth
      cases hhealth
      exact ha.health

end

/-- The kind and the correlation of a reply. -/
def key (m : Envelope) : Option Int × Option (HString 16) × Option UInt32 := (m.kind, m.clientSession, m.requestId)

/-- They do not depend on who answers. -/
theorem reply_key (t t' : Envelope) (answers answers' : Answers) (request : Envelope) (error : Option Int) :
    (reply t answers request error).map key = (reply t' answers' request error).map key := by
  unfold reply
  dsimp only
  split
  · rfl
  split
  · rfl
  split
  · rfl
  split
  · rfl
  split <;> rfl

theorem healthValid_health (c : Counters) : Validation.healthValid c.health = true := by
  unfold Validation.healthValid Counters.health
  split <;> rfl

theorem answers_valid (format : Format) (c : Counters) :
    (⟨firmwareVersion, format, status, c.health⟩ : Answers).Valid format where
  version := ⟨List.cons_ne_nil _ _, List.all_eq_true.1 rfl⟩
  encoding := rfl
  status := (by decide : Validation.statusValid status = true)
  health := healthValid_health c

end Commands

/-! ## The policy's decisions -/

namespace CommandPolicy

theorem Accepts.correlation {c : Call} (h : Accepts c) : Validation.correlation c.request = true := by
  obtain ⟨hvalid, hrequest, -⟩ := h
  obtain ⟨kind, hv⟩ := Validation.validate_ok_iff.1 hvalid
  rw [isRequest, hv.hasKind, Option.any_some] at hrequest
  have := hv.request hrequest
  simp only [Bool.and_eq_true] at this
  exact this.2

/-- A request that is answered at all is correlated, and its error code is 1 or 2. -/
theorem assess_asks (p : CommandPolicy) (c : Call) {error : Option Int}
    (h : Commands.errorOf (machine.out p c).decision = some error) :
    Validation.correlation c.request = true ∧ Commands.Asks c.request error := by
  have hc := assess_cases p c
  have hcode : ∀ code, (machine.out p c).decision = .error code → code = 1 ∨ code = 2 := by
    intro code hd
    simp only [Machine.out, machine, assess] at hd
    split at hd
    · cases hd
    split at hd
    · cases hd
    split at hd
    · cases hd
    cases hd
    split
    · exact .inl rfl
    · exact .inr rfl
  have hout : machine.out p c = (p.assess c.request c.format c.device c.now).2 := rfl
  rw [hout] at h hcode
  generalize p.assess c.request c.format c.device c.now = r at hc h hcode
  cases hc with
  | accept ha =>
    cases h
    obtain ⟨kind, hkind, hrange⟩ := Option.any_eq_true .. |>.1 ha.2.1
    simp only [Validation.isRequest, Bool.and_eq_true, decide_eq_true_eq] at hrange
    exact ⟨ha.correlation, .answer hkind hrange⟩
  | ignore => cases h
  | rateLimited => cases h
  | error _ ha e code =>
    cases h
    exact ⟨ha.correlation, .error (hcode code rfl)⟩

/-- A rejection is reported with every decision but one. -/
theorem rejection_iff (p : CommandPolicy) (c : Call) :
    (machine.out p c).rejection.isSome = true ↔ (machine.out p c).decision ≠ .accept := by
  have hc := assess_cases p c
  have hout : machine.out p c = (p.assess c.request c.format c.device c.now).2 := rfl
  rw [hout]
  generalize p.assess c.request c.format c.device c.now = r at hc
  cases hc <;> simp

end CommandPolicy

/-! ## One datagram -/

namespace Commands

variable {W : Type} (crates : Formats W Envelope) (build : Build)

/-- The decision on a datagram; one that does not parse gets none. -/
def decisionOn (s : Commands) (input : Bytes) (now : Nat) : Option Decision :=
  match Framed.parse crates build.format build.crc input with
  | .error _ => none
  | .ok request => some (s.policy.assess request build.format deviceId.bytes now).2.decision

/-- A reply as it was built and framed. -/
structure Sent (s' : Commands) (request : Envelope) (decision : Decision) (m : Envelope)
    (framed : Except CodecError Nat) : Prop where
  kind : (decision = .accept ∧ ∃ kind, request.kind = some kind ∧ m.kind = some (kind + 10)) ∨
    (∃ code, decision = .error code) ∧ m.kind = some 14
  session : m.clientSession = request.clientSession
  requestId : m.requestId = request.requestId
  valid : Validation.validate m build.format = .ok ()
  framed : ∃ n, framed = .ok (n + Framing.extra build.crc) ∧ n ≤ maxBody
  /-- Not only into the buffer at hand. -/
  encodes : ∀ out : Bytes, 1024 ≤ out.length → ∃ buffer n,
    Framed.encode crates build.format build.crc m out = .ok (buffer, n + Framing.extra build.crc) ∧ n ≤ maxBody
  /-- A health reply has counted its own request. -/
  health : decision = .accept → request.kind = some 3 →
    ∃ health, m.health = some health ∧ health.receivedRequests = some s'.counters.received

/-- A datagram is counted once: received when it is accepted, rejected otherwise. -/
structure Counted (c c' : Counters) (decision : Option Decision) : Prop where
  accepted : decision = some .accept → c'.received = satAdd32 c.received 1 ∧ c'.rejected = c.rejected
  rejected : decision ≠ some .accept → c'.received = c.received ∧ c'.rejected = satAdd32 c.rejected 1
  crc : c.crcRejections ≤ c.rejected → c'.crcRejections ≤ c'.rejected

/-- One datagram: counted once, answered when it is to be. -/
structure Exact (s s' : Commands) (input : Bytes) (now : Nat) (out : Handled) : Prop where
  decision : out.decision = decisionOn crates build s input now
  counted : Counted s.counters s'.counters out.decision
  crc : s'.counters.crcRejections ≤ s'.counters.rejected
  answered : out.reply.isSome = true ↔ out.decision = some .accept ∨ ∃ code, out.decision = some (.error code)
  noPanic : ∀ decision panic, out ≠ .panicked decision panic
  reply : ∀ decision m framed, out = .replied decision m framed → ∃ request,
    Framed.parse crates build.format build.crc input = .ok request ∧
      Sent crates build s' request decision m framed

/-- What holds between two events. -/
structure Inv (s : Commands) : Prop where
  output : s.output.length = 1024
  crc : s.counters.crcRejections ≤ s.counters.rejected

theorem le_satAdd32 {a b : UInt32} (h : a ≤ b) : a ≤ satAdd32 b 1 ∧ satAdd32 a 1 ≤ satAdd32 b 1 := by
  have hmax := toNat_le_u32Max a
  rw [UInt32.le_iff_toNat_le] at h
  simp only [UInt32.le_iff_toNat_le, toNat_satAdd32, UInt32.toNat_one]
  omega

theorem counted_assessed (c : Counters) {assessment : Assessment}
    (h : assessment.rejection.isSome = true ↔ assessment.decision ≠ .accept) :
    Counted c (c.assessed assessment) (some assessment.decision) := by
  unfold Counters.assessed
  by_cases hd : assessment.decision = .accept
  · have hno : ¬ assessment.rejection.isSome = true := by simp [h, hd]
    simp only [if_neg hno, if_pos hd]
    exact ⟨fun _ => ⟨rfl, rfl⟩, fun hne => absurd (by rw [hd]) hne, fun hle => hle⟩
  · simp only [if_pos (h.2 hd), if_neg hd]
    exact ⟨fun he => absurd (Option.some.inj he) hd, fun _ => ⟨rfl, rfl⟩, fun hle => (le_satAdd32 hle).1⟩

theorem counted_malformed (c : Counters) (error : CodecError) : Counted c (c.malformed error) none := by
  unfold Counters.malformed
  split
  · exact ⟨fun h => (by cases h), fun _ => ⟨rfl, rfl⟩, fun hle => (le_satAdd32 hle).2⟩
  · exact ⟨fun h => (by cases h), fun _ => ⟨rfl, rfl⟩, fun hle => (le_satAdd32 hle).1⟩

section
variable {crates build} {boot : HString 16} (hc : crates.Lawful (Envelope.json crates.float) Envelope.proto)
  (hboot : nonce (some boot) = true)
include hc hboot

/-- The reply that is asked for is built, valid and framed; only the buffer changes. -/
theorem respond_ok {s : Commands} (hs : s.output.length = 1024) {request : Envelope} {error : Option Int}
    (hr : Validation.correlation request = true) (hask : Asks request error) (decision : Decision) (later : Nat) :
    ∃ m n output, s.respond crates build boot decision request error later =
        ({ s with output }, .replied decision m (.ok (n + Framing.extra build.crc))) ∧ n ≤ maxBody ∧
      output.length = 1024 ∧
      Replied build.format ⟨firmwareVersion, build.format, status, s.counters.health⟩ request error m := by
  obtain ⟨m, hreply, hm⟩ := @reply_ok deviceId boot (UInt32.ofNat later) _ _ _ (by decide) hboot hr _
    (answers_valid build.format s.counters) hask
  obtain ⟨output, n, henc, hn, hlen⟩ := Framed.encode_valid hc hm.valid build.crc (Nat.le_of_eq hs.symm)
  refine ⟨m, n, output, ?_, hn, hlen.trans hs, hm⟩
  have hresponse : response build boot s.counters request error later = .ok m := hreply
  unfold respond
  simp only [hresponse, henc]

/-- The step for a request that is answered, once it is counted. -/
theorem respond_exact {s s₁ : Commands} (hs : Inv s₁) {request : Envelope} {now later : Nat} {input : Bytes}
    (hinput : Framed.parse crates build.format build.crc input = .ok request) {decision : Decision}
    (hdecision : decisionOn crates build s input now = some decision)
    (hcounted : Counted s.counters s₁.counters (some decision)) {error : Option Int}
    (herror : errorOf decision = some error) (hr : Validation.correlation request = true)
    (hask : Asks request error) {r : Commands × Handled}
    (hstep : s₁.respond crates build boot decision request error later = r) :
    Exact crates build s r.1 input now r.2 ∧ Inv r.1 := by
  obtain ⟨m, n, output, hres, hn, hlen, hm⟩ := respond_ok hc hboot hs.output hr hask decision later
  rw [hres] at hstep
  subst hstep
  have hkind := hm.kind
  have hcase : (decision = .accept ∧ error = none) ∨ ∃ code, decision = .error code ∧ error = some code := by
    cases decision with
    | accept => exact .inl ⟨rfl, (Option.some.inj herror).symm⟩
    | error code => exact .inr ⟨code, rfl, (Option.some.inj herror).symm⟩
    | ignore => cases herror
    | rateLimited => cases herror
  refine ⟨⟨hdecision.symm, hcounted, hs.crc, ?_, fun _ _ h => (by cases h), ?_⟩, hlen, hs.crc⟩
  · rcases hcase with ⟨rfl, -⟩ | ⟨code, rfl, -⟩
    · simp [Handled.reply, Handled.decision]
    · simp [Handled.reply, Handled.decision]
  · rintro _ _ _ h
    cases h
    refine ⟨request, hinput, ?_, hm.session, hm.requestId, hm.valid, ⟨n, rfl, hn⟩, ?_, ?_⟩
    · rcases hcase with ⟨rfl, rfl⟩ | ⟨code, rfl, rfl⟩
      · cases hask with
        | answer hk h => exact .inl ⟨rfl, _, hk, by rw [hkind, hk]; rfl⟩
      · exact .inr ⟨⟨code, rfl⟩, hkind⟩
    · intro out hout
      obtain ⟨buffer, n, henc, hn, -⟩ := Framed.encode_valid hc hm.valid build.crc hout
      exact ⟨buffer, n, henc, hn⟩
    · rintro rfl hthree
      have hnone : error = none := (Option.some.inj herror).symm
      exact ⟨_, hm.health hnone hthree, rfl⟩

theorem answer_exact {s : Commands} (hs : Inv s) {request : Envelope} {now later : Nat} {input : Bytes}
    (hinput : Framed.parse crates build.format build.crc input = .ok request) :
    Exact crates build s (s.answer crates build boot request now later).1 input now
      (s.answer crates build boot request now later).2 ∧ Inv (s.answer crates build boot request now later).1 := by
  let c : CommandPolicy.Call := ⟨request, build.format, deviceId.bytes, now⟩
  have hdecision : decisionOn crates build s input now = some (CommandPolicy.machine.out s.policy c).decision := by
    unfold decisionOn
    rw [hinput]
    rfl
  have hasks : ∀ error, errorOf (CommandPolicy.machine.out s.policy c).decision = some error →
      Validation.correlation request = true ∧ Asks request error := fun _ => CommandPolicy.assess_asks s.policy c
  have hcounted := counted_assessed s.counters (CommandPolicy.rejection_iff s.policy c)
  have hstep : s.policy.assess request build.format deviceId.bytes now =
    (CommandPolicy.machine.next s.policy c, CommandPolicy.machine.out s.policy c) := rfl
  generalize CommandPolicy.machine.out s.policy c = assessment at hdecision hasks hcounted hstep
  generalize CommandPolicy.machine.next s.policy c = policy at hstep
  have hinv : Inv { s with policy, counters := s.counters.assessed assessment } :=
    ⟨hs.output, hcounted.crc hs.crc⟩
  unfold answer
  simp only [hstep]
  cases herror : errorOf assessment.decision with
  | none =>
    refine ⟨⟨hdecision.symm, hcounted, hinv.crc, ?_, fun _ _ h => (by cases h), fun _ _ _ h => (by cases h)⟩,
      hinv⟩
    cases hd : assessment.decision <;> simp_all [errorOf, Handled.reply, Handled.decision]
  | some error =>
    obtain ⟨hr, hask⟩ := hasks error herror
    exact respond_exact hc hboot hinv hinput hdecision hcounted herror hr hask rfl

/-- **One datagram**, from any state that a run can be in. -/
theorem datagram_exact {s : Commands} (hs : Inv s) (input : Bytes) (now later : Nat) :
    Exact crates build s (s.datagram crates build boot input now later).1 input now
      (s.datagram crates build boot input now later).2 ∧ Inv (s.datagram crates build boot input now later).1 := by
  unfold datagram
  cases hinput : Framed.parse crates build.format build.crc input with
  | error e =>
    have hcounted := counted_malformed s.counters e
    refine ⟨⟨?_, hcounted, hcounted.crc hs.crc, ?_, fun _ _ h => (by cases h), fun _ _ _ h => (by cases h)⟩,
      hs.output, hcounted.crc hs.crc⟩
    · unfold decisionOn
      rw [hinput]
      rfl
    · simp [Handled.reply, Handled.decision]
  | ok request => exact answer_exact hc hboot hs hinput

theorem inv_next {s : Commands} (hs : Inv s) (event : Event) : Inv ((machine crates build boot).next s event) := by
  cases event with
  | datagram input now later => exact (datagram_exact hc hboot hs input now later).2
  | refused => exact ⟨hs.output, (le_satAdd32 hs.crc).1⟩
  | sent socket success => exact ⟨hs.output, hs.crc⟩
  | activate socket => exact ⟨hs.output, hs.crc⟩
  | skip amount => exact ⟨hs.output, hs.crc⟩

end

/-- What a loop that answers makes visible: the policy it goes on with, the decision, the kind and the
correlation of the reply. -/
structure Answered (policy : CommandPolicy) (decision : Decision) (built : Except Panic Envelope)
    (policy' : CommandPolicy) (out : Handled) : Prop where
  policy : policy' = policy
  decision : out.decision = some decision
  reply : out.reply.map key = (built.map key).toOption

theorem respond_answered {W : Type} (crates : Formats W Envelope) (build : Build) (boot : HString 16) (s : Commands)
    (decision : Decision) (request : Envelope) (error : Option Int) (later : Nat) :
    Answered s.policy decision (response build boot s.counters request error later)
      (s.respond crates build boot decision request error later).1.policy
      (s.respond crates build boot decision request error later).2 := by
  unfold respond
  cases response build boot s.counters request error later with
  | error panic => exact ⟨rfl, rfl, rfl⟩
  | ok m =>
    dsimp only
    split <;> exact ⟨rfl, rfl, rfl⟩

end Commands

namespace Serve

open Commands

theorem respond_answered {W : Type} (crates : Formats W Envelope) (options : ServeOptions) (s : Serve)
    (decision : Decision) (request : Envelope) (error : Option Int) (later : Nat) :
    Answered s.policy decision (response options s.counters request error later)
      (s.respond crates options decision request error later).1.policy
      (s.respond crates options decision request error later).2 := by
  unfold respond
  cases response options s.counters request error later with
  | error panic => exact ⟨rfl, rfl, rfl⟩
  | ok m =>
    dsimp only
    split <;> exact ⟨rfl, rfl, rfl⟩

/-- The host and the firmware do the same with a request. -/
structure Same (r : Commands × Handled) (r' : Serve × Handled) : Prop where
  policy : r'.1.policy = r.1.policy
  decision : r'.2.decision = r.2.decision
  reply : r'.2.reply.map key = r.2.reply.map key

/-- **The host decides and answers like the firmware** of its format and device, whatever their counters. -/
theorem serve_same {W : Type} (crates : Formats W Envelope) {build : Build} {boot : HString 16}
    {options : ServeOptions} (hformat : options.format = build.format) (hdevice : options.device = deviceId)
    {s : Commands} {t : Serve} (hpolicy : t.policy = s.policy) (request : Envelope) (now later later' : Nat) :
    Same (s.answer crates build boot request now later) (t.answer crates options request now later') := by
  unfold Commands.answer Serve.answer
  rw [hformat, hdevice, hpolicy]
  generalize s.policy.assess request build.format deviceId.bytes now = r
  dsimp only
  cases errorOf r.2.decision with
  | none => exact ⟨rfl, rfl, rfl⟩
  | some error =>
    have h := Commands.respond_answered crates build boot
      { s with policy := r.1, counters := s.counters.assessed r.2 } r.2.decision request error later
    have h' := fun counters => respond_answered crates options
      { t with policy := r.1, counters } r.2.decision request error later'
    refine ⟨(h' _).policy.trans h.policy.symm, (h' _).decision.trans h.decision.symm, ?_⟩
    refine ((h' _).reply.trans (congrArg Except.toOption ?_)).trans h.reply.symm
    exact reply_key _ _ _ _ request error

end Serve

namespace Commands

/-- **Every run of the command task**: whatever arrives, whenever, and whatever the publishers do to the
shared counters in between, each datagram is counted exactly once and answered exactly when it is to be, with a valid
reply that is framed. The host does the same with the same request. -/
theorem commands_exact {W : Type} (crates : Formats W Envelope)
    (hc : crates.Lawful (Envelope.json crates.float) Envelope.proto) (build : Build) (boot : HString 16)
    (hboot : nonce (some boot) = true) (start : Nat) (events : List Event) :
    (∀ e ∈ (machine crates build boot).trace (new start) events, ∀ input now later,
      e.2.1 = .datagram input now later → ∃ out, e.2.2 = some out ∧
        Exact crates build e.1 ((machine crates build boot).next e.1 e.2.1) input now out) ∧
    ∀ (options : ServeOptions) (s : Commands) (t : Serve), options.format = build.format →
      options.device = deviceId → t.policy = s.policy → ∀ request now later later',
        Serve.Same (s.answer crates build boot request now later) (t.answer crates options request now later') := by
  refine ⟨?_, fun options s t hformat hdevice hpolicy request now later later' =>
    Serve.serve_same crates hformat hdevice hpolicy request now later later'⟩
  rintro ⟨s, event, out⟩ he input now later rfl
  have hinit : Inv (new start) := ⟨List.length_replicate, UInt32.le_refl 0⟩
  obtain ⟨hs, hout⟩ := (machine crates build boot).trace_inv (I := Inv) (fun s l hs => inv_next hc hboot hs l)
    (new start) hinit events _ he
  exact ⟨_, hout, (datagram_exact hc hboot hs input now later).1⟩

end Commands

namespace Sample

/-- Crates that write the standard texts and read those of one message. -/
def formats (message : Envelope) : Formats Rfc4180.WriterState Envelope where
  toCrates := crates
  fromSlice bytes := if bytes = message.json floatText then some (message, bytes.length) else none
  toSlice m capacity := if (m.json floatText).length ≤ capacity then some (m.json floatText) else none
  fromPb bytes := if bytes = message.proto then some message else none
  toPb m := if m.proto.length ≤ maxBody then some m.proto else none

theorem formats_lawful (message : Envelope) :
    (formats message).Lawful (Envelope.json (formats message).float) Envelope.proto :=
  ⟨crates_lawful, fun _ _ => rfl, fun _ => rfl⟩

/-- A request for the health of the device. -/
def getHealth : Envelope := { CommandPolicy.Sample.command 3 with deviceId := some Commands.deviceId }

end Sample

namespace Commands

/-- A health request as JSON between two datagrams that are none. -/
theorem commands_exact_health :
    let crates := Sample.formats Sample.getHealth
    let build : Build := ⟨.json, .off⟩
    let M := machine crates build Sample.boot
    let request := Sample.getHealth.json Sample.floatText
    let events := [.datagram [] 3 3, .refused, .datagram request 5 6, .sent 0 true, .datagram [123] 9 9]
    decisionOn crates build (M.run (new 0) (events.take 2)) request 5 = some .accept ∧
      (∀ e ∈ M.trace (new 0) events, ∀ input now later, e.2.1 = .datagram input now later →
        ∃ out, e.2.2 = some out ∧ Exact crates build e.1 (M.next e.1 e.2.1) input now out) ∧
      ∀ (options : ServeOptions) (s : Commands) (t : Serve), options.format = build.format →
        options.device = deviceId → t.policy = s.policy → ∀ request now later later',
          Serve.Same (s.answer crates build Sample.boot request now later)
            (t.answer crates options request now later') :=
  ⟨by decide +kernel, commands_exact (Sample.formats Sample.getHealth) (Sample.formats_lawful _) ⟨.json, .off⟩
    Sample.boot (by decide) 0 _⟩

end Commands

end Nucleo
