import Nucleo.L1Encoding.Types

/-!
# The normal message schema and its validator

`Model.Envelope` is the flat record that `generate.py` writes from
`messaging.proto`: every field optional, seven optional bodies of which a valid
message has exactly one. `i32` fields (kinds and enumerations) are `Int`. The
generated `Empty {}` is `Unit`.

`validate` is `validation.rs` statement by statement: the first failing
`require` decides, a wrong protocol version before everything else.
`validate_ok_iff` says what a message that passed looks like.
-/
namespace Nucleo

/-- An identifier of the schema (boot, session): 16 lower-case hexadecimal
digits, not all zero.
mirrors Rust/messaging/src/validation.rs:9-16, Rust/messaging/src/benchmark.rs:28-35 -/
def nonceBytes (v : Bytes) : Bool :=
  v.length == 16 && v.all isHexLower && v != List.replicate 16 48

/-- `Option<&str>` form of `nonceBytes`. -/
def nonce {n : Nat} (value : Option (HString n)) : Bool := value.any fun v => nonceBytes v.bytes

/-- A nonempty device ID over `A-Za-z0-9_.-`. -/
def deviceIdValid {n : Nat} (value : Option (HString n)) : Bool :=
  value.any fun v => !v.bytes.isEmpty && v.bytes.all isDeviceChar

namespace Model

structure DeviceInfo where
  firmwareVersion : Option (HString 32) := none
  encoding : Option Int := none
  deriving DecidableEq

structure Status where
  temperatureCelsius : Option F32 := none
  validity : Option Int := none
  synthetic : Option Bool := none
  deriving DecidableEq

structure Health where
  state : Option Int := none
  receivedRequests : Option UInt32 := none
  rejectedDatagrams : Option UInt32 := none
  sendErrors : Option UInt32 := none
  skippedPublications : Option UInt32 := none
  deriving DecidableEq

structure Error where
  code : Option Int := none
  deriving DecidableEq

/-- mirrors Rust/messaging/src/generated/model.rs:198-291 -/
@[ext] structure Envelope where
  protocolVersion : Option UInt32 := none
  kind : Option Int := none
  deviceId : Option (HString 32) := none
  bootId : Option (HString 16) := none
  clientSession : Option (HString 16) := none
  requestId : Option UInt32 := none
  sequence : Option UInt32 := none
  uptimeMs : Option UInt32 := none
  getDeviceInfo : Option Unit := none
  getStatus : Option Unit := none
  getHealth : Option Unit := none
  deviceInfo : Option DeviceInfo := none
  status : Option Status := none
  health : Option Health := none
  error : Option Error := none
  deriving DecidableEq

end Model

namespace Validation
open Model

/-- mirrors Rust/messaging/src/validation.rs:17-27 -/
def correlation (m : Envelope) : Bool :=
  m.protocolVersion == some 1 && deviceIdValid m.deviceId && nonce m.clientSession &&
    m.requestId.any (· != 0)

def isRequest (kind : Int) : Bool := 1 ≤ kind && kind ≤ 3
def isResponse (kind : Int) : Bool := 11 ≤ kind && kind ≤ 14
def isPublication (kind : Int) : Bool := kind == 21 || kind == 22

/-- How many of the seven bodies are present. -/
def bodies (m : Envelope) : Nat :=
  [m.getDeviceInfo.isSome, m.getStatus.isSome, m.getHealth.isSome, m.deviceInfo.isSome,
    m.status.isSome, m.health.isSome, m.error.isSome].count true

/-- The body that `kind` names is present. -/
def bodyMatches (m : Envelope) (kind : Int) : Bool :=
  if kind = 1 then m.getDeviceInfo.isSome
  else if kind = 2 then m.getStatus.isSome
  else if kind = 3 then m.getHealth.isSome
  else if kind = 11 then m.deviceInfo.isSome
  else if kind = 12 ∨ kind = 21 then m.status.isSome
  else if kind = 13 ∨ kind = 22 then m.health.isSome
  else if kind = 14 then m.error.isSome
  else false

/-- `0x20..=0x7e`. -/
def isPrintable (b : UInt8) : Bool := 0x20 ≤ b && b ≤ 0x7e

def deviceInfoValid (info : DeviceInfo) (format : Format) : Bool :=
  info.encoding == some format.id &&
    info.firmwareVersion.any fun v => !v.bytes.isEmpty && v.bytes.all isPrintable

/-- `v.is_finite() && (-100.0..=200.0).contains(&v)`. -/
def temperatureValid (v : F32) : Bool := v.isFinite && (F32.neg100.le v && v.le F32.pos200)

/-- A valid sample has a temperature, the two other validities have none. -/
def statusValid (status : Status) : Bool :=
  status.synthetic == some true &&
    if status.validity = some 1 then status.temperatureCelsius.any temperatureValid
    else if status.validity = some 2 ∨ status.validity = some 3 then
      status.temperatureCelsius.isNone
    else false

def healthValid (health : Health) : Bool :=
  (health.state == some 1 || health.state == some 2) && health.receivedRequests.isSome &&
    health.rejectedDatagrams.isSome && health.sendErrors.isSome && health.skippedPublications.isSome

/-- mirrors Rust/messaging/src/validation.rs:28-127 -/
def validate (m : Envelope) (format : Format) : Except CodecError Unit :=
  if m.protocolVersion ≠ some 1 then
    .error (if m.protocolVersion.isNone then .validation else .version)
  else do
    require (deviceIdValid m.deviceId)
    match m.kind with
    | none => .error .validation
    | some kind => do
      require (isRequest kind || isResponse kind || isPublication kind)
      require (bodies m == 1)
      require (bodyMatches m kind)
      checkIf (isRequest kind) (require (m.bootId.isNone && m.uptimeMs.isNone &&
        m.sequence.isNone && correlation m))
      checkIf (isResponse kind) (require (nonce m.bootId && m.uptimeMs.isSome &&
        m.sequence.isNone && correlation m))
      checkIf (isPublication kind) (require (nonce m.bootId && m.uptimeMs.isSome &&
        m.sequence.isSome && m.clientSession.isNone && m.requestId.isNone))
      ifPresent m.deviceInfo fun info => require (deviceInfoValid info format)
      ifPresent m.status fun status => require (statusValid status)
      ifPresent m.health fun health => require (healthValid health)
      ifPresent m.error fun e => require (e.code == some 1 || e.code == some 2)

/-! ## What a validated message looks like -/

/-- `m` is a well-formed message of `kind`: the checks of `validate`, one field
each, in the order the code makes them. -/
structure ValidAs (m : Envelope) (format : Format) (kind : Int) : Prop where
  version : m.protocolVersion = some 1
  device : deviceIdValid m.deviceId = true
  hasKind : m.kind = some kind
  known : (isRequest kind || isResponse kind || isPublication kind) = true
  oneBody : bodies m = 1
  body : bodyMatches m kind = true
  request : isRequest kind = true →
    (m.bootId.isNone && m.uptimeMs.isNone && m.sequence.isNone && correlation m) = true
  response : isResponse kind = true →
    (nonce m.bootId && m.uptimeMs.isSome && m.sequence.isNone && correlation m) = true
  publication : isPublication kind = true → (nonce m.bootId && m.uptimeMs.isSome &&
    m.sequence.isSome && m.clientSession.isNone && m.requestId.isNone) = true
  deviceInfo : ∀ info, m.deviceInfo = some info → deviceInfoValid info format = true
  status : ∀ status, m.status = some status → statusValid status = true
  health : ∀ health, m.health = some health → healthValid health = true
  error : ∀ e, m.error = some e → (e.code == some 1 || e.code == some 2) = true

/-- `validate` accepts exactly the well-formed messages. -/
theorem validate_ok_iff {m : Envelope} {format : Format} :
    validate m format = .ok () ↔ ∃ kind, ValidAs m format kind := by
  constructor
  · intro h
    unfold validate at h
    split at h
    · cases h
    rename_i hv
    simp only [except_bind_ok, require_eq_ok, exists_const] at h
    obtain ⟨hd, h⟩ := h
    split at h
    · cases h
    rename_i kind hk
    simp only [except_bind_ok, require_eq_ok, exists_const, ifPresent_eq_ok, checkIf_eq_ok] at h
    obtain ⟨hkn, hb, hm, hreq, hres, hpub, hi, hs, hh, he⟩ := h
    exact ⟨kind, by simpa using hv, hd, hk, hkn, by simpa using hb, hm, hreq, hres, hpub, hi, hs, hh, he⟩
  · rintro ⟨kind, h⟩
    unfold validate
    rw [if_neg (by simp [h.version])]
    simp only [except_bind_ok, require_eq_ok, exists_const, h.hasKind, ifPresent_eq_ok, checkIf_eq_ok]
    exact ⟨h.device, h.known, by simp [h.oneBody], h.body, h.request, h.response, h.publication,
      h.deviceInfo, h.status, h.health, h.error⟩

namespace ValidAs

variable {m : Envelope} {format : Format} {kind : Int}

/-- Each body is present for its kinds and absent for the others. -/
theorem body_unique (h : ValidAs m format kind) :
    (m.getDeviceInfo.isSome = (kind == 1)) ∧ (m.getStatus.isSome = (kind == 2)) ∧
    (m.getHealth.isSome = (kind == 3)) ∧ (m.deviceInfo.isSome = (kind == 11)) ∧
    (m.status.isSome = (kind == 12 || kind == 21)) ∧
    (m.health.isSome = (kind == 13 || kind == 22)) ∧ (m.error.isSome = (kind == 14)) := by
  have key : ∀ a b c d e f g : Bool, [a, b, c, d, e, f, g].count true = 1 →
      (a = true → [b, c, d, e, f, g] = List.replicate 6 false) ∧
      (b = true → [a, c, d, e, f, g] = List.replicate 6 false) ∧
      (c = true → [a, b, d, e, f, g] = List.replicate 6 false) ∧
      (d = true → [a, b, c, e, f, g] = List.replicate 6 false) ∧
      (e = true → [a, b, c, d, f, g] = List.replicate 6 false) ∧
      (f = true → [a, b, c, d, e, g] = List.replicate 6 false) ∧
      (g = true → [a, b, c, d, e, f] = List.replicate 6 false) := by decide
  simp only [List.replicate, List.cons.injEq, and_true] at key
  obtain ⟨k1, k2, k3, k4, k5, k6, k7⟩ := key _ _ _ _ _ _ _ h.oneBody
  have hm := h.body
  unfold bodyMatches at hm
  split at hm
  · rename_i hk; subst hk; simp [hm, k1 hm]
  split at hm
  · rename_i hk; subst hk; simp [hm, k2 hm]
  split at hm
  · rename_i hk; subst hk; simp [hm, k3 hm]
  split at hm
  · rename_i hk; subst hk; simp [hm, k4 hm]
  split at hm
  · rename_i hk; rcases hk with rfl | rfl <;> simp [hm, k5 hm]
  split at hm
  · rename_i hk; rcases hk with rfl | rfl <;> simp [hm, k6 hm]
  split at hm
  · rename_i hk; subst hk; simp [hm, k7 hm]
  · cases hm

end ValidAs

end Validation
end Nucleo
