import Nucleo.L1Encoding.Message

/-!
# The benchmark message schema and its validator

`Benchmark.Envelope` is the record `generate_benchmark.py` writes from
`benchmark.proto`; `Status` and `Health` are generated a second time with the
fields of the normal schema, so they are the same types here. `validate`
follows `benchmark.rs`; bounds on a configuration are not structural and have
their own predicate, `configurationValid`, which the service consults.

`validate_ok_iff` says what a message that passed looks like: the checks as the
fields of `ValidAs`, with `body_unique` for the ten bodies.
-/
namespace Nucleo.Benchmark

structure Limits where
  encoding : Option Int := none
  crcEnabled : Option Bool := none
  maxPayloadBytes : Option UInt32 := none
  maxDatagramBytes : Option UInt32 := none
  minStatusPeriodUs : Option UInt32 := none
  minHealthPeriodUs : Option UInt32 := none
  maxPeriodUs : Option UInt32 := none
  minLeaseMs : Option UInt32 := none
  maxLeaseMs : Option UInt32 := none
  available : Option Bool := none
  deriving DecidableEq

structure Configuration where
  payloadBytes : Option UInt32 := none
  patternSeed : Option UInt32 := none
  statusPeriodUs : Option UInt32 := none
  healthPeriodUs : Option UInt32 := none
  leaseMs : Option UInt32 := none
  deriving DecidableEq

structure ControlResult where
  code : Option Int := none
  leaseRemainingMs : Option UInt32 := none
  deriving DecidableEq

abbrev Status := Model.Status
abbrev Health := Model.Health

/-- mirrors Rust/messaging/src/generated/benchmark_model.rs:219-347 -/
@[ext] structure Envelope where
  protocolVersion : Option UInt32 := none
  kind : Option Int := none
  deviceId : Option (HString 32) := none
  bootId : Option (HString 16) := none
  sessionId : Option (HString 16) := none
  requestId : Option UInt32 := none
  sequence : Option UInt32 := none
  uptimeMs : Option UInt32 := none
  payload : Option (HString 512) := none
  runEpoch : Option UInt32 := none
  capabilities : Option Unit := none
  configure : Option Configuration := none
  renew : Option Unit := none
  stop : Option Unit := none
  probe : Option Unit := none
  limits : Option Limits := none
  result : Option ControlResult := none
  probeResponse : Option Unit := none
  status : Option Status := none
  health : Option Health := none
  deriving DecidableEq

/-- mirrors Rust/messaging/src/benchmark.rs:36-44 -/
def configurationValid (c : Configuration) : Bool :=
  c.payloadBytes.any (· ≤ 512) && c.patternSeed.isSome &&
    c.statusPeriodUs.any (fun v => v == 0 || (1000 ≤ v && v ≤ 10000000)) &&
    c.healthPeriodUs.any (fun v => v == 0 || (10000 ≤ v && v ≤ 10000000)) &&
    c.leaseMs.any (fun v => 2000 ≤ v && v ≤ 30000)

def isRequest (kind : Int) : Bool := 1 ≤ kind && kind ≤ 5
def isPublication (kind : Int) : Bool := kind == 21 || kind == 22
/-- `5 | 15 | 21 | 22`. -/
def isData (kind : Int) : Bool := kind == 5 || kind == 15 || kind == 21 || kind == 22

/-- How many of the ten bodies are present. -/
def bodies (m : Envelope) : Nat :=
  [m.capabilities.isSome, m.configure.isSome, m.renew.isSome, m.stop.isSome, m.probe.isSome,
    m.limits.isSome, m.result.isSome, m.probeResponse.isSome, m.status.isSome,
    m.health.isSome].count true

/-- The body that `kind` names is present. -/
def bodyMatches (m : Envelope) (kind : Int) : Bool :=
  if kind = 1 then m.capabilities.isSome
  else if kind = 2 then m.configure.isSome
  else if kind = 3 then m.renew.isSome
  else if kind = 4 then m.stop.isSome
  else if kind = 5 then m.probe.isSome
  else if kind = 11 then m.limits.isSome
  else if kind = 12 then m.result.isSome
  else if kind = 15 then m.probeResponse.isSome
  else if kind = 21 then m.status.isSome
  else if kind = 22 then m.health.isSome
  else false

/-- Every configuration field is present; their bounds are the service's. -/
def configurationPresent (c : Configuration) : Bool :=
  c.payloadBytes.isSome && c.patternSeed.isSome && c.statusPeriodUs.isSome &&
    c.healthPeriodUs.isSome && c.leaseMs.isSome

def limitsValid (l : Limits) (format : Format) (crc : CrcMode) : Bool :=
  l.encoding == some format.id && l.crcEnabled == some (crc == .on) &&
    l.maxPayloadBytes == some 512 && l.maxDatagramBytes == some 1024 &&
    l.minStatusPeriodUs == some 1000 && l.minHealthPeriodUs == some 10000 &&
    l.maxPeriodUs == some 10000000 && l.minLeaseMs == some 2000 && l.maxLeaseMs == some 30000 &&
    l.available.isSome

def resultValid (r : ControlResult) : Bool :=
  r.code.any (fun v => 1 ≤ v && v ≤ 10) && r.leaseRemainingMs.any (· ≤ 30000)

/-- The normal envelope that carries the status and health checks. -/
def toNormal (m : Envelope) (kind : Int) : Model.Envelope where
  protocolVersion := some 1
  kind := some kind
  deviceId := m.deviceId
  bootId := m.bootId
  sequence := m.sequence
  uptimeMs := m.uptimeMs
  status := m.status
  health := m.health

/-- mirrors Rust/messaging/src/benchmark.rs:45-171 -/
def validate (m : Envelope) (format : Format) (crc : CrcMode) : Except CodecError Unit :=
  if m.protocolVersion ≠ some 1 then
    .error (if m.protocolVersion.isSome then .version else .validation)
  else do
    require (deviceIdValid m.deviceId)
    require (nonce m.sessionId)
    match m.kind with
    | none => .error .validation
    | some kind => do
      require (bodies m == 1)
      require (bodyMatches m kind)
      require ((m.uptimeMs.isSome != isRequest kind) && (m.sequence.isSome == isPublication kind) &&
        (m.requestId.isSome != isPublication kind))
      checkIf (!isPublication kind) (require (m.requestId.any (0 < ·)))
      require (if kind = 1 then m.bootId.isNone && m.runEpoch.isNone
        else nonce m.bootId && m.runEpoch.any (0 < ·))
      require (m.payload.isSome == isData kind)
      ifPresent m.payload fun payload => require (payload.bytes.all isAlnum)
      ifPresent m.configure fun c => require (configurationPresent c)
      ifPresent m.limits fun l => require (limitsValid l format crc)
      ifPresent m.result fun r => require (resultValid r)
      checkIf (m.status.isSome || m.health.isSome) (Validation.validate (toNormal m kind) format)

/-! ## What a validated message looks like -/

/-- `m` is a well-formed message of `kind`: the checks of `validate`, one field
each, in the order the code makes them. -/
structure ValidAs (m : Envelope) (format : Format) (crc : CrcMode) (kind : Int) : Prop where
  version : m.protocolVersion = some 1
  device : deviceIdValid m.deviceId = true
  session : nonce m.sessionId = true
  hasKind : m.kind = some kind
  oneBody : bodies m = 1
  body : bodyMatches m kind = true
  uptime : m.uptimeMs.isSome = !isRequest kind
  sequence : m.sequence.isSome = isPublication kind
  request : m.requestId.isSome = !isPublication kind
  requestPos : isPublication kind = false → m.requestId.any (0 < ·) = true
  discovery : kind = 1 → m.bootId = none ∧ m.runEpoch = none
  correlated : kind ≠ 1 → nonce m.bootId = true ∧ m.runEpoch.any (0 < ·) = true
  payload : m.payload.isSome = isData kind
  payloadChars : ∀ p, m.payload = some p → p.bytes.all isAlnum = true
  configure : ∀ c, m.configure = some c → configurationPresent c = true
  limits : ∀ l, m.limits = some l → limitsValid l format crc = true
  result : ∀ r, m.result = some r → resultValid r = true
  sample : (m.status.isSome || m.health.isSome) = true →
    Validation.validate (toNormal m kind) format = .ok ()

/-- `validate` accepts exactly the well-formed messages. -/
theorem validate_ok_iff {m : Envelope} {format : Format} {crc : CrcMode} :
    validate m format crc = .ok () ↔ ∃ kind, ValidAs m format crc kind := by
  constructor
  · intro h
    unfold validate at h
    split at h
    · cases h
    rename_i hv
    simp only [except_bind_ok, require_eq_ok, exists_const] at h
    obtain ⟨hd, hs, h⟩ := h
    split at h
    · cases h
    rename_i kind hk
    simp only [except_bind_ok, require_eq_ok, exists_const, ifPresent_eq_ok, checkIf_eq_ok] at h
    obtain ⟨hb, hm, hp, hr, hc, hpl, hpc, hcf, hl, hres, hst⟩ := h
    simp only [Bool.and_eq_true, beq_iff_eq, bne_iff_ne, ne_eq] at hb hp hpl
    obtain ⟨⟨hu, hq⟩, hri⟩ := hp
    refine ⟨kind, ⟨by simpa using hv, hd, hs, hk, hb, hm, ?_, hq, ?_, fun h => hr (by simp [h]),
      ?_, ?_, hpl, hpc, hcf, hl, hres, hst⟩⟩
    · cases h1 : m.uptimeMs.isSome <;> cases h2 : isRequest kind <;> simp_all
    · cases h1 : m.requestId.isSome <;> cases h2 : isPublication kind <;> simp_all
    · rintro rfl; simpa using hc
    · intro hne; rw [if_neg hne] at hc; simpa using hc
  · rintro ⟨kind, h⟩
    unfold validate
    rw [if_neg (by simp [h.version])]
    simp only [except_bind_ok, require_eq_ok, exists_const, h.hasKind, ifPresent_eq_ok, checkIf_eq_ok]
    refine ⟨h.device, h.session, by simp [h.oneBody], h.body, ?_,
      fun hp => h.requestPos (by simpa using hp), ?_, by simp [h.payload], h.payloadChars,
      h.configure, h.limits, h.result, h.sample⟩
    · rw [h.uptime, h.sequence, h.request]
      cases isRequest kind <;> cases isPublication kind <;> rfl
    · split
      · rename_i hk; simp [h.discovery hk]
      · rename_i hk; simp [h.correlated hk]

namespace ValidAs

variable {m : Envelope} {format : Format} {crc : CrcMode} {kind : Int}

/-- Present flags of a list with one `true`: every other position is `false`. -/
theorem body_unique (h : ValidAs m format crc kind) :
    (m.capabilities.isSome = (kind == 1)) ∧ (m.configure.isSome = (kind == 2)) ∧
    (m.renew.isSome = (kind == 3)) ∧ (m.stop.isSome = (kind == 4)) ∧
    (m.probe.isSome = (kind == 5)) ∧ (m.limits.isSome = (kind == 11)) ∧
    (m.result.isSome = (kind == 12)) ∧ (m.probeResponse.isSome = (kind == 15)) ∧
    (m.status.isSome = (kind == 21)) ∧ (m.health.isSome = (kind == 22)) := by
  have hb := h.oneBody
  have hm := h.body
  unfold bodies at hb
  unfold bodyMatches at hm
  simp only [List.count_cons, List.count_nil, beq_true] at hb
  repeat' split at hm
  case isFalse => cases hm
  all_goals
    rename_i hk
    subst hk
    simp +arith [hm] at hb
    simp [hm, hb]

end ValidAs

end Nucleo.Benchmark
