import Nucleo.L1Encoding.BenchmarkCsv
import Nucleo.L1Encoding.Formats

/-!
# The three formats of the benchmark protocol

`benchmark.rs` with every format compiled in, over the same crates. A payload
has up to 512 bytes, so a message is short only because it has one body: a
kind that carries a payload has a small one.

Results:
* `json_length`, `proto_length`: a validated message is within 1016 bytes.
* `Codec.encode_valid`: in every format it is framed into any buffer of 1024 bytes.
-/
namespace Nucleo.Benchmark

open Wire
open Model (jsonU32 jsonString jsonEmpty protoU32 protoBool protoString)

/-! ## The texts of a message -/

/-- mirrors Rust/messaging/src/generated/benchmark_model.rs:18-81 -/
def Limits.json (v : Limits) : Bytes := object [
  member "encoding" (v.encoding.map integer),
  member "crc_enabled" (v.crcEnabled.map boolean),
  member "max_payload_bytes" (v.maxPayloadBytes.map jsonU32),
  member "max_datagram_bytes" (v.maxDatagramBytes.map jsonU32),
  member "min_status_period_us" (v.minStatusPeriodUs.map jsonU32),
  member "min_health_period_us" (v.minHealthPeriodUs.map jsonU32),
  member "max_period_us" (v.maxPeriodUs.map jsonU32),
  member "min_lease_ms" (v.minLeaseMs.map jsonU32),
  member "max_lease_ms" (v.maxLeaseMs.map jsonU32),
  member "available" (v.available.map boolean)]

/-- mirrors Rust/messaging/src/generated/benchmark_model.rs:134-167 -/
def Configuration.json (v : Configuration) : Bytes := object [
  member "payload_bytes" (v.payloadBytes.map jsonU32),
  member "pattern_seed" (v.patternSeed.map jsonU32),
  member "status_period_us" (v.statusPeriodUs.map jsonU32),
  member "health_period_us" (v.healthPeriodUs.map jsonU32),
  member "lease_ms" (v.leaseMs.map jsonU32)]

/-- mirrors Rust/messaging/src/generated/benchmark_model.rs:200-215 -/
def ControlResult.json (v : ControlResult) : Bytes := object [
  member "code" (v.code.map integer),
  member "lease_remaining_ms" (v.leaseRemainingMs.map jsonU32)]

def jsonHeader (m : Envelope) : Fields := [
  member "protocol_version" (m.protocolVersion.map jsonU32),
  member "kind" (m.kind.map integer),
  member "device_id" (m.deviceId.map jsonString),
  member "boot_id" (m.bootId.map jsonString),
  member "session_id" (m.sessionId.map jsonString),
  member "request_id" (m.requestId.map jsonU32),
  member "sequence" (m.sequence.map jsonU32),
  member "uptime_ms" (m.uptimeMs.map jsonU32),
  member "payload" (m.payload.map jsonString),
  member "run_epoch" (m.runEpoch.map jsonU32)]

def jsonBodies (lib : FloatText) (m : Envelope) : Fields := [
  member "capabilities" (m.capabilities.map jsonEmpty),
  member "configure" (m.configure.map Configuration.json),
  member "renew" (m.renew.map jsonEmpty),
  member "stop" (m.stop.map jsonEmpty),
  member "probe" (m.probe.map jsonEmpty),
  member "limits" (m.limits.map Limits.json),
  member "result" (m.result.map ControlResult.json),
  member "probe_response" (m.probeResponse.map jsonEmpty),
  member "status" (m.status.map (Model.Status.json lib)),
  member "health" (m.health.map Model.Health.json)]

/-- mirrors Rust/messaging/src/generated/benchmark_model.rs:236-359 -/
def Envelope.json (lib : FloatText) (m : Envelope) : Bytes := object (jsonHeader m ++ jsonBodies lib m)

/-- mirrors Rust/messaging/src/generated/benchmark_protobuf.rs:2644-2728 -/
def Limits.proto (v : Limits) : Bytes := message [
  varintField 1 (v.encoding.map varintSigned),
  varintField 2 (v.crcEnabled.map protoBool),
  varintField 3 (v.maxPayloadBytes.map protoU32),
  varintField 4 (v.maxDatagramBytes.map protoU32),
  varintField 5 (v.minStatusPeriodUs.map protoU32),
  varintField 6 (v.minHealthPeriodUs.map protoU32),
  varintField 7 (v.maxPeriodUs.map protoU32),
  varintField 8 (v.minLeaseMs.map protoU32),
  varintField 9 (v.maxLeaseMs.map protoU32),
  varintField 10 (v.available.map protoBool)]

/-- mirrors Rust/messaging/src/generated/benchmark_protobuf.rs:3110-3155 -/
def Configuration.proto (v : Configuration) : Bytes := message [
  varintField 1 (v.payloadBytes.map protoU32),
  varintField 2 (v.patternSeed.map protoU32),
  varintField 3 (v.statusPeriodUs.map protoU32),
  varintField 4 (v.healthPeriodUs.map protoU32),
  varintField 5 (v.leaseMs.map protoU32)]

/-- mirrors Rust/messaging/src/generated/benchmark_protobuf.rs:3346-3366 -/
def ControlResult.proto (v : ControlResult) : Bytes := message [
  varintField 1 (v.code.map varintSigned),
  varintField 2 (v.leaseRemainingMs.map protoU32)]

/-- `out.body`: every body that is present replaces the one before it. -/
def Envelope.oneof (m : Envelope) : Option Bytes :=
  (present [
    lenField 20 (m.capabilities.map fun _ => []),
    lenField 21 (m.configure.map Configuration.proto),
    lenField 22 (m.renew.map fun _ => []),
    lenField 23 (m.stop.map fun _ => []),
    lenField 24 (m.probe.map fun _ => []),
    lenField 25 (m.limits.map Limits.proto),
    lenField 26 (m.result.map ControlResult.proto),
    lenField 27 (m.probeResponse.map fun _ => []),
    lenField 28 (m.status.map Model.Status.proto),
    lenField 29 (m.health.map Model.Health.proto)]).getLast?

/-- mirrors Rust/messaging/src/generated/benchmark_model.rs:363-426,
Rust/messaging/src/generated/benchmark_protobuf.rs:4304-4434 -/
def Envelope.proto (m : Envelope) : Bytes := message [
  varintField 1 (m.protocolVersion.map protoU32),
  varintField 2 (m.kind.map varintSigned),
  lenField 3 (m.deviceId.map protoString),
  lenField 4 (m.bootId.map protoString),
  lenField 5 (m.sessionId.map protoString),
  varintField 6 (m.requestId.map protoU32),
  varintField 7 (m.sequence.map protoU32),
  varintField 8 (m.uptimeMs.map protoU32),
  lenField 9 (m.payload.map protoString),
  varintField 10 (m.runEpoch.map protoU32),
  m.oneof]

/-! ## Their sizes -/

open Model (u32_member i32_member bool_member string_member empty_member u32_field i32_field bool_field
  string_field)

theorem Limits.json_length {l : Limits} {format : Format} {crc : CrcMode} (hv : limitsValid l format crc = true) :
    l.json.length ≤ 300 := by
  have hfits := Fits.field (i32_member "encoding" (limits_range hv)) <|
    .field (bool_member "crc_enabled" l.crcEnabled) <|
    .field (u32_member "max_payload_bytes" l.maxPayloadBytes) <|
    .field (u32_member "max_datagram_bytes" l.maxDatagramBytes) <|
    .field (u32_member "min_status_period_us" l.minStatusPeriodUs) <|
    .field (u32_member "min_health_period_us" l.minHealthPeriodUs) <|
    .field (u32_member "max_period_us" l.maxPeriodUs) <|
    .field (u32_member "min_lease_ms" l.minLeaseMs) <|
    .field (u32_member "max_lease_ms" l.maxLeaseMs) <|
    .field (bool_member "available" l.available) .nil
  exact Nat.le_trans (object_length hfits) (by decide)

theorem Configuration.json_length (c : Configuration) : c.json.length ≤ 160 := by
  have hfits := Fits.field (u32_member "payload_bytes" c.payloadBytes) <|
    .field (u32_member "pattern_seed" c.patternSeed) <|
    .field (u32_member "status_period_us" c.statusPeriodUs) <|
    .field (u32_member "health_period_us" c.healthPeriodUs) <|
    .field (u32_member "lease_ms" c.leaseMs) .nil
  exact Nat.le_trans (object_length hfits) (by decide)

theorem ControlResult.json_length {r : ControlResult} (hv : resultValid r = true) : r.json.length ≤ 160 := by
  have hfits := Fits.field (i32_member "code" (result_range hv)) <|
    .field (u32_member "lease_remaining_ms" r.leaseRemainingMs) .nil
  exact Nat.le_trans (object_length hfits) (by decide)

section
variable {m : Envelope} {format : Format} {crc : CrcMode} {kind : Int} (hv : ValidAs m format crc kind)
include hv

/-- The header, with room for a payload of `w` bytes. -/
theorem jsonHeader_fits {w : Nat} (hw : ∀ p ∈ m.payload, p.bytes.length ≤ w) :
    ∃ n ≤ w + 254, Fits (jsonHeader m) n := by
  have hpayload : ∀ p ∈ m.payload, (jsonString p).length ≤ w + 2 := by
    intro p hp
    have := hw p hp
    have hplain := quoted_plain_length fun b hb => Model.isDeviceChar_json (hv.payload_chars p hp b hb)
    unfold jsonString
    omega
  have hfits := Fits.field (u32_member "protocol_version" m.protocolVersion) <|
    .field (i32_member "kind" hv.kind_range) <|
    .field (string_member "device_id" (Csv.device_chars hv.device)) <|
    .field (string_member "boot_id" (Csv.nonce_chars hv.boot_valid)) <|
    .field (string_member "session_id" (Csv.nonce_chars (.inr hv.session))) <|
    .field (u32_member "request_id" m.requestId) <|
    .field (u32_member "sequence" m.sequence) <|
    .field (u32_member "uptime_ms" m.uptimeMs) <|
    .field (member_length "payload" (map_length hpayload)) <|
    .field (u32_member "run_epoch" m.runEpoch) .nil
  refine ⟨_, ?_, hfits⟩
  simp
  omega

/-- One body is there. -/
theorem jsonBodies_count (lib : FloatText) : (jsonBodies lib m).countP Option.isSome ≤ 1 := by
  have hone := hv.oneBody
  unfold bodies at hone
  rw [← hone]
  simp [jsonBodies, member, List.countP_cons, List.count_cons]

/-- The body is small, but for the limits. -/
theorem jsonBodies_fits (lib : FloatText) {w : Nat} (hw : 180 ≤ w) (hlimits : m.limits.isSome = true → 310 ≤ w) :
    ∃ n ≤ w + 1, Fits (jsonBodies lib m) n := by
  have hsmall : ∀ {text : Option Bytes} {k : Nat}, k ≤ 180 → (∀ t ∈ text, t.length ≤ k) → ∀ t ∈ text, t.length ≤ w :=
    fun hk h t ht => Nat.le_trans (h t ht) (Nat.le_trans hk hw)
  have hbig : ∀ t ∈ member "limits" (m.limits.map Limits.json), t.length ≤ w := by
    intro t ht
    have hsome : m.limits.isSome = true := by
      cases hl : m.limits with
      | none => rw [hl] at ht; cases ht
      | some l => rfl
    have hlen := member_length "limits" (map_length fun l hl => Limits.json_length (hv.limits l hl)) t ht
    exact Nat.le_trans hlen (Nat.le_trans (by decide) (hlimits hsome))
  refine Fits.single (jsonBodies_count hv lib) ?_
  simp only [jsonBodies, List.forall_mem_cons]
  exact ⟨hsmall (by decide) (empty_member "capabilities" m.capabilities),
    hsmall (by decide) (member_length "configure" (map_length fun c _ => Configuration.json_length c)),
    hsmall (by decide) (empty_member "renew" m.renew), hsmall (by decide) (empty_member "stop" m.stop),
    hsmall (by decide) (empty_member "probe" m.probe), hbig,
    hsmall (by decide) (member_length "result" (map_length fun r hr => ControlResult.json_length (hv.result r hr))),
    hsmall (by decide) (empty_member "probe_response" m.probeResponse),
    hsmall (by decide) (member_length "status"
      (map_length fun status hs => Model.Status.json_length lib (hv.statusBody status hs))),
    hsmall (by decide) (member_length "health"
      (map_length fun health hh => Model.Health.json_length (hv.healthBody health hh))),
    fun _ h => absurd h List.not_mem_nil⟩

/-- **A validated message is short JSON**: the limits come without a payload. -/
theorem Envelope.json_length (lib : FloatText) : (m.json lib).length ≤ 1016 := by
  have key : ∀ w w' : Nat, (∀ p ∈ m.payload, p.bytes.length ≤ w) → 180 ≤ w' →
      (m.limits.isSome = true → 310 ≤ w') → w + w' + 257 ≤ 1016 → (m.json lib).length ≤ 1016 := by
    intro w w' hp hw hl hle
    obtain ⟨n, hn, hheader⟩ := jsonHeader_fits hv hp
    obtain ⟨n', hn', hbodies⟩ := jsonBodies_fits hv lib hw hl
    have := object_length (hheader.append hbodies)
    unfold Envelope.json
    omega
  cases hp : m.payload with
  | none => exact key 0 310 (by rw [hp]; nofun) (by decide) (fun _ => Nat.le_refl _) (by decide)
  | some p =>
    refine key 512 180 (fun p _ => p.len_le) (Nat.le_refl _) (fun hl => ?_) (by decide)
    -- a kind with a payload has no limits
    have hdata := hv.payload
    rw [hv.body_unique.2.2.2.2.2.1, beq_iff_eq] at hl
    rw [hp, hl] at hdata
    cases hdata

end

theorem Limits.proto_length (l : Limits) : l.proto.length ≤ 120 := by
  have hfits := Fits.field (i32_field (show 1 < 2000 by decide) l.encoding) <|
    .field (bool_field (show 2 < 2000 by decide) l.crcEnabled) <|
    .field (u32_field (show 3 < 2000 by decide) l.maxPayloadBytes) <|
    .field (u32_field (show 4 < 2000 by decide) l.maxDatagramBytes) <|
    .field (u32_field (show 5 < 2000 by decide) l.minStatusPeriodUs) <|
    .field (u32_field (show 6 < 2000 by decide) l.minHealthPeriodUs) <|
    .field (u32_field (show 7 < 2000 by decide) l.maxPeriodUs) <|
    .field (u32_field (show 8 < 2000 by decide) l.minLeaseMs) <|
    .field (u32_field (show 9 < 2000 by decide) l.maxLeaseMs) <|
    .field (bool_field (show 10 < 2000 by decide) l.available) .nil
  exact Nat.le_trans (message_length hfits) (by decide)

theorem Configuration.proto_length (c : Configuration) : c.proto.length ≤ 120 := by
  have hfits := Fits.field (u32_field (show 1 < 2000 by decide) c.payloadBytes) <|
    .field (u32_field (show 2 < 2000 by decide) c.patternSeed) <|
    .field (u32_field (show 3 < 2000 by decide) c.statusPeriodUs) <|
    .field (u32_field (show 4 < 2000 by decide) c.healthPeriodUs) <|
    .field (u32_field (show 5 < 2000 by decide) c.leaseMs) .nil
  exact Nat.le_trans (message_length hfits) (by decide)

theorem ControlResult.proto_length (r : ControlResult) : r.proto.length ≤ 120 := by
  have hfits := Fits.field (i32_field (show 1 < 2000 by decide) r.code) <|
    .field (u32_field (show 2 < 2000 by decide) r.leaseRemainingMs) .nil
  exact Nat.le_trans (message_length hfits) (by decide)

theorem Envelope.oneof_length (m : Envelope) : ∀ t ∈ m.oneof, t.length ≤ 124 := by
  have hbody : ∀ {α : Type} (number : Nat), number < 2000 → ∀ (body : Option α) {text : α → Bytes},
      (∀ a, (text a).length ≤ 120) → ∀ t ∈ lenField number (body.map text), t.length ≤ 124 :=
    fun number hn _ _ h => lenField_length hn (by decide) (map_length fun a _ => h a)
  have hempty : ∀ u : Unit, ((fun _ => []) u : Bytes).length ≤ 120 := fun _ => Nat.zero_le _
  refine last_length ?_
  simp only [List.forall_mem_cons]
  exact ⟨hbody 20 (by decide) m.capabilities hempty, hbody 21 (by decide) m.configure Configuration.proto_length,
    hbody 22 (by decide) m.renew hempty, hbody 23 (by decide) m.stop hempty, hbody 24 (by decide) m.probe hempty,
    hbody 25 (by decide) m.limits Limits.proto_length, hbody 26 (by decide) m.result ControlResult.proto_length,
    hbody 27 (by decide) m.probeResponse hempty,
    hbody 28 (by decide) m.status fun s => Nat.le_trans (Model.Status.proto_length s) (by decide),
    hbody 29 (by decide) m.health fun h => Nat.le_trans (Model.Health.proto_length h) (by decide),
    fun _ h => absurd h List.not_mem_nil⟩

theorem Envelope.proto_length (m : Envelope) : m.proto.length ≤ 1016 := by
  have hfits := Fits.field (u32_field (show 1 < 2000 by decide) m.protocolVersion) <|
    .field (i32_field (show 2 < 2000 by decide) m.kind) <|
    .field (string_field (show 3 < 2000 by decide) (by decide) m.deviceId) <|
    .field (string_field (show 4 < 2000 by decide) (by decide) m.bootId) <|
    .field (string_field (show 5 < 2000 by decide) (by decide) m.sessionId) <|
    .field (u32_field (show 6 < 2000 by decide) m.requestId) <|
    .field (u32_field (show 7 < 2000 by decide) m.sequence) <|
    .field (u32_field (show 8 < 2000 by decide) m.uptimeMs) <|
    .field (string_field (show 9 < 2000 by decide) (by decide) m.payload) <|
    .field (u32_field (show 10 < 2000 by decide) m.runEpoch) <|
    .field m.oneof_length .nil
  exact Nat.le_trans (message_length hfits) (by decide)

namespace Codec

/-- The buffer after the call and the length of the datagram in front of it.
mirrors Rust/messaging/src/benchmark.rs:253-286 -/
def encode {W : Type} (crates : Formats W Envelope) (format : Format) (crc : CrcMode) (m : Envelope) (out : Bytes) :
    Except CodecError (Bytes × Nat) := do
  validate m format crc
  let capacity := min out.length maxBody
  let body ← crates.write (csvWrite crates.float) format m capacity
  Framing.sealFrame crates.checksum crc (body ++ out.drop body.length) body.length

/-- **A validated message is sendable**: framed into any buffer of 1024 bytes, its body within
1016 of them. -/
theorem encode_valid {W : Type} {crates : Formats W Envelope}
    (hc : crates.Lawful (Envelope.json crates.float) Envelope.proto) {m : Envelope} {format : Format}
    {crc : CrcMode} (hm : validate m format crc = .ok ()) {out : Bytes} (hout : 1024 ≤ out.length) :
    ∃ buffer n, encode crates format crc m out = .ok (buffer, n + Framing.extra crc) ∧ n ≤ maxBody := by
  obtain ⟨kind, hv⟩ := validate_ok_iff.1 hm
  have hmax : maxBody = 1016 := rfl
  have hcap : min out.length maxBody = maxBody := Nat.min_eq_right (by omega)
  obtain ⟨body, hwrite, hlen⟩ := Formats.write_ok hc (Nat.le_refl maxBody) (by
      obtain ⟨texts, henc, -, -, -, -, hlen⟩ := message_row hc.base.float hv
      exact ⟨_, henc, by omega⟩)
    (Envelope.json_length hv crates.float) (Envelope.proto_length m) format
  have hextra : Framing.extra crc ≤ 8 := by cases crc <;> decide
  obtain ⟨sealed, hseal, -, -⟩ := Framing.openFrame_sealFrame crates.checksum crc hlen
    (show body.length + Framing.extra crc ≤ (body ++ out.drop body.length).length by
      rw [List.length_append, List.length_drop]
      omega)
  refine ⟨sealed, body.length, ?_, hlen⟩
  unfold encode
  simp only [hm, except_ok_bind, hcap, hwrite]
  exact hseal

end Codec

end Nucleo.Benchmark
