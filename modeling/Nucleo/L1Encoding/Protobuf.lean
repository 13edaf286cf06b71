import Nucleo.Core.Proto3
import Nucleo.L1Encoding.BenchmarkFormats

/-!
# The generated Protobuf decoders

`protobuf.rs` and `benchmark_protobuf.rs` as `micropb-gen` wrote them: every
message is the loop of `Reader.message` over the tags it knows, a body is read
into the variant that is there or replaces it. `micropb`'s reader is the
parameter. `toPb` and `fromPb` are the conversions of the generated model.
The decoders of the normal protocol look at the wire type of a field, those of
the benchmark do not.

Results, for both protocols:
* `decode_proto`: the generated decoder reads what the generated encoder wrote.
* `decode_extended`: with records of a later schema between any two fields as well.
* `fromPb_toPb`: nothing is lost with at most one body.
-/
namespace Nucleo

open Wire

/-- `i32`. -/
def inI32 (n : Int) : Prop := -2 ^ 31 ≤ n ∧ n < 2 ^ 31

namespace Model

/-- A `heapless::String` from the wire. -/
def readString (r : Reader) (n : Nat) (bytes : Bytes) : Option (HString n × Bytes) :=
  match r.string n bytes with
  | none => none
  | some (text, rest) => (HString.ofBytes? n text).map (·, rest)

def readF32 (r : Reader) (bytes : Bytes) : Option (F32 × Bytes) := (r.fixed32 bytes).map fun (v, rest) => (⟨v⟩, rest)

/-- mirrors Rust/messaging/src/generated/protobuf.rs:6-25 -/
def Empty.known : Reader.Known Unit := fun _ _ => none

/-- mirrors Rust/messaging/src/generated/protobuf.rs:129-166 -/
def DeviceInfo.known (r : Reader) : Reader.Known DeviceInfo
  | 1, 2 => some (Reader.value (readString r 32) fun m v => { m with firmwareVersion := some v })
  | 2, 0 => some (Reader.value r.int32 fun m v => { m with encoding := some v })
  | _, _ => none

/-- mirrors Rust/messaging/src/generated/protobuf.rs:343-389 -/
def Status.known (r : Reader) : Reader.Known Status
  | 1, 5 => some (Reader.value (readF32 r) fun m v => { m with temperatureCelsius := some v })
  | 2, 0 => some (Reader.value r.int32 fun m v => { m with validity := some v })
  | 3, 0 => some (Reader.value r.bool fun m v => { m with synthetic := some v })
  | _, _ => none

/-- mirrors Rust/messaging/src/generated/protobuf.rs:655-721 -/
def Health.known (r : Reader) : Reader.Known Health
  | 1, 0 => some (Reader.value r.int32 fun m v => { m with state := some v })
  | 2, 0 => some (Reader.value r.varint32 fun m v => { m with receivedRequests := some v })
  | 3, 0 => some (Reader.value r.varint32 fun m v => { m with rejectedDatagrams := some v })
  | 4, 0 => some (Reader.value r.varint32 fun m v => { m with sendErrors := some v })
  | 5, 0 => some (Reader.value r.varint32 fun m v => { m with skippedPublications := some v })
  | _, _ => none

/-- mirrors Rust/messaging/src/generated/protobuf.rs:897-927 -/
def Error.known (r : Reader) : Reader.Known Error
  | 1, 0 => some (Reader.value r.int32 fun m v => { m with code := some v })
  | _, _ => none

/-- `Envelope_::Body`. -/
inductive Body
  | getDeviceInfo (v : Unit)
  | getStatus (v : Unit)
  | getHealth (v : Unit)
  | deviceInfo (v : DeviceInfo)
  | status (v : Status)
  | health (v : Health)
  | error (v : Error)

/-- `pb::Envelope`. -/
structure Pb where
  protocolVersion : Option UInt32 := none
  kind : Option Int := none
  deviceId : Option (HString 32) := none
  bootId : Option (HString 16) := none
  clientSession : Option (HString 16) := none
  requestId : Option UInt32 := none
  sequence : Option UInt32 := none
  uptimeMs : Option UInt32 := none
  body : Option Body := none

/-- `mut_ref.decode_len_delimited(decoder)`, into the variant that is there or a new one. -/
def readBody {α : Type} (r : Reader) (known : Reader.Known α) (variant : Body → Option α) (fresh : α)
    (body : α → Body) : Pb → Bytes → Option (Pb × Bytes) :=
  r.oneof Pb.body (fun m v => { m with body := v }) known variant fresh body

/-- mirrors Rust/messaging/src/generated/protobuf.rs:1265-1471 -/
def Pb.known (r : Reader) : Reader.Known Pb
  | 1, 0 => some (Reader.value r.varint32 fun m v => { m with protocolVersion := some v })
  | 2, 0 => some (Reader.value r.int32 fun m v => { m with kind := some v })
  | 3, 2 => some (Reader.value (readString r 32) fun m v => { m with deviceId := some v })
  | 4, 2 => some (Reader.value (readString r 16) fun m v => { m with bootId := some v })
  | 5, 2 => some (Reader.value (readString r 16) fun m v => { m with clientSession := some v })
  | 6, 0 => some (Reader.value r.varint32 fun m v => { m with requestId := some v })
  | 7, 0 => some (Reader.value r.varint32 fun m v => { m with sequence := some v })
  | 8, 0 => some (Reader.value r.varint32 fun m v => { m with uptimeMs := some v })
  | 20, 2 => some (readBody r Empty.known (fun | .getDeviceInfo v => some v | _ => none) () .getDeviceInfo)
  | 21, 2 => some (readBody r Empty.known (fun | .getStatus v => some v | _ => none) () .getStatus)
  | 22, 2 => some (readBody r Empty.known (fun | .getHealth v => some v | _ => none) () .getHealth)
  | 23, 2 => some (readBody r (DeviceInfo.known r) (fun | .deviceInfo v => some v | _ => none) {} .deviceInfo)
  | 24, 2 => some (readBody r (Status.known r) (fun | .status v => some v | _ => none) {} .status)
  | 25, 2 => some (readBody r (Health.known r) (fun | .health v => some v | _ => none) {} .health)
  | 26, 2 => some (readBody r (Error.known r) (fun | .error v => some v | _ => none) {} .error)
  | _, _ => none

/-- `decode_from_bytes`: a message as long as the input. -/
def Pb.decode (r : Reader) (bytes : Bytes) : Option Pb := (r.message (Pb.known r) bytes.length {} bytes).map Prod.fst

/-- Every body that is there replaces the one before it.
mirrors Rust/messaging/src/generated/model.rs:295-343 -/
def Envelope.toPb (m : Envelope) : Pb where
  protocolVersion := m.protocolVersion
  kind := m.kind
  deviceId := m.deviceId
  bootId := m.bootId
  clientSession := m.clientSession
  requestId := m.requestId
  sequence := m.sequence
  uptimeMs := m.uptimeMs
  body := ([m.getDeviceInfo.map .getDeviceInfo, m.getStatus.map .getStatus, m.getHealth.map .getHealth,
    m.deviceInfo.map .deviceInfo, m.status.map .status, m.health.map .health,
    m.error.map .error].filterMap id).getLast?

/-- mirrors Rust/messaging/src/generated/model.rs:344-374 -/
def Envelope.fromPb (input : Pb) : Envelope :=
  let output : Envelope := {
    protocolVersion := input.protocolVersion
    kind := input.kind
    deviceId := input.deviceId
    bootId := input.bootId
    clientSession := input.clientSession
    requestId := input.requestId
    sequence := input.sequence
    uptimeMs := input.uptimeMs }
  match input.body with
  | none => output
  | some (.getDeviceInfo v) => { output with getDeviceInfo := some v }
  | some (.getStatus v) => { output with getStatus := some v }
  | some (.getHealth v) => { output with getHealth := some v }
  | some (.deviceInfo v) => { output with deviceInfo := some v }
  | some (.status v) => { output with status := some v }
  | some (.health v) => { output with health := some v }
  | some (.error v) => { output with error := some v }

/-! ## The text of a body -/

/-- The field of a body. -/
def Body.number : Body → Nat
  | .getDeviceInfo _ => 20
  | .getStatus _ => 21
  | .getHealth _ => 22
  | .deviceInfo _ => 23
  | .status _ => 24
  | .health _ => 25
  | .error _ => 26

def Body.content : Body → Bytes
  | .getDeviceInfo _ | .getStatus _ | .getHealth _ => []
  | .deviceInfo v => v.proto
  | .status v => v.proto
  | .health v => v.proto
  | .error v => v.proto

def Body.text (b : Body) : Bytes := varint (8 * b.number + 2) ++ (varint b.content.length ++ b.content)

/-- The body that is written is that of the converted message. -/
theorem Envelope.oneof_toPb (m : Envelope) : m.oneof = m.toPb.body.map Body.text := by
  have hfield : ∀ {α : Type} (number : Nat) (v : Option α) (content : α → Bytes) (body : α → Body),
      (∀ a, (body a).number = number) → (∀ a, (body a).content = content a) →
      lenField number (v.map content) = (v.map body).map Body.text := by
    intro α number v content body hnumber hcontent
    cases v with
    | none => rfl
    | some a =>
      simp only [lenField, Option.map_some, Body.text, hnumber, hcontent, List.append_assoc]
  unfold Envelope.oneof present Envelope.toPb
  rw [← last_map Body.text,
    hfield 20 m.getDeviceInfo (fun _ => []) .getDeviceInfo (fun _ => rfl) (fun _ => rfl),
    hfield 21 m.getStatus (fun _ => []) .getStatus (fun _ => rfl) (fun _ => rfl),
    hfield 22 m.getHealth (fun _ => []) .getHealth (fun _ => rfl) (fun _ => rfl),
    hfield 23 m.deviceInfo DeviceInfo.proto .deviceInfo (fun _ => rfl) (fun _ => rfl),
    hfield 24 m.status Status.proto .status (fun _ => rfl) (fun _ => rfl),
    hfield 25 m.health Health.proto .health (fun _ => rfl) (fun _ => rfl),
    hfield 26 m.error Error.proto .error (fun _ => rfl) (fun _ => rfl)]
  rfl

/-- The enumerations of the message are `i32`s. -/
structure Envelope.InRange (m : Envelope) : Prop where
  kind : ∀ k ∈ m.kind, inI32 k
  deviceInfo : ∀ v ∈ m.deviceInfo, ∀ e ∈ v.encoding, inI32 e
  status : ∀ v ∈ m.status, ∀ e ∈ v.validity, inI32 e
  health : ∀ v ∈ m.health, ∀ e ∈ v.state, inI32 e
  error : ∀ v ∈ m.error, ∀ e ∈ v.code, inI32 e

/-! ## Reading what was written -/

section
variable {r : Reader} (hr : r.Lawful utf8Valid)
include hr

theorem readString_text {n : Nat} (hn : n < 2 ^ 32) (s : HString n) (rest : Bytes) :
    readString r n (varint (protoString s).length ++ protoString s ++ rest) = some (s, rest) := by
  unfold readString
  rw [show protoString s = s.bytes from rfl,
    hr.string n s.bytes rest s.len_le (Nat.lt_of_le_of_lt s.len_le hn) s.utf8]
  simp

theorem readF32_bits (f : F32) (rest : Bytes) : readF32 r (Endian.toLE 4 f.bits.toNat ++ rest) = some (f, rest) := by
  unfold readF32
  rw [hr.fixed32]
  rfl

theorem int32_text {n : Int} (h : inI32 n) (rest : Bytes) : r.int32 (varintSigned n ++ rest) = some (n, rest) :=
  hr.int32 n rest h.1 h.2

theorem DeviceInfo.decodes (v : DeviceInfo) (h : ∀ e ∈ v.encoding, inI32 e) :
    Decodes r (DeviceInfo.known r) [lenField 1 (v.firmwareVersion.map protoString),
      varintField 2 (v.encoding.map varintSigned)] {} v :=
  .len hr (by decide) (fun m v => { m with firmwareVersion := v }) rfl rfl
    (fun s _ => readString_text hr (by decide) s) <|
  .varint hr (by decide) (fun m v => { m with encoding := v }) rfl rfl (fun e he => int32_text hr (h e he)) <|
  .nil _

theorem Status.decodes (v : Status) (h : ∀ e ∈ v.validity, inI32 e) {known : Reader.Known Status}
    (hk : (Status.known r).Within known) :
    Decodes r known [fixed32Field 1 (v.temperatureCelsius.map F32.bits),
      varintField 2 (v.validity.map varintSigned), varintField 3 (v.synthetic.map protoBool)] {} v :=
  .fixed32 hr (by decide) (fun m v => { m with temperatureCelsius := v }) rfl (hk _ _ _ rfl)
    (fun f _ => readF32_bits hr f) <|
  .varint hr (by decide) (fun m v => { m with validity := v }) rfl (hk _ _ _ rfl)
    (fun e he => int32_text hr (h e he)) <|
  .varint hr (by decide) (fun m v => { m with synthetic := v }) rfl (hk _ _ _ rfl) (fun b _ => hr.bool b) <|
  .nil _

theorem Health.decodes (v : Health) (h : ∀ e ∈ v.state, inI32 e) {known : Reader.Known Health}
    (hk : (Health.known r).Within known) :
    Decodes r known [varintField 1 (v.state.map varintSigned),
      varintField 2 (v.receivedRequests.map protoU32), varintField 3 (v.rejectedDatagrams.map protoU32),
      varintField 4 (v.sendErrors.map protoU32), varintField 5 (v.skippedPublications.map protoU32)] {} v :=
  .varint hr (by decide) (fun m v => { m with state := v }) rfl (hk _ _ _ rfl) (fun e he => int32_text hr (h e he)) <|
  .varint hr (by decide) (fun m v => { m with receivedRequests := v }) rfl (hk _ _ _ rfl)
    (fun n _ => hr.varint32 n) <|
  .varint hr (by decide) (fun m v => { m with rejectedDatagrams := v }) rfl (hk _ _ _ rfl)
    (fun n _ => hr.varint32 n) <|
  .varint hr (by decide) (fun m v => { m with sendErrors := v }) rfl (hk _ _ _ rfl) (fun n _ => hr.varint32 n) <|
  .varint hr (by decide) (fun m v => { m with skippedPublications := v }) rfl (hk _ _ _ rfl)
    (fun n _ => hr.varint32 n) <|
  .nil _

theorem Error.decodes (v : Error) (h : ∀ e ∈ v.code, inI32 e) :
    Decodes r (Error.known r) [varintField 1 (v.code.map varintSigned)] {} v :=
  .varint hr (by decide) (fun m v => { m with code := v }) rfl rfl (fun e he => int32_text hr (h e he)) <|
  .nil _

/-! ### The envelope -/

/-- The body of a message in range is read. -/
theorem Body.takes {m : Envelope} (h : m.InRange) {b : Body} (hb : m.toPb.body = some b) {pb : Pb}
    (hm : pb.body = none) : Takes r (Pb.known r) b.text pb { pb with body := some b } := by
  obtain ⟨o, ho, hsome⟩ := List.mem_filterMap.1 (List.mem_of_getLast? hb)
  have hsome : o = some b := hsome
  have hread : ∀ {α : Type} {known : Reader.Known α} {variant : Body → Option α} {fresh v : α} {body : α → Body}
      {fields : Fields} (number : Nat), 0 < number ∧ number < 2 ^ 29 →
      Pb.known r number 2 = some (readBody r known variant fresh body) → Decodes r known fields fresh v →
      (message fields).length ≤ 60 →
      Takes r (Pb.known r) (varint (8 * number + 2) ++ (varint (message fields).length ++ message fields)) pb
        { pb with body := some (body v) } :=
    fun _ hn hk hd hlen => Takes.oneof hr hn hk hd (Nat.lt_of_le_of_lt hlen (by decide)) hm
  simp only [List.mem_cons, List.not_mem_nil, or_false] at ho
  rcases ho with rfl | rfl | rfl | rfl | rfl | rfl | rfl <;> obtain ⟨v, hv, rfl⟩ := Option.map_eq_some_iff.1 hsome
  · exact hread 20 (by decide) rfl (.nil ()) (Nat.zero_le _)
  · exact hread 21 (by decide) rfl (.nil ()) (Nat.zero_le _)
  · exact hread 22 (by decide) rfl (.nil ()) (Nat.zero_le _)
  · exact hread 23 (by decide) rfl (DeviceInfo.decodes hr v (h.deviceInfo v hv)) v.proto_length
  · exact hread 24 (by decide) rfl (Status.decodes hr v (h.status v hv) fun _ _ _ => id) v.proto_length
  · exact hread 25 (by decide) rfl (Health.decodes hr v (h.health v hv) fun _ _ _ => id) v.proto_length
  · exact hread 26 (by decide) rfl (Error.decodes hr v (h.error v hv)) v.proto_length

/-- The fields of a message, as they are written. -/
def Envelope.protoFields (m : Envelope) : Fields := [
  varintField 1 (m.protocolVersion.map protoU32),
  varintField 2 (m.kind.map varintSigned),
  lenField 3 (m.deviceId.map protoString),
  lenField 4 (m.bootId.map protoString),
  lenField 5 (m.clientSession.map protoString),
  varintField 6 (m.requestId.map protoU32),
  varintField 7 (m.sequence.map protoU32),
  varintField 8 (m.uptimeMs.map protoU32),
  m.oneof]

/-- Whatever was read before it, the body is the last field. -/
theorem Envelope.oneof_decodes {m : Envelope} (h : m.InRange) {pb : Pb} (hm : pb.body = none) :
    Decodes r (Pb.known r) [m.oneof] pb { pb with body := m.toPb.body } := by
  rw [Envelope.oneof_toPb]
  cases hb : m.toPb.body with
  | none =>
    have hsame : { pb with body := none } = pb := by rw [← hm]
    rw [hsame]
    exact .absent (.nil _)
  | some b => exact .field (Body.takes hr h hb hm) (.nil _)

theorem Pb.decodes {m : Envelope} (h : m.InRange) : Decodes r (Pb.known r) m.protoFields {} m.toPb :=
  .varint hr (by decide) (fun pb v => { pb with protocolVersion := v }) rfl rfl (fun n _ => hr.varint32 n) <|
  .varint hr (by decide) (fun pb v => { pb with kind := v }) rfl rfl (fun k hk => int32_text hr (h.kind k hk)) <|
  .len hr (by decide) (fun pb v => { pb with deviceId := v }) rfl rfl (fun s _ => readString_text hr (by decide) s) <|
  .len hr (by decide) (fun pb v => { pb with bootId := v }) rfl rfl (fun s _ => readString_text hr (by decide) s) <|
  .len hr (by decide) (fun pb v => { pb with clientSession := v }) rfl rfl
    (fun s _ => readString_text hr (by decide) s) <|
  .varint hr (by decide) (fun pb v => { pb with requestId := v }) rfl rfl (fun n _ => hr.varint32 n) <|
  .varint hr (by decide) (fun pb v => { pb with sequence := v }) rfl rfl (fun n _ => hr.varint32 n) <|
  .varint hr (by decide) (fun pb v => { pb with uptimeMs := v }) rfl rfl (fun n _ => hr.varint32 n) <| by
    exact Envelope.oneof_decodes hr h rfl

/-- Records of a later schema stand between the fields, or do not. -/
theorem Pb.decode_extended {m : Envelope} (h : m.InRange) {fields : Fields}
    (he : Extends r (Pb.known r) m.protoFields fields) : Pb.decode r (message fields) = some m.toPb := by
  have hread := ((Pb.decodes hr h).extends he).read []
  unfold Pb.decode
  rw [List.append_nil] at hread
  rw [hread]
  rfl

/-- **What the generated encoder writes, the generated decoder reads.** -/
theorem Pb.decode_proto {m : Envelope} (h : m.InRange) : Pb.decode r m.proto = some m.toPb :=
  Pb.decode_extended hr h (Extends.refl _)

end

/-- Nothing is lost by the conversions when there is at most one body. -/
theorem Envelope.fromPb_toPb {m : Envelope} (h : Validation.bodies m ≤ 1) : Envelope.fromPb m.toPb = m := by
  obtain ⟨version, kind, device, boot, session, id, sequence, uptime, b1, b2, b3, b4, b5, b6, b7⟩ := m
  unfold Validation.bodies at h
  cases b1 <;> cases b2 <;> cases b3 <;> cases b4 <;> cases b5 <;> cases b6 <;> cases b7 <;> first | rfl | (simp at h)

end Model

/-! ## The benchmark protocol -/

namespace Benchmark

open Model (readString readF32 protoU32 protoBool protoString readString_text readF32_bits int32_text)

/-- mirrors Rust/messaging/src/generated/benchmark_protobuf.rs:2009-2028 -/
def Empty.known : Reader.Known Unit := fun _ _ => none

/-- mirrors Rust/messaging/src/generated/benchmark_protobuf.rs:2426-2537 -/
def Limits.known (r : Reader) : Reader.Known Limits
  | 1, _ => some (Reader.value r.int32 fun m v => { m with encoding := some v })
  | 2, _ => some (Reader.value r.bool fun m v => { m with crcEnabled := some v })
  | 3, _ => some (Reader.value r.varint32 fun m v => { m with maxPayloadBytes := some v })
  | 4, _ => some (Reader.value r.varint32 fun m v => { m with maxDatagramBytes := some v })
  | 5, _ => some (Reader.value r.varint32 fun m v => { m with minStatusPeriodUs := some v })
  | 6, _ => some (Reader.value r.varint32 fun m v => { m with minHealthPeriodUs := some v })
  | 7, _ => some (Reader.value r.varint32 fun m v => { m with maxPeriodUs := some v })
  | 8, _ => some (Reader.value r.varint32 fun m v => { m with minLeaseMs := some v })
  | 9, _ => some (Reader.value r.varint32 fun m v => { m with maxLeaseMs := some v })
  | 10, _ => some (Reader.value r.bool fun m v => { m with available := some v })
  | _, _ => none

/-- mirrors Rust/messaging/src/generated/benchmark_protobuf.rs:2990-3054 -/
def Configuration.known (r : Reader) : Reader.Known Configuration
  | 1, _ => some (Reader.value r.varint32 fun m v => { m with payloadBytes := some v })
  | 2, _ => some (Reader.value r.varint32 fun m v => { m with patternSeed := some v })
  | 3, _ => some (Reader.value r.varint32 fun m v => { m with statusPeriodUs := some v })
  | 4, _ => some (Reader.value r.varint32 fun m v => { m with healthPeriodUs := some v })
  | 5, _ => some (Reader.value r.varint32 fun m v => { m with leaseMs := some v })
  | _, _ => none

/-- mirrors Rust/messaging/src/generated/benchmark_protobuf.rs:3280-3319 -/
def ControlResult.known (r : Reader) : Reader.Known ControlResult
  | 1, _ => some (Reader.value r.int32 fun m v => { m with code := some v })
  | 2, _ => some (Reader.value r.varint32 fun m v => { m with leaseRemainingMs := some v })
  | _, _ => none

/-- mirrors Rust/messaging/src/generated/benchmark_protobuf.rs:343-389 -/
def Status.known (r : Reader) : Reader.Known Status
  | 1, _ => some (Reader.value (readF32 r) fun m v => { m with temperatureCelsius := some v })
  | 2, _ => some (Reader.value r.int32 fun m v => { m with validity := some v })
  | 3, _ => some (Reader.value r.bool fun m v => { m with synthetic := some v })
  | _, _ => none

/-- mirrors Rust/messaging/src/generated/benchmark_protobuf.rs:655-721 -/
def Health.known (r : Reader) : Reader.Known Health
  | 1, _ => some (Reader.value r.int32 fun m v => { m with state := some v })
  | 2, _ => some (Reader.value r.varint32 fun m v => { m with receivedRequests := some v })
  | 3, _ => some (Reader.value r.varint32 fun m v => { m with rejectedDatagrams := some v })
  | 4, _ => some (Reader.value r.varint32 fun m v => { m with sendErrors := some v })
  | 5, _ => some (Reader.value r.varint32 fun m v => { m with skippedPublications := some v })
  | _, _ => none

/-- `Envelope_::Body`. -/
inductive Body
  | capabilities (v : Unit)
  | configure (v : Configuration)
  | renew (v : Unit)
  | stop (v : Unit)
  | probe (v : Unit)
  | limits (v : Limits)
  | result (v : ControlResult)
  | probeResponse (v : Unit)
  | status (v : Status)
  | health (v : Health)

/-- `pb::Envelope`. -/
structure Pb where
  protocolVersion : Option UInt32 := none
  kind : Option Int := none
  deviceId : Option (HString 32) := none
  bootId : Option (HString 16) := none
  sessionId : Option (HString 16) := none
  requestId : Option UInt32 := none
  sequence : Option UInt32 := none
  uptimeMs : Option UInt32 := none
  payload : Option (HString 512) := none
  runEpoch : Option UInt32 := none
  body : Option Body := none

/-- `mut_ref.decode_len_delimited(decoder)`, into the variant that is there or a new one. -/
def readBody {α : Type} (r : Reader) (known : Reader.Known α) (variant : Body → Option α) (fresh : α)
    (body : α → Body) : Pb → Bytes → Option (Pb × Bytes) :=
  r.oneof Pb.body (fun m v => { m with body := v }) known variant fresh body

/-- mirrors Rust/messaging/src/generated/benchmark_protobuf.rs:3771-4036 -/
def Pb.known (r : Reader) : Reader.Known Pb
  | 1, _ => some (Reader.value r.varint32 fun m v => { m with protocolVersion := some v })
  | 2, _ => some (Reader.value r.int32 fun m v => { m with kind := some v })
  | 3, _ => some (Reader.value (readString r 32) fun m v => { m with deviceId := some v })
  | 4, _ => some (Reader.value (readString r 16) fun m v => { m with bootId := some v })
  | 5, _ => some (Reader.value (readString r 16) fun m v => { m with sessionId := some v })
  | 6, _ => some (Reader.value r.varint32 fun m v => { m with requestId := some v })
  | 7, _ => some (Reader.value r.varint32 fun m v => { m with sequence := some v })
  | 8, _ => some (Reader.value r.varint32 fun m v => { m with uptimeMs := some v })
  | 9, _ => some (Reader.value (readString r 512) fun m v => { m with payload := some v })
  | 10, _ => some (Reader.value r.varint32 fun m v => { m with runEpoch := some v })
  | 20, _ => some (readBody r Empty.known (fun | .capabilities v => some v | _ => none) () .capabilities)
  | 21, _ => some (readBody r (Configuration.known r) (fun | .configure v => some v | _ => none) {} .configure)
  | 22, _ => some (readBody r Empty.known (fun | .renew v => some v | _ => none) () .renew)
  | 23, _ => some (readBody r Empty.known (fun | .stop v => some v | _ => none) () .stop)
  | 24, _ => some (readBody r Empty.known (fun | .probe v => some v | _ => none) () .probe)
  | 25, _ => some (readBody r (Limits.known r) (fun | .limits v => some v | _ => none) {} .limits)
  | 26, _ => some (readBody r (ControlResult.known r) (fun | .result v => some v | _ => none) {} .result)
  | 27, _ => some (readBody r Empty.known (fun | .probeResponse v => some v | _ => none) () .probeResponse)
  | 28, _ => some (readBody r (Status.known r) (fun | .status v => some v | _ => none) {} .status)
  | 29, _ => some (readBody r (Health.known r) (fun | .health v => some v | _ => none) {} .health)
  | _, _ => none

/-- `decode_from_bytes`. -/
def Pb.decode (r : Reader) (bytes : Bytes) : Option Pb := (r.message (Pb.known r) bytes.length {} bytes).map Prod.fst

/-- Every body that is there replaces the one before it.
mirrors Rust/messaging/src/generated/benchmark_model.rs:363-426 -/
def Envelope.toPb (m : Envelope) : Pb where
  protocolVersion := m.protocolVersion
  kind := m.kind
  deviceId := m.deviceId
  bootId := m.bootId
  sessionId := m.sessionId
  requestId := m.requestId
  sequence := m.sequence
  uptimeMs := m.uptimeMs
  payload := m.payload
  runEpoch := m.runEpoch
  body := ([m.capabilities.map .capabilities, m.configure.map .configure, m.renew.map .renew,
    m.stop.map .stop, m.probe.map .probe, m.limits.map .limits,
    m.result.map .result, m.probeResponse.map .probeResponse, m.status.map .status,
    m.health.map .health].filterMap id).getLast?

/-- mirrors Rust/messaging/src/generated/benchmark_model.rs:427-466 -/
def Envelope.fromPb (input : Pb) : Envelope :=
  let out : Envelope := {
    protocolVersion := input.protocolVersion
    kind := input.kind
    deviceId := input.deviceId
    bootId := input.bootId
    sessionId := input.sessionId
    requestId := input.requestId
    sequence := input.sequence
    uptimeMs := input.uptimeMs
    payload := input.payload
    runEpoch := input.runEpoch }
  match input.body with
  | none => out
  | some (.capabilities v) => { out with capabilities := some v }
  | some (.configure v) => { out with configure := some v }
  | some (.renew v) => { out with renew := some v }
  | some (.stop v) => { out with stop := some v }
  | some (.probe v) => { out with probe := some v }
  | some (.limits v) => { out with limits := some v }
  | some (.result v) => { out with result := some v }
  | some (.probeResponse v) => { out with probeResponse := some v }
  | some (.status v) => { out with status := some v }
  | some (.health v) => { out with health := some v }

/-! ### The text of a body -/

/-- The field of a body. -/
def Body.number : Body → Nat
  | .capabilities _ => 20
  | .configure _ => 21
  | .renew _ => 22
  | .stop _ => 23
  | .probe _ => 24
  | .limits _ => 25
  | .result _ => 26
  | .probeResponse _ => 27
  | .status _ => 28
  | .health _ => 29

def Body.content : Body → Bytes
  | .capabilities _ | .renew _ | .stop _ | .probe _ | .probeResponse _ => []
  | .configure v => v.proto
  | .limits v => v.proto
  | .result v => v.proto
  | .status v => v.proto
  | .health v => v.proto

def Body.text (b : Body) : Bytes := varint (8 * b.number + 2) ++ (varint b.content.length ++ b.content)

/-- The body that is written is that of the converted message. -/
theorem Envelope.oneof_toPb (m : Envelope) : m.oneof = m.toPb.body.map Body.text := by
  have hfield : ∀ {α : Type} (number : Nat) (v : Option α) (content : α → Bytes) (body : α → Body),
      (∀ a, (body a).number = number) → (∀ a, (body a).content = content a) →
      lenField number (v.map content) = (v.map body).map Body.text := by
    intro α number v content body hnumber hcontent
    cases v with
    | none => rfl
    | some a => simp only [lenField, Option.map_some, Body.text, hnumber, hcontent, List.append_assoc]
  unfold Envelope.oneof present Envelope.toPb
  rw [← last_map Body.text,
    hfield 20 m.capabilities (fun _ => []) .capabilities (fun _ => rfl) (fun _ => rfl),
    hfield 21 m.configure Configuration.proto .configure (fun _ => rfl) (fun _ => rfl),
    hfield 22 m.renew (fun _ => []) .renew (fun _ => rfl) (fun _ => rfl),
    hfield 23 m.stop (fun _ => []) .stop (fun _ => rfl) (fun _ => rfl),
    hfield 24 m.probe (fun _ => []) .probe (fun _ => rfl) (fun _ => rfl),
    hfield 25 m.limits Limits.proto .limits (fun _ => rfl) (fun _ => rfl),
    hfield 26 m.result ControlResult.proto .result (fun _ => rfl) (fun _ => rfl),
    hfield 27 m.probeResponse (fun _ => []) .probeResponse (fun _ => rfl) (fun _ => rfl),
    hfield 28 m.status Model.Status.proto .status (fun _ => rfl) (fun _ => rfl),
    hfield 29 m.health Model.Health.proto .health (fun _ => rfl) (fun _ => rfl)]
  rfl

/-- The enumerations of the message are `i32`s. -/
structure Envelope.InRange (m : Envelope) : Prop where
  kind : ∀ k ∈ m.kind, inI32 k
  limits : ∀ v ∈ m.limits, ∀ e ∈ v.encoding, inI32 e
  result : ∀ v ∈ m.result, ∀ e ∈ v.code, inI32 e
  status : ∀ v ∈ m.status, ∀ e ∈ v.validity, inI32 e
  health : ∀ v ∈ m.health, ∀ e ∈ v.state, inI32 e

/-! ### Reading what was written -/

section
variable {r : Reader} (hr : r.Lawful utf8Valid)
include hr

theorem Limits.decodes (v : Limits) (h : ∀ e ∈ v.encoding, inI32 e) :
    Decodes r (Limits.known r) [varintField 1 (v.encoding.map varintSigned),
      varintField 2 (v.crcEnabled.map protoBool), varintField 3 (v.maxPayloadBytes.map protoU32),
      varintField 4 (v.maxDatagramBytes.map protoU32), varintField 5 (v.minStatusPeriodUs.map protoU32),
      varintField 6 (v.minHealthPeriodUs.map protoU32), varintField 7 (v.maxPeriodUs.map protoU32),
      varintField 8 (v.minLeaseMs.map protoU32), varintField 9 (v.maxLeaseMs.map protoU32),
      varintField 10 (v.available.map protoBool)] {} v :=
  .varint hr (by decide) (fun m v => { m with encoding := v }) rfl rfl (fun e he => int32_text hr (h e he)) <|
  .varint hr (by decide) (fun m v => { m with crcEnabled := v }) rfl rfl (fun b _ => hr.bool b) <|
  .varint hr (by decide) (fun m v => { m with maxPayloadBytes := v }) rfl rfl (fun n _ => hr.varint32 n) <|
  .varint hr (by decide) (fun m v => { m with maxDatagramBytes := v }) rfl rfl (fun n _ => hr.varint32 n) <|
  .varint hr (by decide) (fun m v => { m with minStatusPeriodUs := v }) rfl rfl (fun n _ => hr.varint32 n) <|
  .varint hr (by decide) (fun m v => { m with minHealthPeriodUs := v }) rfl rfl (fun n _ => hr.varint32 n) <|
  .varint hr (by decide) (fun m v => { m with maxPeriodUs := v }) rfl rfl (fun n _ => hr.varint32 n) <|
  .varint hr (by decide) (fun m v => { m with minLeaseMs := v }) rfl rfl (fun n _ => hr.varint32 n) <|
  .varint hr (by decide) (fun m v => { m with maxLeaseMs := v }) rfl rfl (fun n _ => hr.varint32 n) <|
  .varint hr (by decide) (fun m v => { m with available := v }) rfl rfl (fun b _ => hr.bool b) <|
  .nil _

theorem Configuration.decodes (v : Configuration) :
    Decodes r (Configuration.known r) [varintField 1 (v.payloadBytes.map protoU32),
      varintField 2 (v.patternSeed.map protoU32), varintField 3 (v.statusPeriodUs.map protoU32),
      varintField 4 (v.healthPeriodUs.map protoU32), varintField 5 (v.leaseMs.map protoU32)] {} v :=
  .varint hr (by decide) (fun m v => { m with payloadBytes := v }) rfl rfl (fun n _ => hr.varint32 n) <|
  .varint hr (by decide) (fun m v => { m with patternSeed := v }) rfl rfl (fun n _ => hr.varint32 n) <|
  .varint hr (by decide) (fun m v => { m with statusPeriodUs := v }) rfl rfl (fun n _ => hr.varint32 n) <|
  .varint hr (by decide) (fun m v => { m with healthPeriodUs := v }) rfl rfl (fun n _ => hr.varint32 n) <|
  .varint hr (by decide) (fun m v => { m with leaseMs := v }) rfl rfl (fun n _ => hr.varint32 n) <|
  .nil _

theorem ControlResult.decodes (v : ControlResult) (h : ∀ e ∈ v.code, inI32 e) :
    Decodes r (ControlResult.known r) [varintField 1 (v.code.map varintSigned),
      varintField 2 (v.leaseRemainingMs.map protoU32)] {} v :=
  .varint hr (by decide) (fun m v => { m with code := v }) rfl rfl (fun e he => int32_text hr (h e he)) <|
  .varint hr (by decide) (fun m v => { m with leaseRemainingMs := v }) rfl rfl (fun n _ => hr.varint32 n) <|
  .nil _

omit hr in
/-- The wire types of the normal decoder are among those the benchmark decoder takes. -/
theorem Status.within : (Model.Status.known r).Within (Status.known r) := by
  intro number wire read h
  unfold Model.Status.known at h
  split at h <;> first | exact h | cases h

omit hr in
theorem Health.within : (Model.Health.known r).Within (Health.known r) := by
  intro number wire read h
  unfold Model.Health.known at h
  split at h <;> first | exact h | cases h

/-- The body of a message in range is read. -/
theorem Body.takes {m : Envelope} (h : m.InRange) {b : Body} (hb : m.toPb.body = some b) {pb : Pb}
    (hm : pb.body = none) : Takes r (Pb.known r) b.text pb { pb with body := some b } := by
  obtain ⟨o, ho, hsome⟩ := List.mem_filterMap.1 (List.mem_of_getLast? hb)
  have hsome : o = some b := hsome
  have hread : ∀ {α : Type} {known : Reader.Known α} {variant : Body → Option α} {fresh v : α} {body : α → Body}
      {fields : Fields} (number : Nat), 0 < number ∧ number < 2 ^ 29 →
      Pb.known r number 2 = some (readBody r known variant fresh body) → Decodes r known fields fresh v →
      (message fields).length ≤ 120 →
      Takes r (Pb.known r) (varint (8 * number + 2) ++ (varint (message fields).length ++ message fields)) pb
        { pb with body := some (body v) } :=
    fun _ hn hk hd hlen => Takes.oneof hr hn hk hd (Nat.lt_of_le_of_lt hlen (by decide)) hm
  simp only [List.mem_cons, List.not_mem_nil, or_false] at ho
  rcases ho with rfl | rfl | rfl | rfl | rfl | rfl | rfl | rfl | rfl | rfl <;>
    obtain ⟨v, hv, rfl⟩ := Option.map_eq_some_iff.1 hsome
  · exact hread 20 (by decide) rfl (.nil ()) (Nat.zero_le _)
  · exact hread 21 (by decide) rfl (Configuration.decodes hr v) v.proto_length
  · exact hread 22 (by decide) rfl (.nil ()) (Nat.zero_le _)
  · exact hread 23 (by decide) rfl (.nil ()) (Nat.zero_le _)
  · exact hread 24 (by decide) rfl (.nil ()) (Nat.zero_le _)
  · exact hread 25 (by decide) rfl (Limits.decodes hr v (h.limits v hv)) v.proto_length
  · exact hread 26 (by decide) rfl (ControlResult.decodes hr v (h.result v hv)) v.proto_length
  · exact hread 27 (by decide) rfl (.nil ()) (Nat.zero_le _)
  · exact hread 28 (by decide) rfl (Model.Status.decodes hr v (h.status v hv) Status.within)
      (Nat.le_trans (Model.Status.proto_length v) (by decide))
  · exact hread 29 (by decide) rfl (Model.Health.decodes hr v (h.health v hv) Health.within)
      (Nat.le_trans (Model.Health.proto_length v) (by decide))

/-- The fields of a message, as they are written. -/
def Envelope.protoFields (m : Envelope) : Fields := [
  varintField 1 (m.protocolVersion.map protoU32),
  varintField 2 (m.kind.map varintSigned),
  lenField 3 (m.deviceId.map protoString),
  lenField 4 (m.bootId.map protoString),
  lenField 5 (m.sessionId.map protoString),
  varintField 6 (m.requestId.map protoU32),
  varintField 7 (m.sequence.map protoU32),
  varintField 8 (m.uptimeMs.map protoU32),
  lenField 9 (m.payload.map protoString),
  varintField 10 (m.runEpoch.map protoU32),
  m.oneof]

/-- Whatever was read before it, the body is the last field. -/
theorem Envelope.oneof_decodes {m : Envelope} (h : m.InRange) {pb : Pb} (hm : pb.body = none) :
    Decodes r (Pb.known r) [m.oneof] pb { pb with body := m.toPb.body } := by
  rw [Envelope.oneof_toPb]
  cases hb : m.toPb.body with
  | none =>
    have hsame : { pb with body := none } = pb := by rw [← hm]
    rw [hsame]
    exact .absent (.nil _)
  | some b => exact .field (Body.takes hr h hb hm) (.nil _)

theorem Pb.decodes {m : Envelope} (h : m.InRange) : Decodes r (Pb.known r) m.protoFields {} m.toPb :=
  .varint hr (by decide) (fun pb v => { pb with protocolVersion := v }) rfl rfl (fun n _ => hr.varint32 n) <|
  .varint hr (by decide) (fun pb v => { pb with kind := v }) rfl rfl (fun k hk => int32_text hr (h.kind k hk)) <|
  .len hr (by decide) (fun pb v => { pb with deviceId := v }) rfl rfl (fun s _ => readString_text hr (by decide) s) <|
  .len hr (by decide) (fun pb v => { pb with bootId := v }) rfl rfl (fun s _ => readString_text hr (by decide) s) <|
  .len hr (by decide) (fun pb v => { pb with sessionId := v }) rfl rfl
    (fun s _ => readString_text hr (by decide) s) <|
  .varint hr (by decide) (fun pb v => { pb with requestId := v }) rfl rfl (fun n _ => hr.varint32 n) <|
  .varint hr (by decide) (fun pb v => { pb with sequence := v }) rfl rfl (fun n _ => hr.varint32 n) <|
  .varint hr (by decide) (fun pb v => { pb with uptimeMs := v }) rfl rfl (fun n _ => hr.varint32 n) <|
  .len hr (by decide) (fun pb v => { pb with payload := v }) rfl rfl (fun s _ => readString_text hr (by decide) s) <|
  .varint hr (by decide) (fun pb v => { pb with runEpoch := v }) rfl rfl (fun n _ => hr.varint32 n) <|
  Envelope.oneof_decodes hr h rfl

/-- Records of a later schema stand between the fields, or do not. -/
theorem Pb.decode_extended {m : Envelope} (h : m.InRange) {fields : Fields}
    (he : Extends r (Pb.known r) m.protoFields fields) : Pb.decode r (message fields) = some m.toPb := by
  have hread := ((Pb.decodes hr h).extends he).read []
  unfold Pb.decode
  rw [List.append_nil] at hread
  rw [hread]
  rfl

/-- **What the generated encoder writes, the generated decoder reads.** -/
theorem Pb.decode_proto {m : Envelope} (h : m.InRange) : Pb.decode r m.proto = some m.toPb :=
  Pb.decode_extended hr h (Extends.refl _)

end

/-- Nothing is lost by the conversions when there is at most one body. -/
theorem Envelope.fromPb_toPb {m : Envelope} (h : bodies m ≤ 1) : Envelope.fromPb m.toPb = m := by
  obtain ⟨version, kind, device, boot, session, id, sequence, uptime, payload, epoch, b1, b2, b3, b4, b5, b6, b7, b8,
    b9, b10⟩ := m
  have habsent : ∀ {flags : List Bool}, (true :: flags).count true ≤ 1 → ∀ b ∈ flags, b = false := by
    intro flags hle b hb
    rw [List.count_cons_self] at hle
    cases b with
    | false => rfl
    | true => exact absurd hle (by have := List.count_pos_iff.2 hb; omega)
  unfold bodies at h
  -- the first body that is there is the only one
  rcases b1 with _ | v
  on_goal 1 => rcases b2 with _ | v
  on_goal 1 => rcases b3 with _ | v
  on_goal 1 => rcases b4 with _ | v
  on_goal 1 => rcases b5 with _ | v
  on_goal 1 => rcases b6 with _ | v
  on_goal 1 => rcases b7 with _ | v
  on_goal 1 => rcases b8 with _ | v
  on_goal 1 => rcases b9 with _ | v
  on_goal 1 => rcases b10 with _ | v
  all_goals
    first
    | rfl
    | have hrest := habsent h
      simp only [List.forall_mem_cons, Option.isSome_eq_false_iff, Option.isNone_iff_eq_none] at hrest
      simp only [hrest]
      rfl

end Benchmark

end Nucleo
