import Nucleo.Core.Wire
import Nucleo.L1Encoding.Csv

/-!
# The three formats

`lib.rs` and `framing.rs` with every format compiled in. JSON is written by
`serde_json_core` from the derived `Serialize`, Protobuf by `micropb` from the
generated `MessageEncode`; the crates are the parameter `Formats`, and
`Formats.Lawful` says that they write the compact JSON and the proto3 text of a
message whenever it fits. `Envelope.json` and `Envelope.proto` are these texts,
read off the generated files.

Results:
* `json_length`, `proto_length`: a validated message is well within 1016 bytes.
* `encode_valid`: in every format a validated message is framed into any buffer
  of 1024 bytes.
-/
namespace Nucleo

/-- The crates behind the codec of messages `E`, with every format. -/
structure Formats (W E : Type) extends Crates W where
  /-- `serde_json_core::from_slice_escaped`: a message and the bytes it took. -/
  fromSlice : Bytes → Option (E × Nat)
  /-- `serde_json_core::to_slice` into so many bytes. -/
  toSlice : E → Nat → Option Bytes
  /-- `decode_from_bytes`, then `from_pb`. -/
  fromPb : Bytes → Option E
  /-- `to_pb`, then `encode` into a `heapless::Vec<u8, MAX_BODY>`. -/
  toPb : E → Option Bytes

/-- The writers write standard text, or nothing when there is no room. -/
structure Formats.Lawful {W E : Type} (crates : Formats W E) (json proto : E → Bytes) : Prop where
  base : crates.toCrates.Lawful
  toSlice : ∀ m capacity, crates.toSlice m capacity = if (json m).length ≤ capacity then some (json m) else none
  toPb : ∀ m, crates.toPb m = if (proto m).length ≤ maxBody then some (proto m) else none

/-! ## `lib.rs` -/

/-- The scan for literal control characters inside strings: `in_string`, then `escaped`. -/
def controlFree : Bool → Bool → Bytes → Bool
  | _, _, [] => true
  | inString, escaped, byte :: rest =>
    if inString && byte < 0x20 then false
    else if escaped then controlFree inString false rest
    else if inString && byte == 92 then controlFree inString true rest
    else if byte == 34 then controlFree (!inString) false rest
    else controlFree inString false rest

/-- `b' ' | b'\r' | b'\n' | b'\t'`. -/
def isBlank (b : UInt8) : Bool := b == 32 || b == 13 || b == 10 || b == 9

namespace Formats

/-- The JSON branch of both decoders. -/
def parseJson {W E : Type} (crates : Formats W E) (bytes : Bytes) : Except CodecError E :=
  if !controlFree false false bytes then .error .decode
  else match crates.fromSlice bytes with
    | none => .error .decode
    | some (message, used) => if (bytes.drop used).all isBlank then .ok message else .error .decode

/-- The three writers of both encoders, into `capacity` bytes. -/
def write {W E : Type} (crates : Formats W E) (csv : E → Nat → Except CodecError Bytes) (format : Format) (m : E)
    (capacity : Nat) : Except CodecError Bytes :=
  match format with
  | .csv => csv m capacity
  | .json => match crates.toSlice m capacity with
    | none => .error .size
    | some bytes => .ok bytes
  | .protobuf => match crates.toPb m with
    | none => .error .size
    | some bytes => if capacity < bytes.length then .error .size else .ok bytes

/-- What fits is written, in the format of the build. -/
theorem write_ok {W E : Type} {crates : Formats W E} {json proto : E → Bytes} (hc : crates.Lawful json proto)
    {csv : E → Nat → Except CodecError Bytes} {m : E} {capacity : Nat} (hcap : capacity ≤ maxBody)
    (hcsv : ∃ body, csv m capacity = .ok body ∧ body.length ≤ capacity) (hjson : (json m).length ≤ capacity)
    (hproto : (proto m).length ≤ capacity) (format : Format) :
    ∃ body, crates.write csv format m capacity = .ok body ∧ body.length ≤ capacity := by
  cases format with
  | csv => exact hcsv
  | json =>
    refine ⟨json m, ?_, hjson⟩
    simp only [write, hc.toSlice, if_pos hjson]
  | protobuf =>
    refine ⟨proto m, ?_, hproto⟩
    simp only [write, hc.toPb, if_pos (Nat.le_trans hproto hcap), if_neg (Nat.not_lt.2 hproto)]

end Formats

namespace Codec

open Model

variable {W : Type} (crates : Formats W Envelope)

/-- mirrors Rust/messaging/src/lib.rs:88-139 -/
def parse (format : Format) (bytes : Bytes) : Except CodecError Envelope :=
  if bytes.isEmpty then .error .decode
  else if maxBody < bytes.length then .error .size
  else match format with
    | .csv => Csv.decode crates.toCrates bytes
    | .json => crates.parseJson bytes
    | .protobuf => match crates.fromPb bytes with
      | none => .error .decode
      | some message => .ok message

/-- The buffer after the call and the length of the body in front of it.
mirrors Rust/messaging/src/lib.rs:153-179 -/
def encode (format : Format) (message : Envelope) (out : Bytes) : Except CodecError (Bytes × Nat) := do
  Validation.validate message format
  let capacity := min out.length maxBody
  let body ← crates.write (Csv.encode crates.toCrates) format (Messaging.normalize message) capacity
  .ok (body ++ out.drop body.length, body.length)

end Codec

namespace Framed

variable {W : Type} (crates : Formats W Model.Envelope)

/-- mirrors Rust/messaging/src/framing.rs:93-95 -/
def parse (format : Format) (mode : CrcMode) (bytes : Bytes) : Except CodecError Model.Envelope := do
  let body ← Framing.openFrame crates.checksum mode bytes
  Codec.parse crates format body

/-- mirrors Rust/messaging/src/framing.rs:84-92 -/
def encode (format : Format) (mode : CrcMode) (message : Model.Envelope) (out : Bytes) :
    Except CodecError (Bytes × Nat) := do
  let (out, bodyLen) ← Codec.encode crates format message out
  Framing.sealFrame crates.checksum mode out bodyLen

end Framed

/-! ## The texts of a message -/

namespace Model

open Wire

/-- `serialize_f32`. -/
def jsonF32 (lib : FloatText) (f : F32) : Bytes := if f.isFinite then (lib.format f).bytes else Json.keyword "null"

def jsonU32 (v : UInt32) : Bytes := Decimal.text v.toNat

def jsonString {n : Nat} (s : HString n) : Bytes := quoted s.bytes

/-- `Empty {}`. -/
def jsonEmpty (_ : Unit) : Bytes := object []

/-- mirrors Rust/messaging/src/generated/model.rs:24-41 -/
def DeviceInfo.json (v : DeviceInfo) : Bytes := object [
  member "firmware_version" (v.firmwareVersion.map jsonString),
  member "encoding" (v.encoding.map integer)]

/-- mirrors Rust/messaging/src/generated/model.rs:60-80 -/
def Status.json (lib : FloatText) (v : Status) : Bytes := object [
  member "temperature_celsius" (v.temperatureCelsius.map (jsonF32 lib)),
  member "validity" (v.validity.map integer),
  member "synthetic" (v.synthetic.map boolean)]

/-- mirrors Rust/messaging/src/generated/model.rs:106-140 -/
def Health.json (v : Health) : Bytes := object [
  member "state" (v.state.map integer),
  member "received_requests" (v.receivedRequests.map jsonU32),
  member "rejected_datagrams" (v.rejectedDatagrams.map jsonU32),
  member "send_errors" (v.sendErrors.map jsonU32),
  member "skipped_publications" (v.skippedPublications.map jsonU32)]

/-- mirrors Rust/messaging/src/generated/model.rs:172-181 -/
def Error.json (v : Error) : Bytes := object [member "code" (v.code.map integer)]

/-- mirrors Rust/messaging/src/generated/model.rs:198-291 -/
def Envelope.json (lib : FloatText) (m : Envelope) : Bytes := object [
  member "protocol_version" (m.protocolVersion.map jsonU32),
  member "kind" (m.kind.map integer),
  member "device_id" (m.deviceId.map jsonString),
  member "boot_id" (m.bootId.map jsonString),
  member "client_session" (m.clientSession.map jsonString),
  member "request_id" (m.requestId.map jsonU32),
  member "sequence" (m.sequence.map jsonU32),
  member "uptime_ms" (m.uptimeMs.map jsonU32),
  member "get_device_info" (m.getDeviceInfo.map jsonEmpty),
  member "get_status" (m.getStatus.map jsonEmpty),
  member "get_health" (m.getHealth.map jsonEmpty),
  member "device_info" (m.deviceInfo.map DeviceInfo.json),
  member "status" (m.status.map (Status.json lib)),
  member "health" (m.health.map Health.json),
  member "error" (m.error.map Error.json)]

def protoU32 (v : UInt32) : Bytes := varint v.toNat

def protoBool (v : Bool) : Bytes := varint (if v then 1 else 0)

def protoString {n : Nat} (s : HString n) : Bytes := s.bytes

/-- mirrors Rust/messaging/src/generated/protobuf.rs:193-213 -/
def DeviceInfo.proto (v : DeviceInfo) : Bytes := message [
  lenField 1 (v.firmwareVersion.map protoString),
  varintField 2 (v.encoding.map varintSigned)]

/-- mirrors Rust/messaging/src/generated/protobuf.rs:426-452 -/
def Status.proto (v : Status) : Bytes := message [
  fixed32Field 1 (v.temperatureCelsius.map F32.bits),
  varintField 2 (v.validity.map varintSigned),
  varintField 3 (v.synthetic.map protoBool)]

/-- mirrors Rust/messaging/src/generated/protobuf.rs:778-820 -/
def Health.proto (v : Health) : Bytes := message [
  varintField 1 (v.state.map varintSigned),
  varintField 2 (v.receivedRequests.map protoU32),
  varintField 3 (v.rejectedDatagrams.map protoU32),
  varintField 4 (v.sendErrors.map protoU32),
  varintField 5 (v.skippedPublications.map protoU32)]

/-- mirrors Rust/messaging/src/generated/protobuf.rs:944-956 -/
def Error.proto (v : Error) : Bytes := message [varintField 1 (v.code.map varintSigned)]

/-- `output.body`: every body that is present replaces the one before it. -/
def Envelope.oneof (m : Envelope) : Option Bytes :=
  (present [
    lenField 20 (m.getDeviceInfo.map fun _ => []),
    lenField 21 (m.getStatus.map fun _ => []),
    lenField 22 (m.getHealth.map fun _ => []),
    lenField 23 (m.deviceInfo.map DeviceInfo.proto),
    lenField 24 (m.status.map Status.proto),
    lenField 25 (m.health.map Health.proto),
    lenField 26 (m.error.map Error.proto)]).getLast?

/-- mirrors Rust/messaging/src/generated/model.rs:295-343, Rust/messaging/src/generated/protobuf.rs:1667-1764 -/
def Envelope.proto (m : Envelope) : Bytes := message [
  varintField 1 (m.protocolVersion.map protoU32),
  varintField 2 (m.kind.map varintSigned),
  lenField 3 (m.deviceId.map protoString),
  lenField 4 (m.bootId.map protoString),
  lenField 5 (m.clientSession.map protoString),
  varintField 6 (m.requestId.map protoU32),
  varintField 7 (m.sequence.map protoU32),
  varintField 8 (m.uptimeMs.map protoU32),
  m.oneof]

/-! ## Their sizes -/

theorem isDeviceChar_json {b : UInt8} (h : isDeviceChar b = true) : isPlain b = true := by
  have hp := isDeviceChar_printable h
  simp only [Rfc4180.isPrintable, Bool.and_eq_true, decide_eq_true_eq] at hp
  have hne : ∀ c, isDeviceChar c = false → b ≠ c := by
    rintro c hc rfl
    rw [h] at hc
    cases hc
  simp [isPlain, hp.1, hne 34 (by decide), hne 92 (by decide)]

theorem jsonU32_length (v : UInt32) : (jsonU32 v).length ≤ 10 :=
  Decimal.text_length_le (by decide) (Nat.lt_trans v.toNat_lt (by decide))

theorem jsonF32_length (lib : FloatText) (f : F32) : (jsonF32 lib f).length ≤ 16 := by
  unfold jsonF32
  split
  · exact (lib.format f).len_le
  · decide

theorem jsonString_length {n : Nat} (s : HString n) : (jsonString s).length ≤ 6 * n + 2 := by
  have h := s.len_le
  have := quoted_length s.bytes
  unfold jsonString
  omega

/-- A string over the device ID alphabet needs no escapes. -/
theorem jsonString_plain {n : Nat} {s : HString n} (h : ∀ b ∈ s.bytes, isDeviceChar b = true) :
    (jsonString s).length ≤ n + 2 := by
  have hlen := s.len_le
  have := quoted_plain_length fun b hb => isDeviceChar_json (h b hb)
  unfold jsonString
  omega

section
variable (name : String) {kind : Option Int}

theorem u32_member (value : Option UInt32) :
    ∀ t ∈ member name (value.map jsonU32), t.length ≤ name.toList.length + 3 + 10 :=
  member_length name (map_length fun v _ => jsonU32_length v)

theorem i32_member (h : ∀ k ∈ kind, 0 ≤ k ∧ k < 100) :
    ∀ t ∈ member name (kind.map integer), t.length ≤ name.toList.length + 3 + 2 :=
  member_length name (map_length fun k hk => integer_length (by decide) (h k hk).1 (h k hk).2)

theorem bool_member (value : Option Bool) :
    ∀ t ∈ member name (value.map boolean), t.length ≤ name.toList.length + 3 + 5 :=
  member_length name (map_length fun v _ => boolean_length v)

theorem string_member {n : Nat} {value : Option (HString n)}
    (h : ∀ s ∈ value, s.bytes ≠ [] ∧ ∀ b ∈ s.bytes, isDeviceChar b = true) :
    ∀ t ∈ member name (value.map jsonString), t.length ≤ name.toList.length + 3 + (n + 2) :=
  member_length name (map_length fun s hs => jsonString_plain (h s hs).2)

theorem empty_member (value : Option Unit) :
    ∀ t ∈ member name (value.map jsonEmpty), t.length ≤ name.toList.length + 3 + 2 :=
  member_length name (map_length fun _ _ => (by decide : (object []).length ≤ 2))

end

section
variable {number : Nat} (hn : number < 2000)
include hn

theorem u32_field (value : Option UInt32) :
    ∀ t ∈ varintField number (value.map protoU32), t.length ≤ 2 + 5 :=
  varintField_length hn (map_length fun v _ => varint_u32_length v)

theorem i32_field (kind : Option Int) :
    ∀ t ∈ varintField number (kind.map varintSigned), t.length ≤ 2 + 10 :=
  varintField_length hn (map_length fun k _ => varintSigned_length k)

theorem bool_field (value : Option Bool) :
    ∀ t ∈ varintField number (value.map protoBool), t.length ≤ 2 + 1 :=
  varintField_length hn (map_length fun v _ => by
    refine varint_length (k := 0) ?_
    cases v <;> decide)

theorem string_field {n : Nat} (h : n < 2 ^ 14) (value : Option (HString n)) :
    ∀ t ∈ lenField number (value.map protoString), t.length ≤ 4 + n :=
  lenField_length hn h (map_length fun s _ => s.len_le)

end

/-! ### JSON -/

theorem DeviceInfo.json_length {info : DeviceInfo} {format : Format}
    (hv : Validation.deviceInfoValid info format = true) : info.json.length ≤ 240 := by
  simp only [Validation.deviceInfoValid, Bool.and_eq_true, beq_iff_eq] at hv
  have hfits := Fits.field (member_length "firmware_version"
      (map_length fun (s : HString 32) (_ : s ∈ info.firmwareVersion) => jsonString_length s)) <|
    .field (i32_member "encoding" (hv.1 ▸ Csv.encoding_range format)) .nil
  exact Nat.le_trans (object_length hfits) (by decide)

theorem Status.json_length (lib : FloatText) {status : Status} (hv : Validation.statusValid status = true) :
    (status.json lib).length ≤ 100 := by
  have hfits := Fits.field (member_length "temperature_celsius"
      (map_length fun f (_ : f ∈ status.temperatureCelsius) => jsonF32_length lib f)) <|
    .field (i32_member "validity" (Csv.status_ranges hv).1) <|
    .field (bool_member "synthetic" status.synthetic) .nil
  exact Nat.le_trans (object_length hfits) (by decide)

theorem Health.json_length {health : Health} (hv : Validation.healthValid health = true) :
    health.json.length ≤ 160 := by
  have hfits := Fits.field (i32_member "state" (Csv.health_range hv)) <|
    .field (u32_member "received_requests" health.receivedRequests) <|
    .field (u32_member "rejected_datagrams" health.rejectedDatagrams) <|
    .field (u32_member "send_errors" health.sendErrors) <|
    .field (u32_member "skipped_publications" health.skippedPublications) .nil
  exact Nat.le_trans (object_length hfits) (by decide)

theorem Error.json_length {e : Error} (hv : (e.code == some 1 || e.code == some 2) = true) :
    e.json.length ≤ 20 := by
  have hfits := Fits.field (i32_member "code" (Csv.code_range hv)) .nil
  exact Nat.le_trans (object_length hfits) (by decide)

/-- **A validated message is short JSON**, all its bodies counted. -/
theorem Envelope.json_length (lib : FloatText) {m : Envelope} {format : Format} {kind : Int}
    (hv : Validation.ValidAs m format kind) : (m.json lib).length ≤ 1016 := by
  obtain ⟨hboot, hsession⟩ := Csv.ids_valid hv
  have hfits := Fits.field (u32_member "protocol_version" m.protocolVersion) <|
    .field (i32_member "kind" (Csv.kind_range hv)) <|
    .field (string_member "device_id" (Csv.device_chars hv.device)) <|
    .field (string_member "boot_id" (Csv.nonce_chars hboot)) <|
    .field (string_member "client_session" (Csv.nonce_chars hsession)) <|
    .field (u32_member "request_id" m.requestId) <|
    .field (u32_member "sequence" m.sequence) <|
    .field (u32_member "uptime_ms" m.uptimeMs) <|
    .field (empty_member "get_device_info" m.getDeviceInfo) <|
    .field (empty_member "get_status" m.getStatus) <|
    .field (empty_member "get_health" m.getHealth) <|
    .field (member_length "device_info"
      (map_length fun info hi => DeviceInfo.json_length (hv.deviceInfo info hi))) <|
    .field (member_length "status"
      (map_length fun status hs => Status.json_length lib (hv.status status hs))) <|
    .field (member_length "health"
      (map_length fun health hh => Health.json_length (hv.health health hh))) <|
    .field (member_length "error" (map_length fun e he => Error.json_length (hv.error e he))) .nil
  exact Nat.le_trans (object_length hfits) (by decide)

/-! ### Protobuf

No check of the message is needed: the type of every field bounds its width. -/

theorem DeviceInfo.proto_length (info : DeviceInfo) : info.proto.length ≤ 60 := by
  have hfits := Fits.field (string_field (show 1 < 2000 by decide) (by decide) info.firmwareVersion) <|
    .field (i32_field (show 2 < 2000 by decide) info.encoding) .nil
  exact Nat.le_trans (message_length hfits) (by decide)

theorem Status.proto_length (status : Status) : status.proto.length ≤ 60 := by
  have hfits := Fits.field (fixed32Field_length (show 1 < 2000 by decide) (status.temperatureCelsius.map F32.bits)) <|
    .field (i32_field (show 2 < 2000 by decide) status.validity) <|
    .field (bool_field (show 3 < 2000 by decide) status.synthetic) .nil
  exact Nat.le_trans (message_length hfits) (by decide)

theorem Health.proto_length (health : Health) : health.proto.length ≤ 60 := by
  have hfits := Fits.field (i32_field (show 1 < 2000 by decide) health.state) <|
    .field (u32_field (show 2 < 2000 by decide) health.receivedRequests) <|
    .field (u32_field (show 3 < 2000 by decide) health.rejectedDatagrams) <|
    .field (u32_field (show 4 < 2000 by decide) health.sendErrors) <|
    .field (u32_field (show 5 < 2000 by decide) health.skippedPublications) .nil
  exact Nat.le_trans (message_length hfits) (by decide)

theorem Error.proto_length (e : Error) : e.proto.length ≤ 60 := by
  have hfits := Fits.field (i32_field (show 1 < 2000 by decide) e.code) .nil
  exact Nat.le_trans (message_length hfits) (by decide)

theorem Envelope.oneof_length (m : Envelope) : ∀ t ∈ m.oneof, t.length ≤ 64 := by
  have hbody : ∀ {α : Type} (number : Nat), number < 2000 → ∀ (body : Option α) {text : α → Bytes},
      (∀ a, (text a).length ≤ 60) → ∀ t ∈ lenField number (body.map text), t.length ≤ 64 :=
    fun number hn _ _ h => lenField_length hn (by decide) (map_length fun a _ => h a)
  refine last_length ?_
  simp only [List.forall_mem_cons]
  exact ⟨hbody 20 (by decide) m.getDeviceInfo fun _ => Nat.zero_le _,
    hbody 21 (by decide) m.getStatus fun _ => Nat.zero_le _, hbody 22 (by decide) m.getHealth fun _ => Nat.zero_le _,
    hbody 23 (by decide) m.deviceInfo DeviceInfo.proto_length, hbody 24 (by decide) m.status Status.proto_length,
    hbody 25 (by decide) m.health Health.proto_length, hbody 26 (by decide) m.error Error.proto_length,
    fun _ h => absurd h List.not_mem_nil⟩

theorem Envelope.proto_length (m : Envelope) : m.proto.length ≤ 1016 := by
  have hfits := Fits.field (u32_field (show 1 < 2000 by decide) m.protocolVersion) <|
    .field (i32_field (show 2 < 2000 by decide) m.kind) <|
    .field (string_field (show 3 < 2000 by decide) (by decide) m.deviceId) <|
    .field (string_field (show 4 < 2000 by decide) (by decide) m.bootId) <|
    .field (string_field (show 5 < 2000 by decide) (by decide) m.clientSession) <|
    .field (u32_field (show 6 < 2000 by decide) m.requestId) <|
    .field (u32_field (show 7 < 2000 by decide) m.sequence) <|
    .field (u32_field (show 8 < 2000 by decide) m.uptimeMs) <|
    .field m.oneof_length .nil
  exact Nat.le_trans (message_length hfits) (by decide)

end Model

/-! ## Every validated message is framed -/

namespace Codec

open Model

/-- A validated message is encoded within 1016 bytes, whatever the format. -/
theorem encode_valid {W : Type} {crates : Formats W Envelope}
    (hc : crates.Lawful (Envelope.json crates.float) Envelope.proto) {m : Envelope} {format : Format}
    (hm : Validation.validate m format = .ok ()) {out : Bytes} (hout : maxBody ≤ out.length) :
    ∃ buffer n, encode crates format m out = .ok (buffer, n) ∧ n ≤ maxBody ∧ buffer.length = out.length := by
  have hnorm := Messaging.validate_normalize hm
  obtain ⟨kind, hv⟩ := Validation.validate_ok_iff.1 hnorm
  have hcap : min out.length maxBody = maxBody := Nat.min_eq_right hout
  obtain ⟨body, hwrite, hlen⟩ := Formats.write_ok hc (Nat.le_refl maxBody) (by
      obtain ⟨body, henc, -, hlen, -⟩ := Csv.encode_decode hc.base hnorm (Nat.le_refl _)
      exact ⟨body, henc, hlen⟩)
    (Envelope.json_length crates.float hv) (Envelope.proto_length (Messaging.normalize m)) format
  refine ⟨body ++ out.drop body.length, body.length, ?_, hlen, ?_⟩
  · unfold encode
    simp only [hm, except_ok_bind, hcap, hwrite]
  · rw [List.length_append, List.length_drop]
    omega

end Codec

/-- **A validated message is sendable**: framed into any buffer of 1024 bytes, its body within
1016 of them. -/
theorem Framed.encode_valid {W : Type} {crates : Formats W Model.Envelope}
    (hc : crates.Lawful (Model.Envelope.json crates.float) Model.Envelope.proto) {m : Model.Envelope}
    {format : Format} (hm : Validation.validate m format = .ok ()) (mode : CrcMode) {out : Bytes}
    (hout : 1024 ≤ out.length) : ∃ buffer n, Framed.encode crates format mode m out =
      .ok (buffer, n + Framing.extra mode) ∧ n ≤ maxBody ∧ buffer.length = out.length := by
  obtain ⟨buffer, n, henc, hn, hlen⟩ :=
    Codec.encode_valid hc hm (Nat.le_trans (by decide : maxBody ≤ 1024) hout)
  have hextra : maxBody + Framing.extra mode ≤ 1024 := by cases mode <;> decide
  obtain ⟨sealed, hseal, -, -⟩ := Framing.openFrame_sealFrame crates.checksum mode hn
    (show n + Framing.extra mode ≤ buffer.length by omega)
  refine ⟨sealed, n, ?_, hn, (Framing.sealFrame_length hseal).trans hlen⟩
  unfold Framed.encode
  rw [henc]
  exact hseal

end Nucleo
