import Nucleo.L1Encoding.Protobuf

/-!
# Both protocols round trip in every format

`decode` of `lib.rs`, `framing.rs` and `benchmark.rs` with every format compiled
in. A JSON text passes the scan for control characters because every one of its
strings is escaped; a Protobuf body is read by the generated decoder; a CSV
record by the cells.

Results:
* `Framed.framed_round_trip`, `Benchmark.Codec.codec_round_trip`: a validated message decodes to itself,
  normalised.
* `Framed.framed_extended`, `Benchmark.Codec.codec_extended`: so it does from a later schema.
-/
namespace Nucleo

open Wire

/-- A text without control characters passes the scan. -/
theorem controlFree_noControl {text : Bytes} (h : NoControl text) (inString escaped : Bool) :
    controlFree inString escaped text = true := by
  induction text generalizing inString escaped with
  | nil => rfl
  | cons b text ih =>
    rw [NoControl, List.forall_mem_cons] at h
    have hge : ¬ b < 0x20 := Nat.not_lt.2 h.1
    have ih := ih h.2
    unfold controlFree
    simp only [hge, decide_false, Bool.and_false, Bool.false_eq_true, if_false, ih, ite_self]

/-- A text that serde reads to its end is what the JSON branch reads. -/
theorem Formats.parseJson_text {W E : Type} {crates : Formats W E} {text : Bytes} {m : E} (h : NoControl text)
    (hread : crates.fromSlice text = some (m, text.length)) : crates.parseJson text = .ok m := by
  unfold parseJson
  rw [controlFree_noControl h, hread]
  simp

theorem Framing.openFrame_off (checksum : Bytes → UInt32) {bytes : Bytes} (h : bytes.length ≤ maxBody) :
    openFrame checksum .off bytes = .ok bytes := by
  unfold openFrame
  rw [if_neg (by change ¬ maxBody + 0 < bytes.length; omega), if_pos rfl]

namespace Model

/-! ## JSON texts -/

theorem jsonEmpty_noControl (v : Unit) : NoControl (jsonEmpty v) := by
  unfold jsonEmpty
  decide +kernel

theorem DeviceInfo.json_noControl (v : DeviceInfo) : NoControl v.json := object_noControl <|
  .member rfl (fun v _ => quoted_noControl v.bytes) <|
  .member rfl (fun v _ => integer_noControl v) <|
  .nil

theorem Health.json_noControl (v : Health) : NoControl v.json := object_noControl <|
  .member rfl (fun v _ => integer_noControl v) <|
  .member rfl (fun v _ => decimal_noControl v.toNat) <|
  .member rfl (fun v _ => decimal_noControl v.toNat) <|
  .member rfl (fun v _ => decimal_noControl v.toNat) <|
  .member rfl (fun v _ => decimal_noControl v.toNat) <|
  .nil

theorem Error.json_noControl (v : Error) : NoControl v.json := object_noControl <|
  .member rfl (fun v _ => integer_noControl v) <|
  .nil

section
variable {lib : FloatText} (hlib : lib.Lawful)
include hlib

theorem jsonF32_noControl (f : F32) : NoControl (jsonF32 lib f) := by
  unfold jsonF32
  split
  · rename_i hf
    intro b hb
    have hchar := hlib.chars f hf b hb
    simp only [isFloatChar, isDigit, Bool.or_eq_true, Bool.and_eq_true, decide_eq_true_eq, beq_iff_eq,
      UInt8.le_iff_toNat_le] at hchar
    rcases hchar with ((h | rfl) | rfl) | rfl
    · exact Nat.le_trans (by decide) h.1
    · decide
    · decide
    · decide
  · decide +kernel

theorem Status.json_noControl (v : Status) : NoControl (v.json lib) := object_noControl <|
  .member rfl (fun f _ => jsonF32_noControl hlib f) <|
  .member rfl (fun v _ => integer_noControl v) <|
  .member rfl (fun v _ => boolean_noControl v) <|
  .nil

theorem Envelope.json_noControl (m : Envelope) : NoControl (m.json lib) := object_noControl <|
  .member rfl (fun v _ => decimal_noControl v.toNat) <|
  .member rfl (fun v _ => integer_noControl v) <|
  .member rfl (fun v _ => quoted_noControl v.bytes) <|
  .member rfl (fun v _ => quoted_noControl v.bytes) <|
  .member rfl (fun v _ => quoted_noControl v.bytes) <|
  .member rfl (fun v _ => decimal_noControl v.toNat) <|
  .member rfl (fun v _ => decimal_noControl v.toNat) <|
  .member rfl (fun v _ => decimal_noControl v.toNat) <|
  .member rfl (fun v _ => jsonEmpty_noControl v) <|
  .member rfl (fun v _ => jsonEmpty_noControl v) <|
  .member rfl (fun v _ => jsonEmpty_noControl v) <|
  .member rfl (fun v _ => v.json_noControl) <|
  .member rfl (fun v _ => Status.json_noControl hlib v) <|
  .member rfl (fun v _ => v.json_noControl) <|
  .member rfl (fun v _ => v.json_noControl) <|
  .nil

end

end Model

/-! ## The normal protocol -/

/-- The generated decoder, on a reader. -/
def Formats.GeneratedPb {W : Type} (crates : Formats W Model.Envelope) (r : Reader) : Prop :=
  ∀ bytes, crates.fromPb bytes = (Model.Pb.decode r bytes).map Model.Envelope.fromPb

namespace Codec

open Model

variable {W : Type}

/-- mirrors Rust/messaging/src/lib.rs:140-145 -/
def decode (crates : Formats W Envelope) (format : Format) (bytes : Bytes) : Except CodecError Envelope := do
  let message ← parse crates format bytes
  Validation.validate message format
  .ok (Messaging.normalize message)

theorem inI32_small {k : Int} (h : 0 ≤ k ∧ k < 100) : inI32 k := by
  unfold inI32
  omega

/-- The enumerations of a valid message are small. -/
theorem inRange {m : Envelope} {format : Format} {kind : Int} (hv : Validation.ValidAs m format kind) :
    m.InRange where
  kind k hk := inI32_small (Csv.kind_range hv k hk)
  deviceInfo v hd e he := by
    have hinfo := hv.deviceInfo v hd
    simp only [Validation.deviceInfoValid, Bool.and_eq_true, beq_iff_eq] at hinfo
    rw [hinfo.1] at he
    exact inI32_small (Csv.encoding_range format e he)
  status v hs e he := inI32_small ((Csv.status_ranges (hv.status v hs)).1 e he)
  health v hh e he := inI32_small (Csv.health_range (hv.health v hh) e he)
  error v he e hc := inI32_small (Csv.code_range (hv.error v he) e hc)

section
variable {crates : Formats W Envelope} (hc : crates.Lawful (Envelope.json crates.float) Envelope.proto)
  {r : Reader} (hr : r.Lawful utf8Valid) (hpb : crates.GeneratedPb r)
include hr hpb

/-- A Protobuf body, with or without records of a later schema, is the message. -/
theorem decode_extended {m : Envelope} (hm : Validation.validate m .protobuf = .ok ()) {fields : Fields}
    (he : Extends r (Pb.known r) m.protoFields fields) (hsize : (message fields).length ≤ maxBody) :
    decode crates .protobuf (message fields) = .ok (Messaging.normalize m) := by
  obtain ⟨kind, hv⟩ := Validation.validate_ok_iff.1 hm
  have hdecoded := Pb.decode_extended hr (inRange hv) he
  have hpos : (message fields).isEmpty = false := by
    cases hempty : message fields with
    | cons b rest => rfl
    | nil =>
      -- nothing is read from nothing, and a message has a version
      rw [hempty] at hdecoded
      have hversion : (none : Option UInt32) = m.protocolVersion :=
        congrArg Pb.protocolVersion (Option.some.inj hdecoded)
      rw [hv.version] at hversion
      cases hversion
  have hread : crates.fromPb (message fields) = some m := by
    rw [hpb, hdecoded, Option.map_some, Envelope.fromPb_toPb (Nat.le_of_eq hv.oneBody)]
  unfold decode parse
  rw [hpos, if_neg (by decide), if_neg (Nat.not_lt.2 hsize), hread]
  simp only [except_ok_bind, hm]

include hc

/-- What is written for a normalised message is read as that message. -/
theorem encode_decode {m : Envelope} {format : Format} (hm : Validation.validate m format = .ok ())
    (hserde : format = .json → crates.fromSlice ((Messaging.normalize m).json crates.float) =
      some (Messaging.normalize m, ((Messaging.normalize m).json crates.float).length))
    {out : Bytes} (hout : maxBody ≤ out.length) :
    ∃ buffer n, encode crates format m out = .ok (buffer, n) ∧ n ≤ maxBody ∧ buffer.length = out.length ∧
      decode crates format (buffer.take n) = .ok (Messaging.normalize m) := by
  have hnorm := Messaging.validate_normalize hm
  have hidem := Messaging.normalize_idem m
  obtain ⟨kind, hv⟩ := Validation.validate_ok_iff.1 hnorm
  have hcap : min out.length maxBody = maxBody := Nat.min_eq_right hout
  have key : ∃ body, crates.write (Csv.encode crates.toCrates) format (Messaging.normalize m) maxBody = .ok body ∧
      body.length ≤ maxBody ∧ decode crates format body = .ok (Messaging.normalize m) := by
    cases format with
    | csv =>
      obtain ⟨body, henc, hne, hlen, hdec⟩ := Csv.encode_decode hc.base hnorm (Nat.le_refl _)
      refine ⟨body, henc, hlen, ?_⟩
      unfold decode parse
      rw [if_neg (by simpa using hne), if_neg (Nat.not_lt.2 hlen), hdec, except_ok_bind, hnorm, except_ok_bind, hidem]
    | json =>
      have hlen : ((Messaging.normalize m).json crates.float).length ≤ maxBody := Envelope.json_length crates.float hv
      refine ⟨(Messaging.normalize m).json crates.float, ?_, hlen, ?_⟩
      · simp only [Formats.write, hc.toSlice, if_pos hlen]
      · unfold decode parse
        rw [if_neg (by simp [Envelope.json, object]), if_neg (Nat.not_lt.2 hlen),
          Formats.parseJson_text (Envelope.json_noControl hc.base.float _) (hserde rfl), except_ok_bind, hnorm,
          except_ok_bind, hidem]
    | protobuf =>
      have hlen : (Messaging.normalize m).proto.length ≤ maxBody := Envelope.proto_length (Messaging.normalize m)
      refine ⟨(Messaging.normalize m).proto, ?_, hlen, ?_⟩
      · simp only [Formats.write, hc.toPb, if_pos hlen, if_neg (Nat.not_lt.2 hlen)]
      · have hdec := decode_extended hr hpb hnorm (Extends.refl _) hlen
        rw [hidem] at hdec
        exact hdec
  obtain ⟨body, hwrite, hlen, hdec⟩ := key
  refine ⟨body ++ out.drop body.length, body.length, ?_, hlen, ?_, ?_⟩
  · unfold encode
    simp only [hm, except_ok_bind, hcap, hwrite]
  · rw [List.length_append, List.length_drop]
    omega
  · rw [List.take_left]
    exact hdec

end

end Codec

namespace Framed

variable {W : Type}

/-- mirrors Rust/messaging/src/framing.rs:96-98 -/
def decode (crates : Formats W Model.Envelope) (format : Format) (mode : CrcMode) (bytes : Bytes) :
    Except CodecError Model.Envelope := do
  let body ← Framing.openFrame crates.checksum mode bytes
  Codec.decode crates format body

/-- **Round trip.** In every format a validated message is framed into any buffer of 1024 bytes, its body
within 1016 of them, and the datagram decodes to the message, a negative zero temperature made positive. -/
theorem framed_round_trip {crates : Formats W Model.Envelope}
    (hc : crates.Lawful (Model.Envelope.json crates.float) Model.Envelope.proto) {r : Reader}
    (hr : r.Lawful utf8Valid) (hpb : crates.GeneratedPb r) {m : Model.Envelope} {format : Format}
    (hm : Validation.validate m format = .ok ())
    (hserde : format = .json → crates.fromSlice ((Messaging.normalize m).json crates.float) =
      some (Messaging.normalize m, ((Messaging.normalize m).json crates.float).length))
    (mode : CrcMode) {out : Bytes} (hout : 1024 ≤ out.length) :
    ∃ buffer n, encode crates format mode m out = .ok (buffer, n) ∧ n ≤ maxBody + Framing.extra mode ∧
      decode crates format mode (buffer.take n) = .ok (Messaging.normalize m) := by
  obtain ⟨buffer, n, henc, hn, hlen, hdec⟩ := Codec.encode_decode hc hr hpb hm hserde
    (Nat.le_trans (by decide : maxBody ≤ 1024) hout)
  have hextra : maxBody + Framing.extra mode ≤ 1024 := by cases mode <;> decide
  obtain ⟨sealed, hseal, -, hopen⟩ := Framing.openFrame_sealFrame crates.checksum mode hn
    (show n + Framing.extra mode ≤ buffer.length by omega)
  refine ⟨sealed, n + Framing.extra mode, ?_, by omega, ?_⟩
  · unfold encode
    rw [henc]
    exact hseal
  · unfold decode
    rw [hopen]
    exact hdec

/-- **A later schema is read as this one**: records between the fields that the generated decoder does not
know, by number or by wire type, change nothing. -/
theorem framed_extended {crates : Formats W Model.Envelope} {r : Reader} (hr : r.Lawful utf8Valid)
    (hpb : crates.GeneratedPb r) {m : Model.Envelope} (hm : Validation.validate m .protobuf = .ok ())
    {fields : Fields} (he : Extends r (Model.Pb.known r) m.protoFields fields)
    (hsize : (message fields).length ≤ maxBody) {mode : CrcMode} {bytes : Bytes}
    (hopen : Framing.openFrame crates.checksum mode bytes = .ok (message fields)) :
    decode crates .protobuf mode bytes = .ok (Messaging.normalize m) := by
  unfold decode
  rw [hopen]
  exact Codec.decode_extended hr hpb hm he hsize

end Framed

namespace Sample

/-- A reader that refuses a record whose contents are not as long as it says. -/
def reader : Reader := .standard utf8Valid true

/-- The generated code on that reader; serde reads the text of one message. -/
def generated (message : Model.Envelope) : Formats Rfc4180.WriterState Model.Envelope where
  toCrates := crates
  fromSlice bytes := if bytes = message.json floatText then some (message, bytes.length) else none
  toSlice m capacity := if (m.json floatText).length ≤ capacity then some (m.json floatText) else none
  fromPb bytes := (Model.Pb.decode reader bytes).map Model.Envelope.fromPb
  toPb m := if m.proto.length ≤ maxBody then some m.proto else none

theorem generated_lawful (message : Model.Envelope) :
    (generated message).Lawful (Model.Envelope.json (generated message).float) Model.Envelope.proto :=
  ⟨crates_lawful, fun _ _ => rfl, fun _ => rfl⟩

/-- A status with a text 99 before it, and after its version a text with the number of the version. -/
def laterStatus : Fields :=
  lenField 99 (some (ascii "later")) :: varintField 1 (status.protocolVersion.map Model.protoU32) ::
    lenField 1 (some (ascii "1")) :: status.protoFields.tail

theorem inserted_length {number : Nat} (hn : number < 2000) {text : Bytes} (h : text.length ≤ 10) :
    ∀ t ∈ lenField number (some text), t.length ≤ 4 + 10 := by
  refine lenField_length hn (by decide) fun t ht => ?_
  cases ht
  exact h

theorem laterStatus_size : (message laterStatus).length ≤ maxBody := by
  have hfits := Fits.field (inserted_length (show 99 < 2000 by decide)
      (show (ascii "later").length ≤ 10 by decide)) <|
    .field (Model.u32_field (show 1 < 2000 by decide) status.protocolVersion) <|
    .field (inserted_length (show 1 < 2000 by decide) (show (ascii "1").length ≤ 10 by decide)) <|
    .field (Model.i32_field (show 2 < 2000 by decide) status.kind) <|
    .field (Model.string_field (show 3 < 2000 by decide) (by decide) status.deviceId) <|
    .field (Model.string_field (show 4 < 2000 by decide) (by decide) status.bootId) <|
    .field (Model.string_field (show 5 < 2000 by decide) (by decide) status.clientSession) <|
    .field (Model.u32_field (show 6 < 2000 by decide) status.requestId) <|
    .field (Model.u32_field (show 7 < 2000 by decide) status.sequence) <|
    .field (Model.u32_field (show 8 < 2000 by decide) status.uptimeMs) <|
    .field status.oneof_length .nil
  exact Nat.le_trans (message_length hfits) (by decide)

end Sample

namespace Framed

theorem framed_round_trip_samples :
    (∃ buffer n, encode (Sample.generated (Messaging.normalize Sample.status)) .json .on Sample.status
        (List.replicate 1024 0) = .ok (buffer, n) ∧ n ≤ maxBody + Framing.extra .on ∧
      decode (Sample.generated (Messaging.normalize Sample.status)) .json .on (buffer.take n) =
        .ok (Messaging.normalize Sample.status)) ∧
    ∃ buffer n, encode (Sample.generated Sample.status) .protobuf .off Sample.status (List.replicate 1024 0) =
        .ok (buffer, n) ∧ n ≤ maxBody + Framing.extra .off ∧
      decode (Sample.generated Sample.status) .protobuf .off (buffer.take n) =
        .ok (Messaging.normalize Sample.status) :=
  ⟨framed_round_trip (Sample.generated_lawful _) (Reader.standard_lawful _ _) (fun _ => rfl) (by rfl)
      (fun _ => if_pos rfl) .on (Nat.le_of_eq List.length_replicate.symm),
    framed_round_trip (Sample.generated_lawful _) (Reader.standard_lawful _ _) (fun _ => rfl) (by rfl)
      (fun h => by cases h) .off (Nat.le_of_eq List.length_replicate.symm)⟩

theorem framed_extended_sample :
    decode (Sample.generated Sample.status) .protobuf .off (message Sample.laterStatus) =
      .ok (Messaging.normalize Sample.status) :=
  framed_extended (Reader.standard_lawful _ _) (fun _ => rfl) (by rfl)
    (.insert_len (Reader.standard_lawful _ _) (by decide) rfl (Reader.standard_skip utf8Valid true (by decide)) <|
      .keep _ <|
      .insert_len (Reader.standard_lawful _ _) (by decide) rfl (Reader.standard_skip utf8Valid true (by decide)) <|
      Extends.refl _) Sample.laterStatus_size (Framing.openFrame_off _ Sample.laterStatus_size)

end Framed

/-! ## The benchmark protocol -/

namespace Benchmark

theorem Limits.json_noControl (v : Limits) : NoControl v.json := object_noControl <|
  .member rfl (fun v _ => integer_noControl v) <|
  .member rfl (fun v _ => boolean_noControl v) <|
  .member rfl (fun v _ => decimal_noControl v.toNat) <|
  .member rfl (fun v _ => decimal_noControl v.toNat) <|
  .member rfl (fun v _ => decimal_noControl v.toNat) <|
  .member rfl (fun v _ => decimal_noControl v.toNat) <|
  .member rfl (fun v _ => decimal_noControl v.toNat) <|
  .member rfl (fun v _ => decimal_noControl v.toNat) <|
  .member rfl (fun v _ => decimal_noControl v.toNat) <|
  .member rfl (fun v _ => boolean_noControl v) <|
  .nil

theorem Configuration.json_noControl (v : Configuration) : NoControl v.json := object_noControl <|
  .member rfl (fun v _ => decimal_noControl v.toNat) <|
  .member rfl (fun v _ => decimal_noControl v.toNat) <|
  .member rfl (fun v _ => decimal_noControl v.toNat) <|
  .member rfl (fun v _ => decimal_noControl v.toNat) <|
  .member rfl (fun v _ => decimal_noControl v.toNat) <|
  .nil

theorem ControlResult.json_noControl (v : ControlResult) : NoControl v.json := object_noControl <|
  .member rfl (fun v _ => integer_noControl v) <|
  .member rfl (fun v _ => decimal_noControl v.toNat) <|
  .nil

theorem Envelope.json_noControl {lib : FloatText} (hlib : lib.Lawful) (m : Envelope) : NoControl (m.json lib) :=
  object_noControl <|
  .member rfl (fun v _ => decimal_noControl v.toNat) <|
  .member rfl (fun v _ => integer_noControl v) <|
  .member rfl (fun v _ => quoted_noControl v.bytes) <|
  .member rfl (fun v _ => quoted_noControl v.bytes) <|
  .member rfl (fun v _ => quoted_noControl v.bytes) <|
  .member rfl (fun v _ => decimal_noControl v.toNat) <|
  .member rfl (fun v _ => decimal_noControl v.toNat) <|
  .member rfl (fun v _ => decimal_noControl v.toNat) <|
  .member rfl (fun v _ => quoted_noControl v.bytes) <|
  .member rfl (fun v _ => decimal_noControl v.toNat) <|
  .member rfl (fun v _ => Model.jsonEmpty_noControl v) <|
  .member rfl (fun v _ => v.json_noControl) <|
  .member rfl (fun v _ => Model.jsonEmpty_noControl v) <|
  .member rfl (fun v _ => Model.jsonEmpty_noControl v) <|
  .member rfl (fun v _ => Model.jsonEmpty_noControl v) <|
  .member rfl (fun v _ => v.json_noControl) <|
  .member rfl (fun v _ => v.json_noControl) <|
  .member rfl (fun v _ => Model.jsonEmpty_noControl v) <|
  .member rfl (fun v _ => Model.Status.json_noControl hlib v) <|
  .member rfl (fun v _ => Model.Health.json_noControl v) <|
  .nil

/-- The generated decoder, on a reader. -/
def GeneratedPb {W : Type} (crates : Formats W Envelope) (r : Reader) : Prop :=
  ∀ bytes, crates.fromPb bytes = (Pb.decode r bytes).map Envelope.fromPb

/-- The enumerations of a valid message are small. -/
theorem inRange {m : Envelope} {format : Format} {crc : CrcMode} {kind : Int} (hv : ValidAs m format crc kind) :
    m.InRange where
  kind k hk := Codec.inI32_small (hv.kind_range k hk)
  limits v hl e he := Codec.inI32_small (limits_range (hv.limits v hl) e he)
  result v hr e he := Codec.inI32_small (result_range (hv.result v hr) e he)
  status v hs e he := Codec.inI32_small ((Csv.status_ranges (hv.statusBody v hs)).1 e he)
  health v hh e he := Codec.inI32_small (Csv.health_range (hv.healthBody v hh) e he)

namespace Codec

variable {W : Type}

/-- mirrors Rust/messaging/src/benchmark.rs:176-243 -/
def parse (crates : Formats W Envelope) (format : Format) (bytes : Bytes) : Except CodecError Envelope :=
  if bytes.isEmpty then .error .decode
  else match format with
    | .json => crates.parseJson bytes
    | .csv => csvDecode crates.toCrates bytes
    | .protobuf => match crates.fromPb bytes with
      | none => .error .decode
      | some message => .ok message

/-- mirrors Rust/messaging/src/benchmark.rs:173-251 -/
def decode (crates : Formats W Envelope) (format : Format) (crc : CrcMode) (bytes : Bytes) :
    Except CodecError Envelope := do
  let bytes ← Framing.openFrame crates.checksum crc bytes
  let m ← parse crates format bytes
  validate m format crc
  .ok (normalize m)

section
variable {crates : Formats W Envelope} {r : Reader} (hr : r.Lawful utf8Valid) (hpb : GeneratedPb crates r)
include hr hpb

/-- A Protobuf body, with or without records of a later schema, is the message. -/
theorem parse_extended {m : Envelope} {format : Format} {crc : CrcMode} {kind : Int} (hv : ValidAs m format crc kind)
    {fields : Fields} (he : Extends r (Pb.known r) m.protoFields fields) :
    parse crates .protobuf (message fields) = .ok m := by
  have hdecoded := Pb.decode_extended hr (inRange hv) he
  have hpos : (message fields).isEmpty = false := by
    cases hempty : message fields with
    | cons b rest => rfl
    | nil =>
      -- nothing is read from nothing, and a message has a version
      rw [hempty] at hdecoded
      have hversion : (none : Option UInt32) = m.protocolVersion :=
        congrArg Pb.protocolVersion (Option.some.inj hdecoded)
      rw [hv.version] at hversion
      cases hversion
  have hread : crates.fromPb (message fields) = some m := by
    rw [hpb, hdecoded, Option.map_some, Envelope.fromPb_toPb (Nat.le_of_eq hv.oneBody)]
  unfold parse
  rw [hpos, if_neg (by decide), hread]

/-- **A later schema is read as this one.** -/
theorem codec_extended {m : Envelope} {crc : CrcMode} (hm : validate m .protobuf crc = .ok ()) {fields : Fields}
    (he : Extends r (Pb.known r) m.protoFields fields) {bytes : Bytes}
    (hopen : Framing.openFrame crates.checksum crc bytes = .ok (message fields)) :
    decode crates .protobuf crc bytes = .ok (normalize m) := by
  obtain ⟨kind, hv⟩ := validate_ok_iff.1 hm
  unfold decode
  rw [hopen]
  simp only [except_ok_bind, parse_extended hr hpb hv he, hm]

variable (hc : crates.Lawful (Envelope.json crates.float) Envelope.proto)
include hc

/-- What is written for a message is read as that message. -/
theorem write_parse {m : Envelope} {format : Format} {crc : CrcMode} {kind : Int} (hv : ValidAs m format crc kind)
    (hserde : format = .json → crates.fromSlice (m.json crates.float) = some (m, (m.json crates.float).length)) :
    ∃ body, crates.write (csvWrite crates.float) format m maxBody = .ok body ∧ body.length ≤ maxBody ∧
      parse crates format body = .ok m := by
  cases format with
  | csv =>
    obtain ⟨cells, hwrite, hread, hcount, hbare, hflat, hlen⟩ := message_row hc.base.float hv
    have hmax : maxBody = 1016 := rfl
    refine ⟨Rfc4180.record cells, hwrite, by omega, ?_⟩
    unfold parse
    rw [if_neg (by simp [Rfc4180.record]), csvDecode_record hc.base ⟨by omega, hcount.2⟩ hbare (by omega)]
    exact hread
  | json =>
    have hlen : (m.json crates.float).length ≤ maxBody := Envelope.json_length hv crates.float
    refine ⟨m.json crates.float, ?_, hlen, ?_⟩
    · simp only [Formats.write, hc.toSlice, if_pos hlen]
    · unfold parse
      rw [if_neg (by simp [Envelope.json, object]),
        Formats.parseJson_text (Envelope.json_noControl hc.base.float m) (hserde rfl)]
  | protobuf =>
    have hlen : m.proto.length ≤ maxBody := Envelope.proto_length m
    refine ⟨m.proto, ?_, hlen, parse_extended hr hpb hv (Extends.refl _)⟩
    simp only [Formats.write, hc.toPb, if_pos hlen, if_neg (Nat.not_lt.2 hlen)]

/-- **Round trip.** In every format a validated message is framed into any buffer of 1024 bytes, its body
within 1016 of them, and the datagram decodes to the message, a negative zero temperature made positive. -/
theorem codec_round_trip {m : Envelope} {format : Format} {crc : CrcMode} (hm : validate m format crc = .ok ())
    (hserde : format = .json → crates.fromSlice (m.json crates.float) = some (m, (m.json crates.float).length))
    {out : Bytes} (hout : 1024 ≤ out.length) :
    ∃ buffer n, encode crates format crc m out = .ok (buffer, n) ∧ n ≤ maxBody + Framing.extra crc ∧
      decode crates format crc (buffer.take n) = .ok (normalize m) := by
  obtain ⟨kind, hv⟩ := validate_ok_iff.1 hm
  obtain ⟨body, hwrite, hlen, hparse⟩ := write_parse hr hpb hc hv hserde
  have hmax : maxBody = 1016 := rfl
  have hextra : Framing.extra crc ≤ 8 := by cases crc <;> decide
  have hcap : min out.length maxBody = maxBody := Nat.min_eq_right (by omega)
  obtain ⟨sealed, hseal, -, hopen⟩ := Framing.openFrame_sealFrame crates.checksum crc hlen
    (show body.length + Framing.extra crc ≤ (body ++ out.drop body.length).length by
      rw [List.length_append, List.length_drop]
      omega)
  rw [List.take_left] at hopen
  refine ⟨sealed, body.length + Framing.extra crc, ?_, by omega, ?_⟩
  · unfold encode
    simp only [hm, except_ok_bind, hcap, hwrite]
    exact hseal
  · unfold decode
    rw [hopen]
    simp only [except_ok_bind, hparse, hm]

end

end Codec

namespace Sample

/-- The generated code on the reader; serde reads the text of one message. -/
def generated (message : Envelope) : Formats Rfc4180.WriterState Envelope where
  toCrates := Nucleo.Sample.crates
  fromSlice bytes :=
    if bytes = message.json Nucleo.Sample.floatText then some (message, bytes.length) else none
  toSlice m capacity :=
    if (m.json Nucleo.Sample.floatText).length ≤ capacity then some (m.json Nucleo.Sample.floatText) else none
  fromPb bytes := (Pb.decode Nucleo.Sample.reader bytes).map Envelope.fromPb
  toPb m := if m.proto.length ≤ maxBody then some m.proto else none

theorem generated_lawful (message : Envelope) :
    (generated message).Lawful (Envelope.json (generated message).float) Envelope.proto :=
  ⟨Nucleo.Sample.crates_lawful, fun _ _ => rfl, fun _ => rfl⟩

/-- A probe with a text of a later schema in front. -/
def laterProbe : Fields := lenField 99 (some (ascii "later")) :: probe.protoFields

theorem laterProbe_size : (message laterProbe).length ≤ maxBody := by
  have hfits := Fits.field (Nucleo.Sample.inserted_length (show 99 < 2000 by decide)
      (show (ascii "later").length ≤ 10 by decide)) <|
    .field (Model.u32_field (show 1 < 2000 by decide) probe.protocolVersion) <|
    .field (Model.i32_field (show 2 < 2000 by decide) probe.kind) <|
    .field (Model.string_field (show 3 < 2000 by decide) (by decide) probe.deviceId) <|
    .field (Model.string_field (show 4 < 2000 by decide) (by decide) probe.bootId) <|
    .field (Model.string_field (show 5 < 2000 by decide) (by decide) probe.sessionId) <|
    .field (Model.u32_field (show 6 < 2000 by decide) probe.requestId) <|
    .field (Model.u32_field (show 7 < 2000 by decide) probe.sequence) <|
    .field (Model.u32_field (show 8 < 2000 by decide) probe.uptimeMs) <|
    .field (Model.string_field (show 9 < 2000 by decide) (by decide) probe.payload) <|
    .field (Model.u32_field (show 10 < 2000 by decide) probe.runEpoch) <|
    .field probe.oneof_length .nil
  exact Nat.le_trans (message_length hfits) (by decide)

end Sample

namespace Codec

theorem codec_round_trip_samples :
    (∃ buffer n, encode (Sample.generated Sample.probe) .json .on Sample.probe (List.replicate 1024 0) =
        .ok (buffer, n) ∧ n ≤ maxBody + Framing.extra .on ∧
      decode (Sample.generated Sample.probe) .json .on (buffer.take n) = .ok (normalize Sample.probe)) ∧
    ∃ buffer n, encode (Sample.generated Sample.publication) .protobuf .off Sample.publication
        (List.replicate 1024 0) = .ok (buffer, n) ∧ n ≤ maxBody + Framing.extra .off ∧
      decode (Sample.generated Sample.publication) .protobuf .off (buffer.take n) =
        .ok (normalize Sample.publication) :=
  ⟨codec_round_trip (Reader.standard_lawful _ _) (fun _ => rfl) (Sample.generated_lawful _) (by rfl)
      (fun _ => if_pos rfl) (Nat.le_of_eq List.length_replicate.symm),
    codec_round_trip (Reader.standard_lawful _ _) (fun _ => rfl) (Sample.generated_lawful _) (by rfl)
      (fun h => by cases h) (Nat.le_of_eq List.length_replicate.symm)⟩

theorem codec_extended_sample :
    decode (Sample.generated Sample.probe) .protobuf .off (message Sample.laterProbe) =
      .ok (normalize Sample.probe) :=
  codec_extended (Reader.standard_lawful _ _) (fun _ => rfl) (by rfl)
    (.insert_len (Reader.standard_lawful _ _) (by decide) rfl (Reader.standard_skip utf8Valid true (by decide)) <|
      Extends.refl _) (Framing.openFrame_off _ Sample.laterProbe_size)

end Codec

end Benchmark

end Nucleo
