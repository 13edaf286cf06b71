import Nucleo.L1Encoding.Benchmark
import Nucleo.L1Encoding.Csv

/-!
# The benchmark protocol as CSV

The same records with another writer: `CsvOutput` puts the text of every field
straight into the buffer and never quotes. Ten header fields come before the
body's; an absent and an empty payload are both the empty cell, and the reader
tells them apart by the kind.

Results:
* `message_row`: the two column tables are inverse on validated messages.
* `csvRead_payload`: an empty payload cell is the empty payload for the kinds
  that carry one, and no payload for the others.
* `benchmark_round_trip`: a validated message is encoded within 1016 bytes, no
  field needed quotes, and what was encoded decodes to the message with its
  negative zero normalized.
-/
namespace Nucleo.Benchmark

open Rfc4180

/-! ## `CsvOutput` -/

/-- `trait Field`. -/
structure Field (α : Type) where
  text : α → Except CodecError (HString maxBody)

/-- `out.push_str(text)` into an empty `String<MAX_BODY>`. -/
def bodyText (bytes : Bytes) : Except CodecError (HString maxBody) :=
  match HString.ofBytes? maxBody bytes with
  | some text => .ok text
  | none => .error .size

/-- The macro `scalar_field!`.
mirrors Rust/messaging/src/benchmark.rs:292-302 -/
def scalarField {α : Type} (c : Cell α) : Field α where
  text v := do
    let short ← c.write v
    bodyText short.bytes

/-- mirrors Rust/messaging/src/benchmark.rs:303-308 -/
def stringField (n : Nat) : Field (HString n) where
  text v := bodyText v.bytes

/-- The output slice by its size and what is written to the front of it. -/
structure CsvOutput where
  capacity : Nat
  written : Bytes
  count : Nat

namespace CsvOutput

def new (capacity : Nat) : CsvOutput := ⟨capacity, [], 0⟩

/-- mirrors Rust/messaging/src/benchmark.rs:325-332 -/
def append (out : CsvOutput) (bytes : Bytes) : Except CodecError CsvOutput :=
  if out.capacity - out.written.length < bytes.length then .error .size
  else .ok { out with written := out.written ++ bytes }

/-- `if self.count > 0 { self.append(b",")?; }` -/
def delimit (out : CsvOutput) : Except CodecError CsvOutput :=
  if 0 < out.count then out.append [comma] else .ok out

/-- mirrors Rust/messaging/src/benchmark.rs:333-344 -/
def field {α : Type} (out : CsvOutput) (f : Field α) (value : Option α) : Except CodecError CsvOutput := do
  let out ← out.delimit
  let out := { out with count := out.count + 1 }
  match value with
  | none => .ok out
  | some value => do
    let text ← f.text value
    out.append text.bytes

/-- mirrors Rust/messaging/src/benchmark.rs:345-348 -/
def finish (out : CsvOutput) : Except CodecError Bytes := do
  let out ← out.append [cr, lf]
  .ok out.written

end CsvOutput

/-! ## `benchmark_model.rs`: the column tables -/

def u32Field : Field UInt32 := scalarField u32Cell
def i32Field : Field Int := scalarField i32Cell
def boolField : Field Bool := scalarField boolCell

def headerFields (m : Envelope) (writer : CsvOutput) : Except CodecError CsvOutput := do
  let writer ← writer.field u32Field m.protocolVersion
  let writer ← writer.field i32Field m.kind
  let writer ← writer.field (stringField 32) m.deviceId
  let writer ← writer.field (stringField 16) m.bootId
  let writer ← writer.field (stringField 16) m.sessionId
  let writer ← writer.field u32Field m.requestId
  let writer ← writer.field u32Field m.sequence
  let writer ← writer.field u32Field m.uptimeMs
  let writer ← writer.field (stringField 512) m.payload
  writer.field u32Field m.runEpoch

def configurationFields (writer : CsvOutput) (body : Configuration) : Except CodecError CsvOutput := do
  let writer ← writer.field u32Field body.payloadBytes
  let writer ← writer.field u32Field body.patternSeed
  let writer ← writer.field u32Field body.statusPeriodUs
  let writer ← writer.field u32Field body.healthPeriodUs
  writer.field u32Field body.leaseMs

def limitsFields (writer : CsvOutput) (body : Limits) : Except CodecError CsvOutput := do
  let writer ← writer.field i32Field body.encoding
  let writer ← writer.field boolField body.crcEnabled
  let writer ← writer.field u32Field body.maxPayloadBytes
  let writer ← writer.field u32Field body.maxDatagramBytes
  let writer ← writer.field u32Field body.minStatusPeriodUs
  let writer ← writer.field u32Field body.minHealthPeriodUs
  let writer ← writer.field u32Field body.maxPeriodUs
  let writer ← writer.field u32Field body.minLeaseMs
  let writer ← writer.field u32Field body.maxLeaseMs
  writer.field boolField body.available

def resultFields (writer : CsvOutput) (body : ControlResult) : Except CodecError CsvOutput := do
  let writer ← writer.field i32Field body.code
  writer.field u32Field body.leaseRemainingMs

def statusFields (lib : FloatText) (writer : CsvOutput) (body : Status) : Except CodecError CsvOutput := do
  let writer ← writer.field (scalarField (f32Cell lib)) body.temperatureCelsius
  let writer ← writer.field i32Field body.validity
  writer.field boolField body.synthetic

def healthFields (writer : CsvOutput) (body : Health) : Except CodecError CsvOutput := do
  let writer ← writer.field i32Field body.state
  let writer ← writer.field u32Field body.receivedRequests
  let writer ← writer.field u32Field body.rejectedDatagrams
  let writer ← writer.field u32Field body.sendErrors
  writer.field u32Field body.skippedPublications

/-- The fields of the body that the kind names. -/
def bodyFields (lib : FloatText) (m : Envelope) (writer : CsvOutput) : Except CodecError CsvOutput :=
  if m.kind = some 1 then Csv.withBody m.capabilities fun _ => .ok writer
  else if m.kind = some 2 then Csv.withBody m.configure (configurationFields writer)
  else if m.kind = some 3 then Csv.withBody m.renew fun _ => .ok writer
  else if m.kind = some 4 then Csv.withBody m.stop fun _ => .ok writer
  else if m.kind = some 5 then Csv.withBody m.probe fun _ => .ok writer
  else if m.kind = some 11 then Csv.withBody m.limits (limitsFields writer)
  else if m.kind = some 12 then Csv.withBody m.result (resultFields writer)
  else if m.kind = some 15 then Csv.withBody m.probeResponse fun _ => .ok writer
  else if m.kind = some 21 then Csv.withBody m.status (statusFields lib writer)
  else if m.kind = some 22 then Csv.withBody m.health (healthFields writer)
  else .error .validation

/-- The bytes written to the front of the slice.
mirrors Rust/messaging/src/generated/benchmark_model.rs:578-668 -/
def csvWrite (lib : FloatText) (m : Envelope) (capacity : Nat) : Except CodecError Bytes := do
  let writer ← headerFields m (.new capacity)
  let writer ← bodyFields lib m writer
  writer.finish

def configurationOf : List Bytes → Except CodecError Configuration
  | [c10, c11, c12, c13, c14] => do
    let payloadBytes ← cell u32Cell c10
    let patternSeed ← cell u32Cell c11
    let statusPeriodUs ← cell u32Cell c12
    let healthPeriodUs ← cell u32Cell c13
    let leaseMs ← cell u32Cell c14
    .ok { payloadBytes, patternSeed, statusPeriodUs, healthPeriodUs, leaseMs }
  | _ => .error .decode

def limitsOf : List Bytes → Except CodecError Limits
  | [c10, c11, c12, c13, c14, c15, c16, c17, c18, c19] => do
    let encoding ← cell i32Cell c10
    let crcEnabled ← cell boolCell c11
    let maxPayloadBytes ← cell u32Cell c12
    let maxDatagramBytes ← cell u32Cell c13
    let minStatusPeriodUs ← cell u32Cell c14
    let minHealthPeriodUs ← cell u32Cell c15
    let maxPeriodUs ← cell u32Cell c16
    let minLeaseMs ← cell u32Cell c17
    let maxLeaseMs ← cell u32Cell c18
    let available ← cell boolCell c19
    .ok { encoding, crcEnabled, maxPayloadBytes, maxDatagramBytes, minStatusPeriodUs,
          minHealthPeriodUs, maxPeriodUs, minLeaseMs, maxLeaseMs, available }
  | _ => .error .decode

def resultOf : List Bytes → Except CodecError ControlResult
  | [c10, c11] => do
    let code ← cell i32Cell c10
    let leaseRemainingMs ← cell u32Cell c11
    .ok { code, leaseRemainingMs }
  | _ => .error .decode

def statusOf (lib : FloatText) : List Bytes → Except CodecError Status
  | [c10, c11, c12] => do
    let temperatureCelsius ← cell (f32Cell lib) c10
    let validity ← cell i32Cell c11
    let synthetic ← cell boolCell c12
    .ok { temperatureCelsius, validity, synthetic }
  | _ => .error .decode

def healthOf : List Bytes → Except CodecError Health
  | [c10, c11, c12, c13, c14] => do
    let state ← cell i32Cell c10
    let receivedRequests ← cell u32Cell c11
    let rejectedDatagrams ← cell u32Cell c12
    let sendErrors ← cell u32Cell c13
    let skippedPublications ← cell u32Cell c14
    .ok { state, receivedRequests, rejectedDatagrams, sendErrors, skippedPublications }
  | _ => .error .decode

/-- The body that the kind of `out` names, from the cells after the header. -/
def fromBody (lib : FloatText) (out : Envelope) (body : List Bytes) : Except CodecError Envelope :=
  if out.kind = some 1 then Csv.noCells body { out with capabilities := some () }
  else if out.kind = some 2 then do
    let configure ← configurationOf body
    .ok { out with configure := some configure }
  else if out.kind = some 3 then Csv.noCells body { out with renew := some () }
  else if out.kind = some 4 then Csv.noCells body { out with stop := some () }
  else if out.kind = some 5 then Csv.noCells body { out with probe := some () }
  else if out.kind = some 11 then do
    let limits ← limitsOf body
    .ok { out with limits := some limits }
  else if out.kind = some 12 then do
    let result ← resultOf body
    .ok { out with result := some result }
  else if out.kind = some 15 then Csv.noCells body { out with probeResponse := some () }
  else if out.kind = some 21 then do
    let status ← statusOf lib body
    .ok { out with status := some status }
  else if out.kind = some 22 then do
    let health ← healthOf body
    .ok { out with health := some health }
  else .error .validation

/-- `if matches!(out.kind, Some(5 | 15 | 21 | 22)) && out.payload.is_none() { … }`. -/
def defaultPayload (kind : Option Int) (payload : Option (HString 512)) : Option (HString 512) :=
  if kind.any isData && payload.isNone then some HString.empty else payload

/-- mirrors Rust/messaging/src/generated/benchmark_model.rs:669-782 -/
def csvRead (lib : FloatText) : List Bytes → Except CodecError Envelope
  | c0 :: c1 :: c2 :: c3 :: c4 :: c5 :: c6 :: c7 :: c8 :: c9 :: body => do
    let protocolVersion ← cell u32Cell c0
    let kind ← cell i32Cell c1
    let deviceId ← cell (stringCell 32) c2
    let bootId ← cell (stringCell 16) c3
    let sessionId ← cell (stringCell 16) c4
    let requestId ← cell u32Cell c5
    let sequence ← cell u32Cell c6
    let uptimeMs ← cell u32Cell c7
    let payload ← cell (stringCell 512) c8
    let runEpoch ← cell u32Cell c9
    let payload := defaultPayload kind payload
    fromBody lib { protocolVersion, kind, deviceId, bootId, sessionId, requestId, sequence, uptimeMs,
                   payload, runEpoch } body
  | _ => .error .decode

/-! ## `decode` and `encode` -/

/-- The loop over `ends`: the fields and where the last one ended. -/
def splitFields (data : Bytes) : List Bytes → Nat → List Nat → Except CodecError (List Bytes × Nat)
  | fields, start, [] => .ok (fields, start)
  | fields, start, stop :: ends =>
    let text := (data.take stop).drop start
    if ¬ utf8Valid text then .error .decode
    else if fields.length < 20 then splitFields data (fields ++ [text]) stop ends
    else .error .size

/-- The CSV branch of `decode`, up to the message. -/
def csvDecode {W : Type} (crates : Crates W) (bytes : Bytes) : Except CodecError Envelope := do
  Csv.checkRecord bytes
  let (result, used, data, ends) := crates.reader.readRecord bytes maxBody 20
  if result ≠ .record ∨ ¬ (used = bytes.length ∨ used + 1 = bytes.length ∧ bytes[used]? = some lf) then
    .error .decode
  else do
    let (fields, start) ← splitFields data [] 0 ends
    if start ≠ data.length then .error .decode else csvRead crates.float fields

/-- A temperature equal to zero becomes positive zero. -/
def normalize (m : Envelope) : Envelope := { m with status := m.status.map Messaging.normalizeStatus }

/-- mirrors Rust/messaging/src/benchmark.rs:173-251 -/
def decode {W : Type} (crates : Crates W) (format : Format) (crc : CrcMode) (bytes : Bytes) :
    Except CodecError Envelope := do
  let bytes ← Framing.openFrame crates.checksum crc bytes
  if bytes.isEmpty then .error .decode
  else do
    let m ← match format with
      | .csv => csvDecode crates bytes
      | _ => .error .decode
    validate m format crc
    .ok (normalize m)

/-- The buffer after the call and the length of the datagram in front of it.
mirrors Rust/messaging/src/benchmark.rs:253-286 -/
def encode {W : Type} (crates : Crates W) (format : Format) (crc : CrcMode) (m : Envelope)
    (out : Bytes) : Except CodecError (Bytes × Nat) := do
  validate m format crc
  let capacity := min out.length maxBody
  let body ← match format with
    | .csv => csvWrite crates.float m capacity
    | _ => .error .validation
  Framing.sealFrame crates.checksum crc (body ++ out.drop body.length) body.length

/-! ## Writing fields -/

/-- `text` is what the field of `value` writes: bytes of the device ID alphabet. -/
structure Emits {α : Type} (f : Field α) (value : Option α) (width : Nat) (text : Bytes) : Prop where
  absent : value = none → text = []
  present : ∀ v, value = some v → ∃ s, f.text v = .ok s ∧ s.bytes = text
  bare : ∀ b ∈ text, isDeviceChar b = true
  length : text.length ≤ width

theorem isDeviceChar_plain {b : UInt8} (h : isDeviceChar b = true) : isSpecial b = false := by
  cases hs : isSpecial b with
  | false => rfl
  | true =>
    simp only [isSpecial, Bool.or_eq_true, beq_iff_eq] at hs
    rcases hs with ((rfl | rfl) | rfl) | rfl <;> exact absurd h (by decide)

/-- A text over the device ID alphabet needs no quotes. -/
theorem bare_plain {text : Bytes} (h : ∀ b ∈ text, isDeviceChar b = true) : needsQuotes text = false :=
  List.any_eq_false.2 fun b hb => by rw [isDeviceChar_plain (h b hb)]; decide

theorem bodyText_bare {bytes : Bytes} (h : ∀ b ∈ bytes, isDeviceChar b = true)
    (hl : bytes.length ≤ maxBody) : ∃ s, bodyText bytes = .ok s ∧ s.bytes = bytes := by
  have hok : bytes.length ≤ maxBody ∧ utf8Valid bytes = true :=
    ⟨hl, utf8Valid_ascii fun b hb => isPrintable_ascii (isDeviceChar_printable (h b hb))⟩
  refine ⟨⟨bytes, hok.1, hok.2⟩, ?_, rfl⟩
  unfold bodyText HString.ofBytes?
  rw [dif_pos hok]

theorem Emits.of_bare {α : Type} {c : Cell α} {value : Option α} {width : Nat} {text : Text}
    (h : Bare c value width text) : Emits (scalarField c) value width text.bytes where
  absent hv := by
    have := h.write
    rw [hv] at this
    cases this; rfl
  present v hv := by
    have hw := h.write
    rw [hv] at hw
    obtain ⟨s, hs, hb⟩ := bodyText_bare h.bare (Nat.le_trans text.len_le (by decide))
    refine ⟨s, ?_, hb⟩
    unfold scalarField
    simp only
    rw [show c.write v = .ok text from hw, except_ok_bind, hs]
  bare := h.bare
  length := h.length

/-- A string field writes what its cell holds. -/
theorem Emits.of_bare_string {n : Nat} {value : Option (HString n)} {width : Nat} {text : Text}
    (h : Bare (stringCell n) value width text) (hn : n ≤ 128) :
    Emits (stringField n) value width text.bytes where
  absent hv := by
    have := h.write
    rw [hv] at this
    cases this; rfl
  present s hv := by
    have hw := h.write
    rw [hv] at hw
    have htext : text.bytes = s.bytes := by
      have hw : textOf s.bytes = .ok text := hw
      unfold textOf HString.ofBytes? at hw
      rw [dif_pos ⟨Nat.le_trans s.len_le hn, s.utf8⟩] at hw
      cases hw; rfl
    rw [htext]
    exact bodyText_bare (by rw [← htext]; exact h.bare)
      (Nat.le_trans s.len_le (Nat.le_trans hn (by decide)))
  bare := h.bare
  length := h.length

/-- The text of a string field. -/
def stringText {n : Nat} : Option (HString n) → Bytes
  | none => []
  | some s => s.bytes

theorem Emits.of_string {n : Nat} (hn : n ≤ maxBody) {value : Option (HString n)}
    (h : ∀ s ∈ value, ∀ b ∈ s.bytes, isDeviceChar b = true) :
    Emits (stringField n) value n (stringText value) where
  absent hv := by rw [hv]; rfl
  present s hv := by
    rw [hv]
    exact bodyText_bare (h s hv) (Nat.le_trans s.len_le hn)
  bare := by
    cases value with
    | none => exact fun b hb => by cases hb
    | some s => exact h s rfl
  length := by
    cases value with
    | none => exact Nat.zero_le _
    | some s => exact s.len_le

/-- The writer after fields with these texts. -/
structure Wrote (out : CsvOutput) (texts : List Bytes) (width : Nat) : Prop where
  capacity : out.capacity = maxBody
  written : out.written = joined texts
  count : out.count = texts.length
  bare : ∀ t ∈ texts, ∀ b ∈ t, isDeviceChar b = true
  length : out.written.length ≤ width
  sum : texts.flatten.length ≤ width

theorem Wrote.new : Wrote (.new maxBody) [] 0 :=
  ⟨rfl, rfl, rfl, (fun _ h => by cases h), Nat.le_refl _, Nat.le_refl _⟩

theorem Wrote.weaken {out : CsvOutput} {texts : List Bytes} {width width' : Nat}
    (h : Wrote out texts width) (hle : width ≤ width') : Wrote out texts width' :=
  ⟨h.capacity, h.written, h.count, h.bare, Nat.le_trans h.length hle, Nat.le_trans h.sum hle⟩

theorem append_fits {out : CsvOutput} {bytes : Bytes}
    (h : out.written.length + bytes.length ≤ out.capacity) :
    out.append bytes = .ok { out with written := out.written ++ bytes } := by
  unfold CsvOutput.append
  rw [if_neg (by omega)]

/-- One field more. -/
theorem Emits.field {α : Type} {f : Field α} {value : Option α} {w width : Nat} {text : Bytes}
    (h : Emits f value w text) {out : CsvOutput} {texts : List Bytes} (ho : Wrote out texts width)
    (hroom : width + 1 + w ≤ maxBody) :
    ∃ out', out.field f value = .ok out' ∧ Wrote out' (texts ++ [text]) (width + 1 + w) := by
  have hcap := ho.capacity
  have hlen := ho.length
  have htext := h.length
  -- the delimiter, before every field but the first
  obtain ⟨sep, hsep, hsl, hjoin⟩ : ∃ sep : Bytes,
      out.delimit = .ok { out with written := out.written ++ sep } ∧ sep.length ≤ 1 ∧
      out.written ++ sep ++ text = joined (texts ++ [text]) := by
    by_cases hc : 0 < out.count
    · have hne : texts ≠ [] := fun e => by rw [ho.count, e] at hc; exact absurd hc (by decide)
      refine ⟨[comma], ?_, Nat.le_refl _, ?_⟩
      · rw [CsvOutput.delimit, if_pos hc, append_fits (by rw [hcap]; simp; omega)]
      · rw [joined_snoc hne, quoted_plain (bare_plain h.bare), ho.written, List.append_assoc]
        rfl
    · have hnil : texts = [] := List.length_eq_zero_iff.1 (by rw [← ho.count]; omega)
      refine ⟨[], by rw [CsvOutput.delimit, if_neg hc, List.append_nil], Nat.zero_le _, ?_⟩
      rw [ho.written, hnil]
      exact (quoted_plain (bare_plain h.bare)).symm
  have hout : ∀ out' : CsvOutput, out'.capacity = out.capacity → out'.count = out.count + 1 →
      out'.written = out.written ++ sep ++ text → Wrote out' (texts ++ [text]) (width + 1 + w) := by
    intro out' h1 h2 h3
    refine ⟨h1.trans hcap, h3.trans hjoin, by rw [h2, ho.count, List.length_append]; rfl, ?_, ?_, ?_⟩
    · intro t ht
      rcases List.mem_append.1 ht with ht | ht
      · exact ho.bare t ht
      · rw [List.mem_singleton.1 ht]; exact h.bare
    · rw [h3, List.length_append, List.length_append]; omega
    · have := ho.sum
      rw [List.flatten_append, List.length_append, List.flatten_singleton]; omega
  unfold CsvOutput.field
  rw [hsep, except_ok_bind]
  cases value with
  | none =>
    refine ⟨_, rfl, hout _ rfl rfl ?_⟩
    rw [h.absent rfl, List.append_nil]
  | some v =>
    obtain ⟨s, hs, rfl⟩ := h.present v rfl
    simp only [hs, except_ok_bind]
    rw [append_fits (by simp only [List.length_append, hcap]; omega)]
    exact ⟨_, rfl, hout _ rfl rfl rfl⟩

/-! ## The column tables are inverse -/

/-- A message without its bodies. -/
def headerOf (m : Envelope) : Envelope :=
  { m with capabilities := none, configure := none, renew := none, stop := none, probe := none,
           limits := none, result := none, probeResponse := none, status := none, health := none }

theorem ValidAs.kinds {m : Envelope} {format : Format} {crc : CrcMode} {kind : Int}
    (hv : ValidAs m format crc kind) : kind = 1 ∨ kind = 2 ∨ kind = 3 ∨ kind = 4 ∨ kind = 5 ∨ kind = 11 ∨
      kind = 12 ∨ kind = 15 ∨ kind = 21 ∨ kind = 22 := by
  have hm := hv.body
  unfold bodyMatches at hm
  repeat' split at hm
  case isFalse => cases hm
  all_goals omega

/-- Kinds have two digits. -/
theorem ValidAs.kind_range {m : Envelope} {format : Format} {crc : CrcMode} {kind : Int}
    (hv : ValidAs m format crc kind) : ∀ k ∈ m.kind, 0 ≤ k ∧ k < 100 := by
  rw [hv.hasKind]
  rintro k hk
  cases hk
  have := hv.kinds
  omega

theorem ValidAs.boot_valid {m : Envelope} {format : Format} {crc : CrcMode} {kind : Int}
    (hv : ValidAs m format crc kind) : m.bootId = none ∨ nonce m.bootId = true := by
  by_cases h1 : kind = 1
  · exact .inl (hv.discovery h1).1
  · exact .inr (hv.correlated h1).1

theorem ValidAs.payload_chars {m : Envelope} {format : Format} {crc : CrcMode} {kind : Int}
    (hv : ValidAs m format crc kind) : ∀ p ∈ m.payload, ∀ b ∈ p.bytes, isDeviceChar b = true :=
  fun p hp b hb => isAlnum_device (List.all_eq_true.1 (hv.payloadChars p hp) b hb)

/-- The payload cell: empty for an empty payload too, told apart by the kind. -/
theorem payload_read {m : Envelope} {format : Format} {crc : CrcMode} {kind : Int}
    (hv : ValidAs m format crc kind) : ∃ payload, cell (stringCell 512) (stringText m.payload) = .ok payload ∧
      defaultPayload m.kind payload = m.payload := by
  have hdata := hv.payload
  rw [hv.hasKind]
  cases hp : m.payload with
  | none =>
    rw [hp] at hdata
    refine ⟨none, rfl, ?_⟩
    simp [defaultPayload, ← hdata]
  | some p =>
    rw [hp] at hdata
    by_cases he : p.bytes = []
    · refine ⟨none, by simp [cell, stringText, he], ?_⟩
      simp only [defaultPayload, Option.any_some, ← hdata, Option.isSome_some, Option.isNone_none,
        Bool.and_self, if_true, Option.some.injEq]
      exact HString.ext he.symm
    · refine ⟨some p, ?_, by simp [defaultPayload]⟩
      unfold cell
      rw [if_neg (by simpa [stringText] using he)]
      simp [stringCell, stringText]

/-- Ten fields carry the header. -/
theorem header_row {m : Envelope} {format : Format} {crc : CrcMode} {kind : Int}
    (hv : ValidAs m format crc kind) (lib : FloatText) : ∃ out texts,
      headerFields m (.new maxBody) = .ok out ∧ Wrote out texts 640 ∧ texts.length = 10 ∧
      ∀ body, csvRead lib (texts ++ body) = fromBody lib (headerOf m) body := by
  obtain ⟨payload, hread, hdefault⟩ := payload_read hv
  obtain ⟨t0, h0⟩ := u32_bare m.protocolVersion
  obtain ⟨t1, h1⟩ := i32_bare m.kind hv.kind_range
  obtain ⟨t2, h2⟩ := Csv.device_bare hv.device
  obtain ⟨t3, h3⟩ := Csv.nonce_bare hv.boot_valid
  obtain ⟨t4, h4⟩ := Csv.nonce_bare (.inr hv.session)
  obtain ⟨t5, h5⟩ := u32_bare m.requestId
  obtain ⟨t6, h6⟩ := u32_bare m.sequence
  obtain ⟨t7, h7⟩ := u32_bare m.uptimeMs
  obtain ⟨t9, h9⟩ := u32_bare m.runEpoch
  have hmax : maxBody = 1016 := rfl
  obtain ⟨o0, e0, w0⟩ := (Emits.of_bare h0).field .new (by omega)
  obtain ⟨o1, e1, w1⟩ := (Emits.of_bare h1).field w0 (by omega)
  obtain ⟨o2, e2, w2⟩ := (Emits.of_bare_string h2 (by decide)).field w1 (by omega)
  obtain ⟨o3, e3, w3⟩ := (Emits.of_bare_string h3 (by decide)).field w2 (by omega)
  obtain ⟨o4, e4, w4⟩ := (Emits.of_bare_string h4 (by decide)).field w3 (by omega)
  obtain ⟨o5, e5, w5⟩ := (Emits.of_bare h5).field w4 (by omega)
  obtain ⟨o6, e6, w6⟩ := (Emits.of_bare h6).field w5 (by omega)
  obtain ⟨o7, e7, w7⟩ := (Emits.of_bare h7).field w6 (by omega)
  obtain ⟨o8, e8, w8⟩ := (Emits.of_string (by decide) hv.payload_chars).field w7 (by omega)
  obtain ⟨o9, e9, w9⟩ := (Emits.of_bare h9).field w8 (by omega)
  refine ⟨o9, [t0.bytes, t1.bytes, t2.bytes, t3.bytes, t4.bytes, t5.bytes, t6.bytes, t7.bytes,
    stringText m.payload, t9.bytes], ?_, w9.weaken (by decide), rfl, fun body => ?_⟩
  · simp only [headerFields, u32Field, i32Field, e0, e1, e2, e3, e4, e5, e6, e7, e8, e9, except_ok_bind]
  · simp only [List.cons_append, List.nil_append, csvRead, h0.read, h1.read, h2.read, h3.read, h4.read,
      h5.read, h6.read, h7.read, hread, h9.read, except_ok_bind, hdefault]
    rfl

/-- Some cells carry `v`: `write` adds them after any header, `read` takes them back. -/
def BodyRow {α : Type} (write : CsvOutput → α → Except CodecError CsvOutput)
    (read : List Bytes → Except CodecError α) (v : α) : Prop :=
  ∃ body, read body = .ok v ∧ body.length ≤ 10 ∧ ∀ out texts width, Wrote out texts width →
    width ≤ 640 → ∃ out', write out v = .ok out' ∧ Wrote out' (texts ++ body) (width + 100)

theorem configuration_row (c : Configuration) : BodyRow configurationFields configurationOf c := by
  obtain ⟨t0, h0⟩ := u32_bare c.payloadBytes
  obtain ⟨t1, h1⟩ := u32_bare c.patternSeed
  obtain ⟨t2, h2⟩ := u32_bare c.statusPeriodUs
  obtain ⟨t3, h3⟩ := u32_bare c.healthPeriodUs
  obtain ⟨t4, h4⟩ := u32_bare c.leaseMs
  refine ⟨[t0.bytes, t1.bytes, t2.bytes, t3.bytes, t4.bytes], ?_, by simp, fun out texts width ho hw => ?_⟩
  · simp only [configurationOf, h0.read, h1.read, h2.read, h3.read, h4.read, except_ok_bind]
  · have hmax : maxBody = 1016 := rfl
    obtain ⟨o0, e0, w0⟩ := (Emits.of_bare h0).field ho (by omega)
    obtain ⟨o1, e1, w1⟩ := (Emits.of_bare h1).field w0 (by omega)
    obtain ⟨o2, e2, w2⟩ := (Emits.of_bare h2).field w1 (by omega)
    obtain ⟨o3, e3, w3⟩ := (Emits.of_bare h3).field w2 (by omega)
    obtain ⟨o4, e4, w4⟩ := (Emits.of_bare h4).field w3 (by omega)
    refine ⟨o4, ?_, ?_⟩
    · simp only [configurationFields, u32Field, e0, e1, e2, e3, e4, except_ok_bind]
    · simp only [List.append_assoc, List.singleton_append] at w4
      exact w4.weaken (by omega)

theorem limits_range {l : Limits} {format : Format} {crc : CrcMode} (hv : limitsValid l format crc = true) :
    ∀ k ∈ l.encoding, 0 ≤ k ∧ k < 100 := by
  simp only [limitsValid, Bool.and_eq_true, beq_iff_eq] at hv
  rw [hv.1.1.1.1.1.1.1.1.1]
  exact Csv.encoding_range format

theorem limits_row {l : Limits} {format : Format} {crc : CrcMode}
    (hv : limitsValid l format crc = true) : BodyRow limitsFields limitsOf l := by
  obtain ⟨t0, h0⟩ := i32_bare l.encoding (limits_range hv)
  obtain ⟨t1, h1⟩ := bool_bare l.crcEnabled
  obtain ⟨t2, h2⟩ := u32_bare l.maxPayloadBytes
  obtain ⟨t3, h3⟩ := u32_bare l.maxDatagramBytes
  obtain ⟨t4, h4⟩ := u32_bare l.minStatusPeriodUs
  obtain ⟨t5, h5⟩ := u32_bare l.minHealthPeriodUs
  obtain ⟨t6, h6⟩ := u32_bare l.maxPeriodUs
  obtain ⟨t7, h7⟩ := u32_bare l.minLeaseMs
  obtain ⟨t8, h8⟩ := u32_bare l.maxLeaseMs
  obtain ⟨t9, h9⟩ := bool_bare l.available
  refine ⟨[t0.bytes, t1.bytes, t2.bytes, t3.bytes, t4.bytes, t5.bytes, t6.bytes, t7.bytes, t8.bytes,
    t9.bytes], ?_, by simp, fun out texts width ho hw => ?_⟩
  · simp only [limitsOf, h0.read, h1.read, h2.read, h3.read, h4.read, h5.read, h6.read, h7.read, h8.read,
      h9.read, except_ok_bind]
  · have hmax : maxBody = 1016 := rfl
    obtain ⟨o0, e0, w0⟩ := (Emits.of_bare h0).field ho (by omega)
    obtain ⟨o1, e1, w1⟩ := (Emits.of_bare h1).field w0 (by omega)
    obtain ⟨o2, e2, w2⟩ := (Emits.of_bare h2).field w1 (by omega)
    obtain ⟨o3, e3, w3⟩ := (Emits.of_bare h3).field w2 (by omega)
    obtain ⟨o4, e4, w4⟩ := (Emits.of_bare h4).field w3 (by omega)
    obtain ⟨o5, e5, w5⟩ := (Emits.of_bare h5).field w4 (by omega)
    obtain ⟨o6, e6, w6⟩ := (Emits.of_bare h6).field w5 (by omega)
    obtain ⟨o7, e7, w7⟩ := (Emits.of_bare h7).field w6 (by omega)
    obtain ⟨o8, e8, w8⟩ := (Emits.of_bare h8).field w7 (by omega)
    obtain ⟨o9, e9, w9⟩ := (Emits.of_bare h9).field w8 (by omega)
    refine ⟨o9, ?_, ?_⟩
    · simp only [limitsFields, u32Field, i32Field, boolField, e0, e1, e2, e3, e4, e5, e6, e7, e8, e9,
        except_ok_bind]
    · simp only [List.append_assoc, List.singleton_append] at w9
      exact w9.weaken (by omega)

theorem result_range {r : ControlResult} (hv : resultValid r = true) : ∀ k ∈ r.code, 0 ≤ k ∧ k < 100 := by
  intro k hk
  simp only [resultValid, Bool.and_eq_true] at hv
  rw [show r.code = some k from hk] at hv
  simp only [Option.any_some, Bool.and_eq_true, decide_eq_true_eq] at hv
  omega

theorem result_row {r : ControlResult} (hv : resultValid r = true) :
    BodyRow resultFields resultOf r := by
  obtain ⟨t0, h0⟩ := i32_bare r.code (result_range hv)
  obtain ⟨t1, h1⟩ := u32_bare r.leaseRemainingMs
  refine ⟨[t0.bytes, t1.bytes], ?_, by simp, fun out texts width ho hw => ?_⟩
  · simp only [resultOf, h0.read, h1.read, except_ok_bind]
  · have hmax : maxBody = 1016 := rfl
    obtain ⟨o0, e0, w0⟩ := (Emits.of_bare h0).field ho (by omega)
    obtain ⟨o1, e1, w1⟩ := (Emits.of_bare h1).field w0 (by omega)
    refine ⟨o1, ?_, ?_⟩
    · simp only [resultFields, u32Field, i32Field, e0, e1, except_ok_bind]
    · simp only [List.append_assoc, List.singleton_append] at w1
      exact w1.weaken (by omega)

theorem status_row {lib : FloatText} (hlib : lib.Lawful) {status : Status}
    (hv : Validation.statusValid status = true) : BodyRow (statusFields lib) (statusOf lib) status := by
  obtain ⟨hval, htemp⟩ := Csv.status_ranges hv
  obtain ⟨t0, h0⟩ := f32_bare hlib status.temperatureCelsius htemp
  obtain ⟨t1, h1⟩ := i32_bare status.validity hval
  obtain ⟨t2, h2⟩ := bool_bare status.synthetic
  refine ⟨[t0.bytes, t1.bytes, t2.bytes], ?_, by simp, fun out texts width ho hw => ?_⟩
  · simp only [statusOf, h0.read, h1.read, h2.read, except_ok_bind]
  · have hmax : maxBody = 1016 := rfl
    obtain ⟨o0, e0, w0⟩ := (Emits.of_bare h0).field ho (by omega)
    obtain ⟨o1, e1, w1⟩ := (Emits.of_bare h1).field w0 (by omega)
    obtain ⟨o2, e2, w2⟩ := (Emits.of_bare h2).field w1 (by omega)
    refine ⟨o2, ?_, ?_⟩
    · simp only [statusFields, i32Field, boolField, e0, e1, e2, except_ok_bind]
    · simp only [List.append_assoc, List.singleton_append] at w2
      exact w2.weaken (by omega)

theorem health_row {health : Health} (hv : Validation.healthValid health = true) :
    BodyRow healthFields healthOf health := by
  obtain ⟨t0, h0⟩ := i32_bare health.state (Csv.health_range hv)
  obtain ⟨t1, h1⟩ := u32_bare health.receivedRequests
  obtain ⟨t2, h2⟩ := u32_bare health.rejectedDatagrams
  obtain ⟨t3, h3⟩ := u32_bare health.sendErrors
  obtain ⟨t4, h4⟩ := u32_bare health.skippedPublications
  refine ⟨[t0.bytes, t1.bytes, t2.bytes, t3.bytes, t4.bytes], ?_, by simp, fun out texts width ho hw => ?_⟩
  · simp only [healthOf, h0.read, h1.read, h2.read, h3.read, h4.read, except_ok_bind]
  · have hmax : maxBody = 1016 := rfl
    obtain ⟨o0, e0, w0⟩ := (Emits.of_bare h0).field ho (by omega)
    obtain ⟨o1, e1, w1⟩ := (Emits.of_bare h1).field w0 (by omega)
    obtain ⟨o2, e2, w2⟩ := (Emits.of_bare h2).field w1 (by omega)
    obtain ⟨o3, e3, w3⟩ := (Emits.of_bare h3).field w2 (by omega)
    obtain ⟨o4, e4, w4⟩ := (Emits.of_bare h4).field w3 (by omega)
    refine ⟨o4, ?_, ?_⟩
    · simp only [healthFields, u32Field, i32Field, e0, e1, e2, e3, e4, except_ok_bind]
    · simp only [List.append_assoc, List.singleton_append] at w4
      exact w4.weaken (by omega)

/-- Which sample checks a publication passed. -/
theorem ValidAs.statusBody {m : Envelope} {format : Format} {crc : CrcMode} {kind : Int}
    (hv : ValidAs m format crc kind) (status : Status) (h : m.status = some status) :
    Validation.statusValid status = true := by
  obtain ⟨kind', hn⟩ := Validation.validate_ok_iff.1 (hv.sample (by simp [h]))
  exact hn.status status h

theorem ValidAs.healthBody {m : Envelope} {format : Format} {crc : CrcMode} {kind : Int}
    (hv : ValidAs m format crc kind) (health : Health) (h : m.health = some health) :
    Validation.healthValid health = true := by
  obtain ⟨kind', hn⟩ := Validation.validate_ok_iff.1 (hv.sample (by simp [h]))
  exact hn.health health h

/-- Some cells carry the body of `m`. -/
def Carried (lib : FloatText) (m : Envelope) : Prop :=
  ∃ body, fromBody lib (headerOf m) body = .ok m ∧ body.length ≤ 10 ∧ ∀ out texts width,
    Wrote out texts width → width ≤ 640 →
      ∃ out', bodyFields lib m out = .ok out' ∧ Wrote out' (texts ++ body) (width + 100)

/-- A body without cells. -/
theorem Carried.empty {lib : FloatText} {m : Envelope} (hwrite : ∀ out, bodyFields lib m out = .ok out)
    (hread : fromBody lib (headerOf m) [] = .ok m) : Carried lib m := by
  refine ⟨[], hread, by simp, fun out texts width ho hw => ⟨out, hwrite out, ?_⟩⟩
  rw [List.append_nil]
  exact ho.weaken (by omega)

/-- A body with a row. -/
theorem Carried.of_row {lib : FloatText} {m : Envelope} {α : Type}
    {write : CsvOutput → α → Except CodecError CsvOutput} {read : List Bytes → Except CodecError α} {v : α}
    (hrow : BodyRow write read v) (hwrite : ∀ out, bodyFields lib m out = write out v)
    (hread : ∀ body, read body = .ok v → fromBody lib (headerOf m) body = .ok m) : Carried lib m := by
  obtain ⟨body, hr, hl, hw⟩ := hrow
  refine ⟨body, hread body hr, hl, fun out texts width ho hle => ?_⟩
  rw [hwrite out]
  exact hw out texts width ho hle

/-- The body of a validated message is carried. -/
theorem body_row {lib : FloatText} (hlib : lib.Lawful) {m : Envelope} {format : Format} {crc : CrcMode}
    {kind : Int} (hv : ValidAs m format crc kind) : Carried lib m := by
  have hk := hv.hasKind
  have hunique := hv.body_unique
  have hlimits := hv.limits
  have hresult := hv.result
  have hstatus := hv.statusBody
  have hhealth := hv.healthBody
  have hkinds := hv.kinds
  clear hv
  obtain ⟨_, _, _, _, _, _, _, _, _, _, capabilities, configure, renew, stop, probe, limits, result,
    probeResponse, status, health⟩ := m
  obtain rfl := hk
  rcases hkinds with rfl | rfl | rfl | rfl | rfl | rfl | rfl | rfl | rfl | rfl <;>
    simp only [Int.reduceBEq, BEq.rfl, Option.isSome_eq_false_iff, Option.isNone_iff_eq_none,
      Option.isSome_iff_exists] at hunique <;>
    obtain ⟨b1, b2, b3, b4, b5, b6, b7, b8, b9, b10⟩ := hunique
  · obtain ⟨body, rfl⟩ := b1
    subst_vars
    exact .empty (fun out => rfl) rfl
  · obtain ⟨body, rfl⟩ := b2
    subst_vars
    exact .of_row (configuration_row body) (fun out => rfl) fun cells h => by
      simp only [fromBody, headerOf, h]
      rfl
  · obtain ⟨body, rfl⟩ := b3
    subst_vars
    exact .empty (fun out => rfl) rfl
  · obtain ⟨body, rfl⟩ := b4
    subst_vars
    exact .empty (fun out => rfl) rfl
  · obtain ⟨body, rfl⟩ := b5
    subst_vars
    exact .empty (fun out => rfl) rfl
  · obtain ⟨body, rfl⟩ := b6
    subst_vars
    exact .of_row (limits_row (hlimits body rfl)) (fun out => rfl) fun cells h => by
      simp only [fromBody, headerOf, h]
      rfl
  · obtain ⟨body, rfl⟩ := b7
    subst_vars
    exact .of_row (result_row (hresult body rfl)) (fun out => rfl) fun cells h => by
      simp only [fromBody, headerOf, h]
      rfl
  · obtain ⟨body, rfl⟩ := b8
    subst_vars
    exact .empty (fun out => rfl) rfl
  · obtain ⟨body, rfl⟩ := b9
    subst_vars
    exact .of_row (status_row hlib (hstatus body rfl)) (fun out => rfl) fun cells h => by
      simp only [fromBody, headerOf, h]
      rfl
  · obtain ⟨body, rfl⟩ := b10
    subst_vars
    exact .of_row (health_row (hhealth body rfl)) (fun out => rfl) fun cells h => by
      simp only [fromBody, headerOf, h]
      rfl

/-- **The column tables are inverse** on validated messages: what is written is a
record of bare cells that read as the message. -/
theorem message_row {lib : FloatText} (hlib : lib.Lawful) {m : Envelope} {format : Format} {crc : CrcMode}
    {kind : Int} (hv : ValidAs m format crc kind) : ∃ texts, csvWrite lib m maxBody = .ok (record texts) ∧
      csvRead lib texts = .ok m ∧ (10 ≤ texts.length ∧ texts.length ≤ 20) ∧
      (∀ t ∈ texts, ∀ b ∈ t, isDeviceChar b = true) ∧ texts.flatten.length ≤ 740 ∧
      (record texts).length ≤ 742 := by
  obtain ⟨out, header, hheader, hout, hten, hread⟩ := header_row hv lib
  obtain ⟨body, hfrom, hshort, hbody⟩ := body_row hlib hv
  obtain ⟨out', hfields, hout'⟩ := hbody out header 640 hout (Nat.le_refl _)
  have hmax : maxBody = 1016 := rfl
  have hcap := hout'.capacity
  have hlen := hout'.length
  have hwritten := hout'.written
  refine ⟨header ++ body, ?_, (hread body).trans hfrom, ?_, hout'.bare, hout'.sum, ?_⟩
  · unfold csvWrite CsvOutput.finish
    rw [hheader, except_ok_bind, hfields, except_ok_bind,
      append_fits (by rw [hcap, List.length_cons, List.length_singleton]; omega), except_ok_bind, hwritten]
    rfl
  · rw [List.length_append]; omega
  · rw [record, List.length_append, ← hwritten, List.length_cons, List.length_singleton]; omega

/-! ## Decoding a record -/

/-- The ends cut the data into the fields it came from. -/
theorem splitFields_flatten (pre : Bytes) (done fields : List Bytes)
    (hutf : ∀ f ∈ fields, utf8Valid f = true) (h20 : done.length + fields.length ≤ 20) :
    splitFields (pre ++ fields.flatten) done pre.length (ends pre.length fields) =
      .ok (done ++ fields, (pre ++ fields.flatten).length) := by
  induction fields generalizing pre done with
  | nil => simp [ends, splitFields]
  | cons f fields ih =>
    have hslice : ((pre ++ f ++ fields.flatten).take (pre.length + f.length)).drop pre.length = f := by
      rw [List.take_left' (by rw [List.length_append]), List.drop_left]
    have hstop : pre.length + f.length = (pre ++ f).length := List.length_append.symm
    rw [List.length_cons] at h20
    rw [List.flatten_cons, ← List.append_assoc, ends, splitFields, hslice,
      if_neg (by rw [hutf f List.mem_cons_self]; decide), if_pos (by omega), hstop,
      ih (pre ++ f) (done ++ [f]) (fun g hg => hutf g (List.mem_cons_of_mem _ hg)) (by
        rw [List.length_append, List.length_singleton]; omega)]
    rw [List.append_assoc, List.singleton_append]

/-- A record of bare fields decodes to what its fields say. -/
theorem csvDecode_record {W : Type} {crates : Crates W} (hc : crates.Lawful) {fields : List Bytes}
    (hlen : 2 ≤ fields.length ∧ fields.length ≤ 20)
    (hbare : ∀ f ∈ fields, ∀ b ∈ f, isDeviceChar b = true) (hsize : fields.flatten.length < maxBody) :
    csvDecode crates (record fields) = csvRead crates.float fields := by
  have hprint : ∀ f ∈ fields, ∀ b ∈ f, isPrintable b = true := fun f hf b hb =>
    isDeviceChar_printable (hbare f hf b hb)
  obtain ⟨used, hread, hused⟩ := Csv.readRecord_record hc.reader 20 hlen.1 hprint hsize hlen.2
  have hne : fields ≠ [] := fun h => by rw [h] at hlen; cases hlen.1
  have hcheck := Csv.checkRecord_record hne fun f hf b hb => isPrintable_ne (hprint f hf b hb)
  have hsplit := splitFields_flatten [] [] fields
    (fun f hf => utf8Valid_ascii fun b hb => isPrintable_ascii (hprint f hf b hb)) (by simpa using hlen.2)
  simp only [List.nil_append, List.length_nil] at hsplit
  unfold csvDecode
  rw [hcheck]
  simp only [except_ok_bind, hread, ne_eq, not_true_eq_false, hused, or_self, if_false, hsplit]

/-- The body leaves the header as it is. -/
theorem fromBody_header {lib : FloatText} {out m : Envelope} {body : List Bytes}
    (h : fromBody lib out body = .ok m) : m.payload = out.payload ∧ m.kind = out.kind := by
  -- a branch without cells, a branch that reads a body, and the choice between two branches
  have hno : ∀ {v : Envelope}, v.payload = out.payload ∧ v.kind = out.kind →
      Csv.noCells body v = .ok m → m.payload = out.payload ∧ m.kind = out.kind := by
    intro v hv hok
    unfold Csv.noCells at hok
    split at hok
    · cases hok; exact hv
    · cases hok
  have hread : ∀ {α : Type} {x : Except CodecError α} {f : α → Envelope},
      (∀ a, (f a).payload = out.payload ∧ (f a).kind = out.kind) →
      (do let a ← x; .ok (f a)) = Except.ok m → m.payload = out.payload ∧ m.kind = out.kind := by
    intro α x f hf hok
    obtain ⟨a, -, ha⟩ := except_bind_ok.1 hok
    cases ha
    exact hf a
  have hite : ∀ {c : Prop} [Decidable c] {x y : Except CodecError Envelope},
      (x = .ok m → m.payload = out.payload ∧ m.kind = out.kind) →
      (y = .ok m → m.payload = out.payload ∧ m.kind = out.kind) →
      (if c then x else y) = .ok m → m.payload = out.payload ∧ m.kind = out.kind := by
    intro c _ x y hx hy hok
    by_cases hcase : c
    · exact hx (by rwa [if_pos hcase] at hok)
    · exact hy (by rwa [if_neg hcase] at hok)
  revert h
  unfold fromBody
  refine hite (hno ⟨rfl, rfl⟩) (hite (hread fun _ => ⟨rfl, rfl⟩) (hite (hno ⟨rfl, rfl⟩) (hite
    (hno ⟨rfl, rfl⟩) (hite (hno ⟨rfl, rfl⟩) (hite (hread fun _ => ⟨rfl, rfl⟩) (hite
    (hread fun _ => ⟨rfl, rfl⟩) (hite (hno ⟨rfl, rfl⟩) (hite (hread fun _ => ⟨rfl, rfl⟩) (hite
    (hread fun _ => ⟨rfl, rfl⟩) fun hok => ?_)))))))))
  cases hok

/-- An empty payload cell is the empty payload of a kind that carries one, and
no payload of the others. -/
theorem csvRead_payload {lib : FloatText} {cells : List Bytes} {m : Envelope}
    (h : csvRead lib cells = .ok m) (hcell : cells[8]? = some []) :
    m.payload = if m.kind.any isData then some HString.empty else none := by
  unfold csvRead at h
  split at h
  · rename_i body
    cases hcell
    simp only [except_bind_ok] at h
    obtain ⟨_, -, kind, -, _, -, _, -, _, -, _, -, _, -, _, -, payload, hpayload, _, -, h⟩ := h
    cases hpayload
    obtain ⟨hp, hk⟩ := fromBody_header h
    rw [hp, hk]
    simp only [defaultPayload, Option.isNone_none, Bool.and_true]
  · cases h

/-! ## The round trip -/

/-- **Round trip.** With lawful crates, a validated message is encoded into any
buffer of 1024 bytes as one record of at most 1016 bytes whose cells need no
quotes, and the datagram decodes to the message, a negative zero temperature
made positive. -/
theorem benchmark_round_trip {W : Type} (crates : Crates W) (hc : crates.Lawful) (mode : CrcMode)
    (m : Envelope) (hm : validate m .csv mode = .ok ()) (out : Bytes) (hout : 1024 ≤ out.length) :
    (∃ buffer cells, encode crates .csv mode m out =
        .ok (buffer, (record cells).length + Framing.extra mode) ∧
      (record cells).length ≤ maxBody ∧ buffer.take (record cells).length = record cells ∧
      (∀ cell ∈ cells, needsQuotes cell = false) ∧
      decode crates .csv mode (buffer.take ((record cells).length + Framing.extra mode)) =
        .ok (normalize m)) ∧
    ∀ cells m', csvRead crates.float cells = .ok m' → cells[8]? = some [] →
      m'.payload = if m'.kind.any isData then some HString.empty else none := by
  refine ⟨?_, fun cells m' => csvRead_payload⟩
  obtain ⟨kind, hv⟩ := validate_ok_iff.1 hm
  obtain ⟨cells, hwrite, hread, hcount, hbare, hflat, hlen⟩ := message_row hc.float hv
  have hmax : maxBody = 1016 := rfl
  have hextra : Framing.extra mode ≤ 8 := by cases mode <;> decide
  have hcap : min out.length maxBody = maxBody := Nat.min_eq_right (by omega)
  -- the buffer that the frame is sealed in
  have hbuf : (record cells ++ out.drop (record cells).length).length = out.length := by
    rw [List.length_append, List.length_drop]; omega
  obtain ⟨buffer, hseal, htake, hopen⟩ := Framing.openFrame_sealFrame crates.checksum mode
    (show (record cells).length ≤ maxBody by omega)
    (show (record cells).length + Framing.extra mode ≤
      (record cells ++ out.drop (record cells).length).length by omega)
  rw [List.take_left] at htake hopen
  refine ⟨buffer, cells, ?_, by omega, htake, fun cell hcell => bare_plain (hbare cell hcell), ?_⟩
  · unfold encode
    simp only [hm, except_ok_bind, hcap, hwrite]
    exact hseal
  · have hne : (record cells).isEmpty = false := by simp [record]
    have hdec := csvDecode_record hc ⟨by omega, hcount.2⟩ hbare (by omega)
    unfold decode
    rw [hopen]
    simp only [except_ok_bind, hne, Bool.false_eq_true, if_false, hdec, hread, hm]

namespace Sample

/-- A probe with the empty payload. -/
def probe : Envelope where
  protocolVersion := some 1
  kind := some 5
  deviceId := some Nucleo.Sample.device
  bootId := some Nucleo.Sample.boot
  sessionId := some Nucleo.Sample.session
  requestId := some 4294967295
  payload := some HString.empty
  runEpoch := some 3
  probe := some ()

/-- A publication below freezing, by a sign. -/
def publication : Envelope :=
  { probe with
    kind := some 21
    requestId := none
    sequence := some 0
    uptimeMs := some 4000000000
    payload := some ⟨ascii "abcdefghijklm", by decide, by decide⟩
    probe := none
    status := some { temperatureCelsius := some F32.negZero, validity := some 1, synthetic := some true } }

end Sample

theorem benchmark_round_trip_samples :
    ((∃ buffer cells, encode Nucleo.Sample.crates .csv .on Sample.probe (List.replicate 1024 0) =
        .ok (buffer, (record cells).length + Framing.extra .on) ∧
      (record cells).length ≤ maxBody ∧ buffer.take (record cells).length = record cells ∧
      (∀ cell ∈ cells, needsQuotes cell = false) ∧
      decode Nucleo.Sample.crates .csv .on (buffer.take ((record cells).length + Framing.extra .on)) =
        .ok (normalize Sample.probe)) ∧
    ∀ cells m', csvRead Nucleo.Sample.crates.float cells = .ok m' → cells[8]? = some [] →
      m'.payload = if m'.kind.any isData then some HString.empty else none) ∧
    ((∃ buffer cells, encode Nucleo.Sample.crates .csv .off Sample.publication (List.replicate 1024 0) =
        .ok (buffer, (record cells).length + Framing.extra .off) ∧
      (record cells).length ≤ maxBody ∧ buffer.take (record cells).length = record cells ∧
      (∀ cell ∈ cells, needsQuotes cell = false) ∧
      decode Nucleo.Sample.crates .csv .off (buffer.take ((record cells).length + Framing.extra .off)) =
        .ok (normalize Sample.publication)) ∧
    ∀ cells m', csvRead Nucleo.Sample.crates.float cells = .ok m' → cells[8]? = some [] →
      m'.payload = if m'.kind.any isData then some HString.empty else none) :=
  ⟨benchmark_round_trip Nucleo.Sample.crates Nucleo.Sample.crates_lawful .on Sample.probe (by rfl)
      (List.replicate 1024 0) (Nat.le_of_eq List.length_replicate.symm),
    benchmark_round_trip Nucleo.Sample.crates Nucleo.Sample.crates_lawful .off Sample.publication (by rfl)
      (List.replicate 1024 0) (Nat.le_of_eq List.length_replicate.symm)⟩

end Nucleo.Benchmark
