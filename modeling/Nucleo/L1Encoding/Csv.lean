import Nucleo.L1Encoding.Message
import Nucleo.L1Encoding.Cells
import Nucleo.L1Encoding.Framing

/-!
# The normal protocol as CSV

One message is one record: eight header cells, then the cells of the body its
kind names. `encode` writes the cells through `csv_core`'s streaming writer,
`decode` checks the quoting itself and then lets `csv_core` take the record
apart. The crates are the parameter `Crates`; `Crates.Lawful` is what is assumed
of them. `lib.rs` and `framing.rs` are modelled for a build with the `csv`
feature alone, where the two other formats are not compiled in.

Results:
* `checkRecord_record`: the grammar check accepts every record of fields
  without line ends.
* `toCells_fromCells`: the two column tables are inverse on validated messages.
* `csv_round_trip`: a validated message is encoded within 1016 bytes, and what
  was encoded decodes to the message with its negative zero normalized.
-/
namespace Nucleo

/-- The crates behind the codec. -/
structure Crates (W : Type) where
  /-- `WriterBuilder::new().terminator(Terminator::CRLF).build()` -/
  writer : Rfc4180.Writer W
  /-- `csv_core::Reader::new()` -/
  reader : Rfc4180.Reader
  float : FloatText
  /-- `CRC32C.checksum` -/
  checksum : Bytes → UInt32

structure Crates.Lawful {W : Type} (crates : Crates W) : Prop where
  writer : crates.writer.Lawful
  reader : crates.reader.Lawful
  float : crates.float.Lawful

namespace Csv

open Rfc4180 Model

/-! ## `csv.rs`: the grammar check -/

/-- The `match` on state and byte; `none` is a decode error. -/
def checkStep : QuoteState → UInt8 → Option QuoteState
  | .start, b => some (if b = quote then .quoted else if b = comma then .start else .unquoted)
  | .unquoted, b => if b = comma then some .start else if b = quote then none else some .unquoted
  | .quoted, b => some (if b = quote then .closing else .quoted)
  | .closing, b => if b = quote then some .quoted else if b = comma then some .start else none

def checkRun : QuoteState → Bytes → Option QuoteState
  | state, [] => some state
  | state, b :: rest =>
    if b = cr ∨ b = lf then none
    else match checkStep state b with
      | none => none
      | some state => checkRun state rest

/-- mirrors Rust/messaging/src/csv.rs:10-38 -/
def checkRecord (bytes : Bytes) : Except CodecError Unit :=
  if ¬ [cr, lf].isSuffixOf bytes then .error .decode
  else match checkRun .start (bytes.take (bytes.length - 2)) with
    | none => .error .decode
    | some state => if state = .quoted then .error .decode else .ok ()

/-! ## `model.rs`: the column tables -/

/-- The eight cells every record starts with. -/
def headerCells (m : Envelope) : Except CodecError (List Text) := do
  let cells ← pushCell u32Cell [] m.protocolVersion
  let cells ← pushCell i32Cell cells m.kind
  let cells ← pushCell (stringCell 32) cells m.deviceId
  let cells ← pushCell (stringCell 16) cells m.bootId
  let cells ← pushCell (stringCell 16) cells m.clientSession
  let cells ← pushCell u32Cell cells m.requestId
  let cells ← pushCell u32Cell cells m.sequence
  pushCell u32Cell cells m.uptimeMs

/-- `let body = body.as_ref().ok_or(CodecError::Validation)?; …`. -/
def withBody {α β : Type} (body : Option α) (k : α → Except CodecError β) : Except CodecError β :=
  match body with
  | none => .error .validation
  | some body => k body

def deviceInfoCells (cells : List Text) (body : DeviceInfo) : Except CodecError (List Text) := do
  let cells ← pushCell (stringCell 32) cells body.firmwareVersion
  pushCell i32Cell cells body.encoding

def statusCells (lib : FloatText) (cells : List Text) (body : Status) :
    Except CodecError (List Text) := do
  let cells ← pushCell (f32Cell lib) cells body.temperatureCelsius
  let cells ← pushCell i32Cell cells body.validity
  pushCell boolCell cells body.synthetic

def healthCells (cells : List Text) (body : Health) : Except CodecError (List Text) := do
  let cells ← pushCell i32Cell cells body.state
  let cells ← pushCell u32Cell cells body.receivedRequests
  let cells ← pushCell u32Cell cells body.rejectedDatagrams
  let cells ← pushCell u32Cell cells body.sendErrors
  pushCell u32Cell cells body.skippedPublications

/-- mirrors Rust/messaging/src/generated/model.rs:378-450 -/
def toCells (lib : FloatText) (m : Envelope) : Except CodecError (List Text) := do
  let cells ← headerCells m
  if m.kind = some 1 then withBody m.getDeviceInfo fun _ => .ok cells
  else if m.kind = some 2 then withBody m.getStatus fun _ => .ok cells
  else if m.kind = some 3 then withBody m.getHealth fun _ => .ok cells
  else if m.kind = some 11 then withBody m.deviceInfo (deviceInfoCells cells)
  else if m.kind = some 12 then withBody m.status (statusCells lib cells)
  else if m.kind = some 13 then withBody m.health (healthCells cells)
  else if m.kind = some 14 then withBody m.error fun body => pushCell i32Cell cells body.code
  else if m.kind = some 21 then withBody m.status (statusCells lib cells)
  else if m.kind = some 22 then withBody m.health (healthCells cells)
  else .error .validation

/-- A kind whose body has no cells. -/
def noCells {α β : Type} (body : List β) (v : α) : Except CodecError α :=
  match body with
  | [] => .ok v
  | _ => .error .decode

def deviceInfoOf : List Text → Except CodecError DeviceInfo
  | [c8, c9] => do
    let firmwareVersion ← cell (stringCell 32) c8.bytes
    let encoding ← cell i32Cell c9.bytes
    .ok { firmwareVersion, encoding }
  | _ => .error .decode

def statusOf (lib : FloatText) : List Text → Except CodecError Status
  | [c8, c9, c10] => do
    let temperatureCelsius ← cell (f32Cell lib) c8.bytes
    let validity ← cell i32Cell c9.bytes
    let synthetic ← cell boolCell c10.bytes
    .ok { temperatureCelsius, validity, synthetic }
  | _ => .error .decode

def healthOf : List Text → Except CodecError Health
  | [c8, c9, c10, c11, c12] => do
    let state ← cell i32Cell c8.bytes
    let receivedRequests ← cell u32Cell c9.bytes
    let rejectedDatagrams ← cell u32Cell c10.bytes
    let sendErrors ← cell u32Cell c11.bytes
    let skippedPublications ← cell u32Cell c12.bytes
    .ok { state, receivedRequests, rejectedDatagrams, sendErrors, skippedPublications }
  | _ => .error .decode

def errorOf : List Text → Except CodecError Model.Error
  | [c8] => do
    let code ← cell i32Cell c8.bytes
    .ok { code }
  | _ => .error .decode

/-- The body that the kind of `output` names, from the cells after the header. -/
def fromBody (lib : FloatText) (output : Envelope) (body : List Text) : Except CodecError Envelope :=
  if output.kind = some 1 then noCells body { output with getDeviceInfo := some () }
  else if output.kind = some 2 then noCells body { output with getStatus := some () }
  else if output.kind = some 3 then noCells body { output with getHealth := some () }
  else if output.kind = some 11 then do
    let deviceInfo ← deviceInfoOf body
    .ok { output with deviceInfo := some deviceInfo }
  else if output.kind = some 12 then do
    let status ← statusOf lib body
    .ok { output with status := some status }
  else if output.kind = some 13 then do
    let health ← healthOf body
    .ok { output with health := some health }
  else if output.kind = some 14 then do
    let error ← errorOf body
    .ok { output with error := some error }
  else if output.kind = some 21 then do
    let status ← statusOf lib body
    .ok { output with status := some status }
  else if output.kind = some 22 then do
    let health ← healthOf body
    .ok { output with health := some health }
  else .error .validation

/-- mirrors Rust/messaging/src/generated/model.rs:451-547 -/
def fromCells (lib : FloatText) : List Text → Except CodecError Envelope
  | c0 :: c1 :: c2 :: c3 :: c4 :: c5 :: c6 :: c7 :: body => do
    let protocolVersion ← cell u32Cell c0.bytes
    let kind ← cell i32Cell c1.bytes
    let deviceId ← cell (stringCell 32) c2.bytes
    let bootId ← cell (stringCell 16) c3.bytes
    let clientSession ← cell (stringCell 16) c4.bytes
    let requestId ← cell u32Cell c5.bytes
    let sequence ← cell u32Cell c6.bytes
    let uptimeMs ← cell u32Cell c7.bytes
    fromBody lib { protocolVersion, kind, deviceId, bootId, clientSession, requestId, sequence, uptimeMs }
      body
  | _ => .error .decode

/-! ## `csv.rs`: decoding and encoding -/

/-- The loop over `ends`: the cells and where the last one ended. -/
def splitCells (data : Bytes) : List Text → Nat → List Nat → Except CodecError (List Text × Nat)
  | cells, start, [] => .ok (cells, start)
  | cells, start, stop :: ends =>
    match HString.ofBytes? 128 ((data.take stop).drop start) with
    | none => .error .decode
    | some text =>
      if cells.length < 16 then splitCells data (cells ++ [text]) stop ends else .error .size

/-- mirrors Rust/messaging/src/csv.rs:39-63 -/
def decode {W : Type} (crates : Crates W) (bytes : Bytes) : Except CodecError Envelope := do
  checkRecord bytes
  let (result, used, data, ends) := crates.reader.readRecord bytes maxBody 16
  if result ≠ .record ∨ ¬ (used = bytes.length ∨ used + 1 = bytes.length ∧ bytes[used]? = some lf) then
    .error .decode
  else do
    let (cells, start) ← splitCells data [] 0 ends
    if start ≠ data.length then .error .decode else fromCells crates.float cells

/-- The loop over the cells and the terminator after it; `out` is what was
written so far. -/
def writeCells {W : Type} (core : Writer W) (capacity : Nat) :
    W → Bytes → List Text → Except CodecError Bytes
  | writer, out, [] =>
    let (_, result, written) := core.terminator writer (capacity - out.length)
    if result = .outputFull then .error .size else .ok (out ++ written)
  | writer, out, field :: rest =>
    let (writer, result, consumed, written) := core.field writer field.bytes (capacity - out.length)
    let out := out ++ written
    if result = .outputFull ∨ consumed ≠ field.bytes.length then .error .size
    else if rest.isEmpty then writeCells core capacity writer out rest
    else
      let (writer, result, written) := core.delimiter writer (capacity - out.length)
      let out := out ++ written
      if result = .outputFull then .error .size else writeCells core capacity writer out rest

/-- The bytes written to the front of `out`.
mirrors Rust/messaging/src/csv.rs:64-88 -/
def encode {W : Type} (crates : Crates W) (m : Envelope) (capacity : Nat) : Except CodecError Bytes := do
  let cells ← toCells crates.float m
  writeCells crates.writer capacity crates.writer.new [] cells

/-! ## Records -/

/-- A quoted field ends outside quotes, whatever follows it. -/
theorem checkRun_quoted {f : Field} (hf : ∀ b ∈ f, b ≠ cr ∧ b ≠ lf) :
    ∃ state, state ≠ .quoted ∧ checkStep state comma = some .start ∧
      ∀ rest, checkRun .start (quoted f ++ rest) = checkRun state rest := by
  have hq : quote ≠ comma ∧ ¬ (quote = cr ∨ quote = lf) := by decide
  by_cases hn : needsQuotes f = true
  · -- the content: every quote comes twice, so the state is back at `quoted`
    have hin : ∀ (g : Field) rest, (∀ b ∈ g, b ≠ cr ∧ b ≠ lf) →
        checkRun .quoted (doubled g ++ rest) = checkRun .quoted rest := by
      intro g
      induction g with
      | nil => intro rest _; rfl
      | cons b g ih =>
        intro rest hg
        have hb : ¬ (b = cr ∨ b = lf) := fun h => by
          obtain ⟨h1, h2⟩ := hg b List.mem_cons_self
          exact h.elim h1 h2
        have hrest := ih rest fun c hc => hg c (List.mem_cons_of_mem _ hc)
        by_cases hbq : b = quote
        · subst hbq
          simp [doubled, checkRun, checkStep, hb, hrest]
        · simp [doubled, checkRun, checkStep, hb, hbq, hrest]
    refine ⟨.closing, by decide, by decide, fun rest => ?_⟩
    have hquoted : quoted f ++ rest = quote :: (doubled f ++ quote :: rest) := by
      simp [quoted, opening, closing, hn]
    rw [hquoted]
    simp only [checkRun, checkStep, if_neg hq.2, if_true]
    rw [hin f _ hf]
    simp only [checkRun, checkStep, if_neg hq.2, if_true]
  · have hn := Bool.eq_false_iff.2 hn
    rw [quoted_plain hn]
    have hplain : ∀ b ∈ f, ¬ (b = cr ∨ b = lf) ∧ b ≠ quote ∧ b ≠ comma := by
      intro b hb
      have := List.any_eq_false.1 hn b hb
      simp only [isSpecial, Bool.or_eq_true, beq_iff_eq, not_or] at this
      obtain ⟨⟨⟨h1, h2⟩, h3⟩, h4⟩ := this
      exact ⟨fun h => h.elim h3 h4, h1, h2⟩
    cases f with
    | nil => exact ⟨.start, by decide, by decide, fun rest => rfl⟩
    | cons b f =>
      have hrun : ∀ (g : Field) rest, (∀ c ∈ g, ¬ (c = cr ∨ c = lf) ∧ c ≠ quote ∧ c ≠ comma) →
          checkRun .unquoted (g ++ rest) = checkRun .unquoted rest := by
        intro g
        induction g with
        | nil => intro rest _; rfl
        | cons c g ih =>
          intro rest hg
          obtain ⟨h1, h2, h3⟩ := hg c List.mem_cons_self
          simp only [List.cons_append, checkRun, checkStep, if_neg h1, if_neg h2, if_neg h3]
          exact ih rest fun d hd => hg d (List.mem_cons_of_mem _ hd)
      obtain ⟨h1, h2, h3⟩ := hplain b List.mem_cons_self
      refine ⟨.unquoted, by decide, by decide, fun rest => ?_⟩
      simp only [List.cons_append, checkRun, checkStep, if_neg h1, if_neg h2, if_neg h3]
      exact hrun f rest fun c hc => hplain c (List.mem_cons_of_mem _ hc)

theorem checkRun_joined {fields : List Field} (hne : fields ≠ [])
    (hf : ∀ f ∈ fields, ∀ b ∈ f, b ≠ cr ∧ b ≠ lf) :
    ∃ state, state ≠ .quoted ∧ checkRun .start (joined fields) = some state := by
  induction fields with
  | nil => exact absurd rfl hne
  | cons f fields ih =>
    obtain ⟨state, hst, hcomma, hrun⟩ := checkRun_quoted (hf f List.mem_cons_self)
    cases fields with
    | nil =>
      refine ⟨state, hst, ?_⟩
      have := hrun []
      rwa [List.append_nil] at this
    | cons g fields =>
      obtain ⟨state', hst', hrun'⟩ := ih (by simp) fun f' h => hf f' (List.mem_cons_of_mem _ h)
      refine ⟨state', hst', ?_⟩
      rw [joined, hrun, checkRun, if_neg (by decide), hcomma]
      exact hrun'

/-- Every record of fields without line ends passes the grammar check. -/
theorem checkRecord_record {fields : List Field} (hne : fields ≠ [])
    (hf : ∀ f ∈ fields, ∀ b ∈ f, b ≠ cr ∧ b ≠ lf) : checkRecord (record fields) = .ok () := by
  obtain ⟨state, hst, hrun⟩ := checkRun_joined hne hf
  have hsuffix : [cr, lf].isSuffixOf (record fields) = true :=
    List.isSuffixOf_iff_suffix.2 (List.suffix_append _ _)
  have htake : (record fields).take ((record fields).length - 2) = joined fields := by
    unfold record
    rw [List.length_append, show (joined fields).length + [cr, lf].length - 2 = (joined fields).length
      from rfl, List.take_left]
  unfold checkRecord
  rw [if_neg (by simp [hsuffix]), htake, hrun]
  simp [hst]

/-- The bytes of a row of cells. -/
def texts (cells : List Text) : List Field := cells.map (·.bytes)

/-- The writer's loop writes the record, from any writer between two fields. -/
theorem writeCells_record {W : Type} {core : Writer W} (hcore : core.Lawful) {capacity : Nat}
    {writer : W} {out : Bytes} {cells : List Text} (hne : cells ≠ [])
    (hin : core.inField writer = false) (hq : core.quoting writer = false)
    (hbytes : 0 < core.recordBytes writer ∨ 2 ≤ cells.length)
    (hf : ∀ t ∈ cells, ∀ b ∈ t.bytes, b ≠ cr ∧ b ≠ lf)
    (hroom : out.length + (record (texts cells)).length ≤ capacity) :
    writeCells core capacity writer out cells = .ok (out ++ record (texts cells)) := by
  induction cells generalizing writer out with
  | nil => exact absurd rfl hne
  | cons t cells ih =>
    have hquoted : (quoted t.bytes).length =
        (opening t.bytes).length + (closing (needsQuotes t.bytes)).length := List.length_append
    cases cells with
    | nil =>
      simp only [texts, List.map_cons, List.map_nil, record, joined, List.length_append,
        List.length_cons, List.length_nil] at hroom
      obtain ⟨w₁, hfield, hq₁, hb₁⟩ := hcore.field writer t.bytes (capacity - out.length) hin hq
        (hf t List.mem_cons_self) (by omega)
      obtain ⟨w₂, hterm⟩ := hcore.terminator w₁ (capacity - (out ++ opening t.bytes).length)
        (Nat.lt_of_lt_of_le (hbytes.resolve_right (by simp)) hb₁)
        (by rw [hq₁, List.length_append]; omega)
      simp only [writeCells, hfield, reduceCtorEq, ne_eq, not_true_eq_false, or_self, if_false,
        List.isEmpty_nil, if_true, hterm, hq₁]
      simp [texts, record, joined, quoted]
    | cons u cells =>
      simp only [texts, List.map_cons, record, joined, List.length_append, List.length_cons] at hroom
      obtain ⟨w₁, hfield, hq₁, -⟩ := hcore.field writer t.bytes (capacity - out.length) hin hq
        (hf t List.mem_cons_self) (by omega)
      obtain ⟨w₂, hdelim, hin₂, hq₂, hb₂⟩ := hcore.delimiter w₁
        (capacity - (out ++ opening t.bytes).length) (by rw [hq₁, List.length_append]; omega)
      have hrest := @ih w₂ (out ++ opening t.bytes ++ (closing (needsQuotes t.bytes) ++ [comma]))
        (by simp) hin₂ hq₂ (.inl hb₂) (fun t' h => hf t' (List.mem_cons_of_mem _ h)) (by
          simp only [texts, List.map_cons, record, List.length_append, List.length_cons,
            List.length_nil] at hroom ⊢
          omega)
      rw [writeCells]
      simp only [hfield, reduceCtorEq, ne_eq, not_true_eq_false, or_self, if_false, List.isEmpty_cons,
        Bool.false_eq_true, hdelim, hq₁]
      rw [hrest]
      simp [texts, record, joined, quoted]

/-- The ends cut the data into the cells it came from. -/
theorem splitCells_flatten (pre : Bytes) (done cells : List Text) (h16 : done.length + cells.length ≤ 16) :
    splitCells (pre ++ (texts cells).flatten) done pre.length (ends pre.length (texts cells)) =
      .ok (done ++ cells, (pre ++ (texts cells).flatten).length) := by
  induction cells generalizing pre done with
  | nil => simp [texts, ends, splitCells]
  | cons t cells ih =>
    have hdata : pre ++ (texts (t :: cells)).flatten = pre ++ t.bytes ++ (texts cells).flatten := by
      simp [texts]
    have hslice : ((pre ++ t.bytes ++ (texts cells).flatten).take (pre.length + t.bytes.length)).drop
        pre.length = t.bytes := by
      rw [List.take_left' (by rw [List.length_append]), List.drop_left]
    have hstop : pre.length + t.bytes.length = (pre ++ t.bytes).length := List.length_append.symm
    simp only [List.length_cons] at h16
    rw [hdata]
    simp only [texts, List.map_cons, ends, splitCells] at ih ⊢
    simp only [texts] at hslice
    rw [hslice, HString.ofBytes?_bytes]
    simp only [if_pos (show done.length < 16 by omega)]
    rw [hstop, ih (pre ++ t.bytes) (done ++ [t]) (by
      rw [List.length_append, List.length_singleton]; omega)]
    simp

/-- The reader takes a record of printable fields apart and stops at its end, or
in front of the last byte, an LF. -/
theorem readRecord_record {core : Reader} (hcore : core.Lawful) {fields : List Field} (cap : Nat)
    (hlen : 2 ≤ fields.length) (hprint : ∀ f ∈ fields, ∀ b ∈ f, isPrintable b = true)
    (hsize : fields.flatten.length < maxBody) (hcap : fields.length ≤ cap) :
    ∃ used, core.readRecord (record fields) maxBody cap =
        (.record, used, fields.flatten, ends 0 fields) ∧
      (used = (record fields).length ∨
        used + 1 = (record fields).length ∧ (record fields)[used]? = some lf) := by
  obtain ⟨used, hread, hused⟩ := hcore.reads fields maxBody cap hlen hprint hsize hcap
  refine ⟨used, hread, ?_⟩
  rcases hused with h | h
  · exact .inl h
  · refine .inr ⟨h, ?_⟩
    have hj : used = (joined fields).length + 1 := by
      simp only [record, List.length_append, List.length_cons, List.length_nil] at h
      omega
    rw [hj, record, List.getElem?_append_right (by omega)]
    simp

/-- A record of printable cells decodes to what its cells say. -/
theorem decode_record {W : Type} {crates : Crates W} (hc : crates.Lawful) {cells : List Text}
    (hlen : 2 ≤ cells.length ∧ cells.length ≤ 16)
    (hp : ∀ t ∈ cells, ∀ b ∈ t.bytes, isPrintable b = true)
    (hsize : (texts cells).flatten.length < maxBody) :
    decode crates (record (texts cells)) = fromCells crates.float cells := by
  have hne : texts cells ≠ [] := by
    intro h
    rw [texts, List.map_eq_nil_iff] at h
    rw [h] at hlen
    exact absurd hlen.1 (by decide)
  have hprint : ∀ f ∈ texts cells, ∀ b ∈ f, isPrintable b = true := by
    intro f hf
    obtain ⟨t, ht, rfl⟩ := List.mem_map.1 hf
    exact hp t ht
  have hcount : (texts cells).length = cells.length := List.length_map _
  obtain ⟨used, hread, hused⟩ := readRecord_record hc.reader 16 (by omega) hprint hsize (by omega)
  have hcheck := checkRecord_record hne fun f hf b hb => isPrintable_ne (hprint f hf b hb)
  have hsplit := splitCells_flatten [] [] cells (by simpa using hlen.2)
  simp only [List.nil_append, List.length_nil] at hsplit
  unfold decode
  rw [hcheck]
  simp only [except_ok_bind, hread, ne_eq, not_true_eq_false, hused, or_self, if_false, hsplit]

/-! ## The column tables are inverse -/

theorem device_chars {v : Option (HString 32)} (h : deviceIdValid v = true) :
    ∀ s ∈ v, s.bytes ≠ [] ∧ ∀ b ∈ s.bytes, isDeviceChar b = true := by
  rintro s hs
  cases hs
  simp only [deviceIdValid, Option.any_some, Bool.and_eq_true, Bool.not_eq_true',
    List.isEmpty_eq_false_iff, List.all_eq_true] at h
  exact h

theorem nonce_chars {v : Option (HString 16)} (h : v = none ∨ nonce v = true) :
    ∀ s ∈ v, s.bytes ≠ [] ∧ ∀ b ∈ s.bytes, isDeviceChar b = true := by
  rintro s hs
  cases hs
  have h := h.resolve_left (by simp)
  simp only [nonce, nonceBytes, Option.any_some, Bool.and_eq_true, beq_iff_eq, List.all_eq_true] at h
  obtain ⟨⟨hl, hx⟩, -⟩ := h
  refine ⟨fun he => ?_, fun b hb => isHexLower_device (hx b hb)⟩
  rw [he] at hl
  cases hl

theorem device_bare {v : Option (HString 32)} (h : deviceIdValid v = true) :
    ∃ t, Bare (stringCell 32) v 32 t :=
  string_bare (by decide) v (device_chars h)

theorem nonce_bare {v : Option (HString 16)} (h : v = none ∨ nonce v = true) :
    ∃ t, Bare (stringCell 16) v 16 t :=
  string_bare (by decide) v (nonce_chars h)

/-- Kinds have two digits. -/
theorem kind_range {m : Envelope} {format : Format} {kind : Int} (hv : Validation.ValidAs m format kind) :
    ∀ k ∈ m.kind, 0 ≤ k ∧ k < 100 := by
  rw [hv.hasKind]
  rintro k hk
  cases hk
  have := hv.known
  simp only [Validation.isRequest, Validation.isResponse, Validation.isPublication, Bool.or_eq_true,
    Bool.and_eq_true, decide_eq_true_eq, beq_iff_eq] at this
  omega

/-- The boot ID and the session are absent or well formed. -/
theorem ids_valid {m : Envelope} {format : Format} {kind : Int} (hv : Validation.ValidAs m format kind) :
    (m.bootId = none ∨ nonce m.bootId = true) ∧ (m.clientSession = none ∨ nonce m.clientSession = true) := by
  have hcase := hv.known
  simp only [Bool.or_eq_true] at hcase
  rcases hcase with (h | h) | h
  · have := hv.request h
    simp only [Validation.correlation, Bool.and_eq_true, Option.isNone_iff_eq_none] at this
    exact ⟨.inl this.1.1.1, .inr this.2.1.2⟩
  · have := hv.response h
    simp only [Validation.correlation, Bool.and_eq_true] at this
    exact ⟨.inr this.1.1.1, .inr this.2.1.2⟩
  · have := hv.publication h
    simp only [Bool.and_eq_true, Option.isNone_iff_eq_none] at this
    exact ⟨.inr this.1.1.1.1, .inl this.1.2⟩

/-- A message without its bodies. -/
def headerOf (m : Envelope) : Envelope :=
  { m with getDeviceInfo := none, getStatus := none, getHealth := none, deviceInfo := none,
           status := none, health := none, error := none }

/-- Eight cells carry the header. -/
theorem header_row {m : Envelope} {format : Format} {kind : Int} (hv : Validation.ValidAs m format kind)
    (lib : FloatText) : ∃ cells, headerCells m = .ok cells ∧ cells.length = 8 ∧ Row cells 106 ∧
      ∀ body, fromCells lib (cells ++ body) = fromBody lib (headerOf m) body := by
  have hids := ids_valid hv
  obtain ⟨t0, h0⟩ := u32_bare m.protocolVersion
  obtain ⟨t1, h1⟩ := i32_bare m.kind (kind_range hv)
  obtain ⟨t2, h2⟩ := device_bare hv.device
  obtain ⟨t3, h3⟩ := nonce_bare hids.1
  obtain ⟨t4, h4⟩ := nonce_bare hids.2
  obtain ⟨t5, h5⟩ := u32_bare m.requestId
  obtain ⟨t6, h6⟩ := u32_bare m.sequence
  obtain ⟨t7, h7⟩ := u32_bare m.uptimeMs
  refine ⟨[t0, t1, t2, t3, t4, t5, t6, t7], ?_, rfl,
    h0.cons (h1.cons (h2.cons (h3.cons (h4.cons (h5.cons (h6.cons (h7.cons .nil))))))), fun body => ?_⟩
  · unfold headerCells
    rw [h0.push (by simp), except_ok_bind, h1.push (by simp), except_ok_bind, h2.push (by simp),
      except_ok_bind, h3.push (by simp), except_ok_bind, h4.push (by simp), except_ok_bind,
      h5.push (by simp), except_ok_bind, h6.push (by simp), except_ok_bind, h7.push (by simp)]
    rfl
  · simp only [List.cons_append, List.nil_append, fromCells, h0.read, h1.read, h2.read, h3.read, h4.read,
      h5.read, h6.read, h7.read, except_ok_bind]
    rfl

/-- Some cells carry `v`: `write` adds them after any eight cells, `read` takes them back. -/
def Carries {α : Type} (write : List Text → α → Except CodecError (List Text))
    (read : List Text → Except CodecError α) (v : α) : Prop :=
  ∃ body, (∀ cells : List Text, cells.length = 8 → write cells v = .ok (cells ++ body)) ∧
    read body = .ok v ∧ body.length ≤ 5 ∧ Row body 42

theorem encoding_range (format : Format) : ∀ k ∈ some format.id, 0 ≤ k ∧ k < 100 := by
  rintro k hk
  cases hk
  cases format <;> simp [Format.id]

theorem deviceInfo_row {info : DeviceInfo} {format : Format}
    (hv : Validation.deviceInfoValid info format = true) : Carries deviceInfoCells deviceInfoOf info := by
  simp only [Validation.deviceInfoValid, Bool.and_eq_true, beq_iff_eq] at hv
  obtain ⟨henc, hfw⟩ := hv
  obtain ⟨t8, h8⟩ := string_carries (by decide) info.firmwareVersion fun s hs => by
    cases hfw' : info.firmwareVersion with
    | none => rw [hfw'] at hs; cases hs
    | some s' =>
      rw [hfw'] at hs hfw
      cases hs
      simp only [Option.any_some, Bool.and_eq_true, Bool.not_eq_true', List.isEmpty_eq_false_iff,
        List.all_eq_true] at hfw
      exact hfw
  obtain ⟨t9, h9⟩ := i32_bare info.encoding (henc ▸ encoding_range format)
  have hrow := h8.cons (h9.cons .nil)
  refine ⟨[t8, t9], fun cells hl => ?_, ?_, by simp, hrow.weaken (by decide)⟩
  · unfold deviceInfoCells
    rw [h8.push (by omega), except_ok_bind, h9.push (by simp; omega)]
    simp
  · simp only [deviceInfoOf, h8.read, h9.read, except_ok_bind]

/-- The ranges of a valid sample. -/
theorem status_ranges {status : Status} (hv : Validation.statusValid status = true) :
    (∀ k ∈ status.validity, 0 ≤ k ∧ k < 100) ∧ ∀ f ∈ status.temperatureCelsius, f.isFinite = true := by
  simp only [Validation.statusValid, Bool.and_eq_true] at hv
  obtain ⟨-, hv⟩ := hv
  split at hv
  · rename_i hk
    refine ⟨by rw [hk]; rintro k hk; cases hk; decide, fun f hf => ?_⟩
    rw [show status.temperatureCelsius = some f from hf] at hv
    simp only [Option.any_some, Validation.temperatureValid, Bool.and_eq_true] at hv
    exact hv.1
  · split at hv
    · rename_i hk
      refine ⟨?_, fun f hf => ?_⟩
      · rcases hk with hk | hk <;> (rw [hk]; rintro k hk; cases hk; decide)
      · rw [show status.temperatureCelsius = some f from hf] at hv
        cases hv
    · cases hv

theorem status_row {lib : FloatText} (hlib : lib.Lawful) {status : Status}
    (hv : Validation.statusValid status = true) : Carries (statusCells lib) (statusOf lib) status := by
  have hval := status_ranges hv
  obtain ⟨t8, h8⟩ := f32_bare hlib status.temperatureCelsius hval.2
  obtain ⟨t9, h9⟩ := i32_bare status.validity hval.1
  obtain ⟨t10, h10⟩ := bool_bare status.synthetic
  have hrow := h8.cons (h9.cons (h10.cons .nil))
  refine ⟨[t8, t9, t10], fun cells hl => ?_, ?_, by simp, hrow.weaken (by decide)⟩
  · unfold statusCells
    rw [h8.push (by omega), except_ok_bind, h9.push (by simp; omega), except_ok_bind,
      h10.push (by simp; omega)]
    simp
  · simp only [statusOf, h8.read, h9.read, h10.read, except_ok_bind]

theorem health_range {health : Health} (hv : Validation.healthValid health = true) :
    ∀ k ∈ health.state, 0 ≤ k ∧ k < 100 := by
  simp only [Validation.healthValid, Bool.and_eq_true, Bool.or_eq_true, beq_iff_eq] at hv
  obtain ⟨⟨⟨⟨hs, -⟩, -⟩, -⟩, -⟩ := hv
  rcases hs with hs | hs <;> (rw [hs]; rintro k hk; cases hk; decide)

theorem health_row {health : Health} (hv : Validation.healthValid health = true) :
    Carries healthCells healthOf health := by
  obtain ⟨t8, h8⟩ := i32_bare health.state (health_range hv)
  obtain ⟨t9, h9⟩ := u32_bare health.receivedRequests
  obtain ⟨t10, h10⟩ := u32_bare health.rejectedDatagrams
  obtain ⟨t11, h11⟩ := u32_bare health.sendErrors
  obtain ⟨t12, h12⟩ := u32_bare health.skippedPublications
  refine ⟨[t8, t9, t10, t11, t12], fun cells hl => ?_, ?_, by simp,
    h8.cons (h9.cons (h10.cons (h11.cons (h12.cons .nil))))⟩
  · unfold healthCells
    rw [h8.push (by omega), except_ok_bind, h9.push (by simp; omega), except_ok_bind,
      h10.push (by simp; omega), except_ok_bind, h11.push (by simp; omega), except_ok_bind,
      h12.push (by simp; omega)]
    simp
  · simp only [healthOf, h8.read, h9.read, h10.read, h11.read, h12.read, except_ok_bind]

theorem code_range {e : Model.Error} (hv : (e.code == some 1 || e.code == some 2) = true) :
    ∀ k ∈ e.code, 0 ≤ k ∧ k < 100 := by
  simp only [Bool.or_eq_true, beq_iff_eq] at hv
  rcases hv with hs | hs <;> (rw [hs]; rintro k hk; cases hk; decide)

theorem error_row {e : Model.Error} (hv : (e.code == some 1 || e.code == some 2) = true) :
    Carries (fun cells e => pushCell i32Cell cells e.code) errorOf e := by
  obtain ⟨t8, h8⟩ := i32_bare e.code (code_range hv)
  have hrow := h8.cons .nil
  refine ⟨[t8], fun cells hl => h8.push (by omega), ?_, by simp, hrow.weaken (by decide)⟩
  simp only [errorOf, h8.read, except_ok_bind]

/-- `body` carries the body of `m` after the header. -/
structure BodyRow (lib : FloatText) (m : Envelope) (body : List Text) : Prop where
  write : ∀ cells : List Text, cells.length = 8 → headerCells m = .ok cells →
    toCells lib m = .ok (cells ++ body)
  read : fromBody lib (headerOf m) body = .ok m
  count : body.length ≤ 5
  row : Row body 42

/-- A body without cells. -/
theorem BodyRow.empty {lib : FloatText} {m : Envelope}
    (hwrite : ∀ cells, headerCells m = .ok cells → toCells lib m = .ok cells)
    (hread : fromBody lib (headerOf m) [] = .ok m) : ∃ body, BodyRow lib m body := by
  refine ⟨[], fun cells _ hc => ?_, hread, by simp, Row.nil.weaken (by decide)⟩
  rw [List.append_nil]
  exact hwrite cells hc

/-- A body with a row. -/
theorem BodyRow.of_carries {lib : FloatText} {m : Envelope} {α : Type}
    {write : List Text → α → Except CodecError (List Text)} {read : List Text → Except CodecError α} {v : α}
    (hv : Carries write read v) (hwrite : ∀ cells, headerCells m = .ok cells → toCells lib m = write cells v)
    (hread : ∀ body, read body = .ok v → fromBody lib (headerOf m) body = .ok m) :
    ∃ body, BodyRow lib m body := by
  obtain ⟨body, hw, hr, hl, hrow⟩ := hv
  refine ⟨body, fun cells h8 hc => ?_, hread body hr, hl, hrow⟩
  rw [hwrite cells hc]
  exact hw cells h8

/-- The body of a validated message is carried. -/
theorem body_row {lib : FloatText} (hlib : lib.Lawful) {m : Envelope} {format : Format} {kind : Int}
    (hv : Validation.ValidAs m format kind) : ∃ body, BodyRow lib m body := by
  have hk := hv.hasKind
  have hkinds : kind = 1 ∨ kind = 2 ∨ kind = 3 ∨ kind = 11 ∨ kind = 12 ∨ kind = 13 ∨ kind = 14 ∨
      kind = 21 ∨ kind = 22 := by
    have := hv.known
    simp only [Validation.isRequest, Validation.isResponse, Validation.isPublication, Bool.or_eq_true,
      Bool.and_eq_true, decide_eq_true_eq, beq_iff_eq] at this
    omega
  have hunique := hv.body_unique
  have hinfo := hv.deviceInfo
  have hstatus := hv.status
  have hhealth := hv.health
  have herror := hv.error
  clear hv
  obtain ⟨_, _, _, _, _, _, _, _, getDeviceInfo, getStatus, getHealth, deviceInfo, status, health, error⟩ := m
  obtain rfl := hk
  rcases hkinds with rfl | rfl | rfl | rfl | rfl | rfl | rfl | rfl | rfl <;>
    simp only [Int.reduceBEq, BEq.rfl, Bool.or_false, Bool.or_true, Option.isSome_eq_false_iff,
      Option.isNone_iff_eq_none, Option.isSome_iff_exists] at hunique <;>
    obtain ⟨b1, b2, b3, b4, b5, b6, b7⟩ := hunique
  · obtain ⟨body, rfl⟩ := b1
    subst_vars
    exact BodyRow.empty (fun cells h => by simp only [toCells, h]; rfl) rfl
  · obtain ⟨body, rfl⟩ := b2
    subst_vars
    exact BodyRow.empty (fun cells h => by simp only [toCells, h]; rfl) rfl
  · obtain ⟨body, rfl⟩ := b3
    subst_vars
    exact BodyRow.empty (fun cells h => by simp only [toCells, h]; rfl) rfl
  · obtain ⟨body, rfl⟩ := b4
    subst_vars
    refine BodyRow.of_carries (deviceInfo_row (hinfo body rfl)) (fun cells h => ?_) fun cells h => ?_
    · simp only [toCells, h]
      rfl
    · simp only [fromBody, headerOf, h]
      rfl
  · obtain ⟨body, rfl⟩ := b5
    subst_vars
    refine BodyRow.of_carries (status_row hlib (hstatus body rfl)) (fun cells h => ?_) fun cells h => ?_
    · simp only [toCells, h]
      rfl
    · simp only [fromBody, headerOf, h]
      rfl
  · obtain ⟨body, rfl⟩ := b6
    subst_vars
    refine BodyRow.of_carries (health_row (hhealth body rfl)) (fun cells h => ?_) fun cells h => ?_
    · simp only [toCells, h]
      rfl
    · simp only [fromBody, headerOf, h]
      rfl
  · obtain ⟨body, rfl⟩ := b7
    subst_vars
    refine BodyRow.of_carries (error_row (herror body rfl)) (fun cells h => ?_) fun cells h => ?_
    · simp only [toCells, h]
      rfl
    · simp only [fromBody, headerOf, h]
      rfl
  · obtain ⟨body, rfl⟩ := b5
    subst_vars
    refine BodyRow.of_carries (status_row hlib (hstatus body rfl)) (fun cells h => ?_) fun cells h => ?_
    · simp only [toCells, h]
      rfl
    · simp only [fromBody, headerOf, h]
      rfl
  · obtain ⟨body, rfl⟩ := b6
    subst_vars
    refine BodyRow.of_carries (health_row (hhealth body rfl)) (fun cells h => ?_) fun cells h => ?_
    · simp only [toCells, h]
      rfl
    · simp only [fromBody, headerOf, h]
      rfl

/-- **The column tables are inverse** on validated messages, and the row is short. -/
theorem toCells_fromCells {lib : FloatText} (hlib : lib.Lawful) {m : Envelope} {format : Format}
    {kind : Int} (hv : Validation.ValidAs m format kind) : ∃ cells, toCells lib m = .ok cells ∧
      fromCells lib cells = .ok m ∧ Row cells 148 ∧ 8 ≤ cells.length ∧ cells.length ≤ 13 := by
  obtain ⟨header, hheader, hlen, hrow, hread⟩ := header_row hv lib
  obtain ⟨body, hbody⟩ := body_row hlib hv
  have hcount := hbody.count
  refine ⟨header ++ body, hbody.write header hlen hheader, (hread body).trans hbody.read,
    hrow.append hbody.row, ?_, ?_⟩
  · rw [List.length_append]; omega
  · rw [List.length_append]; omega

theorem texts_length (cells : List Text) :
    (texts cells).flatten.length = (cells.map fun t => t.bytes.length).sum := by
  rw [List.length_flatten, texts, List.map_map]
  rfl

/-- A validated message becomes one record of at most 1016 bytes, which decodes
to the message. -/
theorem encode_decode {W : Type} {crates : Crates W} (hc : crates.Lawful) {m : Envelope} {format : Format}
    (hm : Validation.validate m format = .ok ()) {capacity : Nat} (hcap : maxBody ≤ capacity) :
    ∃ body, encode crates m capacity = .ok body ∧ body ≠ [] ∧ body.length ≤ maxBody ∧
      decode crates body = .ok m := by
  obtain ⟨kind, hv⟩ := Validation.validate_ok_iff.1 hm
  obtain ⟨cells, hto, hfrom, hrow, h8, h13⟩ := toCells_fromCells hc.float hv
  have hlen : (record (texts cells)).length ≤ 400 := by
    have hj := joined_length (texts cells)
    have hsum : ((texts cells).map List.length).sum = (cells.map fun t => t.bytes.length).sum := by
      rw [texts, List.map_map]; rfl
    have := hrow.length
    rw [hsum, texts, List.length_map, ← texts] at hj
    simp only [record, List.length_append, List.length_cons, List.length_nil]
    omega
  have hmax : (400 : Nat) ≤ maxBody := by decide
  have hwrite : writeCells crates.writer capacity crates.writer.new [] cells =
      .ok ([] ++ record (texts cells)) :=
    writeCells_record hc.writer (fun h => by rw [h] at h8; cases h8) hc.writer.new.1 hc.writer.new.2
      (.inr (by omega)) (fun t ht b hb => isPrintable_ne (hrow.printable t ht b hb)) (by
        rw [List.length_nil]; omega)
  refine ⟨record (texts cells), ?_, by simp [record], by omega, ?_⟩
  · unfold encode
    rw [hto, except_ok_bind, hwrite, List.nil_append]
  · rw [decode_record hc ⟨by omega, by omega⟩ hrow.printable ?_, hfrom]
    have := hrow.length
    rw [texts_length]
    omega

end Csv

/-! ## `lib.rs` and `framing.rs` -/

namespace Messaging

open Model

variable {W : Type} (crates : Crates W)

/-- mirrors Rust/messaging/src/lib.rs:88-139 -/
def parse (format : Format) (bytes : Bytes) : Except CodecError Envelope :=
  if bytes.isEmpty then .error .decode
  else if maxBody < bytes.length then .error .size
  else match format with
    | .csv => Csv.decode crates bytes
    | _ => .error .decode

/-- A temperature equal to zero becomes positive zero.
mirrors Rust/messaging/src/lib.rs:146-152 -/
def normalizeStatus (status : Status) : Status :=
  if status.temperatureCelsius.any (·.eq F32.zero) then
    { status with temperatureCelsius := some F32.zero }
  else status

def normalize (m : Envelope) : Envelope := { m with status := m.status.map normalizeStatus }

/-- mirrors Rust/messaging/src/lib.rs:140-145 -/
def decode (format : Format) (bytes : Bytes) : Except CodecError Envelope := do
  let message ← parse crates format bytes
  Validation.validate message format
  .ok (normalize message)

/-- The buffer after the call and the length of the body in front of it.
mirrors Rust/messaging/src/lib.rs:153-179 -/
def encode (format : Format) (message : Envelope) (out : Bytes) : Except CodecError (Bytes × Nat) := do
  Validation.validate message format
  let capacity := min out.length maxBody
  let body ← match format with
    | .csv => Csv.encode crates (normalize message) capacity
    | _ => .error .validation
  .ok (body ++ out.drop body.length, body.length)

end Messaging

namespace Framing

variable {W : Type} (crates : Crates W)

/-- mirrors Rust/messaging/src/framing.rs:84-92 -/
def encode (format : Format) (mode : CrcMode) (message : Model.Envelope) (out : Bytes) :
    Except CodecError (Bytes × Nat) := do
  let (out, bodyLen) ← Messaging.encode crates format message out
  sealFrame crates.checksum mode out bodyLen

/-- mirrors Rust/messaging/src/framing.rs:96-98 -/
def decode (format : Format) (mode : CrcMode) (bytes : Bytes) : Except CodecError Model.Envelope := do
  let body ← openFrame crates.checksum mode bytes
  Messaging.decode crates format body

end Framing

/-! ## The round trip -/

namespace Messaging

open Model

theorem statusValid_normalize (status : Status) :
    Validation.statusValid (normalizeStatus status) = Validation.statusValid status := by
  have h0 : Validation.temperatureValid F32.zero = true := by decide
  have h0' : Validation.temperatureValid F32.negZero = true := by decide
  unfold normalizeStatus
  split
  · rename_i h
    obtain ⟨f, hf, hz⟩ := Option.any_eq_true .. |>.1 h
    unfold Validation.statusValid
    rcases (F32.eq_zero_iff f).1 hz with rfl | rfl <;> simp [hf, h0, h0']
  · rfl

theorem validate_normalize {m : Envelope} {format : Format}
    (h : Validation.validate m format = .ok ()) : Validation.validate (normalize m) format = .ok () := by
  obtain ⟨kind, hv⟩ := Validation.validate_ok_iff.1 h
  have hstatus : (normalize m).status.isSome = m.status.isSome := Option.isSome_map
  refine Validation.validate_ok_iff.2 ⟨kind, ⟨hv.version, hv.device, hv.hasKind, hv.known, ?_, ?_,
    hv.request, hv.response, hv.publication, hv.deviceInfo, fun status hs => ?_, hv.health, hv.error⟩⟩
  · exact (by unfold Validation.bodies; rw [hstatus]; rfl :
      Validation.bodies (normalize m) = Validation.bodies m).trans hv.oneBody
  · exact (by unfold Validation.bodyMatches; rw [hstatus]; rfl :
      Validation.bodyMatches (normalize m) kind = Validation.bodyMatches m kind).trans hv.body
  · obtain ⟨s, hs', rfl⟩ := Option.map_eq_some_iff.1 hs
    rw [statusValid_normalize]
    exact hv.status s hs'

theorem normalize_idem (m : Envelope) : normalize (normalize m) = normalize m := by
  have hs : ∀ s, normalizeStatus (normalizeStatus s) = normalizeStatus s := by
    intro s
    unfold normalizeStatus
    by_cases h : s.temperatureCelsius.any (·.eq F32.zero) = true
    · simp only [h, if_true]
      rfl
    · simp only [h, Bool.false_eq_true, if_false]
  unfold normalize
  simp only [Option.map_map]
  congr 1
  cases m.status with
  | none => rfl
  | some s => exact congrArg some (hs s)

/-- A body that `encode` wrote decodes to the normalized message. -/
theorem encode_decode {W : Type} {crates : Crates W} (hc : crates.Lawful) {m : Envelope}
    (hm : Validation.validate m .csv = .ok ()) {out : Bytes} (hout : maxBody ≤ out.length) :
    ∃ buffer n, encode crates .csv m out = .ok (buffer, n) ∧ n ≤ maxBody ∧
      buffer.length = out.length ∧ decode crates .csv (buffer.take n) = .ok (normalize m) := by
  have hnorm := validate_normalize hm
  obtain ⟨body, henc, hne, hlen, hdec⟩ := Csv.encode_decode hc hnorm
    (show maxBody ≤ min out.length maxBody by omega)
  refine ⟨body ++ out.drop body.length, body.length, ?_, hlen, ?_, ?_⟩
  · unfold encode
    simp only [hm, except_ok_bind, henc]
  · rw [List.length_append, List.length_drop]; omega
  · have hparse : parse crates .csv body = .ok (normalize m) := by
      unfold parse
      rw [if_neg (by simpa using hne), if_neg (Nat.not_lt.2 hlen)]
      exact hdec
    unfold decode
    rw [List.take_left, hparse, except_ok_bind, hnorm, except_ok_bind, normalize_idem]

end Messaging

/-- **Round trip.** With lawful crates, a validated message is framed into any
buffer of 1024 bytes, its body within 1016 of them, and the datagram decodes to
the message, a negative zero temperature made positive. -/
theorem csv_round_trip {W : Type} (crates : Crates W) (hc : crates.Lawful) (mode : CrcMode)
    (m : Model.Envelope) (hm : Validation.validate m .csv = .ok ()) (out : Bytes)
    (hout : 1024 ≤ out.length) :
    ∃ buffer n, Framing.encode crates .csv mode m out = .ok (buffer, n) ∧
      n ≤ maxBody + Framing.extra mode ∧
      Framing.decode crates .csv mode (buffer.take n) = .ok (Messaging.normalize m) := by
  obtain ⟨buffer, n, henc, hn, hlen, hdec⟩ := Messaging.encode_decode hc hm
    (Nat.le_trans (by decide : maxBody ≤ 1024) hout)
  have hextra : maxBody + Framing.extra mode ≤ 1024 := by cases mode <;> decide
  obtain ⟨sealed, hseal, -, hopen⟩ := Framing.openFrame_sealFrame crates.checksum mode hn
    (show n + Framing.extra mode ≤ buffer.length by omega)
  refine ⟨sealed, n + Framing.extra mode, ?_, by omega, ?_⟩
  · unfold Framing.encode
    rw [henc]
    exact hseal
  · unfold Framing.decode
    rw [hopen]
    exact hdec

namespace Sample

def crates : Crates Rfc4180.WriterState where
  writer := .reference
  reader := .reference
  float := floatText
  checksum := Framing.referenceChecksum

theorem crates_lawful : crates.Lawful :=
  ⟨Rfc4180.Writer.reference_lawful, Rfc4180.Reader.reference_lawful, floatText_lawful⟩

/-- A device information response whose version needs quotes. -/
def deviceInfo : Model.Envelope where
  protocolVersion := some 1
  kind := some 11
  deviceId := some device
  bootId := some boot
  clientSession := some session
  requestId := some 7
  uptimeMs := some 4000000000
  deviceInfo := some { firmwareVersion := some ⟨ascii "1.0, \"beta\" 2", by decide, by decide⟩
                       encoding := some 1 }

/-- A status response below freezing, by a sign. -/
def status : Model.Envelope :=
  { deviceInfo with
    kind := some 12
    deviceInfo := none
    status := some { temperatureCelsius := some F32.negZero, validity := some 1, synthetic := some true } }

end Sample

theorem csv_round_trip_samples :
    (∃ buffer n, Framing.encode Sample.crates .csv .on Sample.deviceInfo (List.replicate 1024 0) =
        .ok (buffer, n) ∧ n ≤ maxBody + Framing.extra .on ∧
      Framing.decode Sample.crates .csv .on (buffer.take n) =
        .ok (Messaging.normalize Sample.deviceInfo)) ∧
    ∃ buffer n, Framing.encode Sample.crates .csv .off Sample.status (List.replicate 1024 0) =
        .ok (buffer, n) ∧ n ≤ maxBody + Framing.extra .off ∧
      Framing.decode Sample.crates .csv .off (buffer.take n) = .ok (Messaging.normalize Sample.status) :=
  ⟨csv_round_trip Sample.crates Sample.crates_lawful .on Sample.deviceInfo (by rfl)
      (List.replicate 1024 0) (Nat.le_of_eq List.length_replicate.symm),
    csv_round_trip Sample.crates Sample.crates_lawful .off Sample.status (by rfl)
      (List.replicate 1024 0) (Nat.le_of_eq List.length_replicate.symm)⟩

end Nucleo
