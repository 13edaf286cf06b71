import Mathlib

/-!
# RFC 4180 records

Comma-separated fields, quoted when they have to be, quotes doubled inside,
one CRLF at the end: `record`. A program meets them through a streaming writer
and a record reader; `Writer` and `Reader` are the two interfaces, with the
caller's free room as an argument and the bytes put there as a result.
`Writer.Lawful` and `Reader.Lawful` say that an implementation writes and reads
`record`, on fields a protocol would use: without line ends for the writer,
printable ASCII for the reader.

`Writer.reference` and `Reader.reference` are implementations of both
(`Writer.reference_lawful`, `Reader.reference_lawful`).
-/
namespace Nucleo.Rfc4180

abbrev Field := List UInt8

def quote : UInt8 := 34
def comma : UInt8 := 44
def cr : UInt8 := 13
def lf : UInt8 := 10

def isSpecial (b : UInt8) : Bool := b == quote || b == comma || b == cr || b == lf

def needsQuotes (f : Field) : Bool := f.any isSpecial

/-- Every quote twice. -/
def doubled : Field → List UInt8
  | [] => []
  | b :: f => if b = quote then quote :: quote :: doubled f else b :: doubled f

/-- A field without its closing quote. -/
def opening (f : Field) : List UInt8 := if needsQuotes f then quote :: doubled f else f

def closing (quoting : Bool) : List UInt8 := if quoting then [quote] else []

def quoted (f : Field) : List UInt8 := opening f ++ closing (needsQuotes f)

def joined : List Field → List UInt8
  | [] => []
  | [f] => quoted f
  | f :: g :: fs => quoted f ++ comma :: joined (g :: fs)

def record (fields : List Field) : List UInt8 := joined fields ++ [cr, lf]

/-- `0x20..=0x7e`. -/
def isPrintable (b : UInt8) : Bool := 0x20 ≤ b && b ≤ 0x7e

theorem isPrintable_ne {b : UInt8} (h : isPrintable b = true) : b ≠ cr ∧ b ≠ lf := by
  simp only [isPrintable, Bool.and_eq_true, decide_eq_true_eq, UInt8.le_iff_toNat_le] at h
  constructor <;> rintro rfl <;> exact absurd h.1 (by decide)

theorem doubled_length (f : Field) : (doubled f).length ≤ 2 * f.length := by
  induction f with
  | nil => exact Nat.le_refl _
  | cons b f ih =>
    rw [doubled]
    split <;> simp only [List.length_cons] <;> omega

theorem quoted_length (f : Field) : (quoted f).length ≤ 2 * f.length + 2 := by
  have := doubled_length f
  unfold quoted opening closing
  split <;> simp <;> omega

theorem quoted_plain {f : Field} (h : needsQuotes f = false) : quoted f = f := by
  simp [quoted, opening, closing, h]

theorem joined_snoc {fields : List Field} (hne : fields ≠ []) (f : Field) :
    joined (fields ++ [f]) = joined fields ++ comma :: quoted f := by
  induction fields with
  | nil => exact absurd rfl hne
  | cons g fields ih => cases fields with
    | nil => rfl
    | cons h fields =>
      simp only [List.cons_append, joined, List.append_assoc] at ih ⊢
      rw [ih (by simp)]

theorem joined_length (fields : List Field) :
    (joined fields).length ≤ 2 * (fields.map List.length).sum + 3 * fields.length := by
  induction fields with
  | nil => exact Nat.le_refl _
  | cons f fields ih =>
    have := quoted_length f
    cases fields with
    | nil => simp only [joined, List.map_cons, List.map_nil, List.sum_cons, List.sum_nil,
        List.length_cons, List.length_nil]; omega
    | cons g fields =>
      simp only [List.map_cons, List.sum_cons, List.length_cons] at ih
      simp only [joined, List.map_cons, List.sum_cons, List.length_cons, List.length_append]
      omega

/-- The end of each field in the concatenation of all. -/
def ends : Nat → List Field → List Nat
  | _, [] => []
  | start, f :: fields => (start + f.length) :: ends (start + f.length) fields

/-! ## Writing -/

inductive WriteResult
  | inputEmpty | outputFull
  deriving DecidableEq

/-- A streaming writer. Each call takes the room left and returns the bytes it
put there; `field` also how much of the field it consumed. The last three say
where a writer stands. -/
structure Writer (W : Type) where
  new : W
  field : W → Field → Nat → W × WriteResult × Nat × List UInt8
  delimiter : W → Nat → W × WriteResult × List UInt8
  terminator : W → Nat → W × WriteResult × List UInt8
  inField : W → Bool
  quoting : W → Bool
  recordBytes : W → Nat

/-- Quoting when necessary: a call with enough room writes its part of the
record. The closing quote comes with the next delimiter or terminator. A record
of no bytes is left out: a writer has to mark it. -/
structure Writer.Lawful {W : Type} (core : Writer W) : Prop where
  new : core.inField core.new = false ∧ core.quoting core.new = false
  field : ∀ w f room, core.inField w = false → core.quoting w = false → (∀ b ∈ f, b ≠ cr ∧ b ≠ lf) →
    (opening f).length ≤ room →
    ∃ w', core.field w f room = (w', .inputEmpty, f.length, opening f) ∧
      core.quoting w' = needsQuotes f ∧ core.recordBytes w ≤ core.recordBytes w'
  delimiter : ∀ w room, (closing (core.quoting w)).length + 1 ≤ room →
    ∃ w', core.delimiter w room = (w', .inputEmpty, closing (core.quoting w) ++ [comma]) ∧
      core.inField w' = false ∧ core.quoting w' = false ∧ 0 < core.recordBytes w'
  terminator : ∀ w room, 0 < core.recordBytes w → (closing (core.quoting w)).length + 2 ≤ room →
    ∃ w', core.terminator w room = (w', .inputEmpty, closing (core.quoting w) ++ [cr, lf])

structure WriterState where
  inField : Bool
  quoting : Bool
  recordBytes : Nat

def put (room : Nat) (bytes : List UInt8) : WriteResult × List UInt8 :=
  if bytes.length ≤ room then (.inputEmpty, bytes) else (.outputFull, bytes.take room)

theorem put_fits {room : Nat} {bytes : List UInt8} (h : bytes.length ≤ room) :
    put room bytes = (.inputEmpty, bytes) := if_pos h

def Writer.reference : Writer WriterState where
  new := ⟨false, false, 0⟩
  field s f room :=
    let quoting := if s.inField then s.quoting else needsQuotes f
    let first := if !s.inField && quoting then [quote] else []
    let (result, written) := put room (first ++ if quoting then doubled f else f)
    (⟨true, quoting, s.recordBytes + written.length⟩, result,
      if result = .inputEmpty then f.length else 0, written)
  delimiter s room :=
    let (result, written) := put room (closing s.quoting ++ [comma])
    (⟨false, false, s.recordBytes + written.length⟩, result, written)
  terminator s room :=
    let mark := if s.recordBytes = 0 then [quote, quote] else []
    let (result, written) := put room (closing s.quoting ++ mark ++ [cr, lf])
    (⟨false, false, 0⟩, result, written)
  inField := WriterState.inField
  quoting := WriterState.quoting
  recordBytes := WriterState.recordBytes

theorem Writer.reference_lawful : Writer.reference.Lawful where
  new := ⟨rfl, rfl⟩
  field := by
    rintro ⟨inField, quoting, recordBytes⟩ f room hin - - hroom
    cases (show inField = false from hin)
    have hwrite : ((if !false && needsQuotes f then [quote] else []) ++
        if needsQuotes f then doubled f else f) = opening f := by
      unfold opening
      cases needsQuotes f <;> rfl
    refine ⟨⟨true, needsQuotes f, recordBytes + (opening f).length⟩, ?_, rfl, Nat.le_add_right _ _⟩
    simp only [reference, Bool.false_eq_true, if_false, hwrite, put_fits hroom, if_true]
  delimiter := by
    rintro ⟨inField, quoting, recordBytes⟩ room hroom
    have hfit : (closing quoting ++ [comma]).length ≤ room := by
      rw [List.length_append]; exact hroom
    refine ⟨⟨false, false, recordBytes + (closing quoting ++ [comma]).length⟩, ?_, rfl, rfl, ?_⟩
    · simp only [reference, put_fits hfit]
    · simp only [reference, List.length_append, List.length_singleton]; omega
  terminator := by
    rintro ⟨inField, quoting, recordBytes⟩ room hpos hroom
    have hfit : (closing quoting ++ [cr, lf]).length ≤ room := by
      rw [List.length_append]; exact hroom
    have hne : recordBytes ≠ 0 := Nat.ne_of_gt hpos
    refine ⟨⟨false, false, 0⟩, ?_⟩
    simp only [reference, if_neg hne, List.append_nil, put_fits hfit]

/-! ## Reading -/

inductive ReadResult
  | record | inputEmpty | outputFull | outputEndsFull | done
  deriving DecidableEq

/-- Reads one record: the result, the input used, and the field bytes and field
ends put into the caller's two buffers, whose sizes are the arguments. -/
structure Reader where
  readRecord : List UInt8 → Nat → Nat → ReadResult × Nat × List UInt8 × List Nat

/-- A record comes apart into its fields. The reader may stop between the CR
and the LF. It wants a byte of room to spare, and a lone empty field may pass
for a blank line. -/
structure Reader.Lawful (core : Reader) : Prop where
  reads : ∀ fields room cap, 2 ≤ fields.length → (∀ f ∈ fields, ∀ b ∈ f, isPrintable b = true) →
    fields.flatten.length < room → fields.length ≤ cap →
    ∃ used, core.readRecord (record fields) room cap =
        (.record, used, fields.flatten, ends 0 fields) ∧
      (used = (record fields).length ∨ used + 1 = (record fields).length)

/-- Where in a field a byte-by-byte reader is. -/
inductive QuoteState
  | start | unquoted | quoted | closing
  deriving DecidableEq

/-- The data and ends so far, the input used so far. -/
def scan : QuoteState → Nat → List UInt8 → List Nat → List UInt8 →
    ReadResult × Nat × List UInt8 × List Nat
  | _, used, data, ends, [] => (.inputEmpty, used, data, ends)
  | .quoted, used, data, ends, b :: rest =>
    if b = quote then scan .closing (used + 1) data ends rest
    else scan .quoted (used + 1) (data ++ [b]) ends rest
  | state, used, data, ends, b :: rest =>
    if b = comma then scan .start (used + 1) data (ends ++ [data.length]) rest
    else if b = cr then (.record, used + 1, data, ends ++ [data.length])
    else if b = quote ∧ state = .start then scan .quoted (used + 1) data ends rest
    else if b = quote ∧ state = .closing then scan .quoted (used + 1) (data ++ [b]) ends rest
    else scan .unquoted (used + 1) (data ++ [b]) ends rest

theorem scan_comma {state : QuoteState} (h : state ≠ .quoted) (used : Nat) (data : List UInt8)
    (ends : List Nat) (rest : List UInt8) : scan state used data ends (comma :: rest) =
      scan .start (used + 1) data (ends ++ [data.length]) rest := by
  cases state <;> first | exact absurd rfl h | simp [scan]

theorem scan_cr {state : QuoteState} (h : state ≠ .quoted) (used : Nat) (data : List UInt8)
    (ends : List Nat) (rest : List UInt8) : scan state used data ends (cr :: rest) =
      (.record, used + 1, data, ends ++ [data.length]) := by
  have hne : cr ≠ comma := by decide
  cases state <;> first | exact absurd rfl h | simp [scan, hne]

theorem scan_doubled (f : Field) (used : Nat) (data : List UInt8) (ends : List Nat)
    (rest : List UInt8) : scan .quoted used data ends (doubled f ++ quote :: rest) =
      scan .closing (used + (doubled f).length + 1) (data ++ f) ends rest := by
  induction f generalizing used data with
  | nil => simp [doubled, scan]
  | cons b f ih =>
    have hne : quote ≠ comma ∧ quote ≠ cr := by decide
    by_cases hb : b = quote
    · subst hb
      have : scan .quoted used data ends (quote :: quote :: (doubled f ++ quote :: rest)) =
          scan .quoted (used + 2) (data ++ [quote]) ends (doubled f ++ quote :: rest) := by
        simp [scan, hne]
      simp only [doubled, if_true, List.cons_append]
      rw [this, ih]
      simp only [List.length_cons, List.append_assoc, List.singleton_append]
      congr 1; omega
    · simp only [doubled, if_neg hb, List.cons_append, scan]
      rw [ih]
      simp only [List.length_cons, List.append_assoc, List.singleton_append]
      congr 1; omega

theorem scan_plain {f : Field} (h : needsQuotes f = false) (used : Nat) (data : List UInt8)
    (ends : List Nat) (rest : List UInt8) : scan .unquoted used data ends (f ++ rest) =
      scan .unquoted (used + f.length) (data ++ f) ends rest := by
  induction f generalizing used data with
  | nil => simp
  | cons b f ih =>
    simp only [needsQuotes, List.any_cons, Bool.or_eq_false_iff] at h
    obtain ⟨hb, hf⟩ := h
    simp only [isSpecial, Bool.or_eq_false_iff, beq_eq_false_iff_ne] at hb
    simp only [List.cons_append, scan, hb, if_false, false_and]
    rw [ih (by simpa [needsQuotes] using hf)]
    simp only [List.length_cons, List.append_assoc, List.singleton_append]
    congr 1; omega

/-- One field, whatever follows it. -/
theorem scan_quoted (f : Field) : ∃ state, state ≠ .quoted ∧ ∀ used data ends rest,
    scan .start used data ends (quoted f ++ rest) =
      scan state (used + (quoted f).length) (data ++ f) ends rest := by
  by_cases hq : needsQuotes f = true
  · refine ⟨.closing, by decide, fun used data ends rest => ?_⟩
    have hne : quote ≠ comma ∧ quote ≠ cr := by decide
    have hquoted : quoted f = quote :: (doubled f ++ [quote]) := by
      simp [quoted, opening, closing, hq]
    rw [hquoted]
    simp only [List.cons_append, List.append_assoc, List.nil_append, scan, hne, if_false, true_and,
      if_true]
    rw [scan_doubled]
    simp only [List.length_cons, List.length_append, List.length_nil]
    congr 1; omega
  · have hq := Bool.eq_false_iff.2 hq
    rw [quoted_plain hq]
    cases f with
    | nil => exact ⟨.start, by decide, fun used data ends rest => by simp⟩
    | cons b f =>
      refine ⟨.unquoted, by decide, fun used data ends rest => ?_⟩
      simp only [needsQuotes, List.any_cons, Bool.or_eq_false_iff] at hq
      obtain ⟨hb, hf⟩ := hq
      simp only [isSpecial, Bool.or_eq_false_iff, beq_eq_false_iff_ne] at hb
      simp only [List.cons_append, scan, hb, if_false, false_and]
      rw [scan_plain (by simpa [needsQuotes] using hf)]
      simp only [List.length_cons, List.append_assoc, List.singleton_append]
      congr 1; omega

theorem scan_record {fields : List Field} (h : fields ≠ []) (used : Nat) (data : List UInt8)
    (es : List Nat) : scan .start used data es (record fields) =
      (.record, used + (joined fields).length + 1, data ++ fields.flatten,
        es ++ ends data.length fields) := by
  induction fields generalizing used data es with
  | nil => exact absurd rfl h
  | cons f fields ih =>
    obtain ⟨state, hst, hscan⟩ := scan_quoted f
    cases fields with
    | nil =>
      simp only [record, joined]
      rw [hscan, scan_cr hst]
      simp [ends]
    | cons g fields =>
      simp only [record, joined, List.append_assoc, List.cons_append] at ih ⊢
      rw [hscan, scan_comma hst, ih (by simp)]
      simp only [ends, List.length_append, List.length_cons, List.flatten_cons, List.append_assoc,
        List.singleton_append]
      congr 2
      omega

def Reader.reference : Reader where
  readRecord input room cap :=
    let (result, used, data, ends) := scan .start 0 [] [] input
    if room ≤ data.length then (.outputFull, used, data.take room, ends.take cap)
    else if cap < ends.length then (.outputEndsFull, used, data, ends.take cap)
    else (result, used, data, ends)

theorem ends_length (start : Nat) (fields : List Field) : (ends start fields).length = fields.length := by
  induction fields generalizing start with
  | nil => rfl
  | cons f fields ih => simp [ends, ih]

theorem Reader.reference_lawful : Reader.reference.Lawful where
  reads := by
    intro fields room cap hlen _ hroom hcap
    have hne : fields ≠ [] := fun h => by rw [h] at hlen; exact absurd hlen (by decide)
    refine ⟨(joined fields).length + 1, ?_, .inr (by simp [record])⟩
    simp only [reference]
    rw [scan_record hne]
    simp only [List.nil_append, List.length_nil, Nat.zero_add, ends_length]
    rw [if_neg (Nat.not_le.2 hroom), if_neg (Nat.not_lt.2 hcap)]

end Nucleo.Rfc4180
