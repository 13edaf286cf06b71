import Nucleo.Core.Rfc4180

/-!
# Reading one record of any alphabet

`fieldsOf q c` takes a line apart into the fields RFC 4180 gives it, for a
quote `q` and a comma `c` of any alphabet; there is no record where the quoting
is malformed. The bytes of a text and its characters are two alphabets for the
same line: `fieldsOf_flatten` says that they give the same fields.

`Reader.Documented` is what a streaming reader of records promises for every
line, a byte order mark in front of it or not, and `Reader.skipping` a reader
that keeps it.
-/
namespace Nucleo.Rfc4180

/-! ## Fields -/

/-- What a character is to its field. -/
inductive Act
  | skip | keep | close
  deriving DecidableEq

section Fields

variable {α : Type} [DecidableEq α] (q c : α)

/-- One character; `none` where RFC 4180 has no record. -/
def fieldStep : QuoteState → α → Option (QuoteState × Act)
  | .start, b =>
    if b = q then some (.quoted, .skip) else if b = c then some (.start, .close) else some (.unquoted, .keep)
  | .unquoted, b => if b = c then some (.start, .close) else if b = q then none else some (.unquoted, .keep)
  | .quoted, b => if b = q then some (.closing, .skip) else some (.quoted, .keep)
  | .closing, b => if b = q then some (.quoted, .keep) else if b = c then some (.start, .close) else none

/-- The fields of a line from a state, the first as far as it was read. -/
def fieldsRun : QuoteState → List α → List α → Option (List (List α))
  | state, field, [] => if state = .quoted then none else some [field]
  | state, field, b :: rest =>
    match fieldStep q c state b with
    | none => none
    | some (state, .skip) => fieldsRun state field rest
    | some (state, .keep) => fieldsRun state (field ++ [b]) rest
    | some (state, .close) => (fieldsRun state [] rest).map (field :: ·)

/-- The fields of a line. -/
def fieldsOf (line : List α) : Option (List (List α)) := fieldsRun q c .start [] line

/-- The state after a line; `none` where RFC 4180 has no record. -/
def quoteRun : QuoteState → List α → Option QuoteState
  | state, [] => some state
  | state, b :: rest =>
    match fieldStep q c state b with
    | none => none
    | some (state, _) => quoteRun state rest

/-- A line has fields when it ends outside of quotes. -/
theorem quoteRun_fields (state : QuoteState) (field line : List α) :
    (∃ last, quoteRun q c state line = some last ∧ last ≠ .quoted) ↔
      (fieldsRun q c state field line).isSome = true := by
  induction line generalizing state field with
  | nil =>
    rw [fieldsRun, quoteRun]
    constructor
    · rintro ⟨last, h, hne⟩
      cases h
      rw [if_neg hne]
      rfl
    · intro h
      refine ⟨state, rfl, fun hq => ?_⟩
      rw [if_pos hq] at h
      cases h
  | cons b line ih =>
    rw [quoteRun, fieldsRun]
    cases fieldStep q c state b with
    | none =>
      refine ⟨?_, (fun h => by cases h)⟩
      rintro ⟨last, h, -⟩
      cases h
    | some next =>
      obtain ⟨state', act⟩ := next
      cases act with
      | skip => exact ih state' field
      | keep => exact ih state' (field ++ [b])
      | close =>
        rw [Option.isSome_map]
        exact ih state' []

/-- The first field with something in front of it. -/
def afterPrefix {α : Type} (pre : List α) : List (List α) → List (List α)
  | [] => []
  | f :: fs => (pre ++ f) :: fs

/-- What was read of the first field stays in front of it. -/
theorem fieldsRun_prefix (state : QuoteState) (pre field line : List α) :
    fieldsRun q c state (pre ++ field) line = (fieldsRun q c state field line).map (afterPrefix pre) := by
  induction line generalizing state field with
  | nil =>
    rw [fieldsRun, fieldsRun]
    split <;> rfl
  | cons b line ih =>
    rw [fieldsRun, fieldsRun]
    cases fieldStep q c state b with
    | none => rfl
    | some next =>
      obtain ⟨state', act⟩ := next
      cases act with
      | skip => exact ih state' field
      | keep =>
        have := ih state' (field ++ [b])
        rwa [← List.append_assoc] at this
      | close =>
        rw [Option.map_map]
        rfl

/-- A field that has begun is no other until a quote. -/
theorem fieldsRun_unquoted {line : List α} (h : line.head? ≠ some q) (field : List α) :
    fieldsRun q c .unquoted field line = fieldsRun q c .start field line := by
  cases line with
  | nil => rfl
  | cons b line =>
    have hb : b ≠ q := fun hb => h (congrArg some hb)
    rw [fieldsRun, fieldsRun]
    by_cases hc : b = c
    · simp only [fieldStep, if_pos hc, if_neg hb]
    · simp only [fieldStep, if_neg hc, if_neg hb]

/-- The first field begins with what was read of it. -/
theorem fieldsRun_head {state : QuoteState} {field line : List α} {fields : List (List α)}
    (h : fieldsRun q c state field line = some fields) : ∃ more rest, fields = (field ++ more) :: rest := by
  induction line generalizing state field fields with
  | nil =>
    rw [fieldsRun] at h
    split at h
    · cases h
    · cases h
      exact ⟨[], [], by rw [List.append_nil]⟩
  | cons b line ih =>
    rw [fieldsRun] at h
    split at h
    · cases h
    · exact ih h
    · obtain ⟨more, rest, rfl⟩ := ih h
      exact ⟨b :: more, rest, by rw [List.append_assoc]; rfl⟩
    · obtain ⟨rest, -, rfl⟩ := Option.map_eq_some_iff.1 h
      exact ⟨[], rest, by rw [List.append_nil]⟩

/-- No more bytes than the line has. -/
theorem fieldsRun_length {state : QuoteState} {field line : List α} {fields : List (List α)}
    (h : fieldsRun q c state field line = some fields) :
    fields.flatten.length ≤ field.length + line.length := by
  induction line generalizing state field fields with
  | nil =>
    rw [fieldsRun] at h
    split at h
    · cases h
    · cases h
      simp
  | cons b line ih =>
    rw [fieldsRun] at h
    split at h
    · cases h
    · have := ih h
      rw [List.length_cons]
      omega
    · have := ih h
      rw [List.length_append, List.length_singleton] at this
      rw [List.length_cons]
      omega
    · obtain ⟨rest, hrest, rfl⟩ := Option.map_eq_some_iff.1 h
      have := ih hrest
      rw [List.flatten_cons, List.length_append, List.length_cons]
      rw [List.length_nil] at this
      omega

/-- Fields are made of the characters of the line. -/
theorem fieldsRun_mem {state : QuoteState} {field line : List α} {fields : List (List α)}
    (h : fieldsRun q c state field line = some fields) :
    ∀ f ∈ fields, ∀ b ∈ f, b ∈ field ∨ b ∈ line := by
  induction line generalizing state field fields with
  | nil =>
    rw [fieldsRun] at h
    split at h
    · cases h
    · cases h
      intro f hf b hb
      rw [List.mem_singleton.1 hf] at hb
      exact .inl hb
  | cons x line ih =>
    rw [fieldsRun] at h
    split at h
    · cases h
    · intro f hf b hb
      exact (ih h f hf b hb).imp_right (List.mem_cons_of_mem _)
    · intro f hf b hb
      rcases ih h f hf b hb with hmem | hmem
      · rcases List.mem_append.1 hmem with hmem | hmem
        · exact .inl hmem
        · rw [List.mem_singleton.1 hmem]
          exact .inr List.mem_cons_self
      · exact .inr (List.mem_cons_of_mem _ hmem)
    · obtain ⟨rest, hrest, rfl⟩ := Option.map_eq_some_iff.1 h
      intro f hf b hb
      rcases List.mem_cons.1 hf with rfl | hf
      · exact .inl hb
      · rcases ih hrest f hf b hb with hmem | hmem
        · cases hmem
        · exact .inr (List.mem_cons_of_mem _ hmem)

end Fields

/-! ## Two alphabets -/

/-- A character of a text in bytes: an ASCII byte, or bytes that are not. -/
structure IsChar (chr : List UInt8) : Prop where
  nonempty : chr ≠ []
  ascii : (∃ b, chr = [b]) ∨ ∀ b ∈ chr, b ≠ quote ∧ b ≠ comma ∧ b ≠ cr ∧ b ≠ lf

section Flatten

/-- A run of bytes that are neither quotes nor commas. -/
theorem fieldsRun_plain {bytes : List UInt8} (h : ∀ b ∈ bytes, b ≠ quote ∧ b ≠ comma ∧ b ≠ cr ∧ b ≠ lf)
    {state : QuoteState} (hs : state = .unquoted ∨ state = .quoted) (field rest : List UInt8) :
    fieldsRun quote comma state field (bytes ++ rest) =
      fieldsRun quote comma state (field ++ bytes) rest := by
  induction bytes generalizing field with
  | nil => rw [List.nil_append, List.append_nil]
  | cons b bytes ih =>
    obtain ⟨h1, h2, -, -⟩ := h b List.mem_cons_self
    have hstep : fieldStep quote comma state b = some (state, .keep) := by
      rcases hs with rfl | rfl
      · simp only [fieldStep, if_neg h1, if_neg h2]
      · simp only [fieldStep, if_neg h1]
    rw [List.cons_append, fieldsRun, hstep]
    dsimp only
    rw [ih (fun b hb => h b (List.mem_cons_of_mem _ hb)), List.append_assoc]
    rfl

/-- A character is one step of the characters and one or more of the bytes. -/
theorem fieldsRun_char {chr : List UInt8} (h : IsChar chr) (state : QuoteState) (field rest : List UInt8) :
    fieldsRun quote comma state field (chr ++ rest) =
      match fieldStep [quote] [comma] state chr with
      | none => none
      | some (state, .skip) => fieldsRun quote comma state field rest
      | some (state, .keep) => fieldsRun quote comma state (field ++ chr) rest
      | some (state, .close) => (fieldsRun quote comma state [] rest).map (field :: ·) := by
  rcases h.ascii with ⟨b, rfl⟩ | hplain
  · have hstep : fieldStep [quote] [comma] state [b] = fieldStep quote comma state b := by
      cases state <;> simp only [fieldStep, List.cons.injEq, and_true]
    rw [hstep]
    rfl
  · cases chr with
    | nil => exact absurd rfl h.nonempty
    | cons b bytes =>
      obtain ⟨h1, h2, -, -⟩ := hplain b List.mem_cons_self
      have hq : ∀ x : UInt8, b ≠ x → b :: bytes ≠ [x] := fun x hx he => hx (List.head_eq_of_cons_eq he)
      have htail := fun b hb => hplain b (List.mem_cons_of_mem _ hb)
      rw [List.cons_append, fieldsRun]
      cases state with
      | start =>
        simp only [fieldStep, if_neg h1, if_neg h2, if_neg (hq _ h1), if_neg (hq _ h2)]
        rw [fieldsRun_plain htail (.inl rfl), List.append_assoc]
        rfl
      | unquoted =>
        simp only [fieldStep, if_neg h1, if_neg h2, if_neg (hq _ h1), if_neg (hq _ h2)]
        rw [fieldsRun_plain htail (.inl rfl), List.append_assoc]
        rfl
      | quoted =>
        simp only [fieldStep, if_neg h1, if_neg (hq _ h1)]
        rw [fieldsRun_plain htail (.inr rfl), List.append_assoc]
        rfl
      | closing => simp only [fieldStep, if_neg h1, if_neg h2, if_neg (hq _ h1), if_neg (hq _ h2)]

theorem fieldsRun_flatten {text : List (List UInt8)} (h : ∀ chr ∈ text, IsChar chr) (state : QuoteState)
    (field : List (List UInt8)) :
    fieldsRun quote comma state field.flatten text.flatten =
      (fieldsRun [quote] [comma] state field text).map fun fields => fields.map List.flatten := by
  induction text generalizing state field with
  | nil =>
    rw [List.flatten_nil, fieldsRun, fieldsRun]
    split <;> rfl
  | cons chr text ih =>
    have ih := ih fun c hc => h c (List.mem_cons_of_mem _ hc)
    rw [List.flatten_cons, fieldsRun_char (h chr List.mem_cons_self), fieldsRun]
    cases hstep : fieldStep [quote] [comma] state chr with
    | none => rfl
    | some next =>
      obtain ⟨state', act⟩ := next
      cases act with
      | skip => exact ih state' field
      | keep =>
        have := ih state' (field ++ [chr])
        rwa [List.flatten_append, List.flatten_singleton] at this
      | close =>
        have := ih state' []
        rw [List.flatten_nil] at this
        simp only [this, Option.map_map]
        rfl

/-- **The bytes of a text have the fields of its characters.** -/
theorem fieldsOf_flatten {text : List (List UInt8)} (h : ∀ chr ∈ text, IsChar chr) :
    fieldsOf quote comma text.flatten =
      (fieldsOf [quote] [comma] text).map fun fields => fields.map List.flatten :=
  fieldsRun_flatten h .start []

end Flatten

/-! ## Streaming readers -/

/-- The byte order mark of UTF-8. -/
def bom : List UInt8 := [0xEF, 0xBB, 0xBF]

def LineFree (line : List UInt8) : Prop := ∀ b ∈ line, b ≠ cr ∧ b ≠ lf

/-- What a reader documents of one line: a leading mark is skipped, an empty
record too, and any other line comes apart into its fields as far as the two
buffers hold them. -/
structure Reader.Documented (core : Reader) : Prop where
  reads : ∀ {mark line : List UInt8} {fields : List Field} {room cap : Nat},
    (mark = bom ∨ mark = [] ∧ ¬ bom <+: line) → LineFree line → line ≠ [] →
    fieldsOf quote comma line = some fields → fields.flatten.length < room → fields.length ≤ cap →
    ∃ used, core.readRecord (mark ++ line ++ [cr, lf]) room cap =
        (.record, used, fields.flatten, ends 0 fields) ∧
      (used = (mark ++ line ++ [cr, lf]).length ∨ used + 1 = (mark ++ line ++ [cr, lf]).length)
  empty : ∀ {mark : List UInt8} {room cap : Nat}, mark = bom ∨ mark = [] →
    (core.readRecord (mark ++ [cr, lf]) room cap).1 ≠ .record
  full : ∀ {mark line : List UInt8} {fields : List Field} {room cap : Nat},
    (mark = bom ∨ mark = [] ∧ ¬ bom <+: line) → LineFree line →
    fieldsOf quote comma line = some fields → cap < fields.length →
    (core.readRecord (mark ++ line ++ [cr, lf]) room cap).1 ≠ .record

theorem bom_prefix {line : List UInt8} (h : ¬ bom <+: line) : ¬ bom <+: line ++ [cr, lf] := by
  intro hpre
  rcases List.prefix_or_prefix_of_prefix hpre (List.prefix_append line [cr, lf]) with hle | ⟨t, ht⟩
  · exact h hle
  · -- what is left of the mark begins the line end
    cases t with
    | nil => exact h ⟨[], by rw [List.append_nil, ← ht, List.append_nil]⟩
    | cons b t =>
      rw [← ht, List.prefix_append_right_inj] at hpre
      have hb : b = cr := (List.cons_prefix_cons.1 hpre).1
      have hmem : cr ∈ bom := by rw [← ht, ← hb]; simp
      exact absurd hmem (by decide)

/-- Takes the first line, whatever follows it. -/
def Reader.skipping : Reader where
  readRecord input room cap :=
    let mark := if bom.isPrefixOf input then bom.length else 0
    let line := (input.drop mark).takeWhile fun b => b != cr && b != lf
    match line, fieldsOf quote comma line with
    | [], _ => (.inputEmpty, input.length, [], [])
    | _, none => (.inputEmpty, input.length, [], [])
    | _, some fields =>
      if cap < fields.length then (.outputEndsFull, input.length, [], [])
      else if room ≤ fields.flatten.length then (.outputFull, input.length, [], [])
      else (.record, mark + line.length + 1, fields.flatten, ends 0 fields)

theorem skipping_line {mark line : List UInt8} (hm : mark = bom ∨ mark = [] ∧ ¬ bom <+: line)
    (hl : LineFree line) :
    (if bom.isPrefixOf (mark ++ line ++ [cr, lf]) then bom.length else 0) = mark.length ∧
      ((mark ++ line ++ [cr, lf]).drop mark.length).takeWhile (fun b => b != cr && b != lf) = line := by
  have hline : (line ++ [cr, lf]).takeWhile (fun b => b != cr && b != lf) = line := by
    rw [List.takeWhile_append_of_pos fun b hb => by
      obtain ⟨h1, h2⟩ := hl b hb
      simp [h1, h2]]
    exact List.append_nil line
  rw [List.append_assoc, List.drop_left]
  refine ⟨?_, hline⟩
  rcases hm with rfl | ⟨rfl, hno⟩
  · rw [if_pos (List.isPrefixOf_iff_prefix.2 (List.prefix_append _ _))]
  · exact if_neg fun h => bom_prefix hno (List.isPrefixOf_iff_prefix.1 h)

theorem Reader.skipping_documented : Reader.skipping.Documented where
  reads := by
    intro mark line fields room cap hm hl hne hf hroom hcap
    obtain ⟨h1, h2⟩ := skipping_line hm hl
    refine ⟨mark.length + line.length + 1, ?_, .inr ?_⟩
    · simp only [skipping, h1, h2, hf]
      cases line with
      | nil => exact absurd rfl hne
      | cons b line => rw [if_neg (Nat.not_lt.2 hcap), if_neg (Nat.not_le.2 hroom)]
    · simp only [List.length_append, List.length_cons, List.length_nil]
  empty := by
    intro mark room cap hm
    have hm : mark = bom ∨ mark = [] ∧ ¬ bom <+: [] := hm.imp_right fun h => ⟨h, by decide⟩
    obtain ⟨h1, h2⟩ := skipping_line hm fun b hb => by cases hb
    rw [List.append_nil] at h1 h2
    simp only [skipping, h1, h2]
    intro h
    cases h
  full := by
    intro mark line fields room cap hm hl hf hcap
    obtain ⟨h1, h2⟩ := skipping_line hm hl
    simp only [skipping, h1, h2, hf]
    cases line with
    | nil => exact fun h => by cases h
    | cons b line =>
      change (if cap < fields.length then _ else _ : ReadResult × Nat × List UInt8 × List Nat).1 ≠ .record
      rw [if_pos hcap]
      exact fun h => by cases h

end Nucleo.Rfc4180
