import Nucleo.Core.RecordGrammar
import Nucleo.L1Encoding.CsvPeers

/-!
# The grammar of a message record

`check_record` in `csv.rs` and the loop over the characters in `codec.py` are
the same grammar: one line of plain and quoted fields, its quotes doubled, and a
CRLF at the end of it and nowhere else.

Results:
* `checkRecord_iff_record`, `grammarCheck_iff`: what each side accepts.
* `record_grammar`: the grammar, its two readings and its unique split.
-/
namespace Nucleo
open Rfc4180 PyCodec

/-! ## The grammar -/

/-- A field: empty or a plain run, or quoted with every quote doubled. -/
inductive CsvField : Bytes → Prop
  | plain (text : Bytes) (h : ∀ b ∈ text, b ≠ quote ∧ b ≠ comma ∧ b ≠ cr ∧ b ≠ lf) : CsvField text
  | quoted (content : Bytes) (h : ∀ b ∈ content, b ≠ cr ∧ b ≠ lf) :
    CsvField (quote :: doubled content ++ [quote])

/-- `f1,f2,…,fn` and one CRLF. -/
structure IsRecord (fields : List Bytes) (bytes : Bytes) : Prop where
  nonempty : fields ≠ []
  every : ∀ f ∈ fields, CsvField f
  joined : bytes = [comma].intercalate fields ++ [cr, lf]

theorem doubles_eq (content : Bytes) : doubles quote content = doubled content := by
  induction content with
  | nil => rfl
  | cons b content ih => rw [doubles, doubled, ih]

theorem mem_doubled {b : UInt8} {content : Bytes} : b ∈ doubled content ↔ b ∈ content := by
  induction content with
  | nil => exact Iff.rfl
  | cons x content ih =>
    rw [doubled]
    split
    · rename_i hx
      simp [ih, hx]
    · simp [ih]

/-- A field of the grammar is a field text without line ends. -/
theorem csvField_iff {f : Bytes} : CsvField f ↔ (∃ value, FieldText quote comma f value) ∧ LineFree f := by
  have hquote : quote ≠ cr ∧ quote ≠ lf := by decide
  constructor
  · intro h
    cases h with
    | plain _ h =>
      exact ⟨⟨f, .plain f fun b hb => ⟨(h b hb).1, (h b hb).2.1⟩⟩, fun b hb => (h b hb).2.2⟩
    | quoted content h =>
      refine ⟨⟨content, ?_⟩, fun b hb => ?_⟩
      · rw [← doubles_eq]
        exact .quoted content
      · simp only [List.cons_append, List.mem_cons, List.mem_append, mem_doubled, List.not_mem_nil,
          or_false] at hb
        rcases hb with rfl | hb | rfl
        · exact hquote
        · exact h b hb
        · exact hquote
  · rintro ⟨⟨value, h⟩, hfree⟩
    cases h with
    | plain _ h => exact .plain f fun b hb => ⟨(h b hb).1, (h b hb).2, hfree b hb⟩
    | quoted value =>
      rw [doubles_eq] at hfree ⊢
      refine .quoted value fun b hb => hfree b ?_
      simp [mem_doubled, hb]

theorem lineFree_intercalate {fields : List Bytes} :
    LineFree ([comma].intercalate fields) ↔ ∀ f ∈ fields, LineFree f := by
  rw [← line_eq_intercalate]
  have hcomma : comma ≠ cr ∧ comma ≠ lf := by decide
  induction fields with
  | nil => simp [line, LineFree]
  | cons f fields ih => cases fields with
    | nil => simp [line]
    | cons g fields =>
      rw [line, List.forall_mem_cons]
      constructor
      · intro h
        exact ⟨fun b hb => h b (List.mem_append_left _ hb),
          ih.1 fun b hb => h b (List.mem_append_right _ (List.mem_cons_of_mem _ hb))⟩
      · rintro ⟨hf, hrest⟩ b hb
        rcases List.mem_append.1 hb with hb | hb
        · exact hf b hb
        · rcases List.mem_cons.1 hb with rfl | hb
          · exact hcomma
          · exact ih.2 hrest b hb

/-- A record is a line of the grammar and its end. -/
theorem isRecord_iff {fields : List Bytes} {bytes : Bytes} : IsRecord fields bytes ↔
    ∃ line, bytes = withEnd line ∧ LineFree line ∧ IsLine quote comma fields line := by
  constructor
  · rintro ⟨hne, hfields, rfl⟩
    refine ⟨_, rfl, lineFree_intercalate.2 fun f hf => (csvField_iff.1 (hfields f hf)).2, hne,
      fun f hf => (csvField_iff.1 (hfields f hf)).1, line_eq_intercalate _ _⟩
  · rintro ⟨line, rfl, hfree, hne, hfields, rfl⟩
    rw [line_eq_intercalate] at hfree ⊢
    exact ⟨hne, fun f hf => csvField_iff.2 ⟨hfields f hf, lineFree_intercalate.1 hfree f hf⟩, rfl⟩

/-! ## The two checks -/

/-- `check_record` accepts the records of the grammar. -/
theorem checkRecord_iff_record {bytes : Bytes} :
    Csv.checkRecord bytes = .ok () ↔ ∃ fields, IsRecord fields bytes := by
  rw [checkRecord_iff]
  constructor
  · rintro ⟨line, rfl, hfree, hsome⟩
    obtain ⟨fields, hline⟩ := (fieldsOf_isSome_iff (by decide)).1 hsome
    exact ⟨fields, isRecord_iff.2 ⟨line, rfl, hfree, hline⟩⟩
  · rintro ⟨fields, hrecord⟩
    obtain ⟨line, rfl, hfree, hline⟩ := isRecord_iff.1 hrecord
    exact ⟨line, rfl, hfree, (fieldsOf_isSome_iff (by decide)).2 ⟨fields, hline⟩⟩

/-- The check of `decode` in front of `csv.reader`.
mirrors Rust/tools/message-demo/python/codec.py:175-191 -/
def PyCodec.grammarCheck (text : PyStr) : Except CodecError Unit := do
  let line ← lineOf text
  match checkText .start line with
  | none => .error .decode
  | some state => requireOr .decode (state ≠ .quoted)

/-- The characters of a text pass when its bytes do. -/
theorem grammarCheck_iff {bytes : Bytes} {text : PyStr} (h : decodeUtf8 bytes = some text) :
    grammarCheck text = .ok () ↔ Csv.checkRecord bytes = .ok () := by
  rw [checkRecord_iff]
  constructor
  · intro hcheck
    obtain ⟨line, hline, hstates⟩ := except_bind_ok.1 hcheck
    obtain ⟨rfl, hcr, hlf⟩ := lineOf_iff.1 hline
    obtain ⟨htext, rfl⟩ := line_of_chars h
    split at hstates
    · cases hstates
    · rename_i state hstate
      rw [checkText_eq] at hstate
      have hne := of_decide_eq_true (requireOr_eq_ok.1 hstates)
      have hsome := (quoteRun_fields [quote] [comma] .start [] line).1 ⟨state, hstate, hne⟩
      refine ⟨_, rfl, htext.lineFree.2 ⟨hcr, hlf⟩, ?_⟩
      rw [htext.fields, Option.isSome_map]
      exact hsome
  · rintro ⟨line, rfl, hfree, hsome⟩
    obtain ⟨l, htext, rfl, rfl⟩ := chars_withEnd h
    obtain ⟨hcr, hlf⟩ := htext.lineFree.1 hfree
    rw [htext.fields, Option.isSome_map] at hsome
    obtain ⟨state, hstate, hne⟩ := (quoteRun_fields [quote] [comma] .start [] l).2 hsome
    rw [grammarCheck, lineOf_iff.2 ⟨rfl, hcr, hlf⟩, except_ok_bind, checkText_eq, hstate]
    exact requireOr_eq_ok.2 (decide_eq_true hne)

/-- **The grammar of a record.** `check_record` accepts the records and nothing
else; a valid text passes Python's check when its bytes pass; the fields of a
record are unique. -/
theorem record_grammar (bytes : Bytes) :
    (Csv.checkRecord bytes = .ok () ↔ ∃ fields, IsRecord fields bytes) ∧
    (utf8Valid bytes = true → ∃ text, decodeUtf8 bytes = some text ∧ text.encode = bytes ∧
      (Csv.checkRecord bytes = .ok () ↔ grammarCheck text = .ok ())) ∧
    ∀ fields fields', IsRecord fields bytes → IsRecord fields' bytes → fields = fields' := by
  refine ⟨checkRecord_iff_record, fun hv => ?_, fun fields fields' h h' => ?_⟩
  · rw [← decodeUtf8_isSome, Option.isSome_iff_exists] at hv
    obtain ⟨text, htext⟩ := hv
    exact ⟨text, htext, (decodeUtf8_spec htext).1, (grammarCheck_iff htext).symm⟩
  · obtain ⟨line, rfl, -, hline⟩ := isRecord_iff.1 h
    obtain ⟨line', he, -, hline'⟩ := isRecord_iff.1 h'
    obtain rfl := withEnd_inj he
    exact hline.unique (by decide) hline'

namespace Sample

/-- `a,"b""c",,é` and a CRLF. -/
def quotedRecord : Bytes :=
  [97, comma, quote, 98, quote, quote, 99, quote, comma, comma, 0xC3, 0xA9, cr, lf]

def quotedFields : List Bytes := [[97], [quote, 98, quote, quote, 99, quote], [], [0xC3, 0xA9]]

end Sample

theorem record_grammar_sample : Csv.checkRecord Sample.quotedRecord = .ok () ∧
    IsRecord Sample.quotedFields Sample.quotedRecord ∧
    (∃ text, decodeUtf8 Sample.quotedRecord = some text ∧ text.encode = Sample.quotedRecord ∧
      (Csv.checkRecord Sample.quotedRecord = .ok () ↔ grammarCheck text = .ok ())) ∧
    ∀ fields, IsRecord fields Sample.quotedRecord → fields = Sample.quotedFields := by
  have hrecord : IsRecord Sample.quotedFields Sample.quotedRecord := by
    refine ⟨List.cons_ne_nil _ _, ?_, rfl⟩
    simp only [Sample.quotedFields, List.forall_mem_cons]
    exact ⟨.plain _ (by decide +kernel), .quoted [98, quote, 99] (by decide +kernel), .plain _ (by decide +kernel),
      .plain _ (by decide +kernel), fun _ h => by cases h⟩
  obtain ⟨h1, h2, h3⟩ := record_grammar Sample.quotedRecord
  exact ⟨h1.2 ⟨_, hrecord⟩, hrecord, h2 (by decide), fun fields h => h3 _ _ h hrecord⟩

end Nucleo
