import Nucleo.L1Encoding.PeerRows

/-!
# The two CSV decoders

`csv.rs` checks the quoting of the bytes and has `csv_core` take them apart,
`codec.py` decodes UTF-8 first and does the same to the characters. Without a
byte order mark in front they read every line alike. With one they do not:
`csv_core` drops it, after the grammar check took it for the beginning of an
unquoted cell, and Python keeps it in the first cell.

Results:
* `rust_line`, `pyDecode_ok_iff`: what each accepts, by the line.
* `decoders_agree_iff`: the two differ on marked records alone.
* `marked_request`: one of them.
-/
namespace Nucleo
open Rfc4180 PyCodec

/-! ## The bytes -/

/-- The grammar check is the quoting of a line without line ends. -/
theorem checkRun_iff (state : QuoteState) (line : Bytes) (last : QuoteState) :
    Csv.checkRun state line = some last ↔ LineFree line ∧ quoteRun quote comma state line = some last := by
  induction line generalizing state with
  | nil => exact ⟨fun h => ⟨(fun b hb => by cases hb), h⟩, fun h => h.2⟩
  | cons b line ih =>
    have hfree : LineFree (b :: line) ↔ ¬ (b = cr ∨ b = lf) ∧ LineFree line := by
      simp [LineFree, not_or]
    rw [Csv.checkRun, quoteRun, hfree]
    by_cases hend : b = cr ∨ b = lf
    · rw [if_pos hend]
      exact ⟨(fun h => by cases h), fun h => absurd hend h.1.1⟩
    · have hstep : Csv.checkStep state b = (fieldStep quote comma state b).map (·.1) := by
        cases state <;> simp only [Csv.checkStep, fieldStep] <;> (repeat' split) <;> rfl
      rw [if_neg hend, hstep]
      cases fieldStep quote comma state b with
      | none => exact ⟨(fun h => by cases h), fun h => by cases h.2⟩
      | some next =>
        refine (ih next.1).trans ⟨fun h => ⟨⟨hend, h.1⟩, h.2⟩, fun h => ⟨h.1.2, h.2⟩⟩

/-- A line and its end. -/
def withEnd (line : Bytes) : Bytes := line ++ [cr, lf]

theorem withEnd_take (line : Bytes) : (withEnd line).take ((withEnd line).length - 2) = line := by
  rw [withEnd, List.length_append]
  exact List.take_left' rfl

theorem withEnd_head {line : Bytes} : (withEnd line).head? ≠ some quote ↔ line.head? ≠ some quote := by
  cases line with
  | nil => decide
  | cons b line => rfl

theorem withEnd_inj {a b : Bytes} (h : withEnd a = withEnd b) : a = b := by
  rw [← withEnd_take a, h, withEnd_take]

/-- What the grammar check passes: a line with fields. -/
theorem checkRecord_iff {bytes : Bytes} : Csv.checkRecord bytes = .ok () ↔
    ∃ line, bytes = withEnd line ∧ LineFree line ∧ (fieldsOf quote comma line).isSome = true := by
  constructor
  · intro h
    unfold Csv.checkRecord at h
    split at h
    · cases h
    · rename_i hsuffix
      obtain ⟨line, rfl⟩ := List.isSuffixOf_iff_suffix.1 (Decidable.not_not.1 hsuffix)
      have hend : line ++ [cr, lf] = withEnd line := rfl
      rw [hend, withEnd_take] at h
      split at h
      · cases h
      · rename_i last hlast
        split at h
        · cases h
        · rename_i hne
          obtain ⟨hfree, hrun⟩ := (checkRun_iff _ _ _).1 hlast
          exact ⟨line, rfl, hfree, (quoteRun_fields _ _ _ [] _).1 ⟨last, hrun, hne⟩⟩
  · rintro ⟨line, rfl, hfree, hsome⟩
    obtain ⟨last, hrun, hne⟩ := (quoteRun_fields _ _ _ [] _).2 hsome
    have hsuffix : [cr, lf].isSuffixOf (withEnd line) = true :=
      List.isSuffixOf_iff_suffix.2 (List.suffix_append _ _)
    unfold Csv.checkRecord
    rw [if_neg (Decidable.not_not.2 hsuffix), withEnd_take, (checkRun_iff _ _ _).2 ⟨hfree, hrun⟩]
    exact if_neg hne

/-- The loop over the ends makes cells of the fields. -/
theorem splitCells_texts {fields : List Bytes} {pre : Bytes} {done cells : List Text} {n : Nat}
    (h : Csv.splitCells (pre ++ fields.flatten) done pre.length (ends pre.length fields) = .ok (cells, n)) :
    ∃ new, cells = done ++ new ∧ Csv.texts new = fields := by
  induction fields generalizing pre done with
  | nil =>
    cases h
    exact ⟨[], (List.append_nil _).symm, rfl⟩
  | cons f fields ih =>
    have hdata : pre ++ (f :: fields).flatten = pre ++ f ++ fields.flatten := by simp
    have hslice : ((pre ++ f ++ fields.flatten).take (pre.length + f.length)).drop pre.length = f := by
      rw [List.take_left' (by rw [List.length_append]), List.drop_left]
    rw [hdata, ends, Csv.splitCells, hslice] at h
    split at h
    · cases h
    · rename_i text htext
      split at h
      · rw [← List.length_append] at h
        obtain ⟨new, rfl, hnew⟩ := ih h
        refine ⟨text :: new, by simp, ?_⟩
        have hbytes : text.bytes = f := by
          unfold HString.ofBytes? at htext
          split at htext
          · cases htext
            rfl
          · cases htext
        simp [Csv.texts, hbytes, ← hnew]
      · cases h

/-- The message of a line: its fields as cells. -/
def lineMessage (float : FloatText) (line : Bytes) (m : Model.Envelope) : Prop :=
  ∃ cells, fieldsOf quote comma line = some (Csv.texts cells) ∧ Csv.fromCells float cells = .ok m

theorem fromCells_count {float : FloatText} {cells : List Text} {m : Model.Envelope}
    (h : Csv.fromCells float cells = .ok m) : 2 ≤ cells.length ∧ cells.length ≤ 16 := by
  have hbody : ∀ (e : Model.Envelope) (body : List Text), Csv.fromBody float e body = .ok m → body.length ≤ 5 := by
    intro e body hb
    by_contra hlen
    rcases body with _ | ⟨_, _ | ⟨_, _ | ⟨_, _ | ⟨_, _ | ⟨_, _ | ⟨_, body⟩⟩⟩⟩⟩⟩
    case cons.cons.cons.cons.cons.cons =>
      simp only [Csv.fromBody, Csv.noCells, Csv.deviceInfoOf, Csv.statusOf, Csv.healthOf, Csv.errorOf,
        except_error_bind] at hb
      (repeat' split at hb) <;> cases hb
    all_goals simp at hlen
  obtain ⟨c0, c1, c2, c3, c4, c5, c6, c7, rest, rfl⟩ := length_eight (fromCells_length h)
  rw [fromCells_eq] at h
  obtain ⟨header, -, h⟩ := except_bind_ok.1 h
  have := hbody _ _ h
  simp only [List.length_cons]
  omega

/-- **What the streaming reader makes of a line**, a mark before it or not. -/
theorem decode_line {W : Type} {crates : Crates W} (hreader : crates.reader.Documented) {mark line : Bytes}
    (hm : mark = bom ∨ mark = [] ∧ ¬ bom <+: line) (hfree : LineFree line)
    (hcheck : Csv.checkRecord (mark ++ withEnd line) = .ok ())
    (hsome : (fieldsOf quote comma line).isSome = true) (hsize : (mark ++ withEnd line).length ≤ maxBody)
    {m : Model.Envelope} :
    Csv.decode crates (mark ++ withEnd line) = .ok m ↔ lineMessage crates.float line m := by
  obtain ⟨fields, hfields⟩ := Option.isSome_iff_exists.1 hsome
  have hassoc : mark ++ withEnd line = mark ++ line ++ [cr, lf] := (List.append_assoc _ _ _).symm
  have hcount : ∀ cells, fieldsOf quote comma line = some (Csv.texts cells) → cells.length = fields.length := by
    intro cells h
    rw [hfields] at h
    rw [Option.some.inj h, Csv.texts, List.length_map]
  have hnone : (crates.reader.readRecord (mark ++ withEnd line) maxBody 16).1 ≠ .record →
      Csv.decode crates (mark ++ withEnd line) ≠ .ok m := by
    intro hne h
    unfold Csv.decode at h
    rw [hcheck, except_ok_bind] at h
    simp only at h
    rw [if_pos (.inl hne)] at h
    cases h
  by_cases hnil : line = []
  · subst hnil
    constructor
    · refine fun h => absurd h (hnone ?_)
      rw [hassoc, List.append_nil]
      exact hreader.empty (hm.imp_right And.left)
    · rintro ⟨cells, hc, h⟩
      have h1 := hcount cells hc
      cases hfields
      have := (fromCells_count h).1
      rw [h1] at this
      exact absurd this (by decide)
  · by_cases hcap : fields.length ≤ 16
    · have hroom : fields.flatten.length < maxBody := by
        have := fieldsRun_length _ _ hfields
        rw [hassoc, List.length_append, List.length_append] at hsize
        simp only [List.length_cons, List.length_nil] at this hsize
        omega
      obtain ⟨used, hread, hused⟩ := hreader.reads hm hfree hnil hfields hroom hcap
      rw [← hassoc] at hread hused
      have hend : used = (mark ++ withEnd line).length ∨
          used + 1 = (mark ++ withEnd line).length ∧ (mark ++ withEnd line)[used]? = some lf := by
        refine hused.imp_right fun h => ⟨h, ?_⟩
        have hlast : (mark ++ withEnd line).getLast? = some lf := by simp [withEnd]
        rw [List.getLast?_eq_getElem?, ← h, Nat.add_sub_cancel] at hlast
        exact hlast
      have hdecode : Csv.decode crates (mark ++ withEnd line) =
          Csv.splitCells fields.flatten [] 0 (ends 0 fields) >>= fun r =>
            if r.2 ≠ fields.flatten.length then .error .decode else Csv.fromCells crates.float r.1 := by
        unfold Csv.decode
        rw [hcheck, except_ok_bind, hread]
        simp only [ne_eq, not_true_eq_false, hend, or_self, if_false]
      rw [hdecode]
      constructor
      · intro h
        obtain ⟨⟨cells, start⟩, hsplit, h⟩ := except_bind_ok.1 h
        obtain ⟨new, hnew, htexts⟩ := @splitCells_texts fields [] [] cells start hsplit
        rw [List.nil_append] at hnew
        dsimp only at h
        split at h
        · cases h
        · exact ⟨cells, by rw [hnew, htexts, hfields], h⟩
      · rintro ⟨cells, hc, h⟩
        have hl := hcount cells hc
        have hsplit := Csv.splitCells_flatten [] [] cells (by simpa [hl] using hcap)
        cases hfields.symm.trans hc
        simp only [List.nil_append, List.length_nil] at hsplit
        rw [hsplit, except_ok_bind]
        simpa using h
    · constructor
      · refine fun h => absurd h (hnone ?_)
        rw [hassoc]
        exact hreader.full hm hfree hfields (Nat.lt_of_not_le hcap)
      · rintro ⟨cells, hc, h⟩
        rw [← hcount cells hc] at hcap
        exact absurd (fromCells_count h).2 hcap

/-! ## The characters -/

/-- The character check is the quoting of the characters. -/
theorem checkText_eq (state : QuoteState) (line : PyStr) :
    checkText state line = quoteRun [quote] [comma] state line := by
  induction line generalizing state with
  | nil => cases state <;> rfl
  | cons b line ih =>
    have hne : ([quote] : Bytes) ≠ [comma] := by decide
    rw [quoteRun]
    cases state with
    | start =>
      simp only [checkText, fieldStep]
      split
      · exact ih _
      · split <;> exact ih _
    | unquoted =>
      simp only [checkText, fieldStep]
      by_cases hc : b = [comma]
      · have hq : b ≠ [quote] := fun hq => hne (hq.symm.trans hc)
        rw [if_neg hq, if_pos hc, if_pos hc]
        exact ih _
      · rw [if_neg hc, if_neg hc]
        split
        · rfl
        · exact ih _
    | quoted =>
      simp only [checkText, fieldStep]
      split <;> exact ih _
    | closing =>
      simp only [checkText, fieldStep]
      by_cases hq : b = [quote]
      · rw [if_neg (Decidable.not_not.2 (.inl hq)), if_pos hq, if_pos hq]
        exact ih _
      · by_cases hc : b = [comma]
        · rw [if_neg (Decidable.not_not.2 (.inr hc)), if_neg hq, if_neg hq, if_pos hc]
          exact ih _
        · rw [if_pos fun h => h.elim hq hc, if_neg hq, if_neg hc]

/-- The last byte of a text is its last character, when it is ASCII. -/
theorem IsText.snoc {s : PyStr} (hs : IsText s) {a : Bytes} {b : UInt8} (hb : b < 0x80)
    (he : s.encode = a ++ [b]) : ∃ l, s = l ++ [[b]] ∧ l.encode = a := by
  rcases List.eq_nil_or_concat s with rfl | ⟨l, c, rfl⟩
  · exact absurd he.symm (by simp)
  · have hc := hs c (by simp)
    have hflat : PyStr.encode l ++ c = a ++ [b] := by
      rw [← he]
      simp [PyStr.encode]
    rcases hc.ascii with ⟨x, rfl, -⟩ | hhigh
    · obtain ⟨h1, h2⟩ := List.append_inj' hflat rfl
      cases h2
      exact ⟨l, List.concat_eq_append, h1⟩
    · have hlast : c.getLast? = some b := by
        have := congrArg List.getLast? hflat
        rwa [List.getLast?_append_of_ne_nil _ hc.nonempty, List.getLast?_concat] at this
      have := hhigh b (List.mem_of_getLast? hlast)
      exact absurd (UInt8.lt_of_lt_of_le hb this) (UInt8.lt_irrefl _)

/-- A character of a text is a line end when one of its bytes is. -/
theorem IsText.lineFree {s : PyStr} (hs : IsText s) :
    LineFree s.encode ↔ s.contains [cr] = false ∧ s.contains [lf] = false := by
  have hmem : ∀ b : UInt8, b < 0x80 → (b ∈ s.encode ↔ [b] ∈ s) := by
    intro b hb
    constructor
    · intro h
      obtain ⟨c, hc, hbc⟩ := List.mem_flatten.1 h
      rcases (hs c hc).ascii with ⟨x, rfl, -⟩ | hhigh
      · rw [List.mem_singleton.1 hbc]
        exact hc
      · exact absurd (UInt8.lt_of_lt_of_le hb (hhigh b hbc)) (UInt8.lt_irrefl _)
    · exact fun h => List.mem_flatten.2 ⟨[b], h, List.mem_singleton_self b⟩
  have hfree : LineFree s.encode ↔ cr ∉ s.encode ∧ lf ∉ s.encode := by
    constructor
    · exact fun h => ⟨fun hc => (h _ hc).1 rfl, fun hc => (h _ hc).2 rfl⟩
    · rintro ⟨h1, h2⟩ b hb
      refine ⟨?_, ?_⟩ <;> rintro rfl
      · exact h1 hb
      · exact h2 hb
  rw [hfree, hmem cr (by decide), hmem lf (by decide)]
  simp

/-- The line of a text that ends in CRLF and has no other line end. -/
theorem lineOf_iff {text line : PyStr} : lineOf text = .ok line ↔
    text = line ++ [[cr], [lf]] ∧ line.contains [cr] = false ∧ line.contains [lf] = false := by
  have htake : ∀ l : PyStr, (l ++ [[cr], [lf]]).take ((l ++ [[cr], [lf]]).length - 2) = l := by
    intro l
    rw [List.length_append]
    exact List.take_left' rfl
  rw [lineOf, requireOr_bind]
  constructor
  · intro h
    split at h
    · rename_i hc
      rw [Bool.and_eq_true, Bool.and_eq_true, Bool.not_eq_true', Bool.not_eq_true'] at hc
      obtain ⟨l, rfl⟩ := List.isSuffixOf_iff_suffix.1 hc.1.1
      rw [htake] at h hc
      cases h
      exact ⟨rfl, hc.1.2, hc.2⟩
    · cases h
  · rintro ⟨rfl, hcr, hlf⟩
    have hsuffix : [[cr], [lf]].isSuffixOf (line ++ [[cr], [lf]]) = true :=
      List.isSuffixOf_iff_suffix.2 (List.suffix_append _ _)
    rw [htake, hsuffix, hcr, hlf]
    rfl

/-- What Python accepts, by the line. -/
theorem pyDecode_ok_iff {lib : PyFloat} {bytes : Bytes} {m : Message PyStr} :
    PyCodec.decode lib bytes = .ok m ↔ bytes.length ≤ maxBody ∧ ∃ line row,
      decodeUtf8 bytes = some (line ++ [[cr], [lf]]) ∧ line.contains [cr] = false ∧ line.contains [lf] = false ∧
        fieldsOf [quote] [comma] line = some row ∧ decodeRow lib row = .ok m := by
  constructor
  · intro h
    rw [PyCodec.decode, requireOr_bind] at h
    split at h
    · rename_i hsize
      rw [requireOr_bind] at h
      split at h
      · split at h
        · cases h
        · rename_i text htext
          obtain ⟨line, hline, hrest⟩ := except_bind_ok.1 h
          obtain ⟨he, hcr, hlf⟩ := lineOf_iff.1 hline
          split at hrest
          · cases hrest
          · rw [requireOr_bind] at hrest
            split at hrest
            · obtain ⟨row, hrow, hrest⟩ := except_bind_ok.1 hrest
              refine ⟨of_decide_eq_true hsize, line, row, htext.trans (congrArg some he), hcr, hlf, ?_, hrest⟩
              unfold csvRow at hrow
              split at hrow
              · cases hrow
                exact absurd (decodeRow_header hrest).1 (by decide)
              · split at hrow
                · cases hrow
                · rename_i row' hrow'
                  cases hrow
                  exact hrow'
            · cases hrest
      · cases h
    · cases h
  · rintro ⟨hsize, line, row, htext, hcr, hlf, hrow, h⟩
    have hne : bytes ≠ [] := by
      rintro rfl
      cases line <;> cases htext
    have hnil : ¬ line.isEmpty = true := by
      intro he
      rw [List.isEmpty_iff.1 he] at hrow
      cases hrow
      exact absurd (decodeRow_header h).1 (by decide)
    have hsome : (fieldsOf [quote] [comma] line).isSome = true := by rw [hrow]; rfl
    obtain ⟨last, hlast, hquoted⟩ := (quoteRun_fields [quote] [comma] .start [] line).2 hsome
    have hcheck := (checkText_eq .start line).trans hlast
    rw [PyCodec.decode, requireOr_bind, if_pos (decide_eq_true hsize), requireOr_bind,
      if_pos (by simpa using hne), htext]
    dsimp only
    rw [lineOf_iff.2 ⟨rfl, hcr, hlf⟩, except_ok_bind, hcheck]
    dsimp only
    rw [requireOr_bind, if_pos (decide_eq_true hquoted), csvRow, if_neg hnil, hrow]
    exact h

/-! ## Short cells -/

/-- Every cell type but the float has short texts. -/
structure ShortCell {α : Type} (c : Cell α) : Prop where
  short : ∀ f v, c.read f = .ok v → f.length ≤ 128

theorem integerCell_short {α : Type} (parse : Bytes → Option α) (print : α → Bytes) :
    ShortCell (integerCell parse print) where
  short f v h := by
    simp only [integerCell] at h
    split at h
    · cases h
    · obtain ⟨canonical, -, h⟩ := except_bind_ok.1 h
      split at h
      · cases h
      · rename_i he
        rw [← Decidable.not_not.1 he]
        exact canonical.len_le

theorem stringCell_short {n : Nat} (hn : n ≤ 128) : ShortCell (stringCell n) where
  short f v h := by
    rw [string_read_iff.1 h]
    exact Nat.le_trans v.len_le hn

theorem Agree.short {α : Type} {c : Cell α} (hc : ShortCell c) {t : PyStr} {toScalar : α → Scalar Bytes}
    {py : Option (Option (Scalar PyStr))} (h : Agree t (cell c t.encode) toScalar py) (hpy : py ≠ none) :
    t.encode.length ≤ 128 := by
  by_contra hlong
  refine hpy (h.fails fun v hv => hlong ?_)
  unfold cell at hv
  split at hv
  · rename_i hempty
    rw [List.isEmpty_iff.1 hempty]
    exact Nat.zero_le _
  · split at hv
    · rename_i a ha
      exact hc.short _ a ha
    · cases hv

/-- A field of no status: an integer or a short string. -/
def isPlain (f : PyCodec.Field) : Bool :=
  f == { type := 13 } || f == { type := 14 } || f == { type := 9, capacity := some 16 } ||
    f == { type := 9, capacity := some 32 }

theorem pyCell_short {lib : PyFloat} {f : PyCodec.Field} (hf : isPlain f = true) {t : PyStr} (ht : IsText t)
    (h : pyCell lib f t ≠ none) : t.encode.length ≤ 128 := by
  simp only [isPlain, Bool.or_eq_true, beq_iff_eq] at hf
  rcases hf with ((rfl | rfl) | rfl) | rfl
  · exact (u32_agrees ht lib).short (integerCell_short _ _) h
  · exact (i32_agrees ht lib).short (integerCell_short _ _) h
  · exact (string_agrees ht lib).short (stringCell_short (by decide)) h
  · exact (string_agrees ht lib).short (stringCell_short (by decide)) h

theorem shapedColumns_short {lib : PyFloat} {name : Shape} (keys : List Key)
    (hkeys : ∀ key ∈ keys, (field name key).any isPlain = true) {row : List PyStr}
    (ht : ∀ t ∈ row, IsText t) (h : shapedColumns lib name keys row ≠ none) :
    ∀ t ∈ row.take keys.length, t.encode.length ≤ 128 := by
  induction keys generalizing row with
  | nil =>
    intro t ht
    cases ht
  | cons key keys ih => cases row with
    | nil =>
      intro t ht
      cases ht
    | cons t row =>
      obtain ⟨f, hf, hplain⟩ := (Option.any_eq_true _ _).1 (hkeys key List.mem_cons_self)
      rw [shapedColumns_cons lib hf] at h
      have hcell : pyCell lib f t ≠ none := by
        intro hnone
        rw [hnone] at h
        exact h rfl
      have hrest : shapedColumns lib name keys row ≠ none := by
        intro hnone
        rw [hnone] at h
        cases hv : pyCell lib f t with
        | none => exact hcell hv
        | some v =>
          rw [hv] at h
          exact h rfl
      have ih := ih (fun k hk => hkeys k (List.mem_cons_of_mem _ hk))
        (fun t ht' => ht t (List.mem_cons_of_mem _ ht')) hrest
      intro t' ht'
      rcases List.mem_cons.1 ht' with rfl | ht'
      · exact pyCell_short hplain (ht _ List.mem_cons_self) hcell
      · exact ih t' ht'

/-- The header that Python read is the one of the other side. -/
theorem shaped_header {lib : PyFloat} {row : List PyStr} (hlen : 8 ≤ row.length) (ht : ∀ t ∈ row, IsText t)
    {d : Dict (Scalar PyStr)} (hd : shapedColumns lib .envelope commonCsvColumns row = some d) :
    ∃ p, d = columns commonCsvColumns p ∧
      ∀ k t, p .kind = some (.int k) → row[1]? = some t → t.encode = printI32 k := by
  obtain ⟨t0, t1, t2, t3, t4, t5, t6, t7, rest, rfl⟩ := length_eight hlen
  have hagree := header_agrees ht lib
  cases hread : readHeader t0.encode t1.encode t2.encode t3.encode t4.encode t5.encode t6.encode t7.encode with
  | error e =>
    rw [hagree.fails fun r hr => by rw [hread] at hr; cases hr] at hd
    cases hd
  | ok header =>
    obtain ⟨p, hp, hsame⟩ := hagree.value header hread
    cases hp.symm.trans hd
    refine ⟨p, rfl, fun k t hk ht => ?_⟩
    cases ht
    obtain ⟨v0, v1, v2, v3, v4, v5, v6, v7, u⟩ := header
    obtain ⟨-, h⟩ := both_ok hread
    obtain ⟨h, -⟩ := both_ok h
    have hv1 : v1.map (Scalar.int : Int → Scalar Bytes) = some (.int k) := by
      have hpy : (p .kind).map Scalar.encode = v1.map .int := hsame.2.1.encode
      rw [← hpy, hk]
      rfl
    obtain ⟨k', rfl, hk'⟩ := Option.map_eq_some_iff.1 hv1
    cases hk'
    exact kind_text h

/-- The cells of a row that Python decodes are short. -/
theorem decodeRow_short {lib : PyFloat} {row : List PyStr} (ht : ∀ t ∈ row, IsText t)
    (hkind : ∀ t, row[1]? = some t → t.encode ≠ ascii "12" ∧ t.encode ≠ ascii "21") {m : Message PyStr}
    (h : decodeRow lib row = .ok m) : ∀ t ∈ row, t.encode.length ≤ 128 := by
  obtain ⟨hlen, d, kind, body, hd, hlookup, hbody⟩ := decodeRow_header h
  have hplain : ∀ key ∈ commonCsvColumns, (field .envelope key).any isPlain = true := by decide
  have hheader : ∀ t ∈ row.take 8, t.encode.length ≤ 128 :=
    shapedColumns_short commonCsvColumns hplain ht (by rw [hd]; exact Option.some_ne_none d)
  obtain ⟨p, rfl, htext⟩ := shaped_header hlen ht hd
  rw [lookup_body (by decide)] at hlookup
  have hrest : ∀ f name, field .envelope body = some f → f.message = some name →
      (∀ key f, field name key = some f → f.type ≠ 2) →
      (∀ key ∈ bodyCsvColumns body, (field name key).any isPlain = true) →
      ∃ name, (∀ key ∈ bodyCsvColumns body, (field name key).any isPlain = true) ∧
        row.length = 8 + (bodyCsvColumns body).length ∧
        shapedColumns lib name (bodyCsvColumns body) (row.drop 8) ≠ none := by
    intro f name hf hm hn hkeys
    obtain ⟨hcount, fields, hfields, -⟩ := (decodeRow_ok_iff hlen hd hlookup hbody hf hm hn).1 h
    exact ⟨name, hkeys, hcount, by rw [hfields]; exact Option.some_ne_none _⟩
  have hstatus : kind ≠ 12 ∧ kind ≠ 21 := by
    obtain ⟨t0, t1, t2, t3, t4, t5, t6, t7, rest, rfl⟩ := length_eight hlen
    obtain ⟨h12, h21⟩ := hkind t1 rfl
    have := htext kind t1 hlookup rfl
    constructor <;> rintro rfl
    · exact h12 this
    · exact h21 this
  -- the kind is no status, so the body has no float either
  replace hrest : ∃ name, (∀ key ∈ bodyCsvColumns body, (field name key).any isPlain = true) ∧
      row.length = 8 + (bodyCsvColumns body).length ∧
      shapedColumns lib name (bodyCsvColumns body) (row.drop 8) ≠ none := by
    rcases kindBody_lookup hbody with rfl | rfl | rfl | rfl | rfl | rfl | rfl | rfl | rfl <;> cases hbody
    · exact hrest _ _ rfl rfl (by intro key f hf; cases hf) (by decide)
    · exact hrest _ _ rfl rfl (by intro key f hf; cases hf) (by decide)
    · exact hrest _ _ rfl rfl (by intro key f hf; cases hf) (by decide)
    · exact hrest _ _ rfl rfl (by intro key f hf; cases key <;> cases hf <;> decide) (by decide)
    · exact absurd rfl hstatus.1
    · exact hrest _ _ rfl rfl (by intro key f hf; cases key <;> cases hf <;> decide) (by decide)
    · exact hrest _ _ rfl rfl (by intro key f hf; cases key <;> cases hf; decide) (by decide)
    · exact absurd rfl hstatus.2
    · exact hrest _ _ rfl rfl (by intro key f hf; cases key <;> cases hf <;> decide) (by decide)
  obtain ⟨name, hkeys, hcount, hshaped⟩ := hrest
  have hdrop := shapedColumns_short _ hkeys (fun t h => ht t (List.mem_of_mem_drop h)) hshaped
  intro t hmem
  rw [← List.take_append_drop 8 row] at hmem
  rcases List.mem_append.1 hmem with hmem | hmem
  · exact hheader t hmem
  · refine hdrop t ?_
    rwa [List.take_of_length_le (by rw [List.length_drop]; omega)]

/-! ## The two decoders -/

/-- `parse` with `validate` after it. -/
def parseValid {W : Type} (crates : Crates W) (bytes : Bytes) : Except CodecError Model.Envelope := do
  let message ← Messaging.parse crates .csv bytes
  validated message

/-- The second cell of a record. -/
def kindCell (bytes : Bytes) : Option Bytes := do
  let fields ← fieldsOf quote comma (bytes.take (bytes.length - 2))
  fields[1]?

/-- The kind is no status. -/
def NoStatus (cell : Option Bytes) : Prop := cell ≠ some (ascii "12") ∧ cell ≠ some (ascii "21")

theorem kindCell_withEnd {line : Bytes} {fields : List Bytes} (h : fieldsOf quote comma line = some fields) :
    kindCell (withEnd line) = fields[1]? := by
  rw [kindCell, withEnd_take, h]
  rfl

theorem texts_exist {row : List PyStr} (ht : ∀ t ∈ row, IsText t) (hs : ∀ t ∈ row, t.encode.length ≤ 128) :
    ∃ cells, Csv.texts cells = row.map PyStr.encode := by
  induction row with
  | nil => exact ⟨[], rfl⟩
  | cons t row ih =>
    obtain ⟨cells, hc⟩ := ih (fun t' h => ht t' (List.mem_cons_of_mem _ h)) fun t' h => hs t' (List.mem_cons_of_mem _ h)
    exact ⟨⟨t.encode, hs t List.mem_cons_self, (ht t List.mem_cons_self).utf8⟩ :: cells, congrArg _ hc⟩

/-- **A line is the same message to both**, from its bytes and from its characters. -/
theorem line_agrees (float : FloatText) (lib : PyFloat) {line : PyStr} (hline : IsText line)
    (hkind : NoStatus (kindCell (withEnd line.encode))) :
    (∀ m, lineMessage float line.encode m → Validation.validate m .csv = .ok () →
      ∃ row m', fieldsOf [quote] [comma] line = some row ∧ decodeRow lib row = .ok m' ∧
        m'.encode = ofEnvelope m) ∧
    ∀ row m', fieldsOf [quote] [comma] line = some row → decodeRow lib row = .ok m' →
      ∃ m, lineMessage float line.encode m ∧ Validation.validate m .csv = .ok () := by
  have hfields := hline.fields
  have hrow : ∀ row : List PyStr, fieldsOf [quote] [comma] line = some row →
      ∀ t, row[1]? = some t → t.encode ≠ ascii "12" ∧ t.encode ≠ ascii "21" := by
    intro row hr t ht
    rw [hr] at hfields
    rw [kindCell_withEnd hfields, List.getElem?_map, ht] at hkind
    exact ⟨fun h => hkind.1 (congrArg some h), fun h => hkind.2 (congrArg some h)⟩
  constructor
  · rintro m ⟨cells, hc, hm⟩ hv
    cases hr : fieldsOf [quote] [comma] line with
    | none =>
      rw [hc, hr] at hfields
      cases hfields
    | some row =>
      rw [hc, hr] at hfields
      have hpeers := row_agrees float lib (hline.of_fields hr) (Option.some.inj hfields) (hrow row hr)
      rw [Peers, hm, except_ok_bind, validated_ok.2 ⟨rfl, hv⟩] at hpeers
      cases hd : decodeRow lib row with
      | error e => rw [hd] at hpeers; cases hpeers
      | ok m' =>
        rw [hd] at hpeers
        exact ⟨row, m', rfl, hd, (Option.some.inj hpeers).symm⟩
  · intro row m' hr hd
    have htext := hline.of_fields hr
    obtain ⟨cells, hc⟩ := texts_exist htext (decodeRow_short htext (hrow row hr) hd)
    have hpeers := row_agrees float lib htext hc (hrow row hr)
    rw [Peers, hd] at hpeers
    cases hm : Csv.fromCells float cells >>= validated with
    | error e => rw [hm] at hpeers; cases hpeers
    | ok m =>
      obtain ⟨m₁, h1, h2⟩ := except_bind_ok.1 hm
      obtain ⟨-, hv⟩ := validated_ok.1 h2
      refine ⟨m₁, ⟨cells, ?_, h1⟩, hv⟩
      rw [hfields, hr, hc]
      rfl

/-- The text of a line and its end. -/
theorem chars_withEnd {line : Bytes} {text : PyStr} (h : decodeUtf8 (withEnd line) = some text) :
    ∃ l : PyStr, IsText l ∧ l.encode = line ∧ text = l ++ [[cr], [lf]] := by
  obtain ⟨he, hchars⟩ := decodeUtf8_spec h
  have hsplit : withEnd line = line ++ [cr] ++ [lf] := by simp [withEnd]
  obtain ⟨l₁, rfl, h1⟩ := IsText.snoc hchars (by decide) (he.trans hsplit)
  obtain ⟨l, rfl, h2⟩ := IsText.snoc (fun c hc => hchars c (List.mem_append_left _ hc)) (by decide) h1
  exact ⟨l, fun c hc => hchars c (by simp [hc]), h2, List.append_assoc _ _ _⟩

theorem chars_of_line {line : Bytes} (hv : utf8Valid line = true) : ∃ l : PyStr, IsText l ∧ l.encode = line ∧
    decodeUtf8 (withEnd line) = some (l ++ [[cr], [lf]]) := by
  have hvalid : utf8Valid (withEnd line) = true := by
    rw [withEnd, utf8Valid_append hv]
    decide
  rw [← decodeUtf8_isSome, Option.isSome_iff_exists] at hvalid
  obtain ⟨text, htext⟩ := hvalid
  obtain ⟨l, hl, he, rfl⟩ := chars_withEnd htext
  exact ⟨l, hl, he, htext⟩

theorem line_of_chars {bytes : Bytes} {l : PyStr} (h : decodeUtf8 bytes = some (l ++ [[cr], [lf]])) :
    IsText l ∧ bytes = withEnd l.encode := by
  obtain ⟨he, hchars⟩ := decodeUtf8_spec h
  refine ⟨fun c hc => hchars c (List.mem_append_left _ hc), ?_⟩
  rw [← he]
  simp [PyStr.encode, withEnd]

/-- A line and its end, to Python. -/
theorem pyDecode_line {lib : PyFloat} (float : FloatText) {line : Bytes} (hfree : LineFree line)
    (hsize : (withEnd line).length ≤ maxBody) (hkind : NoStatus (kindCell (withEnd line))) :
    (∀ m, lineMessage float line m → Validation.validate m .csv = .ok () →
      ∃ m', PyCodec.decode lib (withEnd line) = .ok m' ∧ m'.encode = ofEnvelope m) ∧
    ∀ m', PyCodec.decode lib (withEnd line) = .ok m' →
      ∃ m, lineMessage float line m ∧ Validation.validate m .csv = .ok () := by
  constructor
  · intro m hm hv
    obtain ⟨cells, hc, -⟩ := id hm
    have hutf8 : utf8Valid line = true := by
      rw [fields_utf8 hc]
      intro f hf
      obtain ⟨c, -, rfl⟩ := List.mem_map.1 hf
      exact c.utf8
    obtain ⟨l, hl, rfl, htext⟩ := chars_of_line hutf8
    obtain ⟨row, m', hrow, hd, he⟩ := (line_agrees float lib hl hkind).1 m hm hv
    obtain ⟨hcr, hlf⟩ := hl.lineFree.1 hfree
    exact ⟨m', pyDecode_ok_iff.2 ⟨hsize, l, row, htext, hcr, hlf, hrow, hd⟩, he⟩
  · intro m' hm'
    obtain ⟨-, l, row, htext, -, -, hrow, hd⟩ := pyDecode_ok_iff.1 hm'
    obtain ⟨hl, he⟩ := line_of_chars htext
    cases withEnd_inj he
    exact (line_agrees float lib hl hkind).2 row m' hrow hd

/-- `parse` and `validate` of a record. -/
theorem parseValid_iff {W : Type} {crates : Crates W} {bytes : Bytes} (hsize : bytes.length ≤ maxBody)
    {m : Model.Envelope} : parseValid crates bytes = .ok m ↔
      Csv.decode crates bytes = .ok m ∧ Validation.validate m .csv = .ok () := by
  have hparse : ∀ m, Messaging.parse crates .csv bytes = .ok m ↔ Csv.decode crates bytes = .ok m := by
    intro m
    unfold Messaging.parse
    rw [if_neg (Nat.not_lt.2 hsize)]
    by_cases hnil : bytes.isEmpty = true
    · rw [if_pos hnil, List.isEmpty_iff.1 hnil]
      refine ⟨(fun h => by cases h), fun h => ?_⟩
      obtain ⟨_, hcheck, -⟩ := except_bind_ok.1 h
      cases hcheck
    · rw [if_neg hnil]
  unfold parseValid
  constructor
  · intro h
    obtain ⟨m', hm', h⟩ := except_bind_ok.1 h
    obtain ⟨rfl, hv⟩ := validated_ok.1 h
    exact ⟨(hparse _).1 hm', hv⟩
  · rintro ⟨hm, hv⟩
    rw [(hparse m).2 hm]
    exact validated_ok.2 ⟨rfl, hv⟩

theorem lineMessage_fields {float : FloatText} {line : Bytes} {m : Model.Envelope} (h : lineMessage float line m) :
    (fieldsOf quote comma line).isSome = true := by
  obtain ⟨cells, hc, -⟩ := h
  rw [hc]
  rfl

/-- A mark, and what follows it, to the grammar check. -/
theorem fieldsOf_mark (line : Bytes) : fieldsOf quote comma (bom ++ line) =
    if line.head? = some quote then none
    else (fieldsOf quote comma line).map (afterPrefix bom) := by
  have hmark : fieldsOf quote comma (bom ++ line) = fieldsRun quote comma .unquoted bom line := rfl
  rw [hmark]
  by_cases hq : line.head? = some quote
  · rw [if_pos hq]
    cases line with
    | nil => cases hq
    | cons b line =>
      cases Option.some.inj hq
      rfl
  · have := fieldsRun_prefix quote comma .start bom [] line
    rw [List.append_nil] at this
    rw [if_neg hq, fieldsRun_unquoted _ _ hq, this]
    rfl

/-- The first cell that Python decodes is an integer, or empty. -/
theorem decodeRow_ascii {lib : PyFloat} {t : PyStr} {row : List PyStr} (ht : ∀ t' ∈ t :: row, IsText t')
    {m : Message PyStr} (h : decodeRow lib (t :: row) = .ok m) : ∀ b ∈ t.encode, b < 0x80 := by
  obtain ⟨-, d, kind, body, hd, -, -⟩ := decodeRow_header h
  have hcell : pyCell lib { type := 13 } t ≠ none := by
    intro hnone
    rw [commonCsvColumns, shapedColumns_cons lib (f := { type := 13 }) rfl, hnone] at hd
    cases hd
  have hagree := u32_agrees (ht t List.mem_cons_self) lib
  intro b hb
  cases hread : cell u32Cell t.encode with
  | error e => exact absurd (hagree.fails fun v hv => by rw [hread] at hv; cases hv) hcell
  | ok v =>
    unfold cell at hread
    split at hread
    · rename_i hempty
      rw [List.isEmpty_iff.1 hempty] at hb
      cases hb
    · split at hread
      · rename_i v hv
        rw [u32_read_iff.1 hv] at hb
        exact printI32_ascii hb
      · cases hread

/-- A record with a byte order mark before its first cell, an unquoted one. -/
def MarkedRecord (lib : PyFloat) (bytes : Bytes) : Prop :=
  ∃ rest m, bytes = bom ++ rest ∧ rest.head? ≠ some quote ∧ PyCodec.decode lib rest = .ok m

/-- A record without a mark, to Rust. -/
theorem rust_line {W : Type} {crates : Crates W} (hreader : crates.reader.Documented) {bytes : Bytes}
    (hsize : bytes.length ≤ maxBody) (hmark : ¬ bom <+: bytes) {m : Model.Envelope} :
    parseValid crates bytes = .ok m ↔ ∃ line, bytes = withEnd line ∧ LineFree line ∧
      lineMessage crates.float line m ∧ Validation.validate m .csv = .ok () := by
  rw [parseValid_iff hsize]
  constructor
  · rintro ⟨h, hv⟩
    obtain ⟨_, hcheck, -⟩ := except_bind_ok.1 (id h)
    obtain ⟨line, rfl, hfree, hsome⟩ := checkRecord_iff.1 hcheck
    have hline : ¬ bom <+: line := fun hpre => hmark (hpre.trans (List.prefix_append _ _))
    exact ⟨line, rfl, hfree,
      (@decode_line W crates hreader [] line (.inr ⟨rfl, hline⟩) hfree hcheck hsome hsize m).1 h, hv⟩
  · rintro ⟨line, rfl, hfree, hm, hv⟩
    have hline : ¬ bom <+: line := fun hpre => hmark (hpre.trans (List.prefix_append _ _))
    have hsome := lineMessage_fields hm
    have hcheck := checkRecord_iff.2 ⟨line, rfl, hfree, hsome⟩
    exact ⟨(@decode_line W crates hreader [] line (.inr ⟨rfl, hline⟩) hfree hcheck hsome hsize m).2 hm, hv⟩

/-- A record with a mark, to Rust. -/
theorem rust_marked {W : Type} {crates : Crates W} (hreader : crates.reader.Documented) {rest : Bytes}
    (hsize : (bom ++ rest).length ≤ maxBody) {m : Model.Envelope} :
    parseValid crates (bom ++ rest) = .ok m ↔ ∃ line, rest = withEnd line ∧ LineFree line ∧
      line.head? ≠ some quote ∧ lineMessage crates.float line m ∧ Validation.validate m .csv = .ok () := by
  rw [parseValid_iff hsize]
  constructor
  · rintro ⟨h, hv⟩
    obtain ⟨_, hcheck, -⟩ := except_bind_ok.1 (id h)
    obtain ⟨marked, he, hfree, hsome⟩ := checkRecord_iff.1 hcheck
    have hpre : bom <+: marked := by
      by_contra hno
      exact bom_prefix hno ⟨rest, he⟩
    obtain ⟨line, rfl⟩ := hpre
    obtain rfl : rest = withEnd line := by
      rw [withEnd, List.append_assoc, List.append_cancel_left_eq] at he
      exact he
    have hline : LineFree line := fun b hb => hfree b (List.mem_append_right _ hb)
    rw [fieldsOf_mark] at hsome
    split at hsome
    · cases hsome
    · rename_i hq
      rw [Option.isSome_map] at hsome
      exact ⟨line, rfl, hline, hq, (decode_line hreader (.inl rfl) hline hcheck hsome hsize).1 h, hv⟩
  · rintro ⟨line, rfl, hfree, hq, hm, hv⟩
    have hsome := lineMessage_fields hm
    have hmarked : (fieldsOf quote comma (bom ++ line)).isSome = true := by
      rw [fieldsOf_mark, if_neg hq, Option.isSome_map]
      exact hsome
    have hbom : LineFree bom := by
      intro b hb
      simp only [bom, List.mem_cons, List.not_mem_nil, or_false] at hb
      rcases hb with rfl | rfl | rfl <;> decide
    have hcheck := checkRecord_iff.2 ⟨bom ++ line, (List.append_assoc _ _ _).symm,
      fun b hb => (List.mem_append.1 hb).elim (hbom b) (hfree b), hmarked⟩
    exact ⟨(decode_line hreader (.inl rfl) hfree hcheck hsome hsize).2 hm, hv⟩

/-- Python keeps the mark in the first cell, which is no integer then. -/
theorem py_marked {lib : PyFloat} {rest : Bytes} {m : Message PyStr} :
    PyCodec.decode lib (bom ++ rest) ≠ .ok m := by
  intro h
  obtain ⟨-, l, row, htext, -, -, hrow, hd⟩ := pyDecode_ok_iff.1 h
  obtain ⟨hl, he⟩ := line_of_chars htext
  have hpre : bom <+: PyStr.encode l := by
    by_contra hno
    exact bom_prefix hno ⟨rest, he⟩
  obtain ⟨line, hline⟩ := hpre
  have hfields := hl.fields
  rw [← hline, hrow, fieldsOf_mark] at hfields
  split at hfields
  · cases hfields
  · obtain ⟨fields, -, hfields⟩ := Option.map_eq_some_iff.1 hfields
    cases row with
    | nil => exact absurd (decodeRow_header hd).1 (by decide)
    | cons t row =>
      cases fields with
      | nil => cases hfields
      | cons f fields =>
        have ht : PyStr.encode t = bom ++ f := (List.cons.inj hfields).1.symm
        have hbyte : (0xEF : UInt8) ∈ PyStr.encode t := by
          rw [ht]
          exact List.mem_append_left _ (by decide)
        exact absurd (decodeRow_ascii (hl.of_fields hrow) hd _ hbyte) (by decide)

/-- **The decoders agree but for marked records.** With a reader as `csv_core`
documents it, on every byte string of at most 1016 bytes whose second cell is
no status. -/
theorem decoders_agree_iff {W : Type} (crates : Crates W) (hreader : crates.reader.Documented) (lib : PyFloat)
    (bytes : Bytes) (hsize : bytes.length ≤ maxBody) (hkind : NoStatus (kindCell bytes)) :
    Peers (parseValid crates bytes) (PyCodec.decode lib bytes) ↔ ¬ MarkedRecord lib bytes := by
  by_cases hmark : bom <+: bytes
  · obtain ⟨rest, rfl⟩ := hmark
    have hrest : rest.length ≤ maxBody := by
      rw [List.length_append] at hsize
      omega
    have hnone : (PyCodec.decode lib (bom ++ rest)).toOption.map Message.encode = none := by
      cases hd : PyCodec.decode lib (bom ++ rest) with
      | error e => rfl
      | ok m => exact absurd hd py_marked
    have hcell : ∀ line, rest = withEnd line → line.head? ≠ some quote → NoStatus (kindCell (withEnd line)) := by
      rintro line rfl hq
      have hmarked : bom ++ withEnd line = withEnd (bom ++ line) := (List.append_assoc _ _ _).symm
      cases hf : fieldsOf quote comma line with
      | none =>
        have : kindCell (withEnd line) = none := by
          rw [kindCell, withEnd_take, hf]
          rfl
        rw [this]
        exact ⟨(fun h => by cases h), fun h => by cases h⟩
      | some fields =>
        have hfm : fieldsOf quote comma (bom ++ line) = some (afterPrefix bom fields) := by
          rw [fieldsOf_mark, if_neg hq, hf]
          rfl
        rw [hmarked, kindCell_withEnd hfm] at hkind
        rw [kindCell_withEnd hf]
        cases fields with
        | nil => exact hkind
        | cons f fields => exact hkind
    have hiff : (∃ m, parseValid crates (bom ++ rest) = .ok m) ↔ MarkedRecord lib (bom ++ rest) := by
      constructor
      · rintro ⟨m, hm⟩
        obtain ⟨line, rfl, hfree, hq, hmsg, hv⟩ := (rust_marked hreader hsize).1 hm
        obtain ⟨m', hm', -⟩ := (pyDecode_line crates.float hfree hrest (hcell line rfl hq)).1 m hmsg hv
        exact ⟨withEnd line, m', rfl, by rwa [withEnd_head], hm'⟩
      · rintro ⟨rest', m', he, hq, hm'⟩
        obtain rfl := List.append_cancel_left he
        obtain ⟨-, l, row, htext, hcr, hlf, -, -⟩ := pyDecode_ok_iff.1 hm'
        obtain ⟨hl, rfl⟩ := line_of_chars htext
        have hfree := hl.lineFree.2 ⟨hcr, hlf⟩
        have hq' : (PyStr.encode l).head? ≠ some quote := by rwa [withEnd_head] at hq
        obtain ⟨m, hmsg, hv⟩ := (pyDecode_line crates.float hfree hrest (hcell _ rfl hq')).2 m' hm'
        exact ⟨m, (rust_marked hreader hsize).2 ⟨_, rfl, hfree, hq', hmsg, hv⟩⟩
    rw [← hiff, Peers, hnone]
    cases hr : parseValid crates (bom ++ rest) with
    | error e =>
      refine ⟨?_, fun _ => rfl⟩
      rintro - ⟨m, hm⟩
      cases hm
    | ok m => exact ⟨(fun h => by cases h), fun h => absurd ⟨m, rfl⟩ h⟩
  · refine ⟨fun _ ⟨rest, _, he, _⟩ => hmark ⟨rest, he.symm⟩, fun _ => .of (fun m hm => ?_) fun m' hm' => ?_⟩
    · obtain ⟨line, rfl, hfree, hmsg, hv⟩ := (rust_line hreader hsize hmark).1 hm
      exact (pyDecode_line crates.float hfree hsize hkind).1 m hmsg hv
    · obtain ⟨-, l, row, htext, hcr, hlf, hrow, hd⟩ := pyDecode_ok_iff.1 hm'
      obtain ⟨hl, rfl⟩ := line_of_chars htext
      have hfree := hl.lineFree.2 ⟨hcr, hlf⟩
      obtain ⟨m, hmsg, hv⟩ := (pyDecode_line crates.float hfree hsize hkind).2 m' hm'
      exact ⟨m, (rust_line hreader hsize hmark).2 ⟨_, rfl, hfree, hmsg, hv⟩⟩

namespace Sample

def skippingCrates : Crates Rfc4180.WriterState := { crates with reader := .skipping }

/-- No text is a float. -/
def pyFloat : PyFloat where
  stripped _ := true
  float _ := none
  pack _ := none

def request : Bytes := ascii "1,1,nucleo-h723zg,,00000000000000c1,7,," ++ [cr, lf]

def requestMessage : Model.Envelope where
  protocolVersion := some 1
  kind := some 1
  deviceId := some device
  clientSession := some session
  requestId := some 7
  getDeviceInfo := some ()

end Sample

/-- Rust takes the request behind its mark, Python refuses it. -/
theorem marked_request : Sample.skippingCrates.reader.Documented ∧
    (bom ++ Sample.request).length ≤ maxBody ∧ NoStatus (kindCell (bom ++ Sample.request)) ∧
    parseValid Sample.skippingCrates (bom ++ Sample.request) = .ok Sample.requestMessage ∧
    (PyCodec.decode Sample.pyFloat (bom ++ Sample.request)).toOption.isNone = true ∧
    ¬ Peers (parseValid Sample.skippingCrates (bom ++ Sample.request))
      (PyCodec.decode Sample.pyFloat (bom ++ Sample.request)) := by
  have hrust : parseValid Sample.skippingCrates (bom ++ Sample.request) = .ok Sample.requestMessage := by
    decide +kernel
  have hpy : (PyCodec.decode Sample.pyFloat (bom ++ Sample.request)).toOption.isNone = true := by
    decide +kernel
  refine ⟨Reader.skipping_documented, by decide, ⟨by decide +kernel, by decide +kernel⟩, hrust, hpy, fun h => ?_⟩
  rw [Peers, hrust, Option.isNone_iff_eq_none.1 hpy] at h
  cases h

theorem decoders_agree_request : (Peers (parseValid Sample.skippingCrates Sample.request)
      (PyCodec.decode Sample.pyFloat Sample.request) ↔ ¬ MarkedRecord Sample.pyFloat Sample.request) ∧
    (Peers (parseValid Sample.skippingCrates (bom ++ Sample.request))
      (PyCodec.decode Sample.pyFloat (bom ++ Sample.request)) ↔
        ¬ MarkedRecord Sample.pyFloat (bom ++ Sample.request)) :=
  ⟨decoders_agree_iff Sample.skippingCrates Reader.skipping_documented Sample.pyFloat Sample.request (by decide)
      ⟨by decide +kernel, by decide +kernel⟩,
    decoders_agree_iff Sample.skippingCrates Reader.skipping_documented Sample.pyFloat (bom ++ Sample.request)
      (by decide) ⟨by decide +kernel, by decide +kernel⟩⟩

end Nucleo
