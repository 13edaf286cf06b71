import Nucleo.Core.Records

/-!
# The grammar of a record

A field of RFC 4180 is a plain run of characters or a quoted one with its quotes
doubled: `FieldText q c text value`. A line is texts with commas between them.
`fieldsRun_iff` says that the automaton of `fieldsOf` reads that grammar and
nothing else, and `IsLine.unique` that a line comes apart in one way.

`Completes state text value` is what may stand between the current position and
the end of the field; the automaton takes one character off the front of it.
-/
namespace Nucleo.Rfc4180

section Grammar

variable {α : Type} [DecidableEq α] (q c : α)

/-- Every quote twice. -/
def doubles : List α → List α
  | [] => []
  | b :: text => if b = q then q :: q :: doubles text else b :: doubles text

/-- The text of a field, and its value. -/
inductive FieldText : List α → List α → Prop
  | plain (text : List α) (h : ∀ b ∈ text, b ≠ q ∧ b ≠ c) : FieldText text text
  | quoted (value : List α) : FieldText (q :: doubles q value ++ [q]) value

/-- The rest of a field's text from a state, and of its value. -/
def Completes : QuoteState → List α → List α → Prop
  | .start, text, value => FieldText q c text value
  | .unquoted, text, value => (∀ b ∈ text, b ≠ q ∧ b ≠ c) ∧ text = value
  | .quoted, text, value => text = doubles q value ++ [q]
  | .closing, text, value =>
    text = [] ∧ value = [] ∨ ∃ value', value = q :: value' ∧ text = q :: (doubles q value' ++ [q])

theorem fieldText_iff {text value : List α} : FieldText q c text value ↔
    (∀ b ∈ text, b ≠ q ∧ b ≠ c) ∧ text = value ∨ text = q :: (doubles q value ++ [q]) := by
  constructor
  · intro h
    cases h with
    | plain _ h => exact .inl ⟨h, rfl⟩
    | quoted value => exact .inr rfl
  · intro h
    rcases h with ⟨h, rfl⟩ | rfl
    · exact .plain text h
    · exact .quoted value

theorem completes_nil {state : QuoteState} {value : List α} :
    Completes q c state [] value ↔ state ≠ .quoted ∧ value = [] := by
  cases state with
  | start => simp [Completes, fieldText_iff]
  | unquoted => simp [Completes]
  | quoted => simp [Completes]
  | closing => simp [Completes]

/-- What a character leaves of a field. -/
def After (b : α) (text value : List α) : Option (QuoteState × Act) → Prop
  | none => False
  | some (state, .skip) => Completes q c state text value
  | some (state, .keep) => ∃ value', value = b :: value' ∧ Completes q c state text value'
  | some (_, .close) => False

/-- The content of a quoted field, from its first character. -/
theorem doubles_cons_iff {b : α} {text value : List α} :
    b :: text = doubles q value ++ [q] ↔ b = q ∧ Completes q c .closing text value ∨
      b ≠ q ∧ ∃ value', value = b :: value' ∧ text = doubles q value' ++ [q] := by
  cases value with
  | nil => simp [doubles, Completes]
  | cons v value =>
    by_cases hv : v = q
    · subst hv
      simp only [doubles, if_true, List.cons_append, List.cons.injEq, Completes, true_and]
      constructor
      · rintro ⟨rfl, rfl⟩
        exact .inl ⟨rfl, .inr ⟨value, rfl, rfl⟩⟩
      · rintro (⟨rfl, h | ⟨_, rfl, rfl⟩⟩ | ⟨hb, _, ⟨rfl, -⟩, -⟩)
        · exact absurd h.2 (List.cons_ne_nil _ _)
        · exact ⟨rfl, rfl⟩
        · exact absurd rfl hb
    · simp only [doubles, if_neg hv, List.cons_append, List.cons.injEq, Completes]
      constructor
      · rintro ⟨rfl, rfl⟩
        exact .inr ⟨hv, value, ⟨rfl, rfl⟩, rfl⟩
      · rintro (⟨rfl, h | ⟨_, ⟨h, -⟩, -⟩⟩ | ⟨-, _, ⟨rfl, rfl⟩, rfl⟩)
        · exact absurd h.2 (List.cons_ne_nil _ _)
        · exact absurd h hv
        · exact ⟨rfl, rfl⟩

omit [DecidableEq α] in
theorem plain_cons_iff {b : α} {text value : List α} :
    ((∀ x ∈ b :: text, x ≠ q ∧ x ≠ c) ∧ b :: text = value) ↔
      (b ≠ q ∧ b ≠ c) ∧ ∃ value', value = b :: value' ∧ (∀ x ∈ text, x ≠ q ∧ x ≠ c) ∧ text = value' := by
  constructor
  · rintro ⟨h, rfl⟩
    exact ⟨h b List.mem_cons_self, text, rfl, fun x hx => h x (List.mem_cons_of_mem _ hx), rfl⟩
  · rintro ⟨hb, _, rfl, h, rfl⟩
    refine ⟨fun x hx => ?_, rfl⟩
    rcases List.mem_cons.1 hx with rfl | hx
    · exact hb
    · exact h x hx

/-- One character of a field. -/
theorem completes_cons {state : QuoteState} {b : α} {text value : List α} :
    Completes q c state (b :: text) value ↔ After q c b text value (fieldStep q c state b) := by
  cases state with
  | start =>
    simp only [Completes, fieldText_iff, plain_cons_iff, List.cons.injEq, fieldStep]
    by_cases hq : b = q
    · rw [if_pos hq]
      simp [hq, After, Completes]
    · rw [if_neg hq]
      by_cases hc : b = c
      · rw [if_pos hc]
        simp only [After, iff_false, not_or]
        exact ⟨fun h => h.1.2 hc, fun h => hq h.1⟩
      · rw [if_neg hc]
        simp [hq, hc, After, Completes]
  | unquoted =>
    simp only [Completes, plain_cons_iff, fieldStep]
    by_cases hc : b = c
    · rw [if_pos hc]
      exact ⟨fun h => h.1.2 hc, False.elim⟩
    · rw [if_neg hc]
      by_cases hq : b = q
      · rw [if_pos hq]
        exact ⟨fun h => h.1.1 hq, False.elim⟩
      · rw [if_neg hq]
        simp [hq, hc, After, Completes]
  | quoted =>
    simp only [Completes]
    rw [doubles_cons_iff q c]
    by_cases hq : b = q
    · simp [hq, fieldStep, After]
    · simp [hq, fieldStep, After, Completes]
  | closing =>
    simp only [Completes, List.cons.injEq, fieldStep]
    by_cases hq : b = q
    · rw [if_pos hq]
      simp [hq, After, Completes]
    · rw [if_neg hq]
      have hno : ¬ ((b :: text = [] ∧ value = []) ∨
          ∃ value', value = q :: value' ∧ b = q ∧ text = doubles q value' ++ [q]) := by
        rintro (⟨h, -⟩ | ⟨_, -, h, -⟩)
        · exact List.cons_ne_nil _ _ h
        · exact hq h
      by_cases hc : b = c
      · rw [if_pos hc]
        exact ⟨hno, False.elim⟩
      · rw [if_neg hc]
        exact ⟨hno, False.elim⟩

/-! ## Lines -/

/-- Texts with commas between them. -/
def line : List (List α) → List α
  | [] => []
  | [text] => text
  | text :: next :: texts => text ++ c :: line (next :: texts)

omit [DecidableEq α] in
theorem line_eq_nil {text : List α} {texts : List (List α)} :
    line c (text :: texts) = [] ↔ text = [] ∧ texts = [] := by
  cases texts <;> simp [line]

omit [DecidableEq α] in
/-- The first character of a line is the first of its first text, or the comma behind it. -/
theorem line_eq_cons {text : List α} {texts : List (List α)} {b : α} {rest : List α} :
    line c (text :: texts) = b :: rest ↔ (∃ more, text = b :: more ∧ line c (more :: texts) = rest) ∨
      text = [] ∧ b = c ∧ ∃ next others, texts = next :: others ∧ line c (next :: others) = rest := by
  cases text with
  | nil => cases texts <;> simp [line, eq_comm]
  | cons x text => cases texts <;> simp [line]

omit [DecidableEq α] in
theorem line_eq_intercalate (texts : List (List α)) : line c texts = [c].intercalate texts := by
  induction texts with
  | nil => rfl
  | cons text texts ih => cases texts with
    | nil => simp [line, List.intercalate]
    | cons next texts =>
      rw [line, ih]
      simp [List.intercalate]

variable {q c}

/-- At a comma behind a field the automaton closes the field. -/
theorem fieldStep_comma (hqc : q ≠ c) {state : QuoteState} (hs : state ≠ .quoted) :
    fieldStep q c state c = some (.start, .close) := by
  cases state with
  | start => simp [fieldStep, hqc.symm]
  | unquoted => simp [fieldStep]
  | quoted => exact absurd rfl hs
  | closing => simp [fieldStep, hqc.symm]

theorem fieldStep_close {state next : QuoteState} {b : α} (h : fieldStep q c state b = some (next, .close)) :
    b = c ∧ state ≠ .quoted ∧ next = .start := by
  cases state <;> simp only [fieldStep] at h <;> repeat' split at h
  all_goals cases h
  all_goals exact ⟨‹_›, by decide, rfl⟩

/-- **The automaton reads the grammar**, from any state. -/
theorem fieldsRun_iff (hqc : q ≠ c) {state : QuoteState} {field rest : List α} {values : List (List α)} :
    fieldsRun q c state field rest = some values ↔ ∃ t ts v vs, values = (field ++ v) :: vs ∧
      Completes q c state t v ∧ List.Forall₂ (FieldText q c) ts vs ∧ line c (t :: ts) = rest := by
  induction rest generalizing state field values with
  | nil =>
    rw [fieldsRun]
    constructor
    · intro h
      split at h
      · cases h
      · rename_i hs
        cases h
        exact ⟨[], [], [], [], by rw [List.append_nil], (completes_nil q c).2 ⟨hs, rfl⟩, .nil, rfl⟩
    · rintro ⟨t, ts, v, vs, rfl, hc, hts, hline⟩
      obtain ⟨rfl, rfl⟩ := (line_eq_nil c).1 hline
      obtain ⟨hs, rfl⟩ := (completes_nil q c).1 hc
      cases hts
      rw [if_neg hs, List.append_nil]
  | cons b rest ih =>
    rw [fieldsRun]
    constructor
    · intro h
      cases hstep : fieldStep q c state b with
      | none =>
        rw [hstep] at h
        cases h
      | some next =>
        obtain ⟨state', act⟩ := next
        rw [hstep] at h
        cases act with
        | skip =>
          obtain ⟨t, ts, v, vs, rfl, hc, hts, hline⟩ := ih.1 h
          refine ⟨b :: t, ts, v, vs, rfl, ?_, hts, (line_eq_cons c).2 (.inl ⟨t, rfl, hline⟩)⟩
          rw [completes_cons, hstep]
          exact hc
        | keep =>
          obtain ⟨t, ts, v, vs, rfl, hc, hts, hline⟩ := ih.1 h
          refine ⟨b :: t, ts, b :: v, vs, by simp, ?_, hts, (line_eq_cons c).2 (.inl ⟨t, rfl, hline⟩)⟩
          rw [completes_cons, hstep]
          exact ⟨v, rfl, hc⟩
        | close =>
          obtain ⟨rfl, hs, rfl⟩ := fieldStep_close hstep
          obtain ⟨values', hrun, rfl⟩ := Option.map_eq_some_iff.1 h
          obtain ⟨t, ts, v, vs, rfl, hc, hts, hline⟩ := ih.1 hrun
          exact ⟨[], t :: ts, [], v :: vs, by simp, (completes_nil q _).2 ⟨hs, rfl⟩, .cons hc hts,
            (line_eq_cons _).2 (.inr ⟨rfl, rfl, t, ts, rfl, hline⟩)⟩
    · rintro ⟨t, ts, v, vs, rfl, hc, hts, hline⟩
      rcases (line_eq_cons c).1 hline with ⟨t', rfl, hrest⟩ | ⟨rfl, rfl, u, us, rfl, hrest⟩
      · rw [completes_cons] at hc
        cases hstep : fieldStep q c state b with
        | none =>
          rw [hstep] at hc
          exact hc.elim
        | some next =>
          obtain ⟨state', act⟩ := next
          rw [hstep] at hc
          cases act with
          | skip => exact ih.2 ⟨t', ts, v, vs, rfl, hc, hts, hrest⟩
          | keep =>
            obtain ⟨v', rfl, hc⟩ := hc
            exact ih.2 ⟨t', ts, v', vs, by simp, hc, hts, hrest⟩
          | close => exact hc.elim
      · obtain ⟨hs, rfl⟩ := (completes_nil q _).1 hc
        rw [fieldStep_comma hqc hs]
        cases hts with
        | cons hu hus =>
          rw [List.append_nil, Option.map_eq_some_iff]
          exact ⟨_, ih.2 ⟨u, us, _, _, rfl, hu, hus, hrest⟩, rfl⟩

/-- A line of at least one field text. -/
structure IsLine (q c : α) (texts : List (List α)) (rest : List α) : Prop where
  nonempty : texts ≠ []
  fields : ∀ text ∈ texts, ∃ value, FieldText q c text value
  joined : line c texts = rest

theorem forall₂_of_fields {texts : List (List α)} (h : ∀ text ∈ texts, ∃ value, FieldText q c text value) :
    ∃ values, List.Forall₂ (FieldText q c) texts values := by
  induction texts with
  | nil => exact ⟨[], .nil⟩
  | cons text texts ih =>
    obtain ⟨value, hv⟩ := h text List.mem_cons_self
    obtain ⟨values, hvs⟩ := ih fun t ht => h t (List.mem_cons_of_mem _ ht)
    exact ⟨value :: values, .cons hv hvs⟩

theorem fields_of_forall₂ {texts values : List (List α)} (h : List.Forall₂ (FieldText q c) texts values) :
    ∀ text ∈ texts, ∃ value, FieldText q c text value := by
  induction h with
  | nil => exact fun _ ht => by cases ht
  | cons hv _ ih =>
    intro text ht
    rcases List.mem_cons.1 ht with rfl | ht
    · exact ⟨_, hv⟩
    · exact ih text ht

/-- **A line has fields when it is in the grammar.** -/
theorem fieldsOf_isSome_iff (hqc : q ≠ c) {rest : List α} :
    (fieldsOf q c rest).isSome = true ↔ ∃ texts, IsLine q c texts rest := by
  rw [Option.isSome_iff_exists]
  constructor
  · rintro ⟨values, h⟩
    obtain ⟨t, ts, v, vs, -, hc, hts, hline⟩ := (fieldsRun_iff hqc).1 h
    exact ⟨t :: ts, List.cons_ne_nil _ _, fields_of_forall₂ (.cons hc hts), hline⟩
  · rintro ⟨texts, hne, hfields, hline⟩
    obtain ⟨values, hvalues⟩ := forall₂_of_fields hfields
    cases hvalues with
    | nil => exact absurd rfl hne
    | cons hv hvs => exact ⟨_, (fieldsRun_iff hqc).2 ⟨_, _, _, _, rfl, hv, hvs, hline⟩⟩

/-- Two ways to complete a line are one. -/
theorem completes_unique (hqc : q ≠ c) {state : QuoteState} {rest t t' v v' : List α}
    {ts ts' vs vs' : List (List α)} (hc : Completes q c state t v) (hc' : Completes q c state t' v')
    (hts : List.Forall₂ (FieldText q c) ts vs) (hts' : List.Forall₂ (FieldText q c) ts' vs')
    (hline : line c (t :: ts) = rest) (hline' : line c (t' :: ts') = rest) : t :: ts = t' :: ts' := by
  induction rest generalizing state t t' v v' ts ts' vs vs' with
  | nil =>
    obtain ⟨rfl, rfl⟩ := (line_eq_nil c).1 hline
    obtain ⟨rfl, rfl⟩ := (line_eq_nil c).1 hline'
    rfl
  | cons b rest ih =>
    -- a comma that closes a field cannot be inside of one
    have hclash : ∀ {u w : List α}, Completes q c state [] w → b = c → ∀ {x : List α},
        ¬ Completes q c state (b :: u) x := by
      intro u w hnil hb x hcons
      subst hb
      rw [completes_cons, fieldStep_comma hqc ((completes_nil q _).1 hnil).1] at hcons
      exact hcons
    rcases (line_eq_cons c).1 hline with ⟨u, rfl, hrest⟩ | ⟨rfl, hb, u, us, rfl, hrest⟩
    · rcases (line_eq_cons c).1 hline' with ⟨u', rfl, hrest'⟩ | ⟨rfl, hb, u', us', rfl, hrest'⟩
      · rw [completes_cons] at hc hc'
        have htails : u :: ts = u' :: ts' := by
          cases hstep : fieldStep q c state b with
          | none =>
            rw [hstep] at hc
            exact hc.elim
          | some next =>
            obtain ⟨state', act⟩ := next
            rw [hstep] at hc hc'
            cases act with
            | skip => exact ih hc hc' hts hts' hrest hrest'
            | keep =>
              obtain ⟨_, -, hc⟩ := hc
              obtain ⟨_, -, hc'⟩ := hc'
              exact ih hc hc' hts hts' hrest hrest'
            | close => exact hc.elim
        obtain ⟨rfl, rfl⟩ := List.cons.inj htails
        rfl
      · exact absurd hc (hclash hc' hb)
    · rcases (line_eq_cons c).1 hline' with ⟨u', rfl, hrest'⟩ | ⟨rfl, -, u', us', rfl, hrest'⟩
      · exact absurd hc' (hclash hc hb)
      · cases hts with
        | cons hu hus => cases hts' with
          | cons hu' hus' =>
            have hc : Completes q c .start u _ := hu
            rw [ih hc hu' hus hus' hrest hrest']

/-- **A line comes apart in one way.** -/
theorem IsLine.unique (hqc : q ≠ c) {texts texts' : List (List α)} {rest : List α}
    (h : IsLine q c texts rest) (h' : IsLine q c texts' rest) : texts = texts' := by
  obtain ⟨values, hvalues⟩ := forall₂_of_fields h.fields
  obtain ⟨values', hvalues'⟩ := forall₂_of_fields h'.fields
  cases hvalues with
  | nil => exact absurd rfl h.nonempty
  | cons hv hvs => cases hvalues' with
    | nil => exact absurd rfl h'.nonempty
    | cons hv' hvs' =>
      have hc : Completes q c .start _ _ := hv
      exact completes_unique hqc hc hv' hvs hvs' h.joined h'.joined

end Grammar

end Nucleo.Rfc4180
