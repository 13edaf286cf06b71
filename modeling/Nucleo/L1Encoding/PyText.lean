import Nucleo.Core.Records
import Nucleo.L1Encoding.Types

/-!
# Python text

A Python `str` by its characters, a character by the bytes `str.encode` makes
of it: `PyStr` is a list of such byte strings, and `str.encode` its
concatenation. `decodeUtf8` is `bytes.decode("utf-8")`.

* `decodeUtf8_isSome`: it accepts what `from_utf8` accepts.
* `decodeUtf8_spec`: what it makes of the bytes are their characters.
* `fields_utf8`: the bytes of a line are text when those of its fields are.
-/
namespace Nucleo
open Rfc4180 (IsChar fieldsRun fieldStep fieldsOf quote comma cr lf)

abbrev PyStr := List Bytes

/-- `str.encode("utf-8")`. -/
abbrev PyStr.encode (s : PyStr) : Bytes := s.flatten

/-- An ASCII literal. -/
def pyLit (s : String) : PyStr := (ascii s).map fun b => [b]

/-- The character is an ASCII one of this class. -/
def inClass (p : UInt8 → Bool) : Bytes → Bool
  | [b] => p b
  | _ => false

/-! ## UTF-8 -/

/-- After a lead byte: the continuation bytes due and the range of the first. -/
def utf8Lead (b : UInt8) : Option (Nat × UInt8 × UInt8) :=
  if 0xC2 ≤ b && b ≤ 0xDF then some (1, 0x80, 0xBF)
  else if b == 0xE0 then some (2, 0xA0, 0xBF)
  else if b == 0xED then some (2, 0x80, 0x9F)
  else if 0xE1 ≤ b && b ≤ 0xEF then some (2, 0x80, 0xBF)
  else if b == 0xF0 then some (3, 0x90, 0xBF)
  else if 0xF1 ≤ b && b ≤ 0xF3 then some (3, 0x80, 0xBF)
  else if b == 0xF4 then some (3, 0x80, 0x8F)
  else none

/-- The characters from a state, `chr` the bytes of the one it is in. -/
def decodeRun : Nat → UInt8 → UInt8 → Bytes → Bytes → Option PyStr
  | 0, _, _, _, [] => some []
  | _ + 1, _, _, _, [] => none
  | 0, _, _, _, b :: rest =>
    if b < 0x80 then (decodeRun 0 0x80 0xBF [] rest).map ([b] :: ·)
    else match utf8Lead b with
      | none => none
      | some (need, lo, hi) => decodeRun need lo hi [b] rest
  | 1, lo, hi, chr, b :: rest =>
    if lo ≤ b && b ≤ hi then (decodeRun 0 0x80 0xBF [] rest).map ((chr ++ [b]) :: ·) else none
  | need + 2, lo, hi, chr, b :: rest =>
    if lo ≤ b && b ≤ hi then decodeRun (need + 1) 0x80 0xBF (chr ++ [b]) rest else none

/-- `data.decode("utf-8")`. -/
def decodeUtf8 (bytes : Bytes) : Option PyStr := decodeRun 0 0x80 0xBF [] bytes

/-- A character: its bytes are UTF-8, and one if it is ASCII. -/
structure PyChar (chr : Bytes) : Prop where
  nonempty : chr ≠ []
  utf8 : utf8Valid chr = true
  ascii : (∃ b, chr = [b] ∧ b < 0x80) ∨ ∀ b ∈ chr, 0x80 ≤ b

/-! ### The automaton -/

theorem utf8Run_idle (lo hi : UInt8) (bs : Bytes) : utf8Run 0 lo hi bs = utf8Valid bs := by
  unfold utf8Valid
  induction bs with
  | nil => rfl
  | cons b bs ih =>
    rw [utf8Run, utf8Run]
    split
    · exact ih
    · rfl

theorem utf8Valid_ascii_cons {b : UInt8} (h : b < 0x80) (bs : Bytes) :
    utf8Valid (b :: bs) = utf8Valid bs := by
  rw [utf8Valid, utf8Run, if_pos h, utf8Run_idle]

theorem utf8Run_lead {b : UInt8} (h : ¬ b < 0x80) (bs : Bytes) :
    utf8Valid (b :: bs) = match utf8Lead b with
      | none => false
      | some (need, lo, hi) => utf8Run need lo hi bs := by
  rw [utf8Valid, utf8Run, if_neg h]
  unfold utf8Lead
  repeat' split
  all_goals first | rfl | simp_all

theorem utf8Lead_lo {b : UInt8} {need : Nat} {lo hi : UInt8} (h : utf8Lead b = some (need, lo, hi)) :
    0 < need ∧ 0x80 ≤ lo := by
  unfold utf8Lead at h
  repeat' split at h
  all_goals cases h
  all_goals decide

/-- Text goes on after text. -/
theorem utf8Run_append {bs : Bytes} {need : Nat} {lo hi : UInt8} (h : utf8Run need lo hi bs = true)
    (rest : Bytes) : utf8Run need lo hi (bs ++ rest) = utf8Valid rest := by
  induction bs generalizing need lo hi with
  | nil =>
    cases need with
    | zero => exact utf8Run_idle lo hi rest
    | succ need => exact absurd h Bool.false_ne_true
  | cons b bs ih =>
    cases need with
    | succ need =>
      rw [utf8Run, Bool.and_eq_true] at h
      rw [List.cons_append, utf8Run, h.1, Bool.true_and]
      exact ih h.2
    | zero =>
      rw [utf8Run_idle] at h
      rw [List.cons_append, utf8Run_idle]
      by_cases hb : b < 0x80
      · rw [utf8Valid_ascii_cons hb] at h ⊢
        exact ih h
      · rw [utf8Run_lead hb] at h ⊢
        cases hl : utf8Lead b with
        | none => rw [hl] at h; cases h
        | some next =>
          rw [hl] at h
          exact ih h

theorem utf8Valid_append {bs : Bytes} (h : utf8Valid bs = true) (rest : Bytes) :
    utf8Valid (bs ++ rest) = utf8Valid rest := utf8Run_append h rest

/-- Before an ASCII byte a text is complete. -/
theorem utf8Run_prefix {bs : Bytes} {need : Nat} {lo hi : UInt8} (hlo : 0x80 ≤ lo) {b : UInt8}
    (hb : b < 0x80) {rest : Bytes} (h : utf8Run need lo hi (bs ++ b :: rest) = true) :
    utf8Run need lo hi bs = true := by
  induction bs generalizing need lo hi with
  | nil =>
    cases need with
    | zero => rfl
    | succ need =>
      rw [List.nil_append, utf8Run] at h
      simp only [Bool.and_eq_true, decide_eq_true_eq] at h
      exact absurd (UInt8.lt_of_le_of_lt (UInt8.le_trans hlo h.1.1) hb) (UInt8.lt_irrefl _)
  | cons c bs ih =>
    cases need with
    | succ need =>
      rw [List.cons_append, utf8Run, Bool.and_eq_true] at h
      rw [utf8Run, h.1, Bool.true_and]
      exact ih (by decide) h.2
    | zero =>
      rw [List.cons_append, utf8Run_idle] at h
      rw [utf8Run_idle]
      by_cases hc : c < 0x80
      · rw [utf8Valid_ascii_cons hc] at h ⊢
        exact ih (by decide) h
      · rw [utf8Run_lead hc] at h ⊢
        cases hl : utf8Lead c with
        | none => rw [hl] at h; cases h
        | some next =>
          rw [hl] at h
          exact ih (utf8Lead_lo hl).2 h

theorem utf8Valid_prefix {bs rest : Bytes} {b : UInt8} (hb : b < 0x80)
    (h : utf8Valid (bs ++ b :: rest) = true) : utf8Valid bs = true := utf8Run_prefix (by decide) hb h

/-! ### Decoding -/

theorem decodeRun_isSome (bs : Bytes) (need : Nat) (lo hi : UInt8) (chr : Bytes) :
    (decodeRun need lo hi chr bs).isSome = utf8Run need lo hi bs := by
  induction bs generalizing need lo hi chr with
  | nil => cases need <;> rfl
  | cons b bs ih =>
    match need with
    | 0 =>
      rw [decodeRun, utf8Run_idle]
      by_cases hb : b < 0x80
      · rw [if_pos hb, Option.isSome_map, ih, utf8Valid_ascii_cons hb]
        rfl
      · rw [if_neg hb, utf8Run_lead hb]
        cases utf8Lead b with
        | none => rfl
        | some next => exact ih _ _ _ _
    | 1 =>
      rw [decodeRun, utf8Run]
      split
      · rename_i hb
        rw [Option.isSome_map, ih, hb, Bool.true_and]
      · rename_i hb
        rw [Bool.eq_false_iff.2 hb]
        rfl
    | need + 2 =>
      rw [decodeRun, utf8Run]
      split
      · rename_i hb
        rw [ih, hb, Bool.true_and]
      · rename_i hb
        rw [Bool.eq_false_iff.2 hb]
        rfl

/-- **`bytes.decode` and `from_utf8` accept the same bytes.** -/
theorem decodeUtf8_isSome (bs : Bytes) : (decodeUtf8 bs).isSome = utf8Valid bs := decodeRun_isSome bs _ _ _ _

/-- A character so far: `need` more bytes are due. -/
structure Partial (need : Nat) (lo hi : UInt8) (chr : Bytes) : Prop where
  nonempty : chr ≠ []
  high : ∀ b ∈ chr, 0x80 ≤ b
  low : 0x80 ≤ lo
  utf8 : ∀ rest, utf8Valid (chr ++ rest) = utf8Run need lo hi rest

theorem Partial.high_snoc {need : Nat} {lo hi b : UInt8} {chr : Bytes} (h : Partial need lo hi chr)
    (hb : lo ≤ b) : ∀ x ∈ chr ++ [b], 0x80 ≤ x := by
  intro x hx
  rcases List.mem_append.1 hx with hx | hx
  · exact h.high x hx
  · rw [List.mem_singleton.1 hx]
    exact UInt8.le_trans h.low hb

theorem decodeRun_spec {bs : Bytes} {need : Nat} {lo hi : UInt8} {chr : Bytes} {s : PyStr}
    (h : decodeRun need lo hi chr bs = some s) (hidle : need = 0 → chr = [])
    (hpart : 0 < need → Partial need lo hi chr) : s.encode = chr ++ bs ∧ ∀ c ∈ s, PyChar c := by
  induction bs generalizing need lo hi chr s with
  | nil =>
    cases need with
    | zero =>
      cases h
      rw [hidle rfl]
      exact ⟨rfl, fun c hc => by cases hc⟩
    | succ need => cases h
  | cons b bs ih =>
    match need with
    | 0 =>
      rw [decodeRun] at h
      rw [hidle rfl]
      split at h
      · rename_i hb
        obtain ⟨s', hs', rfl⟩ := Option.map_eq_some_iff.1 h
        obtain ⟨h1, h2⟩ := ih hs' (fun _ => rfl) (fun h => absurd h (Nat.lt_irrefl _))
        refine ⟨by rw [PyStr.encode, List.flatten_cons, ← PyStr.encode, h1]; rfl, fun c hc => ?_⟩
        rcases List.mem_cons.1 hc with rfl | hc
        · exact ⟨List.cons_ne_nil _ _, utf8Valid_ascii_cons hb [], .inl ⟨b, rfl, hb⟩⟩
        · exact h2 c hc
      · rename_i hb
        split at h
        · cases h
        · rename_i need lo hi hl
          obtain ⟨hneed, hlo⟩ := utf8Lead_lo hl
          refine ih h (fun h0 => absurd h0 (Nat.ne_of_gt hneed)) fun _ => ?_
          refine ⟨List.cons_ne_nil _ _, fun x hx => ?_, hlo, fun rest => ?_⟩
          · rw [List.mem_singleton.1 hx]
            exact UInt8.not_lt.1 hb
          · rw [List.singleton_append, utf8Run_lead hb, hl]
    | 1 =>
      have hp := hpart Nat.one_pos
      rw [decodeRun] at h
      split at h
      · rename_i hb
        rw [Bool.and_eq_true, decide_eq_true_eq, decide_eq_true_eq] at hb
        obtain ⟨s', hs', rfl⟩ := Option.map_eq_some_iff.1 h
        obtain ⟨h1, h2⟩ := ih hs' (fun _ => rfl) (fun h => absurd h (Nat.lt_irrefl _))
        refine ⟨by rw [PyStr.encode, List.flatten_cons, ← PyStr.encode, h1]; simp, fun c hc => ?_⟩
        rcases List.mem_cons.1 hc with rfl | hc
        · refine ⟨by simp, ?_, .inr (hp.high_snoc hb.1)⟩
          rw [hp.utf8]
          simp [utf8Run, hb.1, hb.2]
        · exact h2 c hc
      · cases h
    | need + 2 =>
      have hp := hpart (Nat.succ_pos _)
      rw [decodeRun] at h
      split at h
      · rename_i hb
        have hb' := hb
        rw [Bool.and_eq_true, decide_eq_true_eq, decide_eq_true_eq] at hb
        obtain ⟨h1, h2⟩ := ih h (fun h0 => absurd h0 (Nat.succ_ne_zero _)) fun _ =>
          ⟨by simp, hp.high_snoc hb.1, by decide, fun rest => by
            rw [List.append_assoc, List.singleton_append, hp.utf8, utf8Run, hb', Bool.true_and]⟩
        exact ⟨by rw [h1]; simp, h2⟩
      · cases h

theorem decodeUtf8_spec {bs : Bytes} {s : PyStr} (h : decodeUtf8 bs = some s) :
    s.encode = bs ∧ ∀ c ∈ s, PyChar c :=
  decodeRun_spec h (fun _ => rfl) fun h => absurd h (Nat.lt_irrefl _)

/-! ## Texts of characters -/

theorem PyChar.isChar {c : Bytes} (h : PyChar c) : IsChar c where
  nonempty := h.nonempty
  ascii := by
    rcases h.ascii with ⟨b, rfl, -⟩ | hhigh
    · exact .inl ⟨b, rfl⟩
    · refine .inr fun b hb => ?_
      have hge := hhigh b hb
      refine ⟨?_, ?_, ?_, ?_⟩ <;> (rintro rfl; exact absurd hge (by decide))

/-- A text. -/
def IsText (s : PyStr) : Prop := ∀ c ∈ s, PyChar c

theorem IsText.utf8 {s : PyStr} (h : IsText s) : utf8Valid s.encode = true := by
  induction s with
  | nil => rfl
  | cons c s ih =>
    rw [PyStr.encode, List.flatten_cons, utf8Valid_append (h c List.mem_cons_self).utf8]
    exact ih fun c hc => h c (List.mem_cons_of_mem _ hc)

theorem IsText.encode_nil {s : PyStr} (h : IsText s) : s.encode = [] ↔ s = [] := by
  cases s with
  | nil => exact ⟨fun _ => rfl, fun _ => rfl⟩
  | cons c s =>
    refine ⟨fun he => ?_, fun he => by cases he⟩
    exact absurd (List.append_eq_nil_iff.1 he).1 (h c List.mem_cons_self).nonempty

/-- ASCII text has a byte for each character. -/
theorem IsText.ascii {s : PyStr} (h : IsText s) (ha : ∀ b ∈ s.encode, b < 0x80) :
    s = s.encode.map fun b => [b] := by
  induction s with
  | nil => rfl
  | cons c s ih =>
    have hc := h c List.mem_cons_self
    have hs := ih (fun c hc => h c (List.mem_cons_of_mem _ hc)) fun b hb => ha b (by simp at hb ⊢; exact .inr hb)
    rcases hc.ascii with ⟨b, rfl, -⟩ | hhigh
    · rw [PyStr.encode, List.flatten_cons, List.singleton_append, List.map_cons, ← PyStr.encode, ← hs]
    · cases c with
      | nil => exact absurd rfl hc.nonempty
      | cons b c =>
        have h1 := hhigh b List.mem_cons_self
        have h2 := ha b (by simp)
        exact absurd (UInt8.lt_of_lt_of_le h2 h1) (UInt8.lt_irrefl _)

theorem encode_lit (bs : Bytes) : PyStr.encode (bs.map fun b => [b]) = bs := by
  induction bs with
  | nil => rfl
  | cons b bs ih => exact congrArg (b :: ·) ih

/-- A text is an ASCII literal when its bytes are. -/
theorem IsText.eq_lit {s : PyStr} (h : IsText s) {bs : Bytes} (ha : ∀ b ∈ bs, b < 0x80) :
    s = (bs.map fun b => [b]) ↔ s.encode = bs := by
  constructor
  · rintro rfl
    exact encode_lit bs
  · rintro rfl
    exact h.ascii ha

/-- A class of ASCII characters, on the characters and on the bytes. -/
theorem IsText.all_inClass {s : PyStr} (h : IsText s) {p : UInt8 → Bool} (hp : ∀ b, p b = true → b < 0x80) :
    s.all (inClass p) = s.encode.all p ∧ (s.encode.all p = true → s.length = s.encode.length) := by
  constructor
  · rw [Bool.eq_iff_iff, List.all_eq_true, List.all_eq_true]
    constructor
    · intro hall b hb
      obtain ⟨c, hc, hbc⟩ := List.mem_flatten.1 hb
      have := hall c hc
      unfold inClass at this
      split at this
      · rwa [List.mem_singleton.1 hbc]
      · cases this
    · intro hall
      have := h.ascii fun b hb => hp b (hall b hb)
      intro c hc
      rw [this] at hc
      obtain ⟨b, hb, rfl⟩ := List.mem_map.1 hc
      exact hall b hb
  · intro hall
    have := h.ascii fun b hb => hp b (List.all_eq_true.1 hall b hb)
    conv_lhs => rw [this]
    rw [List.length_map]

/-! ## Fields -/

/-- The characters of a text have the fields of its bytes. -/
theorem IsText.fields {s : PyStr} (h : IsText s) :
    fieldsOf quote comma s.encode = (fieldsOf [quote] [comma] s).map fun fields => fields.map PyStr.encode :=
  Rfc4180.fieldsOf_flatten fun c hc => (h c hc).isChar

theorem IsText.of_fields {s : PyStr} (h : IsText s) {fields : List PyStr}
    (hf : fieldsOf [quote] [comma] s = some fields) : ∀ f ∈ fields, IsText f := by
  intro f hmem c hc
  rcases Rfc4180.fieldsRun_mem _ _ hf f hmem c hc with hnil | hc
  · cases hnil
  · exact h c hc

/-- A field that a quote closes is complete there. -/
theorem closing_utf8 {field line : Bytes} {first : Bytes} {fields : List Bytes}
    (h : fieldsRun quote comma .closing field line = some (first :: fields))
    (hv : utf8Valid first = true) : utf8Valid field = true := by
  cases line with
  | nil =>
    cases h
    exact hv
  | cons b line =>
    rw [fieldsRun] at h
    by_cases hq : b = quote
    · subst hq
      obtain ⟨more, rest, he⟩ := Rfc4180.fieldsRun_head _ _ h
      cases he
      rw [List.append_assoc] at hv
      exact utf8Valid_prefix (by decide) hv
    · by_cases hc : b = comma
      · subst hc
        obtain ⟨rest, -, he⟩ := Option.map_eq_some_iff.1 h
        cases he
        exact hv
      · simp only [fieldStep, if_neg hq, if_neg hc] at h
        cases h

theorem fieldsRun_utf8 {line : Bytes} {state : Rfc4180.QuoteState} {field : Bytes} {fields : List Bytes}
    (h : fieldsRun quote comma state field line = some fields) (hs : state = .start → field = [])
    (hv : ∀ f ∈ fields, utf8Valid f = true) : utf8Valid (field ++ line) = true := by
  induction line generalizing state field fields with
  | nil =>
    rw [fieldsRun] at h
    split at h
    · cases h
    · cases h
      rw [List.append_nil]
      exact hv _ List.mem_cons_self
  | cons b line ih =>
    have hcomma : ∀ rest, utf8Valid (comma :: rest) = utf8Valid rest := utf8Valid_ascii_cons (by decide)
    have hquote : ∀ rest, utf8Valid (quote :: rest) = utf8Valid rest := utf8Valid_ascii_cons (by decide)
    have hkeep : ∀ {state}, state ≠ .start →
        fieldsRun quote comma state (field ++ [b]) line = some fields → utf8Valid (field ++ b :: line) = true := by
      intro state hne h
      have := ih h (fun h => absurd h hne) hv
      rwa [List.append_assoc] at this
    have hclose : b = comma → (fieldsRun quote comma .start [] line).map (field :: ·) = some fields →
        utf8Valid (field ++ b :: line) = true := by
      rintro rfl h
      obtain ⟨rest, hrest, rfl⟩ := Option.map_eq_some_iff.1 h
      rw [utf8Valid_append (hv _ List.mem_cons_self), hcomma]
      exact ih hrest (fun _ => rfl) fun f hf => hv f (List.mem_cons_of_mem _ hf)
    rw [fieldsRun] at h
    cases state with
    | start =>
      have hnil := hs rfl
      subst hnil
      by_cases hq : b = quote
      · subst hq
        rw [List.nil_append, hquote]
        exact ih h (fun h => by cases h) hv
      · by_cases hc : b = comma
        · simp only [fieldStep, if_neg hq, if_pos hc] at h
          exact hclose hc h
        · simp only [fieldStep, if_neg hq, if_neg hc] at h
          exact hkeep (by decide) h
    | unquoted =>
      by_cases hc : b = comma
      · simp only [fieldStep, if_pos hc] at h
        exact hclose hc h
      · by_cases hq : b = quote
        · simp only [fieldStep, if_neg hc, if_pos hq] at h
          cases h
        · simp only [fieldStep, if_neg hq, if_neg hc] at h
          exact hkeep (by decide) h
    | quoted =>
      by_cases hq : b = quote
      · subst hq
        simp only [fieldStep, if_true] at h
        have hrest := ih h (fun h => by cases h) hv
        obtain ⟨more, rest, rfl⟩ := Rfc4180.fieldsRun_head _ _ h
        have hfield := closing_utf8 h (hv _ List.mem_cons_self)
        rw [utf8Valid_append hfield] at hrest ⊢
        rwa [hquote]
      · simp only [fieldStep, if_neg hq] at h
        exact hkeep (by decide) h
    | closing =>
      by_cases hq : b = quote
      · simp only [fieldStep, if_pos hq] at h
        exact hkeep (by decide) h
      · by_cases hc : b = comma
        · simp only [fieldStep, if_neg hq, if_pos hc] at h
          exact hclose hc h
        · simp only [fieldStep, if_neg hq, if_neg hc] at h
          cases h

/-- **A line is text when all its fields are.** -/
theorem fields_utf8 {line : Bytes} {fields : List Bytes} (h : fieldsOf quote comma line = some fields) :
    utf8Valid line = true ↔ ∀ f ∈ fields, utf8Valid f = true := by
  constructor
  · intro hv
    rw [← decodeUtf8_isSome, Option.isSome_iff_exists] at hv
    obtain ⟨s, hs⟩ := hv
    obtain ⟨rfl, hchars⟩ := decodeUtf8_spec hs
    have htext : IsText s := hchars
    rw [htext.fields] at h
    obtain ⟨fields', hf', rfl⟩ := Option.map_eq_some_iff.1 h
    intro f hf
    obtain ⟨f', hmem, rfl⟩ := List.mem_map.1 hf
    exact (htext.of_fields hf' f' hmem).utf8
  · intro hv
    exact fieldsRun_utf8 h (fun _ => rfl) hv

end Nucleo
