import Nucleo.Core.Json
import Nucleo.Core.Endian

/-!
# Optional fields on two wires

A record whose fields may be absent, written as a compact JSON object and as a
proto3 message. An absent field leaves no trace in either. Strings are byte
strings: JSON escapes quotes, backslashes and control characters and copies
everything else; proto3 copies all of it. An integer of a proto3 field is
sign-extended to 64 bits.

`Fits fields n` bounds the present fields, each with one separator.

Results: `object_length`, `message_length`, with the widths of the values
(`quoted_length`, `quoted_plain_length`, `integer_length`, `varint_length`);
`object_noControl`, no byte of an object is a control character.
-/
namespace Nucleo.Wire

open Json (keyword hexDigit)

/-- The fields of a record, each its text when it is present. -/
abbrev Fields := List (Option (List UInt8))

def present (fields : Fields) : List (List UInt8) := fields.filterMap id

/-! ## Sizes -/

/-- The present fields take at most so many bytes, one more for each of them. -/
inductive Fits : Fields → Nat → Prop
  | nil : Fits [] 0
  | absent {fields : Fields} {n : Nat} (h : Fits fields n) : Fits (none :: fields) n
  | field {text : Option (List UInt8)} {fields : Fields} {w n : Nat} (hw : ∀ t ∈ text, t.length ≤ w)
      (h : Fits fields n) : Fits (text :: fields) (w + 1 + n)

/-- The widths of a value are those of its text. -/
theorem map_length {α : Type} {value : Option α} {text : α → List UInt8} {w : Nat}
    (h : ∀ a ∈ value, (text a).length ≤ w) : ∀ t ∈ value.map text, t.length ≤ w := by
  intro t ht
  obtain ⟨a, ha, rfl⟩ := Option.map_eq_some_iff.1 ht
  exact h a ha

theorem Fits.append {fields fields' : Fields} {n n' : Nat} (h : Fits fields n) (h' : Fits fields' n') :
    Fits (fields ++ fields') (n + n') := by
  induction h with
  | nil => simpa using h'
  | absent _ ih => exact .absent ih
  | @field text fields w n hw _ ih =>
    rw [Nat.add_assoc]
    exact .field hw ih

theorem Fits.none {fields : Fields} (h : fields.countP Option.isSome = 0) : Fits fields 0 := by
  induction fields with
  | nil => exact .nil
  | cons text fields ih =>
    cases text with
    | none => exact .absent (ih (by simpa using h))
    | some t => simp at h

/-- At most one field is present, and any of them would take at most so many bytes. -/
theorem Fits.single {fields : Fields} {w : Nat} (hone : fields.countP Option.isSome ≤ 1)
    (hw : ∀ text ∈ fields, ∀ t ∈ text, t.length ≤ w) : ∃ n ≤ w + 1, Fits fields n := by
  induction fields with
  | nil => exact ⟨0, Nat.zero_le _, .nil⟩
  | cons text fields ih =>
    rw [List.forall_mem_cons] at hw
    cases text with
    | none =>
      obtain ⟨n, hn, hfits⟩ := ih (by simpa using hone) hw.2
      exact ⟨n, hn, .absent hfits⟩
    | some t =>
      refine ⟨w + 1 + 0, Nat.le_refl _, .field hw.1 (Fits.none ?_)⟩
      simpa using hone

theorem Fits.present {fields : Fields} {n : Nat} (h : Fits fields n) :
    ((present fields).map fun t => t.length + 1).sum ≤ n := by
  induction h with
  | nil => exact Nat.le_refl _
  | absent _ ih => exact ih
  | @field text fields w n hw _ ih =>
    cases text with
    | none => exact Nat.le_trans ih (Nat.le_add_left _ _)
    | some t =>
      have := hw t rfl
      change (t.length + 1) + ((Wire.present fields).map fun t => t.length + 1).sum ≤ w + 1 + n
      omega

/-- The last present field, when several are there. -/
theorem last_length {fields : Fields} {w : Nat} (h : ∀ text ∈ fields, ∀ t ∈ text, t.length ≤ w) :
    ∀ t ∈ (present fields).getLast?, t.length ≤ w := by
  intro t ht
  obtain ⟨text, hmem, htext⟩ := List.mem_filterMap.1 (List.mem_of_getLast? ht)
  exact h text hmem t htext

/-! ## Compact JSON -/

/-- A byte of a string. -/
def escape (b : UInt8) : List UInt8 :=
  if b = 34 ∨ b = 92 then [92, b]
  else if b = 8 then [92, 98]
  else if b = 9 then [92, 116]
  else if b = 10 then [92, 110]
  else if b = 12 then [92, 102]
  else if b = 13 then [92, 114]
  else if b < 32 then [92, 117, 48, 48, hexDigit (b.toNat / 16), hexDigit (b.toNat % 16)]
  else [b]

def quoted (bytes : List UInt8) : List UInt8 := 34 :: (bytes.flatMap escape ++ [34])

def integer (n : Int) : List UInt8 := (if n < 0 then [45] else []) ++ Decimal.text n.natAbs

def boolean (b : Bool) : List UInt8 := keyword (if b then "true" else "false")

/-- A member of an object, when its value is there. -/
def member (name : String) (value : Option (List UInt8)) : Option (List UInt8) :=
  value.map fun text => 34 :: (keyword name ++ 34 :: 58 :: text)

def object (fields : Fields) : List UInt8 := 123 :: (List.intercalate [44] (present fields) ++ [125])

theorem escape_length (b : UInt8) : (escape b).length ≤ 6 := by
  unfold escape
  repeat' split
  all_goals simp

/-- A byte that JSON copies. -/
def isPlain (b : UInt8) : Bool := 32 ≤ b && b != 34 && b != 92

theorem escape_plain {b : UInt8} (h : isPlain b = true) : escape b = [b] := by
  simp only [isPlain, Bool.and_eq_true, bne_iff_ne, ne_eq, decide_eq_true_eq, UInt8.le_iff_toNat_le] at h
  obtain ⟨⟨h32, hquote⟩, hslash⟩ := h
  have h32 : 32 ≤ b.toNat := h32
  have hne : ∀ c : UInt8, c.toNat < 32 → b ≠ c := by
    rintro c hc rfl
    omega
  have hlt : ¬ b < 32 := by
    rw [UInt8.lt_iff_toNat_lt]
    exact Nat.not_lt.2 h32
  unfold escape
  rw [if_neg (by simp [hquote, hslash]), if_neg (hne 8 (by decide)), if_neg (hne 9 (by decide)),
    if_neg (hne 10 (by decide)), if_neg (hne 12 (by decide)), if_neg (hne 13 (by decide)), if_neg hlt]

theorem quoted_length (bytes : List UInt8) : (quoted bytes).length ≤ 6 * bytes.length + 2 := by
  have key : (bytes.flatMap escape).length ≤ 6 * bytes.length := by
    induction bytes with
    | nil => exact Nat.le_refl _
    | cons b bytes ih =>
      have := escape_length b
      rw [List.flatMap_cons, List.length_append, List.length_cons]
      omega
  simp only [quoted, List.length_cons, List.length_append, List.length_nil]
  omega

theorem quoted_plain_length {bytes : List UInt8} (h : ∀ b ∈ bytes, isPlain b = true) :
    (quoted bytes).length = bytes.length + 2 := by
  have key : bytes.flatMap escape = bytes := by
    induction bytes with
    | nil => rfl
    | cons b bytes ih =>
      rw [List.flatMap_cons, escape_plain (h b (by simp)), ih fun c hc => h c (by simp [hc])]
      rfl
  simp [quoted, key]

theorem integer_length {n : Int} {k : Nat} (hk : 0 < k) (h0 : 0 ≤ n) (h : n < 10 ^ k) :
    (integer n).length ≤ k := by
  unfold integer
  rw [if_neg (by omega), List.nil_append]
  exact Decimal.text_length_le hk (by zify; rw [abs_of_nonneg h0]; exact h)

theorem boolean_length (b : Bool) : (boolean b).length ≤ 5 := by cases b <;> decide

theorem member_length (name : String) {value : Option (List UInt8)} {w : Nat}
    (h : ∀ t ∈ value, t.length ≤ w) : ∀ t ∈ member name value, t.length ≤ name.toList.length + 3 + w := by
  intro t ht
  obtain ⟨text, htext, rfl⟩ := Option.map_eq_some_iff.1 ht
  have := h text htext
  simp only [keyword, List.length_cons, List.length_append, List.length_map]
  omega

theorem intercalate_length (texts : List (List UInt8)) :
    (List.intercalate [44] texts).length ≤ (texts.map fun t => t.length + 1).sum := by
  induction texts with
  | nil => exact Nat.le_refl _
  | cons t texts ih =>
    cases texts with
    | nil => simp
    | cons u texts =>
      rw [List.intercalate_cons_cons, List.length_append, List.map_cons, List.sum_cons]
      simp only [List.length_append, List.length_singleton]
      omega

theorem object_length {fields : Fields} {n : Nat} (h : Fits fields n) : (object fields).length ≤ n + 2 := by
  have h1 := h.present
  have h2 := intercalate_length (present fields)
  simp only [object, List.length_cons, List.length_append, List.length_nil]
  omega

/-! ### No control characters -/

/-- No byte of the text is a control character. -/
def NoControl (text : List UInt8) : Prop := ∀ b ∈ text, 32 ≤ b.toNat

instance (text : List UInt8) : Decidable (NoControl text) :=
  inferInstanceAs (Decidable (∀ b ∈ text, 32 ≤ b.toNat))

theorem NoControl.append {text text' : List UInt8} (h : NoControl text) (h' : NoControl text') :
    NoControl (text ++ text') := List.forall_mem_append.2 ⟨h, h'⟩

theorem NoControl.cons {b : UInt8} {text : List UInt8} (hb : 32 ≤ b.toNat) (h : NoControl text) :
    NoControl (b :: text) := List.forall_mem_cons.2 ⟨hb, h⟩

theorem NoControl.nil : NoControl [] := fun _ h => absurd h List.not_mem_nil

theorem NoControl.map {α : Type} {value : Option α} {text : α → List UInt8} (h : ∀ a ∈ value, NoControl (text a)) :
    ∀ t ∈ value.map text, NoControl t := by
  intro t ht
  obtain ⟨a, ha, rfl⟩ := Option.map_eq_some_iff.1 ht
  exact h a ha

theorem escape_noControl (b : UInt8) : NoControl (escape b) := by
  have hunicode : ∀ n < 32, NoControl [92, 117, 48, 48, hexDigit (n / 16), hexDigit (n % 16)] := by decide +kernel
  have hslash : ∀ {c : UInt8}, 32 ≤ c.toNat → NoControl [92, c] := fun hc => .cons (by decide) (.cons hc .nil)
  unfold escape
  split
  · rename_i h
    rcases h with rfl | rfl <;> exact hslash (by decide)
  iterate 5
    split
    · exact hslash (by decide)
  split
  · rename_i hlt
    exact hunicode b.toNat hlt
  · rename_i hge
    exact .cons (Nat.not_lt.1 hge) .nil

theorem quoted_noControl (bytes : List UInt8) : NoControl (quoted bytes) := by
  refine .cons (by decide) (.append ?_ (.cons (by decide) .nil))
  intro b hb
  obtain ⟨c, -, hc⟩ := List.mem_flatMap.1 hb
  exact escape_noControl c b hc

theorem decimal_noControl (n : Nat) : NoControl (Decimal.text n) := by
  intro b hb
  have hdigit := Decimal.text_isDigit hb
  simp only [Decimal.isDigit, Bool.and_eq_true, decide_eq_true_eq, UInt8.le_iff_toNat_le] at hdigit
  exact Nat.le_trans (by decide) hdigit.1

theorem integer_noControl (n : Int) : NoControl (integer n) :=
  .append (by split <;> decide +kernel) (decimal_noControl n.natAbs)

theorem boolean_noControl (b : Bool) : NoControl (boolean b) := by cases b <;> decide +kernel

/-- The texts of all fields that are there. -/
def Fields.NoControl (fields : Fields) : Prop := ∀ text ∈ fields, ∀ t ∈ text, Wire.NoControl t

theorem Fields.NoControl.nil : Fields.NoControl [] := fun _ h => absurd h List.not_mem_nil

/-- The characters of a name. -/
def nameChars (name : String) : Bool := name.toList.all fun c => 32 ≤ c.toNat && c.toNat < 256

theorem keyword_noControl {name : String} (h : nameChars name = true) : NoControl (keyword name) := by
  intro b hb
  obtain ⟨c, hc, rfl⟩ := List.mem_map.1 hb
  have hchar := List.all_eq_true.1 h c hc
  simp only [Bool.and_eq_true, decide_eq_true_eq] at hchar
  rw [UInt8.toNat_ofNat']
  omega

theorem Fields.NoControl.member {name : String} (hname : nameChars name = true) {α : Type} {value : Option α}
    {text : α → List UInt8} (h : ∀ a ∈ value, Wire.NoControl (text a)) {fields : Fields}
    (hs : Fields.NoControl fields) : Fields.NoControl (Wire.member name (value.map text) :: fields) := by
  refine List.forall_mem_cons.2 ⟨NoControl.map fun t ht => ?_, hs⟩
  have hvalue := NoControl.map h t ht
  exact .cons (by decide) (.append (keyword_noControl hname) (.cons (by decide) (.cons (by decide) hvalue)))

theorem intercalate_noControl {texts : List (List UInt8)} (h : ∀ t ∈ texts, NoControl t) :
    NoControl (List.intercalate [44] texts) := by
  induction texts with
  | nil => exact .nil
  | cons t texts ih =>
    rw [List.forall_mem_cons] at h
    cases texts with
    | nil => simpa using h.1
    | cons u texts =>
      rw [List.intercalate_cons_cons]
      exact (h.1.append (.cons (by decide) .nil)).append (ih h.2)

theorem object_noControl {fields : Fields} (h : Fields.NoControl fields) : NoControl (object fields) := by
  refine .cons (by decide) (.append ?_ (.cons (by decide) .nil))
  have hpresent : ∀ t ∈ present fields, NoControl t := by
    intro t ht
    obtain ⟨text, hmem, htext⟩ := List.mem_filterMap.1 ht
    exact h text hmem t htext
  exact intercalate_noControl hpresent

/-! ## proto3 -/

/-- Seven bits to a byte, the lowest first, all but the last marked. -/
def varint (n : Nat) : List UInt8 :=
  if n < 128 then [UInt8.ofNat n] else UInt8.ofNat (n % 128 + 128) :: varint (n / 128)
termination_by n
decreasing_by omega

/-- `int32` and enumerations: sign-extended to 64 bits. -/
def varintSigned (n : Int) : List UInt8 := varint (n % 2 ^ 64).toNat

theorem varint_length {n k : Nat} (h : n < 2 ^ (7 * (k + 1))) : (varint n).length ≤ k + 1 := by
  induction k generalizing n with
  | zero =>
    rw [varint, if_pos (by omega)]
    exact Nat.le_refl _
  | succ k ih =>
    rw [varint]
    split
    · simp
    · have := ih (n := n / 128) (by
        rw [Nat.div_lt_iff_lt_mul (by decide)]
        rw [show 7 * (k + 1 + 1) = 7 * (k + 1) + 7 by omega, Nat.pow_add] at h
        exact h)
      rw [List.length_cons]
      omega

theorem varint_u32_length (v : UInt32) : (varint v.toNat).length ≤ 5 :=
  varint_length (k := 4) (Nat.lt_trans v.toNat_lt (by decide))

theorem varintSigned_length (n : Int) : (varintSigned n).length ≤ 10 := by
  refine varint_length (k := 9) ?_
  have := Int.emod_lt_of_pos n (show (0 : Int) < 2 ^ 64 by decide)
  have hpos := Int.emod_nonneg n (show (2 ^ 64 : Int) ≠ 0 by decide)
  omega

/-- A field of wire type 0. -/
def varintField (number : Nat) (value : Option (List UInt8)) : Option (List UInt8) :=
  value.map fun text => varint (8 * number) ++ text

/-- A field of wire type 2, its length before it. -/
def lenField (number : Nat) (value : Option (List UInt8)) : Option (List UInt8) :=
  value.map fun bytes => varint (8 * number + 2) ++ varint bytes.length ++ bytes

/-- A field of wire type 5. -/
def fixed32Field (number : Nat) (value : Option UInt32) : Option (List UInt8) :=
  value.map fun v => varint (8 * number + 5) ++ Endian.toLE 4 v.toNat

def message (fields : Fields) : List UInt8 := (present fields).flatten

section
variable {number : Nat} (hn : number < 2000)
include hn

theorem key_length (wire : Nat) (hw : wire < 8) : (varint (8 * number + wire)).length ≤ 2 :=
  varint_length (k := 1) (by omega)

theorem varintField_length {value : Option (List UInt8)} {w : Nat} (h : ∀ t ∈ value, t.length ≤ w) :
    ∀ t ∈ varintField number value, t.length ≤ 2 + w := by
  intro t ht
  obtain ⟨text, htext, rfl⟩ := Option.map_eq_some_iff.1 ht
  have := h text htext
  have := key_length hn 0 (by decide)
  rw [List.length_append]
  simp only [Nat.add_zero] at this
  omega

theorem lenField_length {value : Option (List UInt8)} {w : Nat} (hw : w < 2 ^ 14)
    (h : ∀ t ∈ value, t.length ≤ w) : ∀ t ∈ lenField number value, t.length ≤ 4 + w := by
  intro t ht
  obtain ⟨text, htext, rfl⟩ := Option.map_eq_some_iff.1 ht
  have hlen := h text htext
  have hkey := key_length hn 2 (by decide)
  have := varint_length (n := text.length) (k := 1) (by omega)
  simp only [List.length_append]
  omega

theorem fixed32Field_length (value : Option UInt32) : ∀ t ∈ fixed32Field number value, t.length ≤ 6 := by
  intro t ht
  obtain ⟨v, -, rfl⟩ := Option.map_eq_some_iff.1 ht
  have hkey := key_length hn 5 (by decide)
  rw [List.length_append, Endian.toLE_length]
  omega

end

theorem message_length {fields : Fields} {n : Nat} (h : Fits fields n) : (message fields).length ≤ n := by
  have key : ∀ texts : List (List UInt8), texts.flatten.length ≤ (texts.map fun t => t.length + 1).sum := by
    intro texts
    induction texts with
    | nil => exact Nat.le_refl _
    | cons t texts ih =>
      rw [List.flatten_cons, List.length_append, List.map_cons, List.sum_cons]
      omega
  exact Nat.le_trans (key _) h.present

end Nucleo.Wire
