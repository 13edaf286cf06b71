import Nucleo.L1Encoding.Types
import Nucleo.Core.Decimal
import Nucleo.Core.Rfc4180

/-!
# CSV cells

One value as one cell of text: `trait Cell` with its implementations as the
two functions of the structure `Cell`. An absent value is the empty cell.
Integers have to be in canonical form, which the reader checks by printing the
value again. The text of an `f32` is written by `ryu` and read by the standard
library; both are the parameter `FloatText`, and `FloatText.Lawful` is what a
round trip needs of them.

`Carries c v w t` says that `t` is the cell of `v`: pushed by the encoder, read
back by the decoder, at most `w` printable bytes; `Bare` that moreover no byte of
it can ask for quotes. Each cell type has its lemma (`u32_bare` to
`string_carries`).
-/
namespace Nucleo

/-- `cells::Text`. -/
abbrev Text := HString 128

/-- The trait's two functions. -/
structure Cell (α : Type) where
  read : Bytes → Except CodecError α
  write : α → Except CodecError Text

/-- `ryu::Buffer::format` and `str::parse::<f32>`. -/
structure FloatText where
  format : F32 → HString 16
  parse : Bytes → Option F32

/-- A digit or one of `.-e`. -/
def isFloatChar (b : UInt8) : Bool := isDigit b || b == 46 || b == 45 || b == 101

/-- The shortest text of a finite value, and its reading. -/
structure FloatText.Lawful (lib : FloatText) : Prop where
  parses : ∀ f, f.isFinite = true → lib.parse (lib.format f).bytes = some f
  nonempty : ∀ f, f.isFinite = true → (lib.format f).bytes ≠ []
  chars : ∀ f, f.isFinite = true → ∀ b ∈ (lib.format f).bytes, isFloatChar b = true

/-! ## `cells.rs` -/

/-- Text pushed into an empty `Text`. -/
def textOf (bytes : Bytes) : Except CodecError Text :=
  match HString.ofBytes? 128 bytes with
  | some text => .ok text
  | none => .error .size

/-- mirrors Rust/messaging/src/cells.rs:9-15 -/
def cell {α : Type} (c : Cell α) (text : Bytes) : Except CodecError (Option α) :=
  if text.isEmpty then .ok none
  else match c.read text with
    | .ok v => .ok (some v)
    | .error e => .error e

/-- The text of an optional value. -/
def writeCell {α : Type} (c : Cell α) : Option α → Except CodecError Text
  | none => .ok HString.empty
  | some v => c.write v

/-- mirrors Rust/messaging/src/cells.rs:16-22 -/
def pushCell {α : Type} (c : Cell α) (cells : List Text) (value : Option α) :
    Except CodecError (List Text) := do
  let text ← writeCell c value
  if cells.length < 16 then .ok (cells ++ [text]) else .error .size

/-- The macro `integer!`: `parse` is `from_str`, `print` is `{}`.
mirrors Rust/messaging/src/cells.rs:23-40 -/
def integerCell {α : Type} (parse : Bytes → Option α) (print : α → Bytes) : Cell α where
  read text :=
    match parse text with
    | none => .error .decode
    | some value => do
      let canonical ← textOf (print value)
      if canonical.bytes ≠ text then .error .decode else .ok value
  write value := textOf (print value)

/-- `u32::from_str`: an optional `+`, then digits. -/
def parseU32 (text : Bytes) : Option UInt32 :=
  let digits := if text.head? = some 43 then text.tail else text
  match Decimal.value? digits with
  | none => none
  | some n => if n ≤ u32Max then some (UInt32.ofNat n) else none

/-- `i32::from_str`. -/
def parseI32 (text : Bytes) : Option Int :=
  if text.head? = some 45 then
    match Decimal.value? text.tail with
    | none => none
    | some n => if n ≤ 2 ^ 31 then some (-n) else none
  else
    let digits := if text.head? = some 43 then text.tail else text
    match Decimal.value? digits with
    | none => none
    | some n => if n < 2 ^ 31 then some n else none

def printI32 (v : Int) : Bytes := (if v < 0 then [45] else []) ++ Decimal.text v.natAbs

def u32Cell : Cell UInt32 := integerCell parseU32 fun v => Decimal.text v.toNat

def i32Cell : Cell Int := integerCell parseI32 printI32

/-- mirrors Rust/messaging/src/cells.rs:43-55 -/
def boolCell : Cell Bool where
  read text :=
    if text = ascii "true" then .ok true
    else if text = ascii "false" then .ok false
    else .error .decode
  write v := textOf (ascii (if v then "true" else "false"))

/-- mirrors Rust/messaging/src/cells.rs:56-64 -/
def f32Cell (lib : FloatText) : Cell F32 where
  read text := match lib.parse text with
    | some v => .ok v
    | none => .error .decode
  write v := textOf (lib.format v).bytes

/-- mirrors Rust/messaging/src/cells.rs:65-72 -/
def stringCell (n : Nat) : Cell (HString n) where
  read text := match HString.ofBytes? n text with
    | some v => .ok v
    | none => .error .decode
  write v := textOf v.bytes

/-! ## What a cell carries -/

open Rfc4180 (isPrintable)

/-- `text` is a cell of `value`, of at most `width` bytes. -/
structure Carries {α : Type} (c : Cell α) (value : Option α) (width : Nat) (text : Text) : Prop where
  write : writeCell c value = .ok text
  read : cell c text.bytes = .ok value
  printable : ∀ b ∈ text.bytes, isPrintable b = true
  length : text.bytes.length ≤ width

/-- A cell over the device ID alphabet. -/
structure Bare {α : Type} (c : Cell α) (value : Option α) (width : Nat) (text : Text) : Prop
    extends Carries c value width text where
  bare : ∀ b ∈ text.bytes, isDeviceChar b = true

theorem Carries.push {α : Type} {c : Cell α} {value : Option α} {width : Nat} {text : Text}
    (h : Carries c value width text) {cells : List Text} (hl : cells.length < 16) :
    pushCell c cells value = .ok (cells ++ [text]) := by
  rw [pushCell, h.write, except_ok_bind, if_pos hl]

theorem isPrintable_ascii {b : UInt8} (h : isPrintable b = true) : b < 0x80 := by
  simp only [isPrintable, Bool.and_eq_true, decide_eq_true_eq, UInt8.le_iff_toNat_le] at h
  have h2 : b.toNat ≤ 126 := h.2
  exact UInt8.lt_iff_toNat_lt.2 (Nat.lt_of_le_of_lt h2 (by decide))

theorem isDigit_printable {b : UInt8} (h : isDigit b = true) : isPrintable b = true := by
  simp only [isDigit, isPrintable, Bool.and_eq_true, decide_eq_true_eq, UInt8.le_iff_toNat_le] at h ⊢
  have h1 : 48 ≤ b.toNat := h.1
  have h2 : b.toNat ≤ 57 := h.2
  exact ⟨Nat.le_trans (by decide) h1, Nat.le_trans h2 (by decide)⟩

theorem isAlnum_device {b : UInt8} (h : isAlnum b = true) : isDeviceChar b = true := by
  simp [isDeviceChar, h]

theorem isDigit_device {b : UInt8} (h : isDigit b = true) : isDeviceChar b = true :=
  isAlnum_device (by simp [isAlnum, h])

theorem isAlnum_printable {b : UInt8} (h : isAlnum b = true) : isPrintable b = true := by
  simp only [isAlnum, isPrintable, Bool.or_eq_true, Bool.and_eq_true, decide_eq_true_eq,
    UInt8.le_iff_toNat_le] at h ⊢
  rcases h with (h | h) | h
  · simpa [isPrintable, UInt8.le_iff_toNat_le] using isDigit_printable h
  · exact ⟨Nat.le_trans (by decide) h.1, Nat.le_trans h.2 (by decide)⟩
  · exact ⟨Nat.le_trans (by decide) h.1, Nat.le_trans h.2 (by decide)⟩

theorem isDeviceChar_printable {b : UInt8} (h : isDeviceChar b = true) : isPrintable b = true := by
  simp only [isDeviceChar, Bool.or_eq_true, beq_iff_eq] at h
  rcases h with ((h | rfl) | rfl) | rfl
  · exact isAlnum_printable h
  · decide
  · decide
  · decide

theorem isHexLower_device {b : UInt8} (h : isHexLower b = true) : isDeviceChar b = true := by
  simp only [isHexLower, Bool.or_eq_true, Bool.and_eq_true, decide_eq_true_eq] at h
  refine isAlnum_device ?_
  simp only [isAlnum, Bool.or_eq_true, Bool.and_eq_true, decide_eq_true_eq]
  rcases h with h | h
  · exact .inl (.inl h)
  · refine .inr ⟨h.1, ?_⟩
    have h2 := h.2
    simp only [UInt8.le_iff_toNat_le] at h2 ⊢
    exact Nat.le_trans h2 (by decide)

theorem isFloatChar_device {b : UInt8} (h : isFloatChar b = true) : isDeviceChar b = true := by
  simp only [isFloatChar, Bool.or_eq_true, beq_iff_eq] at h
  rcases h with ((h | rfl) | rfl) | rfl
  · exact isDigit_device h
  · decide
  · decide
  · decide

theorem textOf_printable {bytes : Bytes} (hl : bytes.length ≤ 128)
    (hp : ∀ b ∈ bytes, isPrintable b = true) : ∃ text : Text, textOf bytes = .ok text ∧
      text.bytes = bytes := by
  have h : bytes.length ≤ 128 ∧ utf8Valid bytes = true :=
    ⟨hl, utf8Valid_ascii fun b hb => isPrintable_ascii (hp b hb)⟩
  refine ⟨⟨bytes, h.1, h.2⟩, ?_, rfl⟩
  unfold textOf HString.ofBytes?
  rw [dif_pos h]

/-- The absent value. -/
theorem none_bare {α : Type} (c : Cell α) (width : Nat) : Bare c none width HString.empty where
  write := rfl
  read := rfl
  printable _ hb := by cases hb
  length := Nat.zero_le _
  bare _ hb := by cases hb

/-- A present value whose text is read back. -/
theorem some_carries {α : Type} {c : Cell α} {v : α} {bytes : Bytes} {width : Nat}
    (hw : c.write v = textOf bytes) (hr : c.read bytes = .ok v) (hne : bytes ≠ [])
    (hp : ∀ b ∈ bytes, isPrintable b = true) (hl : bytes.length ≤ width) (h128 : width ≤ 128) :
    ∃ text, Carries c (some v) width text ∧ text.bytes = bytes := by
  obtain ⟨text, ht, rfl⟩ := textOf_printable (Nat.le_trans hl h128) hp
  refine ⟨text, ⟨hw.trans ht, ?_, hp, hl⟩, rfl⟩
  unfold cell
  rw [if_neg (by simpa using hne), hr]

theorem some_bare {α : Type} {c : Cell α} {v : α} {bytes : Bytes} {width : Nat}
    (hw : c.write v = textOf bytes) (hr : c.read bytes = .ok v) (hne : bytes ≠ [])
    (hd : ∀ b ∈ bytes, isDeviceChar b = true) (hl : bytes.length ≤ width) (h128 : width ≤ 128) :
    ∃ text, Bare c (some v) width text := by
  obtain ⟨text, hc, rfl⟩ :=
    some_carries hw hr hne (fun b hb => isDeviceChar_printable (hd b hb)) hl h128
  exact ⟨text, hc, hd⟩

theorem integer_bare {α : Type} {parse : Bytes → Option α} {print : α → Bytes} {v : α} {width : Nat}
    (hparse : parse (print v) = some v) (hne : print v ≠ []) (hd : ∀ b ∈ print v, isDigit b = true)
    (hl : (print v).length ≤ width) (h128 : width ≤ 128) :
    ∃ text, Bare (integerCell parse print) (some v) width text := by
  obtain ⟨text, ht, hb⟩ := textOf_printable (Nat.le_trans hl h128) fun b hb => isDigit_printable (hd b hb)
  refine some_bare rfl ?_ hne (fun b hb => isDigit_device (hd b hb)) hl h128
  simp [integerCell, hparse, ht, hb]

/-- Decimal text does not begin with a sign. -/
theorem text_head (n : Nat) {s : UInt8} (hs : isDigit s = false) : (Decimal.text n).head? ≠ some s := by
  intro h
  have := Decimal.text_isDigit (List.mem_of_head? h)
  rw [show Decimal.isDigit s = isDigit s from rfl, hs] at this
  cases this

theorem u32_bare (v : Option UInt32) : ∃ text, Bare u32Cell v 10 text := by
  cases v with
  | none => exact ⟨_, none_bare _ _⟩
  | some v =>
    refine integer_bare ?_ (Decimal.text_ne_nil _) (fun b hb => Decimal.text_isDigit hb)
      (Decimal.text_length_le (by decide) (Nat.lt_trans v.toNat_lt (by decide))) (by decide)
    have hle := toNat_le_u32Max v
    unfold parseU32
    simp only [if_neg (text_head v.toNat (s := 43) rfl), Decimal.value?_text, if_pos hle,
      UInt32.ofNat_toNat]

/-- Kinds and enumerations. -/
theorem i32_bare (v : Option Int) (h : ∀ k ∈ v, 0 ≤ k ∧ k < 100) : ∃ text, Bare i32Cell v 2 text := by
  cases v with
  | none => exact ⟨_, none_bare _ _⟩
  | some k =>
    obtain ⟨h0, h1⟩ := h k rfl
    have hprint : printI32 k = Decimal.text k.natAbs := by
      unfold printI32
      rw [if_neg (by omega), List.nil_append]
    refine integer_bare ?_ (by rw [hprint]; exact Decimal.text_ne_nil _)
      (by rw [hprint]; exact fun b hb => Decimal.text_isDigit hb)
      (by rw [hprint]; exact Decimal.text_length_le (by decide) (by omega)) (by decide)
    rw [hprint]
    unfold parseI32
    simp only [if_neg (text_head k.natAbs (s := 45) rfl), if_neg (text_head k.natAbs (s := 43) rfl),
      Decimal.value?_text]
    rw [if_pos (by omega)]
    congr 1; omega

theorem bool_bare (v : Option Bool) : ∃ text, Bare boolCell v 5 text := by
  cases v with
  | none => exact ⟨_, none_bare _ _⟩
  | some v =>
    have hread : boolCell.read (ascii (if v then "true" else "false")) = .ok v := by
      cases v <;> rfl
    refine some_bare rfl hread ?_ ?_ ?_ (by decide)
    · cases v <;> exact List.cons_ne_nil _ _
    · cases v <;> exact List.all_eq_true.1 rfl
    · cases v <;> decide

theorem f32_bare {lib : FloatText} (hlib : lib.Lawful) (v : Option F32)
    (h : ∀ f ∈ v, f.isFinite = true) : ∃ text, Bare (f32Cell lib) v 16 text := by
  cases v with
  | none => exact ⟨_, none_bare _ _⟩
  | some f =>
    have hf := h f rfl
    refine some_bare rfl ?_ (hlib.nonempty f hf)
      (fun b hb => isFloatChar_device (hlib.chars f hf b hb)) (lib.format f).len_le (by decide)
    unfold f32Cell
    simp only [hlib.parses f hf]

theorem string_bare {n : Nat} (hn : n ≤ 128) (v : Option (HString n))
    (h : ∀ s ∈ v, s.bytes ≠ [] ∧ ∀ b ∈ s.bytes, isDeviceChar b = true) :
    ∃ text, Bare (stringCell n) v n text := by
  cases v with
  | none => exact ⟨_, none_bare _ _⟩
  | some s =>
    obtain ⟨h1, h2⟩ := h s rfl
    exact some_bare rfl (by simp [stringCell]) h1 h2 s.len_le hn

theorem string_carries {n : Nat} (hn : n ≤ 128) (v : Option (HString n))
    (h : ∀ s ∈ v, s.bytes ≠ [] ∧ ∀ b ∈ s.bytes, isPrintable b = true) :
    ∃ text, Carries (stringCell n) v n text := by
  cases v with
  | none => exact ⟨_, (none_bare _ _).toCarries⟩
  | some s =>
    obtain ⟨h1, h2⟩ := h s rfl
    obtain ⟨text, hc, -⟩ := some_carries (c := stringCell n) (v := s) rfl (by simp [stringCell]) h1 h2
      s.len_le hn
    exact ⟨text, hc⟩

/-! ## Rows -/

/-- A row of printable cells of at most `width` bytes together. -/
structure Row (cells : List Text) (width : Nat) : Prop where
  printable : ∀ t ∈ cells, ∀ b ∈ t.bytes, isPrintable b = true
  length : (cells.map fun t => t.bytes.length).sum ≤ width

theorem Row.nil : Row [] 0 := ⟨(fun _ h => by cases h), Nat.le_refl _⟩

theorem Row.weaken {cells : List Text} {w w' : Nat} (h : Row cells w) (hle : w ≤ w') : Row cells w' :=
  ⟨h.printable, Nat.le_trans h.length hle⟩

theorem Carries.cons {α : Type} {c : Cell α} {v : Option α} {w width : Nat} {t : Text} {cells : List Text}
    (h : Carries c v w t) (hrow : Row cells width) : Row (t :: cells) (w + width) where
  printable t' ht' := by
    rcases List.mem_cons.1 ht' with rfl | ht'
    · exact h.printable
    · exact hrow.printable t' ht'
  length := Nat.add_le_add h.length hrow.length

theorem Row.append {cells cells' : List Text} {w w' : Nat} (h : Row cells w) (h' : Row cells' w') :
    Row (cells ++ cells') (w + w') where
  printable t ht := (List.mem_append.1 ht).elim (h.printable t) (h'.printable t)
  length := by
    rw [List.map_append, List.sum_append]
    exact Nat.add_le_add h.length h'.length

/-! ## A sample float text

The texts of a few values as they are, and the bits in decimal for the rest. -/

namespace Sample

def floatText : FloatText where
  format f :=
    if f = F32.pos25 then ⟨ascii "25.0", by decide, by decide⟩
    else if f = F32.zero then ⟨ascii "0.0", by decide, by decide⟩
    else if f = F32.negZero then ⟨ascii "-0.0", by decide, by decide⟩
    else .ofAscii (Decimal.text f.bits.toNat)
      (Nat.le_trans (Decimal.text_length_le (by decide) (Nat.lt_trans f.bits.toNat_lt (by decide)))
        (by decide : 10 ≤ 16))
      fun _ hb => isPrintable_ascii (isDigit_printable (Decimal.text_isDigit hb))
  parse text :=
    if text = ascii "25.0" then some F32.pos25
    else if text = ascii "0.0" then some F32.zero
    else if text = ascii "-0.0" then some F32.negZero
    else (Decimal.value? text).map fun n => ⟨UInt32.ofNat n⟩

theorem floatText_lawful : floatText.Lawful where
  parses f _ := by
    by_cases h1 : f = F32.pos25
    · subst h1; rfl
    by_cases h2 : f = F32.zero
    · subst h2; rfl
    by_cases h3 : f = F32.negZero
    · subst h3; rfl
    have hdot : ∀ bs : Bytes, 46 ∈ bs → Decimal.text f.bits.toNat ≠ bs := by
      rintro _ hmem rfl
      exact absurd (Decimal.text_isDigit hmem) (by decide)
    simp only [floatText, if_neg h1, if_neg h2, if_neg h3, HString.ofAscii]
    rw [if_neg (hdot _ (by decide)), if_neg (hdot _ (by decide)), if_neg (hdot _ (by decide)),
      Decimal.value?_text, Option.map_some, UInt32.ofNat_toNat]
  nonempty f _ := by
    unfold floatText
    simp only
    split
    · exact List.cons_ne_nil _ _
    split
    · exact List.cons_ne_nil _ _
    split
    · exact List.cons_ne_nil _ _
    · exact Decimal.text_ne_nil _
  chars f _ := by
    unfold floatText
    simp only
    split
    · exact List.all_eq_true.1 rfl
    split
    · exact List.all_eq_true.1 rfl
    split
    · exact List.all_eq_true.1 rfl
    · intro b hb
      have hdigit : isDigit b = true := Decimal.text_isDigit hb
      simp [isFloatChar, hdigit]

end Sample
end Nucleo
