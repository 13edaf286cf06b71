import Nucleo.Core.Word

/-!
# Wire scalars and codec errors

The values the two message schemas are built from. A `heapless::String<N>` is
`HString N`: UTF-8 bytes with their capacity bound, both carried as fields, so
an over-long or ill-formed string cannot be built. A `f32` is its IEEE-754
bit pattern with the comparisons the codec makes on it; nothing here rounds.
-/
namespace Nucleo

abbrev Bytes := List UInt8

/-! ## UTF-8 -/

/-- The UTF-8 automaton: `need` continuation bytes are due, the next one in
`lo..=hi` (the ranges exclude overlong forms, surrogates and anything above
U+10FFFF). -/
def utf8Run : Nat → UInt8 → UInt8 → Bytes → Bool
  | need, _, _, [] => need == 0
  | need + 1, lo, hi, b :: rest => lo ≤ b && b ≤ hi && utf8Run need 0x80 0xBF rest
  | 0, lo, hi, b :: rest =>
    if b < 0x80 then utf8Run 0 lo hi rest
    else if 0xC2 ≤ b && b ≤ 0xDF then utf8Run 1 0x80 0xBF rest
    else if b == 0xE0 then utf8Run 2 0xA0 0xBF rest
    else if b == 0xED then utf8Run 2 0x80 0x9F rest
    else if 0xE1 ≤ b && b ≤ 0xEF then utf8Run 2 0x80 0xBF rest
    else if b == 0xF0 then utf8Run 3 0x90 0xBF rest
    else if 0xF1 ≤ b && b ≤ 0xF3 then utf8Run 3 0x80 0xBF rest
    else if b == 0xF4 then utf8Run 3 0x80 0x8F rest
    else false

/-- `core::str::from_utf8` accepts. -/
def utf8Valid (bs : Bytes) : Bool := utf8Run 0 0x80 0xBF bs

theorem utf8Valid_ascii {bs : Bytes} (h : ∀ b ∈ bs, b < 0x80) : utf8Valid bs = true := by
  unfold utf8Valid
  induction bs with
  | nil => rfl
  | cons b bs ih =>
    rw [utf8Run, if_pos (h b (by simp))]
    exact ih fun c hc => h c (by simp [hc])

/-! ## Strings -/

/-- `heapless::String<N>`. -/
structure HString (n : Nat) where
  bytes : Bytes
  len_le : bytes.length ≤ n
  utf8 : utf8Valid bytes = true
  deriving DecidableEq

namespace HString

variable {n : Nat}

@[ext] theorem ext {a b : HString n} (h : a.bytes = b.bytes) : a = b := by
  cases a; cases b; cases h; rfl

/-- `heapless::String::from_str` after `from_utf8`: over-long or ill-formed
bytes are refused. -/
def ofBytes? (n : Nat) (bs : Bytes) : Option (HString n) :=
  if h : bs.length ≤ n ∧ utf8Valid bs = true then some ⟨bs, h.1, h.2⟩ else none

@[simp] theorem ofBytes?_bytes (s : HString n) : ofBytes? n s.bytes = some s := by
  rw [ofBytes?, dif_pos ⟨s.len_le, s.utf8⟩]

def empty : HString n := ⟨[], Nat.zero_le _, rfl⟩

/-- The string of a list of ASCII bytes. -/
def ofAscii (bs : Bytes) (hl : bs.length ≤ n) (ha : ∀ b ∈ bs, b < 0x80) : HString n :=
  ⟨bs, hl, utf8Valid_ascii ha⟩

end HString

/-- The bytes of an ASCII literal. -/
def ascii (s : String) : Bytes := s.toList.map fun c => UInt8.ofNat c.toNat

/-- `u8::is_ascii_digit`. -/
def isDigit (b : UInt8) : Bool := 48 ≤ b && b ≤ 57

/-- `u8::is_ascii_alphanumeric`. -/
def isAlnum (b : UInt8) : Bool :=
  isDigit b || (65 ≤ b && b ≤ 90) || (97 ≤ b && b ≤ 122)

/-- A lower-case hexadecimal digit: `is_ascii_digit() || (b'a'..=b'f').contains(&b)`. -/
def isHexLower (b : UInt8) : Bool := isDigit b || (97 ≤ b && b ≤ 102)

/-- The device ID alphabet: alphanumeric or one of `_.-`. -/
def isDeviceChar (b : UInt8) : Bool := isAlnum b || b == 95 || b == 46 || b == 45

/-! ## `f32` -/

/-- An IEEE-754 binary32 by its bits. -/
structure F32 where
  bits : UInt32
  deriving DecidableEq, Repr

namespace F32

/-- Exponent and mantissa, the sign bit dropped. -/
def magnitude (f : F32) : Nat := f.bits.toNat % 2 ^ 31

def negative (f : F32) : Bool := 2 ^ 31 ≤ f.bits.toNat

def isNaN (f : F32) : Bool := 0x7F800000 < f.magnitude

/-- `f32::is_finite`. -/
def isFinite (f : F32) : Bool := f.magnitude < 0x7F800000

/-- Position on the number line; the two zeros coincide. -/
def key (f : F32) : Int := if f.negative then -(f.magnitude : Int) else f.magnitude

/-- `a <= b`, false when either is a NaN. -/
def le (a b : F32) : Bool := !a.isNaN && !b.isNaN && a.key ≤ b.key

/-- `a == b`, false when either is a NaN, true of the two zeros. -/
def eq (a b : F32) : Bool := !a.isNaN && !b.isNaN && a.key == b.key

def zero : F32 := ⟨0⟩
def negZero : F32 := ⟨0x80000000⟩
def neg100 : F32 := ⟨0xC2C80000⟩
def pos25 : F32 := ⟨0x41C80000⟩
def pos200 : F32 := ⟨0x43480000⟩

/-- Only the two zeros compare equal to `0.0`. -/
theorem eq_zero_iff (f : F32) : f.eq zero = true ↔ f = zero ∨ f = negZero := by
  have hlt := f.bits.toNat_lt
  constructor
  · intro h
    simp only [eq, zero, key, isNaN, negative, magnitude, Bool.and_eq_true, beq_iff_eq] at h
    have hk := h.2
    simp only [UInt32.toNat_ofNat, Nat.zero_mod, decide_eq_true_eq] at hk
    have hm : f.bits.toNat % 2 ^ 31 = 0 := by
      split at hk <;> omega
    rcases (show f.bits.toNat = 0 ∨ f.bits.toNat = 2 ^ 31 by omega) with e | e
    · left; cases f; simp only [zero, F32.mk.injEq]; exact UInt32.toNat_inj.mp e
    · right; cases f; simp only [negZero, F32.mk.injEq]; exact UInt32.toNat_inj.mp e
  · rintro (rfl | rfl) <;> decide

end F32

/-! ## Codec enumerations -/

/-- mirrors Rust/messaging/src/lib.rs:32-50 -/
inductive CodecError
  | crc | decode | validation | version | size
  deriving DecidableEq, Repr

/-- mirrors Rust/messaging/src/lib.rs:51-80 -/
inductive Format
  | csv | json | protobuf
  deriving DecidableEq, Repr

def Format.id : Format → Int
  | .csv => 1
  | .json => 2
  | .protobuf => 3

/-- mirrors Rust/messaging/src/framing.rs:8-12 -/
inductive CrcMode
  | off | on
  deriving DecidableEq, Repr

/-- `MAX_BODY`. -/
def maxBody : Nat := 1016

/-- `fn require(ok: bool)`, the same in `benchmark.rs` and `validation.rs`. -/
def require (ok : Bool) : Except CodecError Unit :=
  if ok then .ok () else .error .validation

/-- `if c { check?; }`. -/
def checkIf (c : Bool) (check : Except CodecError Unit) : Except CodecError Unit :=
  if c then check else .ok ()

/-- `if let Some(body) = body { check(body)?; }`. -/
def ifPresent {α : Type} (body : Option α) (check : α → Except CodecError Unit) :
    Except CodecError Unit :=
  match body with
  | none => .ok ()
  | some b => check b

@[simp] theorem require_eq_ok {b : Bool} {u : Unit} : require b = .ok u ↔ b = true := by
  unfold require; cases b <;> simp

@[simp] theorem checkIf_eq_ok {c : Bool} {check : Except CodecError Unit} {u : Unit} :
    checkIf c check = .ok u ↔ (c = true → check = .ok ()) := by
  unfold checkIf; cases c <;> simp

@[simp] theorem ifPresent_eq_ok {α : Type} {body : Option α} {check : α → Except CodecError Unit}
    {u : Unit} : ifPresent body check = .ok u ↔ ∀ b, body = some b → check b = .ok () := by
  cases body <;> simp [ifPresent]

@[simp] theorem except_ok_bind {ε α β : Type} (a : α) (f : α → Except ε β) :
    ((Except.ok a : Except ε α) >>= f) = f a := rfl

@[simp] theorem except_error_bind {ε α β : Type} (e : ε) (f : α → Except ε β) :
    ((Except.error e : Except ε α) >>= f) = .error e := rfl

/-- Sequencing two fallible steps succeeds when both do. -/
theorem except_bind_ok {ε α β : Type} {x : Except ε α} {f : α → Except ε β} {b : β} :
    (x >>= f) = .ok b ↔ ∃ a, x = .ok a ∧ f a = .ok b := by
  cases x <;> simp [bind, Except.bind]

/-! ## Sample identities -/

namespace Sample

def device : HString 32 := ⟨ascii "nucleo-h723zg", by decide, by decide⟩
def boot : HString 16 := ⟨ascii "00000000000000b0", by decide, by decide⟩
def session : HString 16 := ⟨ascii "00000000000000c1", by decide, by decide⟩

end Sample
end Nucleo
