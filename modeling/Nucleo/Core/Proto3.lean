import Nucleo.Core.Wire

/-!
# Reading proto3 messages

A generated decoder is a loop: read a tag, let the field it names take its
value, skip what it does not name, until the length of the message is used up.
What it reads the tags and values with is a parameter, `Reader`; `Lawful` says
that each of its functions reads the text that `Wire` writes, whatever follows.

`Decodes fields m m'` follows the loop over the fields of a record: present
ones are read one after the other, absent ones were never written.

Results:
* `Decodes.read`: the loop over `message fields` ends in the state that `Decodes` names.
* `Decodes.extends`: records that no field claims change nothing, wherever they stand.
* `Reader.standard_lawful`: a reader of proto3 reads all of it.
-/
namespace Nucleo.Wire

/-- What a decoder reads from the front of its input; `strict` refuses a record whose contents are not as
long as it says. -/
structure Reader where
  /-- Field number and wire type. -/
  tag : List UInt8 → Option ((Nat × Nat) × List UInt8)
  varint32 : List UInt8 → Option (UInt32 × List UInt8)
  int32 : List UInt8 → Option (Int × List UInt8)
  bool : List UInt8 → Option (Bool × List UInt8)
  fixed32 : List UInt8 → Option (UInt32 × List UInt8)
  /-- A string of at most so many bytes. -/
  string : Nat → List UInt8 → Option (List UInt8 × List UInt8)
  /-- A value of this wire type. -/
  skip : Nat → List UInt8 → Option (List UInt8)
  strict : Bool

/-- Everything is read as it was written; `utf8` are the strings there are. -/
structure Reader.Lawful (r : Reader) (utf8 : List UInt8 → Bool) : Prop where
  tag : ∀ number wire rest, number < 2 ^ 29 → wire < 8 →
    r.tag (varint (8 * number + wire) ++ rest) = some ((number, wire), rest)
  varint32 : ∀ (v : UInt32) rest, r.varint32 (varint v.toNat ++ rest) = some (v, rest)
  int32 : ∀ (n : Int) rest, -2 ^ 31 ≤ n → n < 2 ^ 31 → r.int32 (varintSigned n ++ rest) = some (n, rest)
  bool : ∀ (b : Bool) rest, r.bool (varint (if b then 1 else 0) ++ rest) = some (b, rest)
  fixed32 : ∀ (v : UInt32) rest, r.fixed32 (Endian.toLE 4 v.toNat ++ rest) = some (v, rest)
  string : ∀ capacity text rest, text.length ≤ capacity → text.length < 2 ^ 32 → utf8 text = true →
    r.string capacity (varint text.length ++ text ++ rest) = some (text, rest)

namespace Reader

variable {M : Type}

/-- How a field takes its value; `none` for a tag that the message does not know. -/
abbrev Known (M : Type) := Nat → Nat → Option (M → List UInt8 → Option (M × List UInt8))

/-- What one message knows, the other knows as well. -/
def Known.Within (known known' : Known M) : Prop :=
  ∀ number wire read, known number wire = some read → known' number wire = some read

/-- One turn of the loop. -/
def field (r : Reader) (known : Known M) (m : M) (bytes : List UInt8) : Option (M × List UInt8) :=
  match r.tag bytes with
  | none => none
  | some ((number, wire), rest) =>
    if number = 0 then none
    else match known number wire with
      | some read => read m rest
      | none => (r.skip wire rest).map (m, ·)

/-- The loop, while fewer than `len` bytes were read. Every turn reads a tag, so `len` turns are enough. -/
def fields (r : Reader) (known : Known M) : Nat → Nat → M → List UInt8 → Option (M × List UInt8)
  | _, 0, m, bytes => some (m, bytes)
  | 0, _ + 1, _, _ => none
  | turns + 1, len + 1, m, bytes => match r.field known m bytes with
    | none => none
    | some (m, rest) => r.fields known turns (len + 1 - (bytes.length - rest.length)) m rest

/-- A message of `len` bytes. -/
def message (r : Reader) (known : Known M) (len : Nat) (m : M) (bytes : List UInt8) : Option (M × List UInt8) :=
  r.fields known len len m bytes

/-- A message with its length before it. -/
def record (r : Reader) (known : Known M) (m : M) (bytes : List UInt8) : Option (M × List UInt8) :=
  match r.varint32 bytes with
  | none => none
  | some (len, rest) => match r.message known len.toNat m rest with
    | none => none
    | some (m, rest') => if r.strict && rest.length - rest'.length != len.toNat then none else some (m, rest')

/-- A message of a oneof: into the variant that is there, or a fresh one in its place. -/
def oneof {α B : Type} (r : Reader) (get : M → Option B) (set : M → Option B → M) (known : Known α)
    (variant : B → Option α) (fresh : α) (body : α → B) (m : M) (bytes : List UInt8) : Option (M × List UInt8) :=
  (r.record known (((get m).bind variant).getD fresh) bytes).map fun (v, rest) => (set m (some (body v)), rest)

/-- The value that `read` finds, put where `set` puts it. -/
def value {α : Type} (read : List UInt8 → Option (α × List UInt8)) (set : M → α → M) (m : M)
    (bytes : List UInt8) : Option (M × List UInt8) :=
  (read bytes).map fun (v, rest) => (set m v, rest)

end Reader

/-! ## The loop over a written message -/

variable {M : Type} {r : Reader} {known : Reader.Known M}

/-- The loop takes `text` from `m` to `m'`, whatever follows. -/
structure Takes (r : Reader) (known : Reader.Known M) (text : List UInt8) (m m' : M) : Prop where
  pos : 0 < text.length
  field : ∀ rest, r.field known m (text ++ rest) = some (m', rest)

/-- The loop over the present fields, one after the other. -/
inductive Decodes (r : Reader) (known : Reader.Known M) : Fields → M → M → Prop
  | nil (m : M) : Decodes r known [] m m
  | absent {fields : Fields} {m m' : M} (h : Decodes r known fields m m') : Decodes r known (none :: fields) m m'
  | field {text : List UInt8} {fields : Fields} {m m' m'' : M} (ht : Takes r known text m m')
      (h : Decodes r known fields m' m'') : Decodes r known (some text :: fields) m m''

theorem message_cons_some (text : List UInt8) (fields : Fields) :
    message (some text :: fields) = text ++ message fields := rfl

/-- The loop over the fields of a message, with turns to spare. -/
theorem Decodes.fields {fs : Fields} {m m' : M} (h : Decodes r known fs m m') {turns : Nat}
    (ht : (message fs).length ≤ turns) (rest : List UInt8) :
    r.fields known turns (message fs).length m (message fs ++ rest) = some (m', rest) := by
  induction h generalizing turns with
  | nil => cases turns <;> rfl
  | absent _ ih => exact ih ht
  | @field text fields m m' m'' htext _ ih =>
    rw [message_cons_some] at ht ⊢
    have hpos := htext.pos
    rw [List.length_append] at ht ⊢
    obtain ⟨k, rfl⟩ : ∃ k, turns = k + 1 := ⟨turns - 1, by omega⟩
    obtain ⟨len, hlen⟩ : ∃ len, text.length + (message fields).length = len + 1 :=
      ⟨text.length + (message fields).length - 1, by omega⟩
    rw [hlen, Reader.fields, List.append_assoc, htext.field]
    dsimp only
    -- the turn read exactly the text
    have hread : len + 1 - ((text ++ (message fields ++ rest)).length - (message fields ++ rest).length) =
        (message fields).length := by
      rw [List.length_append]
      omega
    rw [hread]
    exact ih (by omega)

/-- **A written message is read**, whatever follows. -/
theorem Decodes.read {fs : Fields} {m m' : M} (h : Decodes r known fs m m') (rest : List UInt8) :
    r.message known (message fs).length m (message fs ++ rest) = some (m', rest) :=
  h.fields (Nat.le_refl _) rest

theorem varint_pos (n : Nat) : 0 < (varint n).length := by
  rw [varint]
  split <;> simp

section
variable {utf8 : List UInt8 → Bool} (hr : r.Lawful utf8) {number : Nat} (hn : 0 < number ∧ number < 2 ^ 29)
include hr hn

/-- A field that the message knows, whose value is read from `text`. -/
theorem Takes.claimed {wire : Nat} (hw : wire < 8) {text : List UInt8} {m m' : M}
    {read : M → List UInt8 → Option (M × List UInt8)} (hknown : known number wire = some read)
    (hread : ∀ rest, read m (text ++ rest) = some (m', rest)) :
    Takes r known (varint (8 * number + wire) ++ text) m m' where
  pos := by
    have := varint_pos (8 * number + wire)
    rw [List.length_append]
    omega
  field rest := by
    unfold Reader.field
    rw [List.append_assoc, hr.tag _ _ _ hn.2 hw]
    dsimp only
    rw [if_neg (by omega), hknown]
    exact hread rest

/-- A field of wire type 0 or 5, or a string. -/
theorem Takes.value {α : Type} {wire : Nat} (hw : wire < 8) {text : List UInt8} {m : M}
    {read : List UInt8 → Option (α × List UInt8)} {set : M → α → M} {v : α}
    (hknown : known number wire = some (Reader.value read set))
    (hread : ∀ rest, read (text ++ rest) = some (v, rest)) :
    Takes r known (varint (8 * number + wire) ++ text) m (set m v) :=
  Takes.claimed hr hn hw hknown fun rest => by
    unfold Reader.value
    rw [hread]
    rfl

end

/-! ## Fields whose value may be absent -/

section
variable {utf8 : List UInt8 → Bool} (hr : r.Lawful utf8) {number : Nat} (hn : 0 < number ∧ number < 2 ^ 29)
  {α : Type} {v : Option α} (set : M → Option α → M) {fs : Fields} {m m' : M}
include hr hn

/-- A field that is set when it is there: `set` puts the optional value. -/
theorem Decodes.value {wire : Nat} (hw : wire < 8) {text : α → List UInt8}
    {read : List UInt8 → Option (α × List UInt8)} (hnone : set m none = m)
    (hknown : known number wire = some (Reader.value read fun m a => set m (some a)))
    (hread : ∀ a ∈ v, ∀ rest, read (text a ++ rest) = some (a, rest)) (h : Decodes r known fs (set m v) m') :
    Decodes r known (v.map (fun a => varint (8 * number + wire) ++ text a) :: fs) m m' := by
  cases v with
  | none =>
    rw [hnone] at h
    exact .absent h
  | some a => exact .field (Takes.value hr hn hw hknown (hread a rfl)) h

theorem Decodes.varint {text : α → List UInt8} {read : List UInt8 → Option (α × List UInt8)}
    (hnone : set m none = m) (hknown : known number 0 = some (Reader.value read fun m a => set m (some a)))
    (hread : ∀ a ∈ v, ∀ rest, read (text a ++ rest) = some (a, rest)) (h : Decodes r known fs (set m v) m') :
    Decodes r known (varintField number (v.map text) :: fs) m m' := by
  unfold varintField
  rw [Option.map_map]
  exact Decodes.value hr hn set (show 0 < 8 by decide) hnone hknown hread h

theorem Decodes.len {text : α → List UInt8} {read : List UInt8 → Option (α × List UInt8)}
    (hnone : set m none = m) (hknown : known number 2 = some (Reader.value read fun m a => set m (some a)))
    (hread : ∀ a ∈ v, ∀ rest, read (Wire.varint (text a).length ++ text a ++ rest) = some (a, rest))
    (h : Decodes r known fs (set m v) m') : Decodes r known (lenField number (v.map text) :: fs) m m' := by
  unfold lenField
  rw [Option.map_map]
  have hshape : (fun bytes => Wire.varint (8 * number + 2) ++ Wire.varint bytes.length ++ bytes) ∘ text =
      fun a => Wire.varint (8 * number + 2) ++ (Wire.varint (text a).length ++ text a) :=
    funext fun a => List.append_assoc _ _ _
  rw [hshape]
  exact Decodes.value hr hn set (show 2 < 8 by decide) hnone hknown hread h

theorem Decodes.fixed32 {bits : α → UInt32} {read : List UInt8 → Option (α × List UInt8)}
    (hnone : set m none = m) (hknown : known number 5 = some (Reader.value read fun m a => set m (some a)))
    (hread : ∀ a ∈ v, ∀ rest, read (Endian.toLE 4 (bits a).toNat ++ rest) = some (a, rest))
    (h : Decodes r known fs (set m v) m') : Decodes r known (fixed32Field number (v.map bits) :: fs) m m' := by
  unfold fixed32Field
  rw [Option.map_map]
  exact Decodes.value hr hn set (show 5 < 8 by decide) hnone hknown hread h

end

/-- A message inside a message. -/
theorem Decodes.record {utf8 : List UInt8 → Bool} (hr : r.Lawful utf8) {fs : Fields} {m m' : M}
    (h : Decodes r known fs m m') (hlen : (message fs).length < 2 ^ 32) (rest : List UInt8) :
    r.record known m (Wire.varint (message fs).length ++ message fs ++ rest) = some (m', rest) := by
  have hword : (UInt32.ofNat (message fs).length).toNat = (message fs).length :=
    UInt32.toNat_ofNat_of_lt' hlen
  have hread := hr.varint32 (UInt32.ofNat (message fs).length) (message fs ++ rest)
  rw [hword] at hread
  unfold Reader.record
  rw [List.append_assoc, hread]
  dsimp only
  rw [hword, h.read]
  have hexact : (message fs ++ rest).length - rest.length = (message fs).length := by
    rw [List.length_append]
    omega
  simp only [hexact, bne_self_eq_false, Bool.and_false, Bool.false_eq_true, if_false]

/-- A message of a oneof, where no body was read yet. -/
theorem Takes.oneof {utf8 : List UInt8 → Bool} (hr : r.Lawful utf8) {number : Nat}
    (hn : 0 < number ∧ number < 2 ^ 29) {α B : Type} {get : M → Option B} {set : M → Option B → M}
    {body : Reader.Known α} {variant : B → Option α} {fresh v : α} {make : α → B}
    (hknown : known number 2 = some (r.oneof get set body variant fresh make)) {fs : Fields}
    (h : Decodes r body fs fresh v) (hlen : (message fs).length < 2 ^ 32) {m : M} (hm : get m = none) :
    Takes r known (varint (8 * number + 2) ++ (varint (message fs).length ++ message fs)) m (set m (some (make v))) :=
  .claimed hr hn (by decide) hknown fun rest => by
    unfold Reader.oneof
    rw [hm, show ((none : Option B).bind variant).getD fresh = fresh from rfl, h.record hr hlen rest]
    rfl

/-! ## Records of a later schema -/

/-- A record that changes no message. -/
def Unclaimed (r : Reader) (known : Reader.Known M) (text : List UInt8) : Prop := ∀ m, Takes r known text m m

/-- The fields with unclaimed records between them. -/
inductive Extends (r : Reader) (known : Reader.Known M) : Fields → Fields → Prop
  | nil : Extends r known [] []
  | keep (field : Option (List UInt8)) {fs fs' : Fields} (h : Extends r known fs fs') :
      Extends r known (field :: fs) (field :: fs')
  | insert {text : List UInt8} (ht : Unclaimed r known text) {fs fs' : Fields} (h : Extends r known fs fs') :
      Extends r known fs (some text :: fs')

theorem Extends.refl : ∀ fs : Fields, Extends r known fs fs
  | [] => .nil
  | field :: fs => .keep field (Extends.refl fs)

/-- A tag that the message does not know, before a value that can be skipped. -/
theorem Unclaimed.of_tag {utf8 : List UInt8 → Bool} (hr : r.Lawful utf8) {number wire : Nat}
    (hn : 0 < number ∧ number < 2 ^ 29) (hw : wire < 8) (hknown : known number wire = none) {text : List UInt8}
    (hskip : ∀ rest, r.skip wire (text ++ rest) = some rest) :
    Unclaimed r known (varint (8 * number + wire) ++ text) := fun m => {
  pos := by
    have := varint_pos (8 * number + wire)
    rw [List.length_append]
    omega
  field := fun rest => by
    unfold Reader.field
    rw [List.append_assoc, hr.tag _ _ _ hn.2 hw]
    dsimp only
    rw [if_neg (by omega), hknown, hskip]
    rfl }

/-- A text or a message with a number that is not known. -/
theorem Extends.insert_len {utf8 : List UInt8 → Bool} (hr : r.Lawful utf8) {number : Nat}
    (hn : 0 < number ∧ number < 2 ^ 29) (hknown : known number 2 = none) {text : List UInt8}
    (hskip : ∀ rest, r.skip 2 (varint text.length ++ text ++ rest) = some rest) {fs fs' : Fields}
    (h : Extends r known fs fs') : Extends r known fs (lenField number (some text) :: fs') := by
  have ht := Unclaimed.of_tag hr hn (show 2 < 8 by decide) hknown hskip
  rw [← List.append_assoc] at ht
  exact .insert ht h

/-- **What a later schema adds is not seen.** -/
theorem Decodes.extends {fs fs' : Fields} {m m' : M} (h : Decodes r known fs m m') (he : Extends r known fs fs') :
    Decodes r known fs' m m' := by
  induction he generalizing m with
  | nil => exact h
  | keep field _ ih =>
    cases h with
    | absent h => exact .absent (ih h)
    | field ht h => exact .field ht (ih h)
  | insert ht _ ih => exact .field (ht m) (ih h)

/-- The last of the optional values that is there, and its text. -/
theorem last_map {α β : Type} (f : α → β) (values : List (Option α)) :
    ((values.map (Option.map f)).filterMap id).getLast? = ((values.filterMap id).getLast?).map f := by
  have key : (values.map (Option.map f)).filterMap id = (values.filterMap id).map f := by
    induction values with
    | nil => rfl
    | cons v values ih =>
      cases v with
      | none => exact ih
      | some a => exact congrArg (f a :: ·) ih
  rw [key, List.getLast?_map]

/-! ## A reader -/

namespace Reader

/-- A varint of at most so many bytes. -/
def readVarint : Nat → List UInt8 → Option (Nat × List UInt8)
  | 0, _ => none
  | _ + 1, [] => none
  | k + 1, b :: rest =>
    if b.toNat < 128 then some (b.toNat, rest)
    else (readVarint k rest).map fun (v, rest) => (b.toNat - 128 + 128 * v, rest)

theorem readVarint_varint {n k : Nat} (h : n < 2 ^ (7 * (k + 1))) (rest : List UInt8) :
    readVarint (k + 1) (varint n ++ rest) = some (n, rest) := by
  induction k generalizing n with
  | zero =>
    have hn : n < 128 := h
    rw [varint, if_pos hn, List.singleton_append, readVarint, UInt8.toNat_ofNat', Nat.mod_eq_of_lt (by omega),
      if_pos hn]
  | succ k ih =>
    rw [varint]
    split
    · rename_i hn
      rw [List.singleton_append, readVarint, UInt8.toNat_ofNat', Nat.mod_eq_of_lt (by omega), if_pos hn]
    · have hquot : n / 128 < 2 ^ (7 * (k + 1)) := by
        rw [Nat.div_lt_iff_lt_mul (by decide)]
        rw [show 7 * (k + 1 + 1) = 7 * (k + 1) + 7 by omega, Nat.pow_add] at h
        exact h
      rw [List.cons_append, readVarint, UInt8.toNat_ofNat', Nat.mod_eq_of_lt (by omega), if_neg (by omega), ih hquot]
      simp only [Option.map_some, Option.some.injEq, Prod.mk.injEq, and_true]
      omega

/-- The two's complement value of the low 32 bits. -/
def signed32 (n : Nat) : Int := if n % 2 ^ 32 < 2 ^ 31 then (n % 2 ^ 32 : Nat) else (n % 2 ^ 32 : Nat) - 2 ^ 32

/-- So many bytes. -/
def take (n : Nat) (bytes : List UInt8) : Option (List UInt8 × List UInt8) :=
  if n ≤ bytes.length then some (bytes.take n, bytes.drop n) else none

/-- A string, its length before it. -/
def readText (bytes : List UInt8) : Option (List UInt8 × List UInt8) :=
  match readVarint 10 bytes with
  | none => none
  | some (n, rest) => take (n % 2 ^ 32) rest

/-- Varints of up to ten bytes, cut to the width that was asked for. -/
def standard (utf8 : List UInt8 → Bool) (strict : Bool) : Reader where
  tag bytes := (readVarint 5 bytes).map fun (v, rest) => ((v / 8, v % 8), rest)
  varint32 bytes := (readVarint 10 bytes).map fun (v, rest) => (UInt32.ofNat v, rest)
  int32 bytes := (readVarint 10 bytes).map fun (v, rest) => (signed32 v, rest)
  bool bytes := (readVarint 10 bytes).map fun (v, rest) => (v != 0, rest)
  fixed32 bytes := (take 4 bytes).map fun (v, rest) => (UInt32.ofNat (Endian.ofLE v), rest)
  string capacity bytes := match readText bytes with
    | none => none
    | some (text, rest) => if text.length ≤ capacity && utf8 text then some (text, rest) else none
  skip wire bytes := match wire with
    | 0 => (readVarint 10 bytes).map Prod.snd
    | 1 => (take 8 bytes).map Prod.snd
    | 2 => (readText bytes).map Prod.snd
    | 5 => (take 4 bytes).map Prod.snd
    | _ => none
  strict := strict

theorem take_append {n : Nat} {text : List UInt8} (h : text.length = n) (rest : List UInt8) :
    take n (text ++ rest) = some (text, rest) := by
  unfold take
  rw [if_pos (by rw [List.length_append]; omega), ← h, List.take_left, List.drop_left]

theorem readText_append {text : List UInt8} (h : text.length < 2 ^ 32) (rest : List UInt8) :
    readText (varint text.length ++ text ++ rest) = some (text, rest) := by
  unfold readText
  rw [List.append_assoc, readVarint_varint (show text.length < 2 ^ (7 * (9 + 1)) by omega)]
  exact take_append (Nat.mod_eq_of_lt h).symm rest

/-- **The reader reads what is written**, all of it. -/
theorem standard_lawful (utf8 : List UInt8 → Bool) (strict : Bool) : (standard utf8 strict).Lawful utf8 where
  tag number wire rest hn hw := by
    simp only [standard, readVarint_varint (show 8 * number + wire < 2 ^ (7 * (4 + 1)) by omega), Option.map_some]
    rw [show (8 * number + wire) / 8 = number by omega, show (8 * number + wire) % 8 = wire by omega]
  varint32 v rest := by
    have hv := v.toNat_lt
    simp only [standard, readVarint_varint (show v.toNat < 2 ^ (7 * (9 + 1)) by omega), Option.map_some,
      UInt32.ofNat_toNat]
  int32 n rest h0 h1 := by
    have hmod : (n % 2 ^ 64).toNat < 2 ^ (7 * (9 + 1)) := by omega
    simp only [standard, varintSigned, readVarint_varint hmod, Option.map_some]
    have hsigned : signed32 (n % 2 ^ 64).toNat = n := by
      unfold signed32
      split <;> omega
    rw [hsigned]
  bool b rest := by
    have hsmall : (if b then 1 else 0) < 2 ^ (7 * (9 + 1)) := by cases b <;> decide
    simp only [standard, readVarint_varint hsmall, Option.map_some]
    cases b <;> rfl
  fixed32 v rest := by
    have hv := v.toNat_lt
    simp only [standard, take_append (Endian.toLE_length 4 v.toNat), Option.map_some,
      Endian.ofLE_toLE (show v.toNat < 256 ^ 4 by omega), UInt32.ofNat_toNat]
  string capacity text rest hcap hlen hutf8 := by
    simp only [standard, readText_append hlen, hcap, hutf8, decide_true, Bool.and_self, if_true]

/-- A string can be skipped. -/
theorem standard_skip (utf8 : List UInt8 → Bool) (strict : Bool) {text : List UInt8} (h : text.length < 2 ^ 32)
    (rest : List UInt8) :
    (standard utf8 strict).skip 2 (varint text.length ++ text ++ rest) = some rest := by
  simp only [standard, readText_append h, Option.map_some]

end Reader

end Nucleo.Wire
