import Nucleo.Core.Decimal

/-!
# JSON

Values, their compact text and a strict reader. The text is ASCII: a string is
its UTF-16 code units, and a unit that is not printable is escaped, so a `\u`
escape is exactly one unit. A number without fraction and exponent is an
integer, any other keeps the token it was written with.

The reader takes fuel, one for every value and separator; the length of the
text is enough.

Results:
* `parse_compact`: a value is read back from its text.
* `compact_printable`: the text is printable ASCII, on one line.
-/
namespace Nucleo

namespace Json

open Decimal (isDigit)

/-- A string by its UTF-16 code units. -/
abbrev Str := List UInt16

/-- An ASCII string. -/
def Str.lit (s : String) : Str := s.toList.map fun c => UInt16.ofNat c.toNat

/-! ## Numbers -/

/-- `0` or digits without a leading zero. -/
def IsWhole (bs : List UInt8) : Prop :=
  bs ≠ [] ∧ bs.all isDigit = true ∧ (bs.head? = some 48 → bs = [48])

/-- Nothing, or a point and digits. -/
def IsFraction (bs : List UInt8) : Prop :=
  bs = [] ∨ ∃ ds, bs = 46 :: ds ∧ ds ≠ [] ∧ ds.all isDigit = true

/-- Nothing, or the mark, a sign or none, and digits. -/
def IsExponent (bs : List UInt8) : Prop :=
  bs = [] ∨ ∃ mark sign ds, bs = mark :: (sign ++ ds) ∧ (mark = 101 ∨ mark = 69) ∧
    (sign = [] ∨ sign = [43] ∨ sign = [45]) ∧ ds ≠ [] ∧ ds.all isDigit = true

/-- A number token. -/
structure Numeral where
  negative : Bool
  whole : List UInt8
  fraction : List UInt8
  exponent : List UInt8
  isWhole : IsWhole whole
  isFraction : IsFraction fraction
  isExponent : IsExponent exponent

namespace Numeral

@[ext] theorem ext {a b : Numeral} (hn : a.negative = b.negative) (hw : a.whole = b.whole)
    (hf : a.fraction = b.fraction) (he : a.exponent = b.exponent) : a = b := by
  cases a
  cases b
  simp_all

instance : DecidableEq Numeral := fun a b =>
  decidable_of_iff (a.negative = b.negative ∧ a.whole = b.whole ∧ a.fraction = b.fraction ∧ a.exponent = b.exponent)
    ⟨fun h => ext h.1 h.2.1 h.2.2.1 h.2.2.2, fun h => by simp [h]⟩

def text (n : Numeral) : List UInt8 :=
  (if n.negative then [45] else []) ++ n.whole ++ n.fraction ++ n.exponent

/-- The token has a fraction or an exponent. -/
def real (n : Numeral) : Bool := n.fraction ≠ [] ∨ n.exponent ≠ []

/-- The value of a token without fraction and exponent. -/
def toInt (n : Numeral) : Int :=
  if n.negative then -(Decimal.value n.whole : Int) else Decimal.value n.whole

theorem isWhole_text (n : Nat) : IsWhole (Decimal.text n) := by
  refine ⟨Decimal.text_ne_nil n, List.all_eq_true.2 fun _ hb => Decimal.text_isDigit hb, fun h => ?_⟩
  rcases Nat.eq_zero_or_pos n with rfl | hn
  · decide
  · exact absurd h (Decimal.text_head hn)

/-- The token of an integer. -/
def ofInt (n : Int) : Numeral where
  negative := n < 0
  whole := Decimal.text n.natAbs
  fraction := []
  exponent := []
  isWhole := isWhole_text _
  isFraction := .inl rfl
  isExponent := .inl rfl

theorem isFraction_text (n : Nat) : IsFraction (46 :: Decimal.text n) :=
  .inr ⟨_, rfl, Decimal.text_ne_nil n, (isWhole_text n).2.1⟩

theorem isExponent_nil : IsExponent [] := .inl rfl

/-- The token of two numbers with a point between them. -/
def decimal (whole fraction : Nat) : Numeral where
  negative := false
  whole := Decimal.text whole
  fraction := 46 :: Decimal.text fraction
  exponent := []
  isWhole := isWhole_text whole
  isFraction := isFraction_text fraction
  isExponent := isExponent_nil

theorem real_decimal (whole fraction : Nat) : (decimal whole fraction).real = true := by simp [real, decimal]

@[simp] theorem toInt_ofInt (n : Int) : (ofInt n).toInt = n := by
  simp only [toInt, ofInt, Decimal.value_text, decide_eq_true_eq]
  split <;> omega

@[simp] theorem real_ofInt (n : Int) : (ofInt n).real = false := by simp [real, ofInt]

end Numeral

/-- What is left after digits. -/
def afterDigits (bs : List UInt8) : List UInt8 := bs.dropWhile isDigit

def scanSign (bs : List UInt8) : Bool × List UInt8 :=
  if bs.head? = some 45 then (true, bs.tail) else (false, bs)

def scanWhole (bs : List UInt8) : List UInt8 × List UInt8 :=
  if bs.head? = some 48 then ([48], bs.tail) else (bs.takeWhile isDigit, afterDigits bs)

def scanFraction (bs : List UInt8) : List UInt8 × List UInt8 :=
  if bs.head? = some 46 ∧ bs.tail.takeWhile isDigit ≠ [] then
    (46 :: bs.tail.takeWhile isDigit, afterDigits bs.tail)
  else ([], bs)

/-- The sign of an exponent. -/
def scanPlus (bs : List UInt8) : List UInt8 × List UInt8 :=
  if bs.head? = some 43 then ([43], bs.tail)
  else if bs.head? = some 45 then ([45], bs.tail)
  else ([], bs)

def scanExponent (bs : List UInt8) : List UInt8 × List UInt8 :=
  match bs with
  | [] => ([], [])
  | mark :: rest =>
    if (mark = 101 ∨ mark = 69) ∧ (scanPlus rest).2.takeWhile isDigit ≠ [] then
      (mark :: ((scanPlus rest).1 ++ (scanPlus rest).2.takeWhile isDigit), afterDigits (scanPlus rest).2)
    else ([], mark :: rest)

theorem all_takeWhile (bs : List UInt8) : (bs.takeWhile isDigit).all isDigit = true := by
  induction bs with
  | nil => rfl
  | cons b bs ih =>
    rw [List.takeWhile_cons]
    split
    · simp_all
    · rfl

theorem scanWhole_isWhole {bs : List UInt8} (h : (scanWhole bs).1 ≠ []) : IsWhole (scanWhole bs).1 := by
  unfold scanWhole at h ⊢
  split
  · exact ⟨by simp, rfl, fun _ => rfl⟩
  · rename_i h0
    rw [if_neg h0] at h
    refine ⟨h, all_takeWhile bs, fun hz => absurd ?_ h0⟩
    cases bs with
    | nil => cases hz
    | cons b bs =>
      rw [List.takeWhile_cons] at hz
      split at hz
      · exact hz
      · cases hz

theorem scanFraction_isFraction (bs : List UInt8) : IsFraction (scanFraction bs).1 := by
  unfold scanFraction
  split
  · rename_i h
    exact .inr ⟨_, rfl, h.2, all_takeWhile _⟩
  · exact .inl rfl

theorem scanPlus_cases (bs : List UInt8) :
    (scanPlus bs).1 = [] ∨ (scanPlus bs).1 = [43] ∨ (scanPlus bs).1 = [45] := by
  unfold scanPlus
  split
  · simp
  · split <;> simp

theorem scanExponent_isExponent (bs : List UInt8) : IsExponent (scanExponent bs).1 := by
  unfold scanExponent
  split
  · exact .inl rfl
  · split
    · rename_i h
      exact .inr ⟨_, _, _, rfl, h.1, scanPlus_cases _, h.2, all_takeWhile _⟩
    · exact .inl rfl

/-- The longest number token in front, and what follows it. -/
def number (bs : List UInt8) : Option (Numeral × List UInt8) :=
  let signed := scanSign bs
  let whole := scanWhole signed.2
  let fraction := scanFraction whole.2
  let exponent := scanExponent fraction.2
  if h : whole.1 ≠ [] then
    some (⟨signed.1, whole.1, fraction.1, exponent.1, scanWhole_isWhole h, scanFraction_isFraction _,
      scanExponent_isExponent _⟩, exponent.2)
  else none

/-- No byte that would go on with a number. -/
def Stops (rest : List UInt8) : Prop :=
  ∀ b, rest.head? = some b → isDigit b = false ∧ b ≠ 43 ∧ b ≠ 45 ∧ b ≠ 46 ∧ b ≠ 69 ∧ b ≠ 101

/-- No digit in front. -/
def NoDigit (rest : List UInt8) : Prop := ∀ b, rest.head? = some b → isDigit b = false

theorem Stops.noDigit {rest : List UInt8} (h : Stops rest) : NoDigit rest := fun b hb => (h b hb).1

theorem stops_cons {b : UInt8} {rest : List UInt8}
    (h : isDigit b = false ∧ b ≠ 43 ∧ b ≠ 45 ∧ b ≠ 46 ∧ b ≠ 69 ∧ b ≠ 101) : Stops (b :: rest) := by
  intro b' hb
  cases hb
  exact h

theorem span_digits {ds rest : List UInt8} (hd : ds.all isDigit = true) (hr : NoDigit rest) :
    (ds ++ rest).takeWhile isDigit = ds ∧ afterDigits (ds ++ rest) = rest := by
  unfold afterDigits
  induction ds with
  | nil =>
    cases rest with
    | nil => exact ⟨rfl, rfl⟩
    | cons b rest => simp [hr b rfl]
  | cons b ds ih =>
    simp only [List.all_cons, Bool.and_eq_true] at hd
    simp [hd.1, ih hd.2]

theorem scanExponent_text {e rest : List UInt8} (he : IsExponent e) (hr : Stops rest) :
    scanExponent (e ++ rest) = (e, rest) := by
  obtain rfl | ⟨mark, sign, ds, rfl, hmark, hsign, hne, hd⟩ := he
  · cases rest with
    | nil => rfl
    | cons b rest =>
      obtain ⟨-, -, -, -, h69, h101⟩ := hr b rfl
      simp [scanExponent, h69, h101]
  · have hplus : scanPlus (sign ++ ds ++ rest) = (sign, ds ++ rest) := by
      rcases hsign with rfl | rfl | rfl
      · cases ds with
        | nil => exact absurd rfl hne
        | cons d ds =>
          simp only [List.all_cons, Bool.and_eq_true] at hd
          have h43 : d ≠ 43 := fun h => by simp [h, isDigit] at hd
          have h45 : d ≠ 45 := fun h => by simp [h, isDigit] at hd
          simp [scanPlus, h43, h45]
      · simp [scanPlus]
      · simp [scanPlus]
    obtain ⟨htake, hdrop⟩ := span_digits hd hr.noDigit
    simp only [List.cons_append, scanExponent, hplus, htake, hdrop]
    rw [if_pos ⟨hmark, hne⟩]

/-- An exponent does not go on with digits. -/
theorem exponent_noDigit {e rest : List UInt8} (he : IsExponent e) (hr : Stops rest) :
    NoDigit (e ++ rest) ∧ (e ++ rest).head? ≠ some 46 := by
  obtain rfl | ⟨mark, sign, ds, rfl, hmark, -⟩ := he
  · refine ⟨hr.noDigit, fun h => ?_⟩
    exact (hr 46 h).2.2.2.1 rfl
  · refine ⟨fun b hb => ?_, ?_⟩
    · simp only [List.cons_append, List.head?_cons, Option.some.injEq] at hb
      subst hb
      rcases hmark with rfl | rfl <;> decide
    · rcases hmark with rfl | rfl <;> simp

theorem scanFraction_text {f rest : List UInt8} (hf : IsFraction f) (hr : NoDigit rest)
    (hp : rest.head? ≠ some 46) : scanFraction (f ++ rest) = (f, rest) := by
  obtain rfl | ⟨ds, rfl, hne, hd⟩ := hf
  · simp [scanFraction, hp]
  · obtain ⟨htake, hdrop⟩ := span_digits hd hr
    simp only [scanFraction, List.cons_append, List.head?_cons, List.tail_cons, htake, hdrop, true_and]
    rw [if_pos hne]

theorem fraction_noDigit {f rest : List UInt8} (hf : IsFraction f) (hr : NoDigit rest) :
    NoDigit (f ++ rest) := by
  obtain rfl | ⟨ds, rfl, -⟩ := hf
  · exact hr
  · intro b hb
    simp only [List.cons_append, List.head?_cons, Option.some.injEq] at hb
    subst hb
    decide

theorem scanWhole_text {w rest : List UInt8} (hw : IsWhole w) (hr : NoDigit rest) :
    scanWhole (w ++ rest) = (w, rest) := by
  obtain ⟨hne, hd, hz⟩ := hw
  obtain ⟨htake, hdrop⟩ := span_digits hd hr
  unfold scanWhole
  cases w with
  | nil => exact absurd rfl hne
  | cons d ds =>
    by_cases h0 : d = 48
    · subst h0
      have hds : ds = [] := by simpa using hz rfl
      subst hds
      rfl
    · rw [if_neg (by simpa using h0), htake, hdrop]

theorem whole_head {w : List UInt8} (hw : IsWhole w) (rest : List UInt8) :
    ∃ d t, w ++ rest = d :: t ∧ isDigit d = true := by
  obtain ⟨hne, hd, -⟩ := hw
  cases w with
  | nil => exact absurd rfl hne
  | cons d ds =>
    simp only [List.all_cons, Bool.and_eq_true] at hd
    exact ⟨d, ds ++ rest, rfl, hd.1⟩

/-- **A token is read back** before anything that does not go on with it. -/
theorem number_text (n : Numeral) {rest : List UInt8} (hr : Stops rest) :
    number (n.text ++ rest) = some (n, rest) := by
  obtain ⟨d, t, hhead, hdigit⟩ := whole_head n.isWhole (n.fraction ++ (n.exponent ++ rest))
  have hsign : scanSign (n.text ++ rest) = (n.negative, n.whole ++ (n.fraction ++ (n.exponent ++ rest))) := by
    have h45 : d ≠ 45 := fun h => by simp [h, isDigit] at hdigit
    unfold scanSign Numeral.text
    cases n.negative with
    | true => simp
    | false => simp [hhead, h45]
  obtain ⟨hnd, hdot⟩ := exponent_noDigit n.isExponent hr
  have hwhole := scanWhole_text n.isWhole (fraction_noDigit n.isFraction hnd)
  have hfraction := scanFraction_text n.isFraction hnd hdot
  have hexponent := scanExponent_text n.isExponent hr
  unfold number
  simp only [hsign, hwhole, hfraction, hexponent]
  rw [dif_pos n.isWhole.1]

/-- A token starts with a digit or a minus sign. -/
theorem numeral_head (n : Numeral) : ∃ b t, n.text = b :: t ∧ (isDigit b = true ∨ b = 45) := by
  obtain ⟨d, t, hhead, hdigit⟩ := whole_head n.isWhole (n.fraction ++ n.exponent)
  unfold Numeral.text
  cases n.negative with
  | true => exact ⟨45, _, rfl, .inr rfl⟩
  | false => exact ⟨d, t, by simpa using hhead, .inl hdigit⟩

/-! ## Strings -/

def hexDigit (n : Nat) : UInt8 := UInt8.ofNat (if n < 10 then 48 + n else 87 + n)

def hexValue (b : UInt8) : Option Nat :=
  if isDigit b then some (b.toNat - 48)
  else if 97 ≤ b ∧ b ≤ 102 then some (b.toNat - 87)
  else if 65 ≤ b ∧ b ≤ 70 then some (b.toNat - 55)
  else none

theorem hexValue_hexDigit : ∀ n < 16, hexValue (hexDigit n) = some n := by decide

/-- One unit inside a string: itself, a short escape or a `\u` escape. -/
def escape (u : UInt16) : List UInt8 :=
  if u = 34 ∨ u = 92 then [92, u.toUInt8]
  else if 32 ≤ u ∧ u < 127 then [u.toUInt8]
  else if u = 8 then [92, 98]
  else if u = 9 then [92, 116]
  else if u = 10 then [92, 110]
  else if u = 12 then [92, 102]
  else if u = 13 then [92, 114]
  else [92, 117, hexDigit (u.toNat / 4096), hexDigit (u.toNat / 256 % 16), hexDigit (u.toNat / 16 % 16),
    hexDigit (u.toNat % 16)]

/-- A string with its quotes. -/
def quoted (s : Str) : List UInt8 := 34 :: (s.flatMap escape ++ [34])

/-- The unit of a short escape. -/
def unescape (b : UInt8) : Option UInt16 :=
  if b = 34 ∨ b = 92 ∨ b = 47 then some b.toUInt16
  else if b = 98 then some 8
  else if b = 116 then some 9
  else if b = 110 then some 10
  else if b = 102 then some 12
  else if b = 114 then some 13
  else none

/-- The units of a code point. -/
def units (point : Nat) : Str :=
  if point < 65536 then [UInt16.ofNat point]
  else [UInt16.ofNat (55296 + (point - 65536) / 1024), UInt16.ofNat (56320 + (point - 65536) % 1024)]

/-- Where the reader of a string stands. -/
inductive Mode
  | plain
  | escaped
  /-- In a `\u` escape: the digits left after the next one, the value so far. -/
  | hex (left value : Nat)
  /-- In a character of several bytes: the bytes left after the next one, its bits so far. -/
  | wide (left point : Nat)

/-- `us` in front of what was read. -/
def push (us : Str) (r : Option (Str × List UInt8)) : Option (Str × List UInt8) :=
  r.map fun p => (us ++ p.1, p.2)

/-- A string up to its closing quote, and what follows it. -/
def string : Mode → List UInt8 → Option (Str × List UInt8)
  | _, [] => none
  | .plain, b :: rest =>
    if b = 34 then some ([], rest)
    else if b = 92 then string .escaped rest
    else if b < 32 then none
    else if b < 128 then push [b.toUInt16] (string .plain rest)
    else if b < 224 then string (.wide 0 (b.toNat % 32)) rest
    else if b < 240 then string (.wide 1 (b.toNat % 16)) rest
    else string (.wide 2 (b.toNat % 8)) rest
  | .escaped, b :: rest =>
    if b = 117 then string (.hex 3 0) rest
    else match unescape b with
      | none => none
      | some u => push [u] (string .plain rest)
  | .hex left value, b :: rest =>
    match hexValue b with
    | none => none
    | some d =>
      match left with
      | 0 => push [UInt16.ofNat (value * 16 + d)] (string .plain rest)
      | left + 1 => string (.hex left (value * 16 + d)) rest
  | .wide left point, b :: rest =>
    match left with
    | 0 => push (units (point * 64 + b.toNat % 64)) (string .plain rest)
    | left + 1 => string (.wide left (point * 64 + b.toNat % 64)) rest

theorem string_hex {left value d : Nat} (hd : d < 16) (rest : List UInt8) :
    string (.hex (left + 1) value) (hexDigit d :: rest) = string (.hex left (value * 16 + d)) rest := by
  simp [string, hexValue_hexDigit d hd]

/-- **One unit is read back.** -/
theorem string_escape (u : UInt16) (rest : List UInt8) :
    string .plain (escape u ++ rest) = push [u] (string .plain rest) := by
  have hlt := u.toNat_lt
  unfold escape
  split
  · rename_i h
    rcases h with rfl | rfl <;> rfl
  split
  · rename_i h1 h
    simp only [UInt16.le_iff_toNat_le, UInt16.lt_iff_toNat_lt, UInt16.toNat_ofNat] at h
    obtain ⟨h34, h92⟩ := not_or.1 h1
    have hb : u.toUInt8.toNat = u.toNat := by
      rw [UInt16.toNat_toUInt8]
      omega
    have hq : u.toUInt8 ≠ 34 := fun e => h34 (UInt16.toNat_inj.1 (by rw [← hb, e]; rfl))
    have hs : u.toUInt8 ≠ 92 := fun e => h92 (UInt16.toNat_inj.1 (by rw [← hb, e]; rfl))
    have hlow : ¬ u.toUInt8 < 32 := by
      rw [UInt8.lt_iff_toNat_lt, hb]
      exact Nat.not_lt.2 h.1
    have hhigh : u.toUInt8 < 128 := by
      rw [UInt8.lt_iff_toNat_lt, hb]
      exact Nat.lt_trans h.2 (by decide)
    have hback : u.toUInt8.toUInt16 = u := UInt16.toNat_inj.1 (by rw [UInt8.toNat_toUInt16, hb])
    simp [string, hq, hs, hlow, hhigh, hback]
  split
  · subst_vars
    rfl
  split
  · subst_vars
    rfl
  split
  · subst_vars
    rfl
  split
  · subst_vars
    rfl
  split
  · subst_vars
    rfl
  · have h3 : u.toNat / 4096 < 16 := by omega
    have hesc : string .plain (92 :: 117 :: hexDigit (u.toNat / 4096) :: hexDigit (u.toNat / 256 % 16) ::
        hexDigit (u.toNat / 16 % 16) :: hexDigit (u.toNat % 16) :: rest) =
        string (.hex 3 0) (hexDigit (u.toNat / 4096) :: hexDigit (u.toNat / 256 % 16) ::
          hexDigit (u.toNat / 16 % 16) :: hexDigit (u.toNat % 16) :: rest) := rfl
    have hvalue : (((0 * 16 + u.toNat / 4096) * 16 + u.toNat / 256 % 16) * 16 + u.toNat / 16 % 16) * 16 +
        u.toNat % 16 = u.toNat := by omega
    simp only [List.cons_append, List.nil_append]
    rw [hesc, string_hex h3, string_hex (by omega), string_hex (by omega)]
    simp only [string, hexValue_hexDigit (u.toNat % 16) (by omega), hvalue, UInt16.ofNat_toNat]

/-- A quoted string is read back, its opening quote taken. -/
theorem string_quoted (s : Str) (rest : List UInt8) :
    string .plain (s.flatMap escape ++ 34 :: rest) = some (s, rest) := by
  induction s with
  | nil => rfl
  | cons u s ih =>
    rw [List.flatMap_cons, List.append_assoc, string_escape, ih]
    rfl

/-- A number with a fraction or an exponent. -/
structure Float where
  numeral : Numeral
  real : numeral.real = true
  deriving DecidableEq

end Json

/-! ## Values -/

inductive Json
  | null
  | bool (value : Bool)
  | int (value : Int)
  | float (value : Json.Float)
  | str (value : Json.Str)
  | arr (items : List Json)
  /-- The fields as they stand; of two with one key the last counts. -/
  | obj (fields : List (Json.Str × Json))

namespace Json

open Decimal (isDigit)

/-! ### Text -/

/-- The bytes of a keyword. -/
def keyword (s : String) : List UInt8 := s.toList.map fun c => UInt8.ofNat c.toNat

mutual

/-- The text without blanks. -/
def compact : Json → List UInt8
  | .null => keyword "null"
  | .bool true => keyword "true"
  | .bool false => keyword "false"
  | .int n => (Numeral.ofInt n).text
  | .float x => x.numeral.text
  | .str s => quoted s
  | .arr [] => [91, 93]
  | .arr (v :: items) => 91 :: (compact v ++ itemsTail items)
  | .obj [] => [123, 125]
  | .obj ((key, v) :: fields) => 123 :: (quoted key ++ 58 :: (compact v ++ fieldsTail fields))

/-- The items after the first one, and the bracket. -/
def itemsTail : List Json → List UInt8
  | [] => [93]
  | v :: items => 44 :: (compact v ++ itemsTail items)

/-- The fields after the first one, and the brace. -/
def fieldsTail : List (Str × Json) → List UInt8
  | [] => [125]
  | (key, v) :: fields => 44 :: (quoted key ++ 58 :: (compact v ++ fieldsTail fields))

end

/-! ### Reader -/

def isSpace (b : UInt8) : Bool := b == 32 || b == 9 || b == 10 || b == 13

def skipSpace (bs : List UInt8) : List UInt8 := bs.dropWhile isSpace

/-- `bs` without the keyword in front of it. -/
def strip (word bs : List UInt8) : Option (List UInt8) :=
  if word.isPrefixOf bs then some (bs.drop word.length) else none

/-- A keyword or a number. -/
def scalar (bs : List UInt8) : Option (Json × List UInt8) :=
  match strip (keyword "null") bs, strip (keyword "true") bs, strip (keyword "false") bs with
  | some rest, _, _ => some (.null, rest)
  | _, some rest, _ => some (.bool true, rest)
  | _, _, some rest => some (.bool false, rest)
  | none, none, none =>
    (number bs).map fun p => (if h : p.1.real = true then .float ⟨p.1, h⟩ else .int p.1.toInt, p.2)

/-- A quoted key and its colon. -/
def key (bs : List UInt8) : Option (Str × List UInt8) :=
  if bs.head? = some 34 then do
    let p ← string .plain bs.tail
    let rest := skipSpace p.2
    if rest.head? = some 58 then some (p.1, skipSpace rest.tail) else none
  else none

mutual

/-- The value in front, and what follows it. -/
def value : Nat → List UInt8 → Option (Json × List UInt8)
  | 0, _ => none
  | fuel + 1, bs =>
    let rest := skipSpace bs.tail
    if bs.head? = some 34 then (string .plain bs.tail).map fun p => (.str p.1, p.2)
    else if bs.head? = some 91 then
      if rest.head? = some 93 then some (.arr [], rest.tail)
      else (value fuel rest).bind fun p => (items fuel p.2).map fun q => (.arr (p.1 :: q.1), q.2)
    else if bs.head? = some 123 then
      if rest.head? = some 125 then some (.obj [], rest.tail)
      else (key rest).bind fun k => (value fuel k.2).bind fun p =>
        (fields fuel p.2).map fun q => (.obj ((k.1, p.1) :: q.1), q.2)
    else scalar bs

/-- The items after one, up to the bracket. -/
def items : Nat → List UInt8 → Option (List Json × List UInt8)
  | 0, _ => none
  | fuel + 1, bs =>
    let rest := skipSpace bs
    if rest.head? = some 93 then some ([], rest.tail)
    else if rest.head? = some 44 then
      (value fuel (skipSpace rest.tail)).bind fun p => (items fuel p.2).map fun q => (p.1 :: q.1, q.2)
    else none

/-- The fields after one, up to the brace. -/
def fields : Nat → List UInt8 → Option (List (Str × Json) × List UInt8)
  | 0, _ => none
  | fuel + 1, bs =>
    let rest := skipSpace bs
    if rest.head? = some 125 then some ([], rest.tail)
    else if rest.head? = some 44 then
      (key (skipSpace rest.tail)).bind fun k => (value fuel k.2).bind fun p =>
        (fields fuel p.2).map fun q => ((k.1, p.1) :: q.1, q.2)
    else none

end

/-- One value and blanks around it. -/
def parse (bs : List UInt8) : Option Json :=
  (value bs.length (skipSpace bs)).bind fun p => if skipSpace p.2 = [] then some p.1 else none

/-! ### Reading back -/

theorem skipSpace_cons {b : UInt8} (h : isSpace b = false) (t : List UInt8) : skipSpace (b :: t) = b :: t := by
  simp [skipSpace, h]

/-- A token in front stops nothing before it, and is neither blank nor a bracket. -/
theorem text_head {b : UInt8} (h : isDigit b = true ∨ b = 45) :
    isSpace b = false ∧ b ≠ 34 ∧ b ≠ 91 ∧ b ≠ 93 ∧ b ≠ 102 ∧ b ≠ 110 ∧ b ≠ 116 ∧ b ≠ 123 := by
  have key : ∀ k < 256, (isDigit (UInt8.ofNat k) = true ∨ UInt8.ofNat k = 45) →
      isSpace (UInt8.ofNat k) = false ∧ UInt8.ofNat k ≠ 34 ∧ UInt8.ofNat k ≠ 91 ∧ UInt8.ofNat k ≠ 93 ∧
        UInt8.ofNat k ≠ 102 ∧ UInt8.ofNat k ≠ 110 ∧ UInt8.ofNat k ≠ 116 ∧ UInt8.ofNat k ≠ 123 := by
    decide +kernel
  have := key b.toNat b.toNat_lt
  rw [UInt8.ofNat_toNat] at this
  exact this h

/-- A value starts with neither a blank nor a closing bracket. -/
theorem compact_head (v : Json) : ∃ b t, compact v = b :: t ∧ isSpace b = false ∧ b ≠ 93 := by
  have htoken : ∀ n : Numeral, ∃ b t, n.text = b :: t ∧ isSpace b = false ∧ b ≠ 93 := by
    intro n
    obtain ⟨b, t, ht, hb⟩ := numeral_head n
    obtain ⟨hspace, -, -, h93, -⟩ := text_head hb
    exact ⟨b, t, ht, hspace, h93⟩
  cases v with
  | null => exact ⟨_, _, rfl, rfl, by decide⟩
  | bool b => cases b <;> exact ⟨_, _, rfl, rfl, by decide⟩
  | int n => simpa [compact] using htoken (.ofInt n)
  | float x => simpa [compact] using htoken x.numeral
  | str s => exact ⟨_, _, rfl, rfl, by decide⟩
  | arr vs => cases vs <;> exact ⟨_, _, by rw [compact], rfl, by decide⟩
  | obj fs => cases fs <;> exact ⟨_, _, by rw [compact], rfl, by decide⟩

theorem strip_none {c b : UInt8} (h : b ≠ c) (word t : List UInt8) : strip (c :: word) (b :: t) = none := by
  simp [strip, Ne.symm h]

theorem scalar_text (n : Numeral) {rest : List UInt8} (hr : Stops rest) :
    scalar (n.text ++ rest) = some (if h : n.real = true then .float ⟨n, h⟩ else .int n.toInt, rest) := by
  obtain ⟨b, t, ht, hb⟩ := numeral_head n
  obtain ⟨-, -, -, -, h102, h110, h116, -⟩ := text_head hb
  have hnumber := number_text n hr
  rw [ht, List.cons_append] at hnumber ⊢
  unfold scalar
  rw [show keyword "null" = 110 :: [117, 108, 108] from rfl, show keyword "true" = 116 :: [114, 117, 101] from rfl,
    show keyword "false" = 102 :: [97, 108, 115, 101] from rfl, strip_none h110, strip_none h116,
    strip_none h102]
  simp [hnumber]

theorem value_text (n : Numeral) {fuel : Nat} (hfuel : 0 < fuel) {rest : List UInt8} (hr : Stops rest) :
    value fuel (n.text ++ rest) = some (if h : n.real = true then .float ⟨n, h⟩ else .int n.toInt, rest) := by
  obtain ⟨fuel, rfl⟩ := Nat.exists_eq_add_of_lt hfuel
  have hscalar := scalar_text n hr
  obtain ⟨b, t, ht, hb⟩ := numeral_head n
  obtain ⟨-, h34, h91, -, -, -, -, h123⟩ := text_head hb
  rw [ht, List.cons_append] at hscalar ⊢
  rw [value]
  simp [h34, h91, h123, hscalar]

theorem quoted_append (s : Str) (rest : List UInt8) :
    quoted s ++ rest = 34 :: (s.flatMap escape ++ 34 :: rest) := by
  simp [quoted]

/-- A key is read back before a value. -/
theorem key_quoted (k : Str) {b : UInt8} (hb : isSpace b = false) (t : List UInt8) :
    key (34 :: (k.flatMap escape ++ 34 :: 58 :: b :: t)) = some (k, b :: t) := by
  have hs : string .plain (k.flatMap escape ++ 34 :: 58 :: b :: t) = some (k, 58 :: b :: t) := string_quoted k _
  simp [key, hs, skipSpace_cons hb, skipSpace_cons (show isSpace 58 = false from rfl)]

theorem itemsTail_stops (items : List Json) (rest : List UInt8) : Stops (itemsTail items ++ rest) := by
  cases items with
  | nil => exact stops_cons (by decide)
  | cons v items => exact stops_cons (by decide)

theorem fieldsTail_stops (fields : List (Str × Json)) (rest : List UInt8) : Stops (fieldsTail fields ++ rest) := by
  cases fields with
  | nil => exact stops_cons (by decide)
  | cons f fields => exact stops_cons (by decide)

mutual

/-- **A value is read back** before anything that does not go on with a number. -/
theorem value_compact (v : Json) (fuel : Nat) (rest : List UInt8) (hfuel : (compact v).length ≤ fuel)
    (hr : Stops rest) : value fuel (compact v ++ rest) = some (v, rest) := by
  have hpos : 0 < fuel := by
    obtain ⟨b, t, hv, -⟩ := compact_head v
    rw [hv] at hfuel
    exact Nat.lt_of_lt_of_le (Nat.succ_pos _) hfuel
  match v with
  | .int n =>
    have h := value_text (.ofInt n) hpos hr
    simpa [compact] using h
  | .float x =>
    have h := value_text x.numeral hpos hr
    rw [dif_pos x.real] at h
    simpa [compact] using h
  | .null =>
    obtain ⟨fuel, rfl⟩ := Nat.exists_eq_add_of_lt hpos
    rfl
  | .bool true =>
    obtain ⟨fuel, rfl⟩ := Nat.exists_eq_add_of_lt hpos
    rfl
  | .bool false =>
    obtain ⟨fuel, rfl⟩ := Nat.exists_eq_add_of_lt hpos
    rfl
  | .str s =>
    obtain ⟨fuel, rfl⟩ := Nat.exists_eq_add_of_lt hpos
    simp [compact, quoted, value, string_quoted]
  | .arr [] =>
    obtain ⟨fuel, rfl⟩ := Nat.exists_eq_add_of_lt hpos
    rfl
  | .obj [] =>
    obtain ⟨fuel, rfl⟩ := Nat.exists_eq_add_of_lt hpos
    rfl
  | .arr (v :: vs) =>
    obtain ⟨fuel, rfl⟩ := Nat.exists_eq_add_of_lt hpos
    rw [Nat.zero_add] at hfuel ⊢
    simp only [compact, List.length_cons, List.length_append] at hfuel
    have hv := value_compact v fuel (itemsTail vs ++ rest) (by omega) (itemsTail_stops vs rest)
    have hvs := items_tail vs fuel rest (by omega)
    -- the bracket, then an item that is not the closing one
    obtain ⟨b, t, hb, hspace, h93⟩ := compact_head v
    rw [hb, List.cons_append] at hv
    rw [compact, List.cons_append, List.append_assoc, hb, List.cons_append, value]
    simp [skipSpace_cons hspace, h93, hv, hvs]
  | .obj ((k, v) :: fs) =>
    obtain ⟨fuel, rfl⟩ := Nat.exists_eq_add_of_lt hpos
    rw [Nat.zero_add] at hfuel ⊢
    simp only [compact, List.length_cons, List.length_append] at hfuel
    have hv := value_compact v fuel (fieldsTail fs ++ rest) (by omega) (fieldsTail_stops fs rest)
    have hfs := fields_tail fs fuel rest (by omega)
    obtain ⟨b, t, hb, hspace, -⟩ := compact_head v
    have hk := key_quoted k hspace (t ++ (fieldsTail fs ++ rest))
    rw [hb, List.cons_append] at hv
    rw [compact, List.cons_append, List.append_assoc, List.cons_append, List.append_assoc, hb,
      List.cons_append, quoted_append, value]
    simp [skipSpace_cons (show isSpace 34 = false from rfl), hk, hv, hfs]

theorem items_tail (items : List Json) (fuel : Nat) (rest : List UInt8)
    (hfuel : (itemsTail items).length ≤ fuel) :
    Json.items fuel (itemsTail items ++ rest) = some (items, rest) := by
  match items with
  | [] =>
    obtain ⟨fuel, rfl⟩ := Nat.exists_eq_add_of_lt (Nat.lt_of_lt_of_le (Nat.succ_pos _) hfuel)
    rfl
  | v :: vs =>
    obtain ⟨fuel, rfl⟩ := Nat.exists_eq_add_of_lt (Nat.lt_of_lt_of_le (Nat.succ_pos _) hfuel)
    rw [Nat.zero_add] at hfuel ⊢
    simp only [itemsTail, List.length_cons, List.length_append] at hfuel
    have hv := value_compact v fuel (itemsTail vs ++ rest) (by omega) (itemsTail_stops vs rest)
    have hvs := items_tail vs fuel rest (by omega)
    obtain ⟨b, t, hb, hspace, -⟩ := compact_head v
    rw [hb, List.cons_append] at hv
    rw [itemsTail, List.cons_append, List.append_assoc, hb, List.cons_append, Json.items]
    simp [skipSpace_cons hspace, skipSpace_cons (show isSpace 44 = false from rfl), hv, hvs]

theorem fields_tail (fields : List (Str × Json)) (fuel : Nat) (rest : List UInt8)
    (hfuel : (fieldsTail fields).length ≤ fuel) :
    Json.fields fuel (fieldsTail fields ++ rest) = some (fields, rest) := by
  match fields with
  | [] =>
    obtain ⟨fuel, rfl⟩ := Nat.exists_eq_add_of_lt (Nat.lt_of_lt_of_le (Nat.succ_pos _) hfuel)
    rfl
  | (k, v) :: fs =>
    obtain ⟨fuel, rfl⟩ := Nat.exists_eq_add_of_lt (Nat.lt_of_lt_of_le (Nat.succ_pos _) hfuel)
    rw [Nat.zero_add] at hfuel ⊢
    simp only [fieldsTail, List.length_cons, List.length_append] at hfuel
    have hv := value_compact v fuel (fieldsTail fs ++ rest) (by omega) (fieldsTail_stops fs rest)
    have hfs := fields_tail fs fuel rest (by omega)
    obtain ⟨b, t, hb, hspace, -⟩ := compact_head v
    have hk := key_quoted k hspace (t ++ (fieldsTail fs ++ rest))
    rw [hb, List.cons_append] at hv
    rw [fieldsTail, List.cons_append, List.append_assoc, List.cons_append, List.append_assoc, hb,
      List.cons_append, quoted_append, Json.fields]
    simp [skipSpace_cons (show isSpace 34 = false from rfl), skipSpace_cons (show isSpace 44 = false from rfl),
      hk, hv, hfs]

end

/-- **Round trip**, with blanks allowed after the text. -/
theorem parse_compact (v : Json) {blanks : List UInt8} (h : blanks.all isSpace = true) :
    parse (compact v ++ blanks) = some v := by
  have hstops : Stops blanks := by
    intro b hb
    have hspace := List.all_eq_true.1 h b (List.mem_of_mem_head? hb)
    have hcases : b = 32 ∨ b = 9 ∨ b = 10 ∨ b = 13 := by simpa [isSpace, or_assoc] using hspace
    rcases hcases with rfl | rfl | rfl | rfl <;> decide
  have hskip : skipSpace blanks = [] := by simpa [skipSpace] using h
  have hvalue := value_compact v (compact v ++ blanks).length blanks (by simp) hstops
  obtain ⟨b, t, hb, hspace, -⟩ := compact_head v
  rw [hb, List.cons_append] at hvalue ⊢
  unfold parse
  rw [skipSpace_cons hspace, hvalue]
  simp [hskip]

example : parse (keyword " \x7b\"a\": [1, -2.5e3, null], \"a\":\"\\u00e9\"\x7d\n") =
    some (.obj [(Str.lit "a", .arr [.int 1, .float ⟨⟨true, [50], [46, 53], [101, 51],
      ⟨List.cons_ne_nil _ _, rfl, nofun⟩, .inr ⟨[53], rfl, List.cons_ne_nil _ _, rfl⟩,
      .inr ⟨101, [], [51], rfl, .inl rfl, .inl rfl, List.cons_ne_nil _ _, rfl⟩⟩, rfl⟩, .null]),
      (Str.lit "a", .str [233])]) := by rfl

/-! ### The text is one line of ASCII -/

def isPrintable (b : UInt8) : Bool := 32 ≤ b && b < 127

/-- Printable ASCII. -/
def Printable (bs : List UInt8) : Prop := bs.all isPrintable = true

theorem printable_append {as bs : List UInt8} : Printable (as ++ bs) ↔ Printable as ∧ Printable bs := by
  simp [Printable]

theorem printable_cons {b : UInt8} {bs : List UInt8} : Printable (b :: bs) ↔ isPrintable b = true ∧ Printable bs := by
  simp [Printable]

theorem printable_nil : Printable [] := rfl

theorem isPrintable_iff {b : UInt8} : isPrintable b = true ↔ 32 ≤ b.toNat ∧ b.toNat < 127 := by
  simp [isPrintable, UInt8.le_iff_toNat_le, UInt8.lt_iff_toNat_lt]

theorem digits_printable {ds : List UInt8} (h : ds.all isDigit = true) : Printable ds := by
  refine List.all_eq_true.2 fun b hb => ?_
  have hd := List.all_eq_true.1 h b hb
  simp only [isDigit, Bool.and_eq_true, decide_eq_true_eq, UInt8.le_iff_toNat_le, UInt8.toNat_ofNat] at hd
  rw [isPrintable_iff]
  omega

theorem numeral_printable (n : Numeral) : Printable n.text := by
  have hsign : Printable (if n.negative then [45] else []) := by
    split
    · exact printable_cons.2 ⟨by decide, printable_nil⟩
    · exact printable_nil
  have hfraction : Printable n.fraction := by
    obtain h | ⟨ds, h, -, hd⟩ := n.isFraction
    · exact h ▸ printable_nil
    · exact h ▸ printable_cons.2 ⟨by decide, digits_printable hd⟩
  have hexponent : Printable n.exponent := by
    obtain h | ⟨mark, sign, ds, h, hmark, hs, -, hd⟩ := n.isExponent
    · exact h ▸ printable_nil
    · rw [h, printable_cons, printable_append]
      refine ⟨?_, ?_, digits_printable hd⟩
      · rcases hmark with rfl | rfl <;> decide
      · rcases hs with rfl | rfl | rfl
        · exact printable_nil
        · exact printable_cons.2 ⟨by decide, printable_nil⟩
        · exact printable_cons.2 ⟨by decide, printable_nil⟩
  unfold Numeral.text
  simp only [printable_append]
  exact ⟨⟨⟨hsign, digits_printable n.isWhole.2.1⟩, hfraction⟩, hexponent⟩

theorem hexDigit_printable : ∀ n < 16, isPrintable (hexDigit n) = true := by decide

theorem escape_printable (u : UInt16) : Printable (escape u) := by
  have hlt := u.toNat_lt
  unfold escape
  split
  · rename_i h
    rcases h with rfl | rfl <;> rfl
  split
  · rename_i h
    simp only [UInt16.le_iff_toNat_le, UInt16.lt_iff_toNat_lt, UInt16.toNat_ofNat] at h
    have hb : u.toUInt8.toNat = u.toNat := by
      rw [UInt16.toNat_toUInt8]
      omega
    refine printable_cons.2 ⟨?_, printable_nil⟩
    rw [isPrintable_iff, hb]
    omega
  split
  · rfl
  split
  · rfl
  split
  · rfl
  split
  · rfl
  split
  · rfl
  · simp only [printable_cons]
    exact ⟨by decide, by decide, hexDigit_printable _ (by omega), hexDigit_printable _ (by omega),
      hexDigit_printable _ (by omega), hexDigit_printable _ (by omega), printable_nil⟩

theorem quoted_printable (s : Str) : Printable (quoted s) := by
  unfold quoted
  rw [printable_cons, printable_append, printable_cons]
  refine ⟨by decide, List.all_eq_true.2 fun b hb => ?_, by decide, printable_nil⟩
  obtain ⟨u, -, hu⟩ := List.mem_flatMap.1 hb
  exact List.all_eq_true.1 (escape_printable u) b hu

mutual

/-- **The text of a value is printable ASCII.** -/
theorem compact_printable (v : Json) : Printable (compact v) := by
  match v with
  | .null => rfl
  | .bool true => rfl
  | .bool false => rfl
  | .int n => simpa [compact] using numeral_printable _
  | .float x => simpa [compact] using numeral_printable _
  | .str s => exact quoted_printable s
  | .arr [] => rfl
  | .arr (v :: vs) =>
    rw [compact, printable_cons, printable_append]
    exact ⟨by decide, compact_printable v, itemsTail_printable vs⟩
  | .obj [] => rfl
  | .obj ((k, v) :: fs) =>
    rw [compact, printable_cons, printable_append, printable_cons, printable_append]
    exact ⟨by decide, quoted_printable k, by decide, compact_printable v, fieldsTail_printable fs⟩

theorem itemsTail_printable (items : List Json) : Printable (itemsTail items) := by
  match items with
  | [] => exact printable_cons.2 ⟨by decide, printable_nil⟩
  | v :: vs =>
    rw [itemsTail, printable_cons, printable_append]
    exact ⟨by decide, compact_printable v, itemsTail_printable vs⟩

theorem fieldsTail_printable (fields : List (Str × Json)) : Printable (fieldsTail fields) := by
  match fields with
  | [] => exact printable_cons.2 ⟨by decide, printable_nil⟩
  | (k, v) :: fs =>
    rw [fieldsTail, printable_cons, printable_append, printable_cons, printable_append]
    exact ⟨by decide, quoted_printable k, by decide, compact_printable v, fieldsTail_printable fs⟩

end

/-! ### Fields -/

/-- The value of a field of an object. -/
def get? (name : Str) : Json → Option Json
  | .obj fields => fields.reverse.lookup name
  | _ => none

end Json
end Nucleo
