import Nucleo.Core.Assoc
import Nucleo.L1Encoding.Cells
import Nucleo.L1Encoding.PyCodec

/-!
# One cell, two readers

`cells.rs` reads a cell of a record by reading the text and printing the value
again; `csv_value` and `shape` match it with a pattern and check the range.
`Agree t rust toScalar py` says that the two give the same value for the cell
`t`, or both none: `u32_agrees`, `i32_agrees`, `string_agrees`. `AgreeRow` is the
same of a row, which `AgreeRow.cons` puts together cell by cell.
-/
namespace Nucleo
open Rfc4180 PyCodec

/-! ## Integers -/

theorem printI32_ascii {n : Int} {b : UInt8} (hb : b ∈ printI32 n) : b < 0x80 := by
  unfold printI32 at hb
  rcases List.mem_append.1 hb with hb | hb
  · split at hb
    · rw [List.mem_singleton.1 hb]
      decide
    · cases hb
  · exact isPrintable_ascii (isDigit_printable (Decimal.text_isDigit hb))

theorem inClass_single {p : UInt8 → Bool} {c : Bytes} (h : inClass p c = true) : ∃ b, c = [b] ∧ p b = true := by
  unfold inClass at h
  split at h
  · exact ⟨_, rfl, h⟩
  · cases h

/-- Digits without a leading zero, as characters. -/
theorem digits_text {first : Bytes} {rest : PyStr} (h1 : inClass isDigit first = true) (h2 : first ≠ [48])
    (h3 : rest.all (inClass isDigit) = true) :
    Decimal.text (Decimal.value (PyStr.encode (first :: rest))) = PyStr.encode (first :: rest) ∧
      0 < Decimal.value (PyStr.encode (first :: rest)) := by
  obtain ⟨d, rfl, hd⟩ := inClass_single h1
  have hne : d ≠ 48 := fun h => h2 (by rw [h])
  have hall : ∀ b ∈ PyStr.encode ([d] :: rest), Decimal.isDigit b = true := by
    intro b hb
    rcases List.mem_cons.1 hb with rfl | hb
    · exact hd
    · obtain ⟨c, hc, hbc⟩ := List.mem_flatten.1 hb
      obtain ⟨x, rfl, hx⟩ := inClass_single (List.all_eq_true.1 h3 c hc)
      rw [List.mem_singleton.1 hbc]
      exact hx
  have hz : (PyStr.encode ([d] :: rest)).head? = some 48 → PyStr.encode ([d] :: rest) = [48] :=
    fun h => absurd (Option.some.inj h) hne
  have hnil : PyStr.encode ([d] :: rest) ≠ [] := List.cons_ne_nil _ _
  have htext := Decimal.text_value hnil hall hz
  refine ⟨htext, Nat.pos_of_ne_zero fun h0 => ?_⟩
  rw [h0] at htext
  exact hne (List.head_eq_of_cons_eq htext).symm

/-- **The canonical integers of the one are the pattern of the other.** -/
theorem integerText_iff {t : PyStr} (ht : IsText t) {n : Int} :
    (integerText t = true ∧ PyCodec.int t = n) ↔ t.encode = printI32 n := by
  constructor
  · rintro ⟨htext, rfl⟩
    unfold integerText at htext
    rw [Bool.or_eq_true, beq_iff_eq] at htext
    rcases htext with rfl | htext
    · rfl
    · by_cases hneg : t.head? = some [45]
      · rw [if_pos hneg] at htext
        cases t with
        | nil => cases hneg
        | cons c t =>
          cases Option.some.inj hneg
          cases t with
          | nil => cases htext
          | cons first rest =>
            simp only [List.tail_cons, Bool.and_eq_true, bne_iff_ne] at htext
            obtain ⟨htx, hpos⟩ := digits_text htext.1.1 htext.1.2 htext.2
            rw [PyCodec.int, if_pos hneg, List.tail_cons, printI32, if_pos (by omega), Int.natAbs_neg,
              Int.natAbs_natCast, htx]
            rfl
      · rw [if_neg hneg] at htext
        cases t with
        | nil => cases htext
        | cons first rest =>
          simp only [Bool.and_eq_true, bne_iff_ne] at htext
          obtain ⟨htx, -⟩ := digits_text htext.1.1 htext.1.2 htext.2
          rw [PyCodec.int, if_neg hneg, printI32, if_neg (by omega), Int.natAbs_natCast, htx]
          rfl
  · intro he
    have hlit := (ht.eq_lit fun b hb => printI32_ascii hb).2 he
    have hdigits : ∀ m : Nat, 0 < m → ∃ d ds, Decimal.text m = d :: ds ∧ isDigit d = true ∧ d ≠ 48 ∧
        (ds.map fun b => [b]).all (inClass isDigit) = true := by
      intro m hm
      cases htx : Decimal.text m with
      | nil => exact absurd htx (Decimal.text_ne_nil m)
      | cons d ds =>
        have hall : ∀ b ∈ d :: ds, isDigit b = true := fun b hb => Decimal.text_isDigit (htx ▸ hb)
        refine ⟨d, ds, rfl, hall d List.mem_cons_self, fun h48 => ?_, ?_⟩
        · exact Decimal.text_head hm (by rw [htx, h48]; rfl)
        · rw [List.all_map, List.all_eq_true]
          exact fun b hb => hall b (List.mem_cons_of_mem _ hb)
    rcases Int.lt_trichotomy n 0 with hn | rfl | hn
    · obtain ⟨d, ds, htx, hd, hne, hds⟩ := hdigits n.natAbs (by omega)
      have hp : printI32 n = 45 :: d :: ds := by rw [printI32, if_pos hn, htx]; rfl
      rw [hlit, hp]
      refine ⟨?_, ?_⟩
      · simp only [integerText, List.map_cons, List.head?_cons, if_true, List.tail_cons, hds, Bool.and_true]
        simp [inClass, hd, hne]
      · have hv : Decimal.value (PyStr.encode ((d :: ds).map fun b => [b])) = n.natAbs := by
          rw [encode_lit, ← htx, Decimal.value_text]
        simp only [PyCodec.int, List.map_cons, List.head?_cons, if_true, List.tail_cons] at hv ⊢
        rw [hv]
        omega
    · rw [hlit]
      exact ⟨rfl, rfl⟩
    · obtain ⟨d, ds, htx, hd, hne, hds⟩ := hdigits n.natAbs (by omega)
      have hp : printI32 n = d :: ds := by rw [printI32, if_neg (by omega), htx]; rfl
      have h45 : ¬ (some [d] : Option Bytes) = some [45] := by
        intro h
        cases Option.some.inj h
        exact absurd hd (by decide)
      rw [hlit, hp]
      refine ⟨?_, ?_⟩
      · simp only [integerText, List.map_cons, List.head?_cons, if_neg h45, hds, Bool.and_true]
        simp [inClass, hd, hne]
      · have hv : Decimal.value (PyStr.encode ((d :: ds).map fun b => [b])) = n.natAbs := by
          rw [encode_lit, ← htx, Decimal.value_text]
        simp only [PyCodec.int, List.map_cons, List.head?_cons, if_neg h45] at hv ⊢
        rw [hv]
        omega

/-! ## Cells -/

/-- The canonical check makes a cell the text of its value. -/
theorem integerCell_read_iff {α : Type} {parse : Bytes → Option α} {print : α → Bytes} {v : α} {f : Bytes}
    (hparse : parse (print v) = some v) (hlen : (print v).length ≤ 128)
    (hp : ∀ b ∈ print v, b < 0x80) : (integerCell parse print).read f = .ok v ↔ f = print v := by
  have htext : textOf (print v) = .ok ⟨print v, hlen, utf8Valid_ascii hp⟩ := by
    unfold textOf HString.ofBytes?
    rw [dif_pos ⟨hlen, utf8Valid_ascii hp⟩]
  constructor
  · intro h
    simp only [integerCell] at h
    split at h
    · cases h
    · rename_i value hvalue
      obtain ⟨canonical, hcan, h⟩ := except_bind_ok.1 h
      split at h
      · cases h
      · rename_i heq
        cases h
        rw [htext] at hcan
        cases hcan
        exact (Decidable.not_not.1 heq).symm
  · rintro rfl
    simp only [integerCell, hparse]
    rw [htext, except_ok_bind, if_neg (by simp)]

theorem printI32_natCast (n : Nat) : printI32 n = Decimal.text n := by
  rw [printI32, if_neg (by omega), Int.natAbs_natCast]
  rfl

theorem u32_read_iff {v : UInt32} {f : Bytes} : u32Cell.read f = .ok v ↔ f = printI32 v.toNat := by
  rw [printI32_natCast]
  refine integerCell_read_iff ?_ ?_ ?_
  · have hle := toNat_le_u32Max v
    unfold parseU32
    simp only [if_neg (text_head v.toNat (s := 43) rfl), Decimal.value?_text, if_pos hle, UInt32.ofNat_toNat]
  · have := Decimal.text_length_le (k := 10) (by decide) (Nat.lt_trans v.toNat_lt (by decide))
    omega
  · intro b hb
    exact isPrintable_ascii (isDigit_printable (Decimal.text_isDigit hb))

theorem parseI32_print {v : Int} (hlo : -2 ^ 31 ≤ v) (hhi : v ≤ 2 ^ 31 - 1) :
    parseI32 (printI32 v) = some v := by
  unfold parseI32 printI32
  by_cases hneg : v < 0
  · rw [if_pos hneg]
    simp only [List.cons_append, List.nil_append, List.head?_cons, if_true, List.tail_cons,
      Decimal.value?_text]
    rw [if_pos (by omega)]
    congr 1
    omega
  · rw [if_neg hneg, List.nil_append]
    simp only [if_neg (text_head v.natAbs (s := 45) rfl), if_neg (text_head v.natAbs (s := 43) rfl),
      Decimal.value?_text]
    rw [if_pos (by omega)]
    congr 1
    omega

/-- A value out of range is read by no parser. -/
theorem parseI32_range {v : Int} {f : Bytes} (h : parseI32 f = some v) : -2 ^ 31 ≤ v ∧ v ≤ 2 ^ 31 - 1 := by
  unfold parseI32 at h
  split at h
  · split at h
    · cases h
    · split at h
      · cases h
        omega
      · cases h
  · dsimp only at h
    split at h
    · cases h
    · split at h
      · cases h
        omega
      · cases h

theorem i32_read_iff {v : Int} {f : Bytes} :
    i32Cell.read f = .ok v ↔ f = printI32 v ∧ -2 ^ 31 ≤ v ∧ v ≤ 2 ^ 31 - 1 := by
  have hiff : ∀ (hlo : -2 ^ 31 ≤ v) (hhi : v ≤ 2 ^ 31 - 1), i32Cell.read f = .ok v ↔ f = printI32 v := by
    intro hlo hhi
    refine integerCell_read_iff (parseI32_print hlo hhi) ?_ fun b hb => printI32_ascii hb
    have := Decimal.text_length_le (n := v.natAbs) (k := 10) (by decide) (by omega)
    rw [printI32, List.length_append]
    split <;> simp only [List.length_cons, List.length_nil] <;> omega
  constructor
  · intro h
    have hrange : -2 ^ 31 ≤ v ∧ v ≤ 2 ^ 31 - 1 := by
      simp only [i32Cell, integerCell] at h
      split at h
      · cases h
      · rename_i value hvalue
        obtain ⟨canonical, -, h⟩ := except_bind_ok.1 h
        split at h
        · cases h
        · cases h
          exact parseI32_range hvalue
    exact ⟨(hiff hrange.1 hrange.2).1 h, hrange⟩
  · rintro ⟨he, hlo, hhi⟩
    exact (hiff hlo hhi).2 he

/-- A column's cell, from its text to the value that `shape` leaves. -/
def pyCell (lib : PyFloat) (field : PyCodec.Field) (t : PyStr) : Option (Option (Scalar PyStr)) :=
  if t.isEmpty then some none
  else do
    let v ← (csvValue lib t field).toOption
    let v ← (shapeScalar lib field v).toOption
    some (some v)

/-- A value as the cell has it: a string is the cell's own text. -/
structure Same (t : PyStr) (rust : Option (Scalar Bytes)) (py : Option (Scalar PyStr)) : Prop where
  encode : py.map Scalar.encode = rust
  text : ∀ s, py = some (.str s) → s = t

/-- Both cells are a value, the same, or neither is. -/
structure Agree {α : Type} (t : PyStr) (rust : Except CodecError (Option α)) (toScalar : α → Scalar Bytes)
    (py : Option (Option (Scalar PyStr))) : Prop where
  fails : (∀ v, rust ≠ .ok v) → py = none
  value : ∀ v, rust = .ok v → ∃ v', py = some v' ∧ Same t (v.map toScalar) v'

/-- A nonempty cell read by one function on each side. -/
theorem agree_of {α : Type} {t : PyStr} (ht : IsText t) {c : Cell α} {toScalar : α → Scalar Bytes}
    {lib : PyFloat} {field : PyCodec.Field} {w : Option (Scalar PyStr)}
    (hpy : t ≠ [] → pyCell lib field t = w.map some)
    (hfails : w = none ↔ ∀ v, c.read t.encode ≠ .ok v)
    (hvalue : ∀ v', w = some v' → (∀ v, c.read t.encode = .ok v → v'.encode = toScalar v) ∧
      ∀ s, v' = .str s → s = t) :
    Agree t (cell c t.encode) toScalar (pyCell lib field t) := by
  by_cases hnil : t = []
  · subst hnil
    refine ⟨fun h => absurd rfl (h none), fun v hv => ?_⟩
    cases hv
    exact ⟨none, rfl, rfl, fun s h => by cases h⟩
  · have hne : ¬ (t.encode.isEmpty = true) := by
      rw [List.isEmpty_iff]
      exact fun h => hnil (ht.encode_nil.1 h)
    have hcell : cell c t.encode = (c.read t.encode).map some := by
      rw [cell, if_neg hne]
      cases c.read t.encode <;> rfl
    rw [hpy hnil, hcell]
    constructor
    · intro h
      rw [hfails.2 fun v hv => h (some v) (by rw [hv]; rfl)]
      rfl
    · intro v hv
      cases hread : c.read t.encode with
      | error e => rw [hread] at hv; cases hv
      | ok a =>
        rw [hread] at hv
        cases hv
        cases hval : w with
        | none => exact absurd hread (hfails.1 hval a)
        | some v' =>
          obtain ⟨h1, h2⟩ := hvalue v' hval
          exact ⟨some v', rfl, by rw [Option.map_some, h1 a hread]; rfl, fun s hs => h2 s (Option.some.inj hs)⟩

theorem pyCell_nonempty {lib : PyFloat} {field : PyCodec.Field} {t : PyStr} (h : t ≠ []) :
    pyCell lib field t = (do
      let v ← (csvValue lib t field).toOption
      let v ← (shapeScalar lib field v).toOption
      some (some v)) := if_neg (by simpa using h)

/-- The range that `shape` checks. -/
def inRange (type : Nat) (n : Int) : Bool :=
  if type = 13 then 0 ≤ n ∧ n ≤ 2 ^ 32 - 1 else -2 ^ 31 ≤ n ∧ n ≤ 2 ^ 31 - 1

theorem shapeScalar_int {lib : PyFloat} {type : Nat} (htype : type = 13 ∨ type = 14) (n : Int) :
    shapeScalar lib { type } (.int n) = if inRange type n = true then .ok (.int n) else .error .decode := by
  rcases htype with rfl | rfl
  · rw [shapeScalar, if_pos rfl]
    exact requireOr_bind _ _ _
  · rw [shapeScalar, if_neg (by decide), if_pos rfl]
    exact requireOr_bind _ _ _

/-- An integer cell of a field with a range. -/
theorem pyCell_int {lib : PyFloat} {type : Nat} (htype : type = 13 ∨ type = 14) {t : PyStr} (h : t ≠ []) :
    pyCell lib { type } t = if integerText t = true ∧ inRange type (PyCodec.int t) = true
      then some (some (.int (PyCodec.int t))) else none := by
  rw [pyCell_nonempty h, csvValue, if_pos htype, requireOr_bind]
  by_cases htext : integerText t = true
  · rw [if_pos htext]
    change (shapeScalar lib { type } (.int (PyCodec.int t))).toOption.bind (fun v => some (some v)) = _
    rw [shapeScalar_int htype]
    by_cases hr : inRange type (PyCodec.int t) = true
    · rw [if_pos hr, if_pos ⟨htext, hr⟩]
      rfl
    · rw [if_neg hr, if_neg fun h => hr h.2]
      rfl
  · rw [if_neg htext, if_neg fun h => htext h.1]
    rfl

theorem integer_agrees {α : Type} {c : Cell α} {toInt : α → Int} {type : Nat}
    (htype : type = 13 ∨ type = 14)
    (hread : ∀ (f : Bytes) (n : Int), (∃ v, c.read f = .ok v ∧ toInt v = n) ↔
      f = printI32 n ∧ inRange type n = true) {t : PyStr} (ht : IsText t) (lib : PyFloat) :
    Agree t (cell c t.encode) (fun v => .int (toInt v)) (pyCell lib { type } t) := by
  refine agree_of (w := if integerText t = true ∧ inRange type (PyCodec.int t) = true
    then some (.int (PyCodec.int t)) else none) ht ?_ ?_ ?_
  · intro hne
    rw [pyCell_int htype hne]
    split <;> rfl
  · constructor
    · intro hnone v hv
      obtain ⟨hf, hr⟩ := (hread _ _).1 ⟨v, hv, rfl⟩
      obtain ⟨htext, hint⟩ := (integerText_iff ht).2 hf
      rw [if_pos ⟨htext, by rw [hint]; exact hr⟩] at hnone
      cases hnone
    · intro hno
      refine if_neg fun h => ?_
      obtain ⟨v, hv, -⟩ := (hread _ _).2 ⟨(integerText_iff ht).1 ⟨h.1, rfl⟩, h.2⟩
      exact hno v hv
  · intro v' hv'
    split at hv'
    · rename_i h
      cases hv'
      refine ⟨fun v hv => ?_, fun s hs => by cases hs⟩
      obtain ⟨hf, -⟩ := (hread _ _).1 ⟨v, hv, rfl⟩
      exact congrArg Scalar.int ((integerText_iff ht).2 hf).2
    · cases hv'

theorem u32_agrees {t : PyStr} (ht : IsText t) (lib : PyFloat) :
    Agree t (cell u32Cell t.encode) (fun v => .int v.toNat) (pyCell lib { type := 13 } t) := by
  refine integer_agrees (.inl rfl) (fun f n => ?_) ht lib
  constructor
  · rintro ⟨v, hv, rfl⟩
    have := v.toNat_lt
    exact ⟨u32_read_iff.1 hv, by simp only [inRange, if_true, decide_eq_true_eq]; omega⟩
  · rintro ⟨hf, hr⟩
    simp only [inRange, if_true, decide_eq_true_eq] at hr
    have hn : (UInt32.ofNat n.toNat).toNat = n := by
      rw [UInt32.toNat_ofNat']
      omega
    exact ⟨UInt32.ofNat n.toNat, u32_read_iff.2 (by rw [hn, hf]), hn⟩

theorem i32_agrees {t : PyStr} (ht : IsText t) (lib : PyFloat) :
    Agree t (cell i32Cell t.encode) .int (pyCell lib { type := 14 } t) := by
  refine integer_agrees (.inr rfl) (fun f n => ?_) ht lib
  have hr : inRange 14 n = true ↔ -2 ^ 31 ≤ n ∧ n ≤ 2 ^ 31 - 1 := by
    simp [inRange]
  rw [hr]
  constructor
  · rintro ⟨v, hv, rfl⟩
    exact i32_read_iff.1 hv
  · intro h
    exact ⟨n, i32_read_iff.2 h, rfl⟩

theorem string_read_iff {n : Nat} {v : HString n} {f : Bytes} :
    (stringCell n).read f = .ok v ↔ f = v.bytes := by
  constructor
  · intro h
    simp only [stringCell, HString.ofBytes?] at h
    split at h
    · rename_i v' hv
      cases h
      split at hv
      · cases hv
        rfl
      · cases hv
    · cases h
  · rintro rfl
    simp only [stringCell, HString.ofBytes?_bytes]

theorem pyCell_string {lib : PyFloat} {n : Nat} {t : PyStr} (h : t ≠ []) :
    pyCell lib { type := 9, capacity := some n } t =
      if t.encode.length ≤ n then some (some (.str t)) else none := by
  have hshape : shapeScalar lib { type := 9, capacity := some n } (.str t) =
      if t.encode.length ≤ n then .ok (.str t) else .error .decode := by
    rw [shapeScalar, requireOr_bind, if_pos (decide_eq_true rfl), requireOr_bind]
    simp only [Option.getD_some, decide_eq_true_eq]
  rw [pyCell_nonempty h]
  change (shapeScalar lib { type := 9, capacity := some n } (.str t)).toOption.bind (fun v => some (some v)) = _
  rw [hshape]
  split <;> rfl

theorem string_agrees {n : Nat} {t : PyStr} (ht : IsText t) (lib : PyFloat) :
    Agree t (cell (stringCell n) t.encode) (fun v => .str v.bytes)
      (pyCell lib { type := 9, capacity := some n } t) := by
  refine agree_of (w := if t.encode.length ≤ n then some (.str t) else none) ht ?_ ?_ ?_
  · intro hne
    rw [pyCell_string hne]
    split <;> rfl
  · constructor
    · intro hnone v hv
      have hl := v.len_le
      rw [← string_read_iff.1 hv] at hl
      rw [if_pos hl] at hnone
      cases hnone
    · intro hno
      exact if_neg fun hl => hno ⟨t.encode, hl, ht.utf8⟩ (string_read_iff.2 rfl)
  · intro v' hv'
    split at hv'
    · cases hv'
      exact ⟨fun v hv => congrArg Scalar.str (string_read_iff.1 hv), fun s hs => by cases hs; rfl⟩
    · cases hv'

/-! ## Columns -/

/-- The columns present in a dictionary. -/
def columns {V : Type} (keys : List Key) (p : Key → Option V) : Dict V :=
  keys.filterMap fun key => (p key).map (key, ·)

theorem lookup_columns {V : Type} (keys : List Key) (p : Key → Option V) (key : Key) :
    (columns keys p).lookup key = if key ∈ keys then p key else none := Assoc.lookup_ofKeys keys p key

/-- A row as `csv_value` and `shape` leave it. -/
def shapedColumns (lib : PyFloat) (name : Shape) (keys : List Key) (row : List PyStr) :
    Option (Dict (Scalar PyStr)) := do
  let d ← (csvColumns lib name keys row).toOption
  (shapeBody lib name d).toOption

theorem csvColumns_cons (lib : PyFloat) {name : Shape} {key : Key} {f : PyCodec.Field}
    (hf : field name key = some f) (keys : List Key) {t : PyStr} (ht : t.isEmpty = false) (row : List PyStr) :
    csvColumns lib name (key :: keys) (t :: row) = (do
      let v ← csvValue lib t f
      let d ← csvColumns lib name keys row
      .ok ((key, v) :: d)) := by
  have hcol : csvColumn lib name (key, t) = (do
      let v ← csvValue lib t f
      .ok (key, v)) := by
    simp only [csvColumn, hf]
  simp only [csvColumns, List.zip_cons_cons, List.filter_cons, ht, Bool.not_false, if_true, List.mapM_cons, hcol]
  cases csvValue lib t f <;> rfl

theorem shapeBody_cons (lib : PyFloat) {name : Shape} {key : Key} {f : PyCodec.Field}
    (hf : field name key = some f) (v : Scalar PyStr) (d : Dict (Scalar PyStr)) :
    shapeBody lib name ((key, v) :: d) = (do
      let v ← shapeScalar lib f v
      let d ← shapeBody lib name d
      .ok ((key, v) :: d)) := by
  rw [shapeBody, List.mapM_cons]
  simp only [hf]
  cases shapeScalar lib f v <;> rfl

theorem shapedColumns_cons (lib : PyFloat) {name : Shape} {key : Key} {f : PyCodec.Field}
    (hf : field name key = some f) (keys : List Key) (t : PyStr) (row : List PyStr) :
    shapedColumns lib name (key :: keys) (t :: row) = (do
      let v ← pyCell lib f t
      let d ← shapedColumns lib name keys row
      some ((v.map (key, ·)).toList ++ d)) := by
  unfold shapedColumns
  cases hnil : t.isEmpty with
  | true =>
    have hskip : csvColumns lib name (key :: keys) (t :: row) = csvColumns lib name keys row := by
      simp only [csvColumns, List.zip_cons_cons, List.filter_cons, hnil, Bool.not_true, Bool.false_eq_true,
        if_false]
    have hcell : pyCell lib f t = some none := if_pos hnil
    rw [hskip, hcell]
    cases csvColumns lib name keys row with
    | error e => rfl
    | ok d => cases hd : shapeBody lib name d <;> simp [Except.toOption, hd]
  | false =>
    have hcell : pyCell lib f t = (do
        let v ← (csvValue lib t f).toOption
        let v ← (shapeScalar lib f v).toOption
        some (some v)) := if_neg (by rw [hnil]; decide)
    rw [csvColumns_cons lib hf keys hnil row, hcell]
    cases csvValue lib t f with
    | error e => rfl
    | ok v =>
      cases csvColumns lib name keys row with
      | error e => cases hs : shapeScalar lib f v <;> simp [Except.toOption, hs]
      | ok d =>
        have hshape := shapeBody_cons lib hf v d
        cases hs : shapeScalar lib f v with
        | error e => simp [Except.toOption, hs, hshape]
        | ok v' => cases hd : shapeBody lib name d <;> simp [Except.toOption, hs, hd, hshape]

/-- But for the temperature `shape` changes nothing. -/
theorem shapeScalar_same {lib : PyFloat} {f : PyCodec.Field} (hf : f.type ≠ 2) {v v' : Scalar PyStr}
    (h : shapeScalar lib f v = .ok v') : v' = v := by
  cases v with
  | str s =>
    rw [shapeScalar, requireOr_bind, requireOr_bind] at h
    split at h
    · split at h
      · cases h
        rfl
      · cases h
    · cases h
  | int n =>
    rw [shapeScalar] at h
    split at h
    · rw [requireOr_bind] at h
      split at h
      · cases h
        rfl
      · cases h
    · split at h
      · rw [requireOr_bind] at h
        split at h
        · cases h
          rfl
        · cases h
      · cases h
  | bool b =>
    rw [shapeScalar, requireOr_bind] at h
    split at h
    · cases h
      rfl
    · cases h
  | float packed =>
    rw [shapeScalar, requireOr_bind] at h
    split at h
    · rename_i hd
      exact absurd (of_decide_eq_true hd) hf
    · cases h

theorem shapeBody_same {lib : PyFloat} {name : Shape} (hn : ∀ key f, field name key = some f → f.type ≠ 2)
    {d d' : Dict (Scalar PyStr)} (h : shapeBody lib name d = .ok d') : d' = d := by
  induction d generalizing d' with
  | nil =>
    cases h
    rfl
  | cons kv d ih =>
    obtain ⟨key, v⟩ := kv
    rw [shapeBody, List.mapM_cons] at h
    obtain ⟨kv', h1, h⟩ := except_bind_ok.1 h
    obtain ⟨d'', h2, h⟩ := except_bind_ok.1 h
    cases h
    cases hf : field name key with
    | none => simp only [hf] at h1; cases h1
    | some f =>
      simp only [hf] at h1
      obtain ⟨v', h3, h1⟩ := except_bind_ok.1 h1
      cases h1
      rw [shapeScalar_same (hn key f hf) h3, ih h2]

/-- A field with a body takes no other value. -/
theorem shapeScalar_message {lib : PyFloat} {f : PyCodec.Field} (hf : f.type = 11) (v : Scalar PyStr) :
    shapeScalar lib f v = .error .decode := by
  cases v <;> simp [shapeScalar, requireOr, hf]

theorem envelope_message {key : Key} {f : PyCodec.Field} (hf : field .envelope key = some f) :
    (f.message.isSome = true ↔ f.type = 11) ∧ f.type ≠ 2 := by
  cases key <;> cases hf <;> decide

/-- The columns of the header as entries of the message. -/
def scalars {S : Type} (d : Dict (Scalar S)) : Message S := d.map fun (key, v) => (key, .scalar v)

theorem shape_scalars (lib : PyFloat) (d : Dict (Scalar PyStr)) :
    shape lib (scalars d) = (do
      let d ← shapeBody lib .envelope d
      .ok (scalars d)) := by
  induction d with
  | nil => rfl
  | cons kv d ih =>
    obtain ⟨key, v⟩ := kv
    simp only [shape, scalars, List.map_cons, List.mapM_cons] at ih ⊢
    cases hf : field .envelope key with
    | none => simp only [shapeBody, List.mapM_cons, hf]; rfl
    | some f =>
      obtain ⟨hmsg, -⟩ := envelope_message hf
      rw [shapeBody_cons lib hf]
      obtain ⟨type, message, capacity⟩ := f
      cases message with
      | some name =>
        rw [shapeScalar_message (hmsg.1 rfl)]
        rfl
      | none =>
        dsimp only
        rw [ih]
        generalize ({ type, capacity } : PyCodec.Field) = f
        cases shapeScalar lib f v with
        | error e => rfl
        | ok v' => cases shapeBody lib .envelope d <;> rfl

/-- `shape` of a header with one body. -/
theorem shape_message (lib : PyFloat) (d : Dict (Scalar PyStr)) {body : Key} {name : Shape}
    {f : PyCodec.Field} (hb : field .envelope body = some f) (hm : f.message = some name)
    (fields : Dict (Scalar PyStr)) :
    shape lib (scalars d ++ [(body, .message fields)]) = (do
      let d ← shapeBody lib .envelope d
      let fields ← shapeBody lib name fields
      .ok (scalars d ++ [(body, .message fields)])) := by
  have hbody : shape lib [(body, .message fields)] = (do
      let fields ← shapeBody lib name fields
      .ok [(body, .message fields)]) := by
    simp only [shape, List.mapM_cons, List.mapM_nil, hb, hm]
    cases shapeBody lib name fields <;> rfl
  have happend : ∀ m m' : Message PyStr, shape lib (m ++ m') = (do
      let m ← shape lib m
      let m' ← shape lib m'
      .ok (m ++ m')) := fun m m' => List.mapM_append
  rw [happend, shape_scalars, hbody]
  cases shapeBody lib .envelope d with
  | error e => rfl
  | ok d => cases shapeBody lib name fields <;> rfl

/-! ## Rows -/

/-- Two reads in order. -/
def both {α β : Type} (x : Except CodecError α) (y : Except CodecError β) : Except CodecError (α × β) := do
  let a ← x
  let b ← y
  .ok (a, b)

/-- The values of a row, column by column. -/
def SameRow (p : Key → Option (Scalar PyStr)) : List Key → List PyStr → List (Option (Scalar Bytes)) → Prop
  | key :: keys, t :: row, v :: vals => Same t v (p key) ∧ SameRow p keys row vals
  | _, _, _ => True

theorem SameRow.congr {p p' : Key → Option (Scalar PyStr)} {keys : List Key} (h : ∀ key ∈ keys, p key = p' key)
    {row : List PyStr} {vals : List (Option (Scalar Bytes))} (hrow : SameRow p keys row vals) :
    SameRow p' keys row vals := by
  induction keys generalizing row vals with
  | nil => cases row <;> trivial
  | cons key keys ih =>
    cases row with
    | nil => trivial
    | cons t row => cases vals with
      | nil => trivial
      | cons v vals =>
        obtain ⟨h1, h2⟩ := hrow
        refine ⟨?_, ih (fun k hk => h k (List.mem_cons_of_mem _ hk)) h2⟩
        rw [← h key List.mem_cons_self]
        exact h1

/-- Both rows are values, the same, or neither is. -/
structure AgreeRow {R : Type} (keys : List Key) (row : List PyStr) (rust : Except CodecError R)
    (vals : R → List (Option (Scalar Bytes))) (py : Option (Dict (Scalar PyStr))) : Prop where
  fails : (∀ r, rust ≠ .ok r) → py = none
  value : ∀ r, rust = .ok r → ∃ p, py = some (columns keys p) ∧ SameRow p keys row (vals r)

theorem AgreeRow.nil (lib : PyFloat) (name : Shape) (row : List PyStr) :
    AgreeRow [] row (.ok ()) (fun _ => []) (shapedColumns lib name [] row) where
  fails h := absurd rfl (h ())
  value r _ := ⟨fun _ => none, rfl, by cases row <;> trivial⟩

theorem columns_cons {V : Type} (key : Key) (keys : List Key) (p : Key → Option V) :
    columns (key :: keys) p = ((p key).map (key, ·)).toList ++ columns keys p := Assoc.ofKeys_cons key keys p

theorem columns_congr {V : Type} {keys : List Key} {p p' : Key → Option V} (h : ∀ key ∈ keys, p key = p' key) :
    columns keys p = columns keys p' :=
  List.filterMap_congr fun key hk => by rw [h key hk]

theorem AgreeRow.cons {α R : Type} {lib : PyFloat} {name : Shape} {key : Key} {f : PyCodec.Field}
    (hf : field name key = some f) {keys : List Key} (hkey : key ∉ keys) {t : PyStr} {row : List PyStr}
    {x : Except CodecError (Option α)} {toScalar : α → Scalar Bytes} {rust : Except CodecError R}
    {vals : R → List (Option (Scalar Bytes))} (h : Agree t x toScalar (pyCell lib f t))
    (hrow : AgreeRow keys row rust vals (shapedColumns lib name keys row)) :
    AgreeRow (key :: keys) (t :: row) (both x rust) (fun r => r.1.map toScalar :: vals r.2)
      (shapedColumns lib name (key :: keys) (t :: row)) := by
  rw [shapedColumns_cons lib hf]
  constructor
  · intro hfails
    cases hx : x with
    | error e =>
      rw [h.fails fun v hv => by rw [hx] at hv; cases hv]
      rfl
    | ok v =>
      rw [hrow.fails fun r hr => hfails (v, r) (by rw [hx, hr]; rfl)]
      cases pyCell lib f t <;> rfl
  · rintro ⟨v, r⟩ hr
    obtain ⟨v', hv, hr⟩ := except_bind_ok.1 hr
    obtain ⟨r', hr', hr⟩ := except_bind_ok.1 hr
    cases hr
    obtain ⟨w, hw, hsame⟩ := h.value v hv
    obtain ⟨p, hp, hsames⟩ := hrow.value r hr'
    have hp' : ∀ k ∈ keys, p k = if k = key then w else p k := by
      intro k hk
      rw [if_neg]
      rintro rfl
      exact hkey hk
    refine ⟨fun k => if k = key then w else p k, ?_, ?_, hsames.congr hp'⟩
    · rw [hw, hp, columns_cons, if_pos rfl, ← columns_congr hp']
      rfl
    · simpa using hsame

end Nucleo
