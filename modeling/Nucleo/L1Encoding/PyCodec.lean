import Nucleo.Core.Decimal
import Nucleo.L1Encoding.PyText

/-!
# The Python codec

`codec.py`: the tables that `generate.py` writes from the schema, the typing
and capacity checks of `shape`, the rules of `validate`, and the `csv` branch
of `decode`. A message is a `dict` of present fields whose bodies are `dict`s
again; `Message.encode` compares it with bytes, every `str` by its UTF-8.

`float` and `struct.pack` stay outside, as `PyFloat`.
-/
namespace Nucleo.PyCodec
open Rfc4180 (QuoteState quote comma cr lf fieldStep)

/-! ## `generated/schema.py` -/

/-- The field names. -/
inductive Key
  | protocolVersion | kind | deviceId | bootId | clientSession | requestId | sequence | uptimeMs
  | getDeviceInfo | getStatus | getHealth | deviceInfo | status | health | error
  | firmwareVersion | encoding
  | temperatureCelsius | validity | synthetic
  | state | receivedRequests | rejectedDatagrams | sendErrors | skippedPublications
  | code
  deriving DecidableEq, Repr

/-- The message names. -/
inductive Shape
  | empty | deviceInfo | status | health | error | envelope
  deriving DecidableEq, Repr

/-- A descriptor's type number, the body's message and the string capacity. -/
structure Field where
  type : Nat
  message : Option Shape := none
  capacity : Option Nat := none
  deriving DecidableEq, Repr

/-- `SHAPES`. -/
def shapes : Shape → List (Key × Field)
  | .empty => []
  | .deviceInfo => [(.firmwareVersion, { type := 9, capacity := some 32 }), (.encoding, { type := 14 })]
  | .status => [(.temperatureCelsius, { type := 2 }), (.validity, { type := 14 }),
      (.synthetic, { type := 8 })]
  | .health => [(.state, { type := 14 }), (.receivedRequests, { type := 13 }),
      (.rejectedDatagrams, { type := 13 }), (.sendErrors, { type := 13 }),
      (.skippedPublications, { type := 13 })]
  | .error => [(.code, { type := 14 })]
  | .envelope => [(.protocolVersion, { type := 13 }), (.kind, { type := 14 }),
      (.deviceId, { type := 9, capacity := some 32 }), (.bootId, { type := 9, capacity := some 16 }),
      (.clientSession, { type := 9, capacity := some 16 }), (.requestId, { type := 13 }),
      (.sequence, { type := 13 }), (.uptimeMs, { type := 13 }),
      (.getDeviceInfo, { type := 11, message := some .empty }),
      (.getStatus, { type := 11, message := some .empty }),
      (.getHealth, { type := 11, message := some .empty }),
      (.deviceInfo, { type := 11, message := some .deviceInfo }),
      (.status, { type := 11, message := some .status }),
      (.health, { type := 11, message := some .health }),
      (.error, { type := 11, message := some .error })]

/-- `SHAPES[name][key]`. -/
def field (name : Shape) (key : Key) : Option Field := (shapes name).lookup key

/-- `KIND_BODY`. -/
def kindBody : List (Int × Key) :=
  [(1, .getDeviceInfo), (2, .getStatus), (3, .getHealth), (11, .deviceInfo), (12, .status), (13, .health),
    (14, .error), (21, .status), (22, .health)]

/-- `PROFILE["common_csv_columns"]`. -/
def commonCsvColumns : List Key :=
  [.protocolVersion, .kind, .deviceId, .bootId, .clientSession, .requestId, .sequence, .uptimeMs]

/-- `PROFILE["body_csv_columns"]`. -/
def bodyCsvColumns : Key → List Key
  | .deviceInfo => [.firmwareVersion, .encoding]
  | .status => [.temperatureCelsius, .validity, .synthetic]
  | .health => [.state, .receivedRequests, .rejectedDatagrams, .sendErrors, .skippedPublications]
  | .error => [.code]
  | _ => []

/-! ## Values -/

/-- A Python value that is no `dict`, its strings over `S`; a `float` by what
`struct.pack("<f", value)` makes of it. -/
inductive Scalar (S : Type)
  | int (n : Int)
  | str (s : S)
  | bool (b : Bool)
  | float (packed : Option F32)

abbrev Dict (V : Type) := List (Key × V)

inductive Value (S : Type)
  | scalar (v : Scalar S)
  | message (body : Dict (Scalar S))

/-- A decoded message. -/
abbrev Message (S : Type) := Dict (Value S)

def Scalar.encode : Scalar PyStr → Scalar Bytes
  | .int n => .int n
  | .str s => .str s.encode
  | .bool b => .bool b
  | .float f => .float f

def Value.encode : Value PyStr → Value Bytes
  | .scalar v => .scalar v.encode
  | .message body => .message (body.map fun (key, v) => (key, v.encode))

/-- Every string by its UTF-8 bytes. -/
def Message.encode (m : Message PyStr) : Message Bytes := m.map fun (key, v) => (key, v.encode)

/-- `text == text.strip()` and `float(text)`, and `struct.pack` of an integer. -/
structure PyFloat where
  stripped : PyStr → Bool
  float : PyStr → Option (Option F32)
  pack : Int → Option F32

/-- `require(condition, outcome)`. -/
def requireOr (outcome : CodecError) (condition : Bool) : Except CodecError Unit :=
  if condition then .ok () else .error outcome

theorem requireOr_bind {α : Type} (outcome : CodecError) (c : Bool) (k : Except CodecError α) :
    (do requireOr outcome c; k) = if c = true then k else .error outcome := by
  cases c <;> rfl

/-! ## `shape` -/

/-- A value of a field that is no message. -/
def shapeScalar (lib : PyFloat) (field : Field) : Scalar PyStr → Except CodecError (Scalar PyStr)
  | .str s => do
    requireOr .decode (field.type = 9)
    requireOr .decode (s.encode.length ≤ field.capacity.getD 0)
    .ok (.str s)
  | .int n =>
    if field.type = 13 then do
      requireOr .decode (0 ≤ n ∧ n ≤ 2 ^ 32 - 1)
      .ok (.int n)
    else if field.type = 14 then do
      requireOr .decode (-2 ^ 31 ≤ n ∧ n ≤ 2 ^ 31 - 1)
      .ok (.int n)
    else if field.type = 2 then shapeFloat (lib.pack n)
    else .error .decode
  | .bool b => do
    requireOr .decode (field.type = 8)
    .ok (.bool b)
  | .float packed => do
    requireOr .decode (field.type = 2)
    shapeFloat packed
where
  /-- Back from the four bytes, without the sign of a zero. -/
  shapeFloat : Option F32 → Except CodecError (Scalar PyStr)
    | none => .error .validation
    | some f => .ok (.float (some (if f.eq F32.zero then F32.zero else f)))

/-- `shape` of a body. -/
def shapeBody (lib : PyFloat) (name : Shape) (message : Dict (Scalar PyStr)) :
    Except CodecError (Dict (Scalar PyStr)) :=
  message.mapM fun (key, value) =>
    match field name key with
    | none => .error .decode
    | some field => do
      let value ← shapeScalar lib field value
      .ok (key, value)

/-- mirrors Rust/tools/message-demo/python/codec.py:28-57 -/
def shape (lib : PyFloat) (message : Message PyStr) : Except CodecError (Message PyStr) :=
  message.mapM fun (key, value) =>
    match field .envelope key with
    | none => .error .decode
    | some field =>
      match field.message, value with
      | some name, .message body => do
        let body ← shapeBody lib name body
        .ok (key, .message body)
      | none, .scalar value => do
        let value ← shapeScalar lib field value
        .ok (key, .scalar value)
      | _, _ => .error .decode

/-! ## `validate` -/

/-- `m.get(key)` for a field that is no message. -/
def get (m : Message PyStr) (key : Key) : Option (Scalar PyStr) :=
  match m.lookup key with
  | some (.scalar v) => some v
  | _ => none

/-- `m.get(key)` for a body. -/
def getBody (m : Message PyStr) (key : Key) : Option (Dict (Scalar PyStr)) :=
  match m.lookup key with
  | some (.message body) => some body
  | _ => none

/-- `key in m`. -/
def has {V : Type} (m : Dict V) (key : Key) : Bool := (m.lookup key).isSome

/-- `re.fullmatch("[…]{low,high}", value)` for a class of ASCII characters. -/
def fullmatch (p : UInt8 → Bool) (low high : Nat) (value : PyStr) : Bool :=
  low ≤ value.length && value.length ≤ high && value.all (inClass p)

/-- mirrors Rust/tools/message-demo/python/codec.py:60-65 -/
def session : Option (Scalar PyStr) → Bool
  | some (.str value) => fullmatch isHexLower 16 16 value && value != List.replicate 16 [48]
  | _ => false

/-- `bool(re.fullmatch(pattern, m.get(key, "")))` with `{1,32}`. -/
def matches32 (p : UInt8 → Bool) : Option (Scalar PyStr) → Bool
  | some (.str value) => fullmatch p 1 32 value
  | _ => false

def isInt (v : Option (Scalar PyStr)) (n : Int) : Bool :=
  match v with
  | some (.int k) => k == n
  | _ => false

/-- `0x20..0x7e`. -/
def isPrintable (b : UInt8) : Bool := 0x20 ≤ b && b ≤ 0x7e

/-- `FORMATS[format]`. -/
def formats : Format → Int
  | .csv => 1
  | .json => 2
  | .protobuf => 3

/-- The fields of type 11. -/
def bodies : List Key :=
  ((shapes .envelope).filter fun (_, f) => f.type == 11).map (·.1)

/-- `math.isfinite(temperature) and -100 <= temperature <= 200`. -/
def temperatureInRange : Option (Scalar PyStr) → Bool
  | some (.float (some f)) => f.isFinite && F32.neg100.le f && f.le F32.pos200
  | _ => false

/-- The rules about one body, if it is there. -/
def validateBody (m : Message PyStr) (key : Key) (check : Dict (Scalar PyStr) → Bool) :
    Except CodecError Unit :=
  match getBody m key with
  | none => .ok ()
  | some body => require (check body)

def deviceInfoRules (format : Format) (info : Dict (Scalar PyStr)) : Bool :=
  isInt (info.lookup .encoding) (formats format) && matches32 isPrintable (info.lookup .firmwareVersion)

def statusRules (status : Dict (Scalar PyStr)) : Bool :=
  (match status.lookup .synthetic with
    | some (.bool b) => b
    | _ => false) &&
  if isInt (status.lookup .validity) 1 then temperatureInRange (status.lookup .temperatureCelsius)
  else (isInt (status.lookup .validity) 2 || isInt (status.lookup .validity) 3) &&
    !has status .temperatureCelsius

def healthRules (health : Dict (Scalar PyStr)) : Bool :=
  (shapes .health).all (fun (key, _) => has health key) &&
    (isInt (health.lookup .state) 1 || isInt (health.lookup .state) 2)

def errorRules (error : Dict (Scalar PyStr)) : Bool :=
  isInt (error.lookup .code) 1 || isInt (error.lookup .code) 2

/-- mirrors Rust/tools/message-demo/python/codec.py:68-116 -/
def validate (lib : PyFloat) (message : Message PyStr) (format : Format) :
    Except CodecError (Message PyStr) := do
  let m ← shape lib message
  require (has m .protocolVersion)
  requireOr .version (isInt (get m .protocolVersion) 1)
  require (matches32 isDeviceChar (get m .deviceId))
  match get m .kind with
  | some (.int kind) => do
    match kindBody.lookup kind with
    | none => .error .validation
    | some body => do
      require (bodies.all fun key => has m key == (key == body))
      if kind = 1 ∨ kind = 2 ∨ kind = 3 then
        require (!has m .bootId && !has m .sequence && !has m .uptimeMs)
      else require (session (get m .bootId) && has m .uptimeMs)
      if kind = 21 ∨ kind = 22 then
        require (has m .sequence && !has m .clientSession && !has m .requestId)
      else require (session (get m .clientSession) &&
        (has m .requestId && !isInt (get m .requestId) 0) && !has m .sequence)
      validateBody m .deviceInfo (deviceInfoRules format)
      validateBody m .status statusRules
      validateBody m .health healthRules
      validateBody m .error errorRules
      .ok m
  | _ => .error .validation

/-! ## `decode` -/

/-- `re.fullmatch("0|-?[1-9][0-9]*", text)`. -/
def integerText (text : PyStr) : Bool :=
  text == [[48]] ||
    match (if text.head? = some [45] then text.tail else text) with
    | [] => false
    | first :: rest => inClass isDigit first && first != [48] && rest.all (inClass isDigit)

/-- `int(text)` of such a text. -/
def int (text : PyStr) : Int :=
  if text.head? = some [45] then -Decimal.value (PyStr.encode text.tail) else Decimal.value text.encode

/-- mirrors Rust/tools/message-demo/python/codec.py:145-156 -/
def csvValue (lib : PyFloat) (text : PyStr) (field : Field) : Except CodecError (Scalar PyStr) :=
  if field.type = 13 ∨ field.type = 14 then do
    requireOr .decode (integerText text)
    .ok (.int (int text))
  else if field.type = 2 then do
    requireOr .decode (lib.stripped text && !text.contains [95])
    match lib.float text with
    | none => .error .decode
    | some f => .ok (.float f)
  else if field.type = 8 then do
    requireOr .decode (text == pyLit "true" || text == pyLit "false")
    .ok (.bool (text == pyLit "true"))
  else .ok (.str text)

/-- One column of `{key: csv_value(value, …) for key, value in zip(…) if value}`. -/
def csvColumn (lib : PyFloat) (name : Shape) : Key × PyStr → Except CodecError (Key × Scalar PyStr)
  | (key, text) =>
    match field name key with
    | none => .error .decode
    | some field => do
      let value ← csvValue lib text field
      .ok (key, value)

def csvColumns (lib : PyFloat) (name : Shape) (columns : List Key) (row : List PyStr) :
    Except CodecError (Dict (Scalar PyStr)) :=
  ((columns.zip row).filter fun (_, text) => !text.isEmpty).mapM (csvColumn lib name)

/-- The loop over `text[:-2]`; `none` is a `decode_error`.
mirrors Rust/tools/message-demo/python/codec.py:178-188 -/
def checkText : QuoteState → PyStr → Option QuoteState
  | state, [] => some state
  | .start, char :: text =>
    checkText (if char = [quote] then .quoted else if char = [comma] then .start else .unquoted) text
  | .unquoted, char :: text =>
    if char = [quote] then none else checkText (if char = [comma] then .start else .unquoted) text
  | .quoted, char :: text => checkText (if char = [quote] then .closing else .quoted) text
  | .closing, char :: text =>
    if ¬ (char = [quote] ∨ char = [comma]) then none
    else checkText (if char = [quote] then .quoted else .start) text

/-- `next(csv.reader(io.StringIO(text, newline=""), strict=True))` of one line,
without its end. -/
def csvRow (line : PyStr) : Except CodecError (List PyStr) :=
  if line.isEmpty then .ok []
  else match Rfc4180.fieldsOf [quote] [comma] line with
    | none => .error .decode
    | some row => .ok row

/-- `text.endswith("\r\n")`, and `text[:-2]` without another line end. -/
def lineOf (text : PyStr) : Except CodecError PyStr := do
  let line := text.take (text.length - 2)
  requireOr .decode ([[cr], [lf]].isSuffixOf text && !line.contains [cr] && !line.contains [lf])
  .ok line

/-- The columns of a row, and `validate`.
mirrors Rust/tools/message-demo/python/codec.py:192-216 -/
def decodeRow (lib : PyFloat) (row : List PyStr) : Except CodecError (Message PyStr) := do
  requireOr .decode (commonCsvColumns.length ≤ row.length)
  let common ← csvColumns lib .envelope commonCsvColumns row
  match common.lookup .kind with
  | some (.int kind) =>
    match kindBody.lookup kind with
    | none => .error .validation
    | some body => do
      let columns := bodyCsvColumns body
      requireOr .decode (row.length = commonCsvColumns.length + columns.length)
      match field .envelope body with
      | some { message := some name, .. } => do
        let fields ← csvColumns lib name columns (row.drop commonCsvColumns.length)
        validate lib (common.map (fun (key, v) => (key, .scalar v)) ++ [(body, .message fields)]) .csv
      | _ => .error .decode
  | _ => .error .validation

/-- mirrors Rust/tools/message-demo/python/codec.py:159-218, `format` `"csv"` -/
def decode (lib : PyFloat) (data : Bytes) : Except CodecError (Message PyStr) := do
  requireOr .size (data.length ≤ maxBody)
  requireOr .decode (!data.isEmpty)
  match decodeUtf8 data with
  | none => .error .decode
  | some text => do
    let line ← lineOf text
    match checkText .start line with
    | none => .error .decode
    | some state => do
      requireOr .decode (state ≠ .quoted)
      let row ← csvRow line
      decodeRow lib row

end Nucleo.PyCodec
