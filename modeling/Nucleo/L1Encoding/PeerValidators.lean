import Nucleo.L1Encoding.PeerRows

/-!
# Two validators

`validation.rs` counts the bodies of an envelope and checks each class of kinds
with one rule; `codec.py` compares the set of bodies with the one of the kind,
and every field with patterns. `MessageHolds m d` says that the `dict` `d` is
the message `m`: the same fields with the same values, in any order.

Results:
* `shape_eq`: `shape` accepts such a `dict` and drops the sign of a zero.
* `rules_eq`: past the version the two rule sets are one.
* `validators_agree`: both accept, both report validation, or both version.
-/
namespace Nucleo.PyCodec
open Validation (isRequest isResponse isPublication bodyMatches correlation)

/-! ## The same message -/

/-- The value of a field that is no message. -/
def headerValue (m : Model.Envelope) : Key → Option (Scalar Bytes)
  | .protocolVersion => m.protocolVersion.map fun v => .int v.toNat
  | .kind => m.kind.map .int
  | .deviceId => m.deviceId.map fun v => .str v.bytes
  | .bootId => m.bootId.map fun v => .str v.bytes
  | .clientSession => m.clientSession.map fun v => .str v.bytes
  | .requestId => m.requestId.map fun v => .int v.toNat
  | .sequence => m.sequence.map fun v => .int v.toNat
  | .uptimeMs => m.uptimeMs.map fun v => .int v.toNat
  | _ => none

def deviceInfoValue (b : Model.DeviceInfo) : Key → Option (Scalar Bytes)
  | .firmwareVersion => b.firmwareVersion.map fun v => .str v.bytes
  | .encoding => b.encoding.map .int
  | _ => none

def statusValue (b : Model.Status) : Key → Option (Scalar Bytes)
  | .temperatureCelsius => b.temperatureCelsius.map fun f => .float (some f)
  | .validity => b.validity.map .int
  | .synthetic => b.synthetic.map .bool
  | _ => none

def healthValue (b : Model.Health) : Key → Option (Scalar Bytes)
  | .state => b.state.map .int
  | .receivedRequests => b.receivedRequests.map fun v => .int v.toNat
  | .rejectedDatagrams => b.rejectedDatagrams.map fun v => .int v.toNat
  | .sendErrors => b.sendErrors.map fun v => .int v.toNat
  | .skippedPublications => b.skippedPublications.map fun v => .int v.toNat
  | _ => none

def errorValue (b : Model.Error) : Key → Option (Scalar Bytes)
  | .code => b.code.map .int
  | _ => none

/-- The fields of a body, if it is there. -/
def bodyValue (m : Model.Envelope) : Key → Option (Key → Option (Scalar Bytes))
  | .getDeviceInfo => m.getDeviceInfo.map fun _ _ => none
  | .getStatus => m.getStatus.map fun _ _ => none
  | .getHealth => m.getHealth.map fun _ _ => none
  | .deviceInfo => m.deviceInfo.map deviceInfoValue
  | .status => m.status.map statusValue
  | .health => m.health.map healthValue
  | .error => m.error.map errorValue
  | _ => none

/-- A field of the `dict` with this value. -/
structure Holds (value : Option (Scalar Bytes)) (py : Option (Scalar PyStr)) : Prop where
  encode : py.map Scalar.encode = value
  text : ∀ s, py = some (.str s) → IsText s

/-- The fields of a body. -/
structure DictHolds (value : Key → Option (Scalar Bytes)) (d : Dict (Scalar PyStr)) : Prop where
  nodup : (d.map Prod.fst).Nodup
  fields : ∀ key, Holds (value key) (d.lookup key)

/-- The fields of a message. -/
structure MessageHolds (m : Model.Envelope) (d : Message PyStr) : Prop where
  nodup : (d.map Prod.fst).Nodup
  header : ∀ key, bodyValue m key = none → ∃ v, d.lookup key = v.map .scalar ∧ Holds (headerValue m key) v
  bodies : ∀ key value, bodyValue m key = some value →
    ∃ fields, d.lookup key = some (.message fields) ∧ DictHolds value fields

/-- The fields of type 14 are `i32`. -/
structure InRange (m : Model.Envelope) : Prop where
  kind : ∀ v, m.kind = some v → -2 ^ 31 ≤ v ∧ v ≤ 2 ^ 31 - 1
  encoding : ∀ b v, m.deviceInfo = some b → b.encoding = some v → -2 ^ 31 ≤ v ∧ v ≤ 2 ^ 31 - 1
  validity : ∀ b v, m.status = some b → b.validity = some v → -2 ^ 31 ≤ v ∧ v ≤ 2 ^ 31 - 1
  state : ∀ b v, m.health = some b → b.state = some v → -2 ^ 31 ≤ v ∧ v ≤ 2 ^ 31 - 1
  code : ∀ b v, m.error = some b → b.code = some v → -2 ^ 31 ≤ v ∧ v ≤ 2 ^ 31 - 1

/-! ## `shape` -/

/-- What `shape` leaves of a value. -/
def norm : Scalar PyStr → Scalar PyStr
  | .float (some f) => .float (some (if f.eq F32.zero then F32.zero else f))
  | v => v

def normDict (d : Dict (Scalar PyStr)) : Dict (Scalar PyStr) := d.map fun (key, v) => (key, norm v)

def normValue : Value PyStr → Value PyStr
  | .scalar v => .scalar (norm v)
  | .message body => .message (normDict body)

def normMessage (d : Message PyStr) : Message PyStr := d.map fun (key, v) => (key, normValue v)

/-- A value of the descriptor's type and within its capacity. -/
def Typed (f : Field) : Scalar Bytes → Prop
  | .int n => f.type = 13 ∧ 0 ≤ n ∧ n ≤ 2 ^ 32 - 1 ∨ f.type = 14 ∧ -2 ^ 31 ≤ n ∧ n ≤ 2 ^ 31 - 1
  | .str s => f.type = 9 ∧ s.length ≤ f.capacity.getD 0
  | .bool _ => f.type = 8
  | .float packed => f.type = 2 ∧ packed.isSome

theorem mapM_eq_ok {α β ε : Type} {f : α → Except ε β} {g : α → β} {l : List α}
    (h : ∀ x ∈ l, f x = .ok (g x)) : l.mapM f = .ok (l.map g) := by
  induction l with
  | nil => rfl
  | cons x l ih =>
    rw [List.mapM_cons, h x List.mem_cons_self, ih fun y hy => h y (List.mem_cons_of_mem _ hy)]
    rfl

theorem shapeScalar_typed (lib : PyFloat) {f : Field} {v : Scalar PyStr} (h : Typed f v.encode) :
    shapeScalar lib f v = .ok (norm v) := by
  cases v with
  | int n =>
    rcases h with ⟨ht, hlo, hhi⟩ | ⟨ht, hlo, hhi⟩
    · rw [shapeScalar, if_pos ht, requireOr_bind, if_pos (decide_eq_true ⟨hlo, hhi⟩)]
      rfl
    · rw [shapeScalar, if_neg (by omega), if_pos ht, requireOr_bind, if_pos (decide_eq_true ⟨hlo, hhi⟩)]
      rfl
  | str s =>
    rw [shapeScalar, requireOr_bind, if_pos (decide_eq_true h.1), requireOr_bind, if_pos (decide_eq_true h.2)]
    rfl
  | bool b =>
    have ht : f.type = 8 := h
    rw [shapeScalar, requireOr_bind, if_pos (decide_eq_true ht)]
    rfl
  | float packed =>
    obtain ⟨f, rfl⟩ := Option.isSome_iff_exists.1 h.2
    rw [shapeScalar, requireOr_bind, if_pos (decide_eq_true h.1)]
    rfl

/-- Every field of a body has its type. -/
theorem shapeBody_eq (lib : PyFloat) {name : Shape} {value : Key → Option (Scalar Bytes)}
    (ht : ∀ key v, value key = some v → ∃ f, field name key = some f ∧ Typed f v)
    {d : Dict (Scalar PyStr)} (h : DictHolds value d) : shapeBody lib name d = .ok (normDict d) := by
  apply mapM_eq_ok
  rintro ⟨key, v⟩ hmem
  have hv := (h.fields key).encode
  rw [Assoc.lookup_of_mem h.nodup hmem] at hv
  obtain ⟨f, hf, htyped⟩ := ht key v.encode hv.symm
  simp only [hf, shapeScalar_typed lib htyped, except_ok_bind]

theorem header_typed {m : Model.Envelope} (hr : InRange m) {key : Key} {v : Scalar Bytes}
    (h : headerValue m key = some v) : ∃ f, field .envelope key = some f ∧ f.message = none ∧ Typed f v := by
  have hu : ∀ n : UInt32, (0 : Int) ≤ n.toNat ∧ (n.toNat : Int) ≤ 2 ^ 32 - 1 := by
    intro n
    have := n.toNat_lt
    omega
  cases key
  case kind =>
    obtain ⟨k, hk, rfl⟩ := Option.map_eq_some_iff.1 h
    exact ⟨_, rfl, rfl, .inr ⟨rfl, hr.kind k hk⟩⟩
  case protocolVersion | requestId | sequence | uptimeMs =>
    obtain ⟨n, -, rfl⟩ := Option.map_eq_some_iff.1 h
    exact ⟨_, rfl, rfl, .inl ⟨rfl, hu n⟩⟩
  case deviceId | bootId | clientSession =>
    obtain ⟨s, -, rfl⟩ := Option.map_eq_some_iff.1 h
    exact ⟨_, rfl, rfl, rfl, s.len_le⟩
  all_goals cases h

theorem body_typed {m : Model.Envelope} (hr : InRange m) {key : Key} {value : Key → Option (Scalar Bytes)}
    (h : bodyValue m key = some value) : ∃ f name, field .envelope key = some f ∧ f.message = some name ∧
      ∀ k v, value k = some v → ∃ f, field name k = some f ∧ Typed f v := by
  have hu : ∀ n : UInt32, (0 : Int) ≤ n.toNat ∧ (n.toNat : Int) ≤ 2 ^ 32 - 1 := by
    intro n
    have := n.toNat_lt
    omega
  cases key
  case getDeviceInfo | getStatus | getHealth =>
    obtain ⟨-, -, rfl⟩ := Option.map_eq_some_iff.1 h
    exact ⟨_, .empty, rfl, rfl, fun k v hv => by cases hv⟩
  case deviceInfo =>
    obtain ⟨b, hb, rfl⟩ := Option.map_eq_some_iff.1 h
    refine ⟨_, .deviceInfo, rfl, rfl, fun k v hv => ?_⟩
    cases k
    case firmwareVersion =>
      obtain ⟨s, -, rfl⟩ := Option.map_eq_some_iff.1 hv
      exact ⟨_, rfl, rfl, s.len_le⟩
    case encoding =>
      obtain ⟨n, hn, rfl⟩ := Option.map_eq_some_iff.1 hv
      exact ⟨_, rfl, .inr ⟨rfl, hr.encoding b n hb hn⟩⟩
    all_goals cases hv
  case status =>
    obtain ⟨b, hb, rfl⟩ := Option.map_eq_some_iff.1 h
    refine ⟨_, .status, rfl, rfl, fun k v hv => ?_⟩
    cases k
    case temperatureCelsius =>
      obtain ⟨f, -, rfl⟩ := Option.map_eq_some_iff.1 hv
      exact ⟨_, rfl, rfl, rfl⟩
    case validity =>
      obtain ⟨n, hn, rfl⟩ := Option.map_eq_some_iff.1 hv
      exact ⟨_, rfl, .inr ⟨rfl, hr.validity b n hb hn⟩⟩
    case synthetic =>
      obtain ⟨v, -, rfl⟩ := Option.map_eq_some_iff.1 hv
      exact ⟨_, rfl, rfl⟩
    all_goals cases hv
  case health =>
    obtain ⟨b, hb, rfl⟩ := Option.map_eq_some_iff.1 h
    refine ⟨_, .health, rfl, rfl, fun k v hv => ?_⟩
    cases k
    case state =>
      obtain ⟨n, hn, rfl⟩ := Option.map_eq_some_iff.1 hv
      exact ⟨_, rfl, .inr ⟨rfl, hr.state b n hb hn⟩⟩
    case receivedRequests | rejectedDatagrams | sendErrors | skippedPublications =>
      obtain ⟨n, -, rfl⟩ := Option.map_eq_some_iff.1 hv
      exact ⟨_, rfl, .inl ⟨rfl, hu n⟩⟩
    all_goals cases hv
  case error =>
    obtain ⟨b, hb, rfl⟩ := Option.map_eq_some_iff.1 h
    refine ⟨_, .error, rfl, rfl, fun k v hv => ?_⟩
    cases k
    case code =>
      obtain ⟨n, hn, rfl⟩ := Option.map_eq_some_iff.1 hv
      exact ⟨_, rfl, .inr ⟨rfl, hr.code b n hb hn⟩⟩
    all_goals cases hv
  all_goals cases h

/-- **A well-typed message has a shape.** -/
theorem shape_eq (lib : PyFloat) {m : Model.Envelope} (hr : InRange m) {d : Message PyStr}
    (h : MessageHolds m d) : shape lib d = .ok (normMessage d) := by
  apply mapM_eq_ok
  rintro ⟨key, v⟩ hmem
  have hlookup := Assoc.lookup_of_mem h.nodup hmem
  cases hb : bodyValue m key with
  | none =>
    obtain ⟨s, hs, hholds⟩ := h.header key hb
    rw [hlookup] at hs
    cases s with
    | none => cases hs
    | some s =>
      cases hs
      obtain ⟨⟨type, message, capacity⟩, hf, hmsg, htyped⟩ := header_typed hr hholds.encode.symm
      cases hmsg
      simp only [hf, shapeScalar_typed lib htyped, except_ok_bind, normValue]
  | some value =>
    obtain ⟨fields, hfields, hholds⟩ := h.bodies key value hb
    rw [hlookup] at hfields
    cases hfields
    obtain ⟨⟨type, message, capacity⟩, name, hf, hmsg, htyped⟩ := body_typed hr hb
    cases hmsg
    simp only [hf, shapeBody_eq lib htyped hholds, except_ok_bind, normValue]

/-! ## Fields after `shape` -/

namespace Holds

variable {value : Option (Scalar Bytes)} {py : Option (Scalar PyStr)}

/-- But for the temperature `shape` changes nothing. -/
theorem norm_eq (h : Holds value py) (hf : ∀ packed, value ≠ some (.float packed)) : py.map norm = py := by
  cases py with
  | none => rfl
  | some v =>
    cases v with
    | float packed => exact absurd h.encode.symm (hf packed)
    | int n => rfl
    | str s => rfl
    | bool b => rfl

theorem same (h : Holds value py) : ∃ t, IsText t ∧ Same t value py := by
  cases py with
  | none => exact ⟨[], fun c hc => absurd hc List.not_mem_nil, h.encode, fun s hs => by cases hs⟩
  | some v =>
    cases v with
    | str s => exact ⟨s, h.text s rfl, h.encode, fun s' hs => (Scalar.str.inj (Option.some.inj hs)).symm⟩
    | int n => exact ⟨[], fun c hc => absurd hc List.not_mem_nil, h.encode, fun s hs => by cases hs⟩
    | bool b => exact ⟨[], fun c hc => absurd hc List.not_mem_nil, h.encode, fun s hs => by cases hs⟩
    | float packed => exact ⟨[], fun c hc => absurd hc List.not_mem_nil, h.encode, fun s hs => by cases hs⟩

theorem isSome_eq (h : Holds value py) : py.isSome = value.isSome := by
  rw [← h.encode, Option.isSome_map]

theorem isInt_u32 {v : Option UInt32} (h : Holds (v.map fun v => .int v.toNat) py) (n : UInt32) :
    isInt py n.toNat = (v == some n) := by
  obtain ⟨t, -, hs⟩ := h.same
  exact hs.isInt_u32 n

theorem isInt_i32 {v : Option Int} (h : Holds (v.map .int) py) (n : Int) : isInt py n = (v == some n) := by
  obtain ⟨t, -, hs⟩ := h.same
  exact hs.isInt_i32 n

theorem int_iff {v : Option Int} (h : Holds (v.map .int) py) (n : Int) : py = some (.int n) ↔ v = some n := by
  have henc := h.encode
  constructor
  · rintro rfl
    cases v with
    | none => cases henc
    | some k =>
      cases henc
      rfl
  · rintro rfl
    obtain ⟨s, rfl, hs⟩ := Option.map_eq_some_iff.1 henc
    cases s <;> cases hs
    rfl

theorem matches32_eq {v : Option (HString 32)} (h : Holds (v.map fun v => .str v.bytes) py) {p : UInt8 → Bool}
    (hp : ∀ b, p b = true → b < 0x80) :
    matches32 p py = v.any fun v => !v.bytes.isEmpty && v.bytes.all p := by
  obtain ⟨t, ht, hs⟩ := h.same
  exact hs.matches32 ht hp

theorem session_eq {v : Option (HString 16)} (h : Holds (v.map fun v => .str v.bytes) py) :
    session py = nonce v := by
  obtain ⟨t, ht, hs⟩ := h.same
  exact hs.session ht

end Holds

theorem lookup_normDict (d : Dict (Scalar PyStr)) (key : Key) :
    (normDict d).lookup key = (d.lookup key).map norm := Assoc.lookup_map norm d key

section Message

variable {m : Model.Envelope} {d : Message PyStr}

theorem lookup_normMessage (d : Message PyStr) (key : Key) : (normMessage d).lookup key =
    (d.lookup key).map normValue := Assoc.lookup_map normValue d key

/-- A field of the header. -/
theorem header_holds (h : MessageHolds m d) {key : Key} (hb : bodyValue m key = none) :
    Holds (headerValue m key) (get (normMessage d) key) ∧
      has (normMessage d) key = (headerValue m key).isSome := by
  obtain ⟨v, hv, hholds⟩ := h.header key hb
  have hfloat : ∀ packed, headerValue m key ≠ some (.float packed) := by
    intro packed hp
    cases key
    all_goals first
      | cases hp
      | obtain ⟨_, -, he⟩ := Option.map_eq_some_iff.1 hp
        cases he
  have hnorm := hholds.norm_eq hfloat
  have hsome := hholds.isSome_eq
  unfold PyCodec.get
  rw [has, lookup_normMessage, hv]
  cases v with
  | none => exact ⟨hholds, hsome⟩
  | some v =>
    have hv' : norm v = v := Option.some.inj hnorm
    simp only [Option.map_some, normValue, hv']
    exact ⟨hholds, hsome⟩

/-- A body. -/
theorem body_holds (h : MessageHolds m d) (key : Key) : (bodyValue m key).isSome = true →
    has (normMessage d) key = true ∧ ∀ value, bodyValue m key = some value →
      ∃ fields, getBody (normMessage d) key = some (normDict fields) ∧ DictHolds value fields := by
  intro hsome
  obtain ⟨value, hvalue⟩ := Option.isSome_iff_exists.1 hsome
  obtain ⟨fields, hfields, hholds⟩ := h.bodies key value hvalue
  rw [has, lookup_normMessage, hfields]
  refine ⟨rfl, fun value' hvalue' => ?_⟩
  cases hvalue.symm.trans hvalue'
  exact ⟨fields, by rw [getBody, lookup_normMessage, hfields]; rfl, hholds⟩

theorem no_body (h : MessageHolds m d) {key : Key} (hb : bodyValue m key = none)
    (hheader : headerValue m key = none) :
    has (normMessage d) key = false ∧ getBody (normMessage d) key = none := by
  obtain ⟨v, hv, hholds⟩ := h.header key hb
  have hnone : v = none := by
    have := hholds.encode
    rw [hheader] at this
    exact Option.map_eq_none_iff.1 this
  subst hnone
  rw [has, getBody, lookup_normMessage, hv]
  exact ⟨rfl, rfl⟩

end Message

/-! ## Bodies after `shape` -/

theorem field_holds {value : Key → Option (Scalar Bytes)} {fields : Dict (Scalar PyStr)}
    (h : DictHolds value fields) {key : Key} (hf : ∀ packed, value key ≠ some (.float packed)) :
    Holds (value key) ((normDict fields).lookup key) := by
  have hholds := h.fields key
  rwa [lookup_normDict, hholds.norm_eq hf]

theorem int_field {α : Type} (v : Option α) (f : α → Int) (packed : Option F32) :
    (v.map fun v => (Scalar.int (f v) : Scalar Bytes)) ≠ some (.float packed) := by
  cases v <;> simp

theorem str_field {n : Nat} (v : Option (HString n)) (packed : Option F32) :
    (v.map fun v => Scalar.str v.bytes) ≠ some (.float packed) := by
  cases v <;> simp

theorem deviceInfo_valid {b : Model.DeviceInfo} {fields : Dict (Scalar PyStr)}
    (h : DictHolds (deviceInfoValue b) fields) (format : Format) :
    deviceInfoRules format (normDict fields) = Validation.deviceInfoValid b format := by
  have hfw := (@field_holds _ _ h .firmwareVersion (str_field _)).matches32_eq
    (p := isPrintable) fun b hb => isPrintable_ascii hb
  have henc := (@field_holds _ _ h .encoding (int_field _ id)).isInt_i32 (formats format)
  rw [deviceInfoRules, hfw, henc, Validation.deviceInfoValid]
  cases format <;> rfl

/-- The sign of a zero is no matter of range. -/
theorem temperature_valid (f : F32) :
    temperatureInRange ((some (.float (some f))).map norm) = Validation.temperatureValid f := by
  simp only [Option.map_some, norm, temperatureInRange, Validation.temperatureValid, Bool.and_assoc]
  by_cases hz : f.eq F32.zero = true
  · rw [if_pos hz]
    rcases (F32.eq_zero_iff f).1 hz with rfl | rfl <;> decide
  · rw [if_neg hz]

/-- A value that is no string is the same on both sides. -/
theorem Holds.eq_of_encode {v : Option (Scalar PyStr)} {w : Option (Scalar Bytes)} (h : Holds w v) :
    (∀ b : Option Bool, w = b.map .bool → v = b.map .bool) ∧
      ∀ f : Option F32, (w = f.map fun f => .float (some f)) → v = f.map fun f => .float (some f) := by
  have henc := h.encode
  constructor
  all_goals
    intro x hx
    subst hx
    cases x with
    | none => exact Option.map_eq_none_iff.1 henc
    | some x =>
      obtain ⟨s, rfl, hs⟩ := Option.map_eq_some_iff.1 henc
      cases s <;> cases hs
      rfl

theorem status_valid {b : Model.Status} {fields : Dict (Scalar PyStr)} (h : DictHolds (statusValue b) fields) :
    statusRules (normDict fields) = Validation.statusValid b := by
  have hv := @field_holds _ _ h .validity (int_field _ id)
  have h1 : isInt ((normDict fields).lookup .validity) 1 = (b.validity == some 1) := hv.isInt_i32 1
  have h2 : isInt ((normDict fields).lookup .validity) 2 = (b.validity == some 2) := hv.isInt_i32 2
  have h3 : isInt ((normDict fields).lookup .validity) 3 = (b.validity == some 3) := hv.isInt_i32 3
  have ht := (h.fields .temperatureCelsius).eq_of_encode.2 b.temperatureCelsius rfl
  have hs := (h.fields .synthetic).eq_of_encode.1 b.synthetic rfl
  have htemp : temperatureInRange ((normDict fields).lookup .temperatureCelsius) =
      b.temperatureCelsius.any Validation.temperatureValid := by
    rw [lookup_normDict, ht]
    cases b.temperatureCelsius with
    | none => rfl
    | some f => exact temperature_valid f
  have hnone : (!has (normDict fields) .temperatureCelsius) = b.temperatureCelsius.isNone := by
    rw [has, lookup_normDict, ht]
    cases b.temperatureCelsius <;> rfl
  unfold statusRules Validation.statusValid
  rw [h1, h2, h3, htemp, hnone, lookup_normDict, hs]
  simp only [beq_iff_eq]
  congr 1
  · rcases b.synthetic with _ | _ | _ <;> rfl
  · by_cases hone : b.validity = some 1
    · rw [if_pos hone, if_pos hone]
    · rw [if_neg hone, if_neg hone]
      by_cases hmore : b.validity = some 2 ∨ b.validity = some 3
      · rw [if_pos hmore]
        simp [hmore]
      · rw [if_neg hmore]
        simp only [not_or] at hmore
        simp [hmore]

theorem health_valid {b : Model.Health} {fields : Dict (Scalar PyStr)} (h : DictHolds (healthValue b) fields) :
    healthRules (normDict fields) = Validation.healthValid b := by
  have hstate := @field_holds _ _ h .state (int_field _ id)
  have h1 : isInt ((normDict fields).lookup .state) 1 = (b.state == some 1) := hstate.isInt_i32 1
  have h2 : isInt ((normDict fields).lookup .state) 2 = (b.state == some 2) := hstate.isInt_i32 2
  have hhas : ∀ key, has (normDict fields) key = (healthValue b key).isSome := by
    intro key
    rw [has, lookup_normDict, Option.isSome_map, (h.fields key).isSome_eq]
  rw [healthRules, h1, h2, Validation.healthValid, Bool.eq_iff_iff]
  simp only [shapes, List.all_cons, List.all_nil, hhas, healthValue, Option.isSome_map, Bool.and_eq_true,
    Bool.or_eq_true, beq_iff_eq, and_true]
  constructor
  · rintro ⟨⟨-, h1, h2, h3, h4⟩, hs⟩
    exact ⟨⟨⟨⟨hs, h1⟩, h2⟩, h3⟩, h4⟩
  · rintro ⟨⟨⟨⟨hs, h1⟩, h2⟩, h3⟩, h4⟩
    refine ⟨⟨?_, h1, h2, h3, h4⟩, hs⟩
    rcases hs with hs | hs <;> rw [hs] <;> rfl

theorem error_valid {b : Model.Error} {fields : Dict (Scalar PyStr)} (h : DictHolds (errorValue b) fields) :
    errorRules (normDict fields) = (b.code == some 1 || b.code == some 2) := by
  have hcode := @field_holds _ _ h .code (int_field _ id)
  have h1 : isInt ((normDict fields).lookup .code) 1 = (b.code == some 1) := hcode.isInt_i32 1
  have h2 : isInt ((normDict fields).lookup .code) 2 = (b.code == some 2) := hcode.isInt_i32 2
  rw [errorRules, h1, h2]

/-! ## The two rule sets -/

/-- What `validate` asks of a message after `shape`. -/
structure PyValid (s : Message PyStr) (format : Format) (kind : Int) (body : Key) : Prop where
  version : isInt (get s .protocolVersion) 1 = true
  device : matches32 isDeviceChar (get s .deviceId) = true
  hasKind : get s .kind = some (.int kind)
  hasBody : kindBody.lookup kind = some body
  oneBody : (bodies.all fun key => has s key == (key == body)) = true
  sender : (if kind = 1 ∨ kind = 2 ∨ kind = 3 then !has s .bootId && !has s .sequence && !has s .uptimeMs
    else session (get s .bootId) && has s .uptimeMs) = true
  receiver : (if kind = 21 ∨ kind = 22 then has s .sequence && !has s .clientSession && !has s .requestId
    else session (get s .clientSession) && (has s .requestId && !isInt (get s .requestId) 0) &&
      !has s .sequence) = true
  deviceInfo : ∀ fields, getBody s .deviceInfo = some fields → deviceInfoRules format fields = true
  status : ∀ fields, getBody s .status = some fields → statusRules fields = true
  health : ∀ fields, getBody s .health = some fields → healthRules fields = true
  error : ∀ fields, getBody s .error = some fields → errorRules fields = true

/-- The rules past the version. -/
def pastVersion (s : Message PyStr) (format : Format) : Except CodecError (Message PyStr) := do
  require (matches32 isDeviceChar (get s .deviceId))
  match get s .kind with
  | some (.int kind) => do
    match kindBody.lookup kind with
    | none => .error .validation
    | some body => do
      require (bodies.all fun key => has s key == (key == body))
      if kind = 1 ∨ kind = 2 ∨ kind = 3 then
        require (!has s .bootId && !has s .sequence && !has s .uptimeMs)
      else require (session (get s .bootId) && has s .uptimeMs)
      if kind = 21 ∨ kind = 22 then
        require (has s .sequence && !has s .clientSession && !has s .requestId)
      else require (session (get s .clientSession) &&
        (has s .requestId && !isInt (get s .requestId) 0) && !has s .sequence)
      validateBody s .deviceInfo (deviceInfoRules format)
      validateBody s .status statusRules
      validateBody s .health healthRules
      validateBody s .error errorRules
      .ok s
  | _ => .error .validation

theorem validate_eq {lib : PyFloat} {d s : Message PyStr} (hs : shape lib d = .ok s) (format : Format) :
    validate lib d format = (do
      require (has s .protocolVersion)
      requireOr .version (isInt (get s .protocolVersion) 1)
      pastVersion s format) := by
  rw [validate, hs]
  rfl

theorem validateBody_ok {s : Message PyStr} {key : Key} {check : Dict (Scalar PyStr) → Bool} {u : Unit} :
    validateBody s key check = .ok u ↔ ∀ fields, getBody s key = some fields → check fields = true := by
  unfold validateBody
  cases getBody s key <;> simp

/-- It passes when every rule does. -/
theorem pastVersion_ok {s r : Message PyStr} {format : Format}
    (hv : isInt (get s .protocolVersion) 1 = true) :
    pastVersion s format = .ok r ↔ r = s ∧ ∃ kind body, PyValid s format kind body := by
  constructor
  · intro h
    unfold pastVersion at h
    obtain ⟨_, hdev, h⟩ := except_bind_ok.1 h
    split at h
    · rename_i kind hkind
      split at h
      · cases h
      · rename_i body hbody
        simp only [require_ite, except_bind_ok, require_eq_ok, exists_const, validateBody_ok] at h hdev
        obtain ⟨hone, hsender, hreceiver, h1, h2, h3, h4, hr⟩ := h
        exact ⟨(Except.ok.inj hr).symm, kind, body, hv, hdev, hkind, hbody, hone, hsender, hreceiver, h1, h2, h3, h4⟩
    · cases h
  · rintro ⟨rfl, kind, body, h⟩
    unfold pastVersion
    simp only [h.hasKind, h.hasBody, require_ite, except_bind_ok, require_eq_ok, exists_const, validateBody_ok]
    exact ⟨h.device, h.oneBody, h.sender, h.receiver, h.deviceInfo, h.status, h.health, h.error, trivial⟩

/-! ## Agreement -/

/-- The kinds of the table are the three classes. -/
theorem known_iff {kind : Int} : (isRequest kind || isResponse kind || isPublication kind) = true ↔
    ∃ body, kindBody.lookup kind = some body := by
  constructor
  · intro h
    have hkind : kind = 1 ∨ kind = 2 ∨ kind = 3 ∨ kind = 11 ∨ kind = 12 ∨ kind = 13 ∨ kind = 14 ∨
        kind = 21 ∨ kind = 22 := by
      simp only [isRequest, isResponse, isPublication, Bool.or_eq_true, Bool.and_eq_true, decide_eq_true_eq,
        beq_iff_eq] at h
      omega
    rcases hkind with rfl | rfl | rfl | rfl | rfl | rfl | rfl | rfl | rfl <;> exact ⟨_, rfl⟩
  · rintro ⟨body, h⟩
    rcases kindBody_lookup h with rfl | rfl | rfl | rfl | rfl | rfl | rfl | rfl | rfl <;> rfl

theorem bodies_eq (m : Model.Envelope) :
    Validation.bodies m = bodies.countP fun key => (bodyValue m key).isSome := by
  have hbodies : bodies = [.getDeviceInfo, .getStatus, .getHealth, .deviceInfo, .status, .health, .error] := by
    decide
  rw [Assoc.countP_eq_count, hbodies, Validation.bodies]
  simp [bodyValue]

theorem bodyMatches_eq (m : Model.Envelope) {kind : Int} {body : Key} (h : kindBody.lookup kind = some body) :
    bodyMatches m kind = (bodyValue m body).isSome ∧ body ∈ bodies := by
  rcases kindBody_lookup h with rfl | rfl | rfl | rfl | rfl | rfl | rfl | rfl | rfl <;> cases h <;>
    simp [bodyMatches, bodyValue] <;> decide

section Agreement

variable {m : Model.Envelope} {d : Message PyStr}

theorem has_body_eq (h : MessageHolds m d) {key : Key} (hkey : key ∈ bodies) :
    has (normMessage d) key = (bodyValue m key).isSome := by
  cases hb : bodyValue m key with
  | some value => exact (body_holds h key (by rw [hb]; rfl)).1
  | none =>
    refine (no_body h hb ?_).1
    revert hkey
    cases key <;> first | exact fun _ => rfl | exact fun hkey => absurd hkey (by decide)

/-- One body, of the kind. -/
theorem oneBody_iff (h : MessageHolds m d) {kind : Int} {body : Key} (hk : kindBody.lookup kind = some body) :
    (bodies.all fun key => has (normMessage d) key == (key == body)) = true ↔
      Validation.bodies m = 1 ∧ bodyMatches m kind = true := by
  obtain ⟨hmatch, hmem⟩ := bodyMatches_eq m hk
  rw [hmatch, bodies_eq, Assoc.countP_one_iff (by decide) hmem, List.all_eq_true, List.all_eq_true]
  refine forall₂_congr fun key hkey => ?_
  rw [has_body_eq h hkey]

/-- The rules of a body, if it is there. -/
theorem body_rules (h : MessageHolds m d) {key : Key} (hheader : headerValue m key = none) {B : Type}
    {body : Option B} {valueOf : B → Key → Option (Scalar Bytes)} (hbody : bodyValue m key = body.map valueOf)
    {check : Dict (Scalar PyStr) → Bool} {valid : B → Bool}
    (hrules : ∀ b fields, DictHolds (valueOf b) fields → check (normDict fields) = valid b) :
    (∀ fields, getBody (normMessage d) key = some fields → check fields = true) ↔
      ∀ b, body = some b → valid b = true := by
  cases body with
  | none =>
    rw [(no_body h hbody hheader).2]
    exact ⟨(fun _ b hb => by cases hb), fun _ fields hf => by cases hf⟩
  | some b =>
    obtain ⟨fields, hfields, hholds⟩ := (body_holds h key (by rw [hbody]; rfl)).2 _ hbody
    rw [hfields]
    constructor
    · intro hcheck b' hb'
      cases hb'
      rw [← hrules b fields hholds]
      exact hcheck _ rfl
    · intro hvalid fields' hf'
      cases hf'
      rw [hrules b fields hholds]
      exact hvalid b rfl

/-- The header is the same to both. -/
theorem header_rules_iff (h : MessageHolds m d) (kind : Int) :
    HeaderRules (get (normMessage d)) kind ↔ EnvelopeRules m kind := by
  have hdev := (@header_holds _ _ h .deviceId rfl).1
  have hboot := (@header_holds _ _ h .bootId rfl).1
  have hclient := (@header_holds _ _ h .clientSession rfl).1
  have hid := (@header_holds _ _ h .requestId rfl).1
  have hsome : ∀ key, bodyValue m key = none →
      (get (normMessage d) key).isSome = (headerValue m key).isSome := fun key hb => (header_holds h hb).1.isSome_eq
  refine header_iff ((@header_holds _ _ h .protocolVersion rfl).1.isInt_u32 1)
    (hdev.matches32_eq fun b hb => isPrintable_ascii (isDeviceChar_printable hb)) hboot.session_eq
    hclient.session_eq (hid.isInt_u32 0) ?_ ?_ ?_ ?_ ?_ kind
  all_goals
    rw [hsome _ rfl, headerValue, Option.isSome_map]

/-- **Past the version the two rule sets are one.** -/
theorem rules_eq (h : MessageHolds m d) (format : Format) :
    (∃ kind body, PyValid (normMessage d) format kind body) ↔
      ∃ kind, Validation.ValidAs m format kind := by
  have hhas : ∀ key, bodyValue m key = none →
      has (normMessage d) key = (get (normMessage d) key).isSome := by
    intro key hb
    rw [(header_holds h hb).2, (header_holds h hb).1.isSome_eq]
  have hkind := (@header_holds _ _ h .kind rfl).1
  have hkind_iff : ∀ kind, get (normMessage d) .kind = some (.int kind) ↔ m.kind = some kind := fun kind =>
    hkind.int_iff kind
  have hinfo := @body_rules m d h .deviceInfo rfl _ m.deviceInfo deviceInfoValue rfl (deviceInfoRules format)
    (Validation.deviceInfoValid · format) fun b fields hf => deviceInfo_valid hf format
  have hstatus := @body_rules m d h .status rfl _ m.status statusValue rfl statusRules Validation.statusValid
    fun b fields hf => status_valid hf
  have hhealth := @body_rules m d h .health rfl _ m.health healthValue rfl healthRules Validation.healthValid
    fun b fields hf => health_valid hf
  have herror := @body_rules m d h .error rfl _ m.error errorValue rfl errorRules
    (fun e => e.code == some 1 || e.code == some 2) fun b fields hf => error_valid hf
  constructor
  · rintro ⟨kind, body, hv⟩
    have hsender := hv.sender
    have hreceiver := hv.receiver
    rw [hhas .bootId rfl, hhas .sequence rfl, hhas .uptimeMs rfl] at hsender
    rw [hhas .sequence rfl, hhas .clientSession rfl, hhas .requestId rfl] at hreceiver
    have hheader := (header_rules_iff h kind).1 ⟨hv.version, hv.device, hsender, hreceiver⟩
    have hknown := known_iff.2 ⟨body, hv.hasBody⟩
    obtain ⟨hone, hmatch⟩ := (oneBody_iff h hv.hasBody).1 hv.oneBody
    obtain ⟨hrequest, hresponse, hpublication⟩ := hheader.classes hknown
    exact ⟨kind, hheader.version, hheader.device, (hkind_iff kind).1 hv.hasKind, hknown, hone, hmatch, hrequest,
      hresponse, hpublication, hinfo.1 hv.deviceInfo, hstatus.1 hv.status, hhealth.1 hv.health,
      herror.1 hv.error⟩
  · rintro ⟨kind, hv⟩
    obtain ⟨body, hbody⟩ := known_iff.1 hv.known
    have hheader := (header_rules_iff h kind).2 (.of_valid hv)
    refine ⟨kind, body, hheader.version, hheader.device, (hkind_iff kind).2 hv.hasKind, hbody,
      (oneBody_iff h hbody).2 ⟨hv.oneBody, hv.body⟩, ?_, ?_, hinfo.2 hv.deviceInfo, hstatus.2 hv.status,
      hhealth.2 hv.health, herror.2 hv.error⟩
    · rw [hhas .bootId rfl, hhas .sequence rfl, hhas .uptimeMs rfl]
      exact hheader.sender
    · rw [hhas .sequence rfl, hhas .clientSession rfl, hhas .requestId rfl]
      exact hheader.receiver

/-! ### Verdicts -/

/-- The one failure is a validation error. -/
def Plain {α : Type} (x : Except CodecError α) : Prop := ∀ e, x = .error e → e = .validation

theorem Plain.bind {α β : Type} {x : Except CodecError α} {f : α → Except CodecError β} (hx : Plain x)
    (hf : ∀ a, Plain (f a)) : Plain (x >>= f) := by
  intro e he
  cases x with
  | ok a => exact hf a e he
  | error e' =>
    cases he
    exact hx _ rfl

theorem Plain.ok {α : Type} (a : α) : Plain (.ok a) := fun e he => by cases he

theorem Plain.validation {α : Type} : Plain (.error .validation : Except CodecError α) := fun e he => by
  cases he
  rfl

theorem Plain.require (c : Bool) : Plain (Nucleo.require c) := by
  cases c
  · exact .validation
  · exact .ok ()

theorem Plain.checkIf {c : Bool} {check : Except CodecError Unit} (h : Plain check) : Plain (checkIf c check) := by
  cases c
  · exact .ok ()
  · exact h

theorem Plain.ifPresent {α : Type} (body : Option α) {check : α → Except CodecError Unit}
    (h : ∀ a, Plain (check a)) : Plain (ifPresent body check) := by
  cases body with
  | none => exact .ok ()
  | some a => exact h a

theorem Plain.validateBody (s : Message PyStr) (key : Key) (check : Dict (Scalar PyStr) → Bool) :
    Plain (validateBody s key check) := by
  rw [validateBody_eq]
  exact .require _

theorem Plain.pastVersion (s : Message PyStr) (format : Format) : Plain (pastVersion s format) := by
  unfold PyCodec.pastVersion
  refine (Plain.require _).bind fun _ => ?_
  split
  · split
    · exact .validation
    · refine (Plain.require _).bind fun _ => ?_
      rw [require_ite]
      refine (Plain.require _).bind fun _ => ?_
      rw [require_ite]
      exact (Plain.require _).bind fun _ => (Plain.validateBody _ _ _).bind fun _ =>
        (Plain.validateBody _ _ _).bind fun _ => (Plain.validateBody _ _ _).bind fun _ =>
        (Plain.validateBody _ _ _).bind fun _ => .ok _
  · exact .validation

theorem Plain.validate {m : Model.Envelope} (hv : m.protocolVersion = some 1) (format : Format) :
    Plain (Validation.validate m format) := by
  unfold Validation.validate
  rw [if_neg (by simp [hv])]
  refine (Plain.require _).bind fun _ => ?_
  split
  · exact .validation
  · exact (Plain.require _).bind fun _ => (Plain.require _).bind fun _ => (Plain.require _).bind fun _ =>
      (Plain.require _).checkIf.bind fun _ => (Plain.require _).checkIf.bind fun _ =>
      (Plain.require _).checkIf.bind fun _ =>
      (Plain.ifPresent _ fun _ => .require _).bind fun _ => (Plain.ifPresent _ fun _ => .require _).bind fun _ =>
      (Plain.ifPresent _ fun _ => .require _).bind fun _ => Plain.ifPresent _ fun _ => .require _

/-- Both accept, both report validation, or both the version. -/
def SameVerdict (rust : Except CodecError Unit) (py : Except CodecError (Message PyStr)) : Prop :=
  (rust = .ok () ∧ ∃ r, py = .ok r) ∨ (rust = .error .validation ∧ py = .error .validation) ∨
    (rust = .error .version ∧ py = .error .version)

theorem SameVerdict.of_plain {rust : Except CodecError Unit} {py : Except CodecError (Message PyStr)}
    (hr : Plain rust) (hp : Plain py) (h : rust = .ok () ↔ ∃ r, py = .ok r) : SameVerdict rust py := by
  cases rust with
  | ok u => exact .inl ⟨rfl, h.1 rfl⟩
  | error e =>
    cases hr e rfl
    cases py with
    | ok r => cases h.2 ⟨r, rfl⟩
    | error e =>
      cases hp e rfl
      exact .inr (.inl ⟨rfl, rfl⟩)

theorem verdicts_agree (lib : PyFloat) (hr : InRange m) (h : MessageHolds m d) (format : Format) :
    SameVerdict (Validation.validate m format) (validate lib d format) := by
  have hversion := @header_holds _ _ h .protocolVersion rfl
  have hone : isInt (get (normMessage d) .protocolVersion) 1 = (m.protocolVersion == some 1) :=
    hversion.1.isInt_u32 1
  have hhas : has (normMessage d) .protocolVersion = m.protocolVersion.isSome := by
    rw [hversion.2, headerValue, Option.isSome_map]
  rw [validate_eq (shape_eq lib hr h), hhas, hone]
  by_cases hv : m.protocolVersion = some 1
  · rw [hv]
    refine .of_plain (.validate hv format) ?_ ?_
    · exact Plain.pastVersion _ format
    · have hok := @Validation.validate_ok_iff m format
      rw [hok, ← rules_eq h format]
      have hpast := fun r => @pastVersion_ok (normMessage d) r format (by rw [hone, hv]; rfl)
      constructor
      · exact fun hvalid => ⟨_, (hpast _).2 ⟨rfl, hvalid⟩⟩
      · rintro ⟨r, hr⟩
        exact ((hpast r).1 hr).2
  · have hrust : Validation.validate m format =
        .error (if m.protocolVersion.isNone then .validation else .version) := if_pos hv
    rw [hrust]
    cases hm : m.protocolVersion with
    | none => exact .inr (.inl ⟨rfl, rfl⟩)
    | some v =>
      have hne : (some v == some (1 : UInt32)) = false := by
        rw [beq_eq_false_iff_ne]
        exact fun he => hv (hm.trans he)
      rw [hne]
      exact .inr (.inr ⟨rfl, rfl⟩)

end Agreement

/-! ### Every message is a `dict` -/

def keys : List Key :=
  [.protocolVersion, .kind, .deviceId, .bootId, .clientSession, .requestId, .sequence, .uptimeMs, .getDeviceInfo,
    .getStatus, .getHealth, .deviceInfo, .status, .health, .error, .firmwareVersion, .encoding,
    .temperatureCelsius, .validity, .synthetic, .state, .receivedRequests, .rejectedDatagrams, .sendErrors,
    .skippedPublications, .code]

theorem mem_keys (key : Key) : key ∈ keys := by cases key <;> decide

/-- The characters of a scalar. -/
def ofBytes : Scalar Bytes → Scalar PyStr
  | .int n => .int n
  | .str s => .str ((decodeUtf8 s).getD [])
  | .bool b => .bool b
  | .float packed => .float packed

def pyBody (value : Key → Option (Scalar Bytes)) : Dict (Scalar PyStr) :=
  columns keys fun key => (value key).map ofBytes

/-- The `dict` of a message, in the order of `keys`. -/
def pyMessage (m : Model.Envelope) : Message PyStr :=
  columns keys fun key =>
    match bodyValue m key with
    | some value => some (.message (pyBody value))
    | none => ((headerValue m key).map ofBytes).map .scalar

theorem columns_nodup {V : Type} (p : Key → Option V) : ((columns keys p).map Prod.fst).Nodup :=
  Assoc.ofKeys_nodup (by decide) p

theorem lookup_keys {V : Type} (p : Key → Option V) (key : Key) : (columns keys p).lookup key = p key := by
  rw [lookup_columns, if_pos (mem_keys key)]

/-- The strings of the fields are text. -/
def TextValues (value : Key → Option (Scalar Bytes)) : Prop :=
  ∀ key s, value key = some (.str s) → utf8Valid s = true

theorem holds_ofBytes {value : Option (Scalar Bytes)} (h : ∀ s, value = some (.str s) → utf8Valid s = true) :
    Holds value (value.map ofBytes) := by
  have hdecode : ∀ s, value = some (.str s) → ∃ t, decodeUtf8 s = some t ∧ t.encode = s ∧ IsText t := by
    intro s hs
    have hsome := decodeUtf8_isSome s
    rw [h s hs] at hsome
    obtain ⟨t, ht⟩ := Option.isSome_iff_exists.1 hsome
    exact ⟨t, ht, decodeUtf8_spec ht⟩
  cases value with
  | none => exact ⟨rfl, fun s hs => by cases hs⟩
  | some v =>
    cases v with
    | str s =>
      obtain ⟨t, ht, henc, htext⟩ := hdecode s rfl
      refine ⟨?_, fun s' hs' => ?_⟩
      · simp [ofBytes, ht, Scalar.encode, henc]
      · simp only [Option.map_some, ofBytes, ht, Option.getD_some, Option.some.injEq, Scalar.str.injEq] at hs'
        rwa [← hs']
    | int n => exact ⟨rfl, fun s hs => by cases hs⟩
    | bool b => exact ⟨rfl, fun s hs => by cases hs⟩
    | float packed => exact ⟨rfl, fun s hs => by cases hs⟩

theorem body_text {m : Model.Envelope} {key : Key} {value : Key → Option (Scalar Bytes)}
    (h : bodyValue m key = some value) : TextValues value := by
  intro k s hs
  cases key
  case getDeviceInfo | getStatus | getHealth =>
    obtain ⟨-, -, rfl⟩ := Option.map_eq_some_iff.1 h
    cases hs
  case deviceInfo | status | health | error =>
    obtain ⟨b, -, rfl⟩ := Option.map_eq_some_iff.1 h
    cases k
    all_goals first
      | cases hs
      | obtain ⟨v, -, he⟩ := Option.map_eq_some_iff.1 hs
        cases he
        exact v.utf8
      | obtain ⟨v, -, he⟩ := Option.map_eq_some_iff.1 hs
        cases he
  all_goals cases h

theorem header_text (m : Model.Envelope) : TextValues (headerValue m) := by
  intro key s hs
  cases key
  all_goals first
    | cases hs
    | obtain ⟨v, -, he⟩ := Option.map_eq_some_iff.1 hs
      cases he
      exact v.utf8
    | obtain ⟨v, -, he⟩ := Option.map_eq_some_iff.1 hs
      cases he

theorem messageHolds_pyMessage (m : Model.Envelope) : MessageHolds m (pyMessage m) where
  nodup := columns_nodup _
  header := by
    intro key hb
    refine ⟨(headerValue m key).map ofBytes, ?_, holds_ofBytes (header_text m key)⟩
    rw [pyMessage, lookup_keys, hb]
  bodies := by
    intro key value hb
    refine ⟨pyBody value, ?_, columns_nodup _, fun k => ?_⟩
    · rw [pyMessage, lookup_keys, hb]
    · rw [pyBody, lookup_keys]
      exact holds_ofBytes (body_text hb k)

/-- **The validators agree.** Every message is a `dict`, and of each `dict` that is the
message `codec.py` reports what `validation.rs` reports of the message, in every format. -/
theorem validators_agree (lib : PyFloat) (m : Model.Envelope) (hr : InRange m) (format : Format) :
    (∃ d, MessageHolds m d) ∧ ∀ d, MessageHolds m d →
      SameVerdict (Validation.validate m format) (validate lib d format) :=
  ⟨⟨_, messageHolds_pyMessage m⟩, fun _ h => verdicts_agree lib hr h format⟩

theorem validators_agree_zero :
    let m : Model.Envelope :=
      { protocolVersion := some 1, kind := some 12, deviceId := some Sample.device, bootId := some Sample.boot,
        clientSession := some Sample.session, requestId := some 7, uptimeMs := some 5,
        status := some { temperatureCelsius := some F32.negZero, validity := some 1, synthetic := some true } }
    Validation.validate m .json = .ok () ∧ ∀ d, MessageHolds m d →
      SameVerdict (Validation.validate m .json)
        (validate ⟨fun _ => false, fun _ => none, fun _ => none⟩ d .json) := by
  refine ⟨by decide, (validators_agree _ _ ⟨?_, ?_, ?_, ?_, ?_⟩ .json).2⟩ <;> intro a
  · intro h
    cases h
    decide
  · intro _ h
    cases h
  · intro v h hv
    cases h
    cases hv
    decide
  · intro _ h
    cases h
  · intro _ h
    cases h

end Nucleo.PyCodec
