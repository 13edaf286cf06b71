import Nucleo.L1Encoding.Csv
import Nucleo.L1Encoding.PeerCells

/-!
# One row, two readers

The cells of a row agree (`header_agrees` to `error_agrees`), and so does what
`validate` asks of a message on either side: `HeaderRules` and `EnvelopeRules`
of the header, `bodyRules` and `EnvelopeBodyRules` of its one body.
`row_agrees` puts them together: `fromCells` and `decodeRow`, each with its
validator, make the same message of a row, `ofEnvelope` being what an envelope
is to Python.
-/
namespace Nucleo
open Rfc4180 PyCodec

/-! ## Values under `validate` -/

namespace Same

variable {t : PyStr} {py : Option (Scalar PyStr)}

theorem isSome {rust : Option (Scalar Bytes)} (h : Same t rust py) : py.isSome = rust.isSome := by
  rw [← h.encode, Option.isSome_map]

theorem isInt {α : Type} [DecidableEq α] {v : Option α} {toInt : α → Int} (hinj : ∀ a b, toInt a = toInt b → a = b)
    (h : Same t (v.map fun v => .int (toInt v)) py) (n : α) : PyCodec.isInt py (toInt n) = (v == some n) := by
  have henc := h.encode
  cases v with
  | none => cases py with
    | none => rfl
    | some s => cases henc
  | some a => cases py with
    | none => cases henc
    | some s =>
      cases s with
      | int k =>
        cases henc
        rw [PyCodec.isInt, Bool.eq_iff_iff, beq_iff_eq, beq_iff_eq]
        exact ⟨fun he => congrArg some (hinj _ _ he), fun he => by rw [Option.some.inj he]⟩
      | str s => cases henc
      | bool b => cases henc
      | float f => cases henc

theorem isInt_u32 {v : Option UInt32} (h : Same t (v.map fun v => .int v.toNat) py) (n : UInt32) :
    PyCodec.isInt py n.toNat = (v == some n) :=
  h.isInt (fun _ _ he => UInt32.toNat_inj.1 (Int.ofNat.inj he)) n

theorem isInt_i32 {v : Option Int} (h : Same t (v.map .int) py) (n : Int) : PyCodec.isInt py n = (v == some n) :=
  h.isInt (fun _ _ he => he) n

/-- A string of the cell, or none. -/
theorem str {n : Nat} {v : Option (HString n)} (h : Same t (v.map fun v => .str v.bytes) py) :
    v = none ∧ py = none ∨ ∃ s, v = some s ∧ py = some (.str t) ∧ t.encode = s.bytes := by
  have henc := h.encode
  cases v with
  | none => cases py with
    | none => exact .inl ⟨rfl, rfl⟩
    | some s => cases henc
  | some a => cases py with
    | none => cases henc
    | some s =>
      cases s with
      | str s =>
        cases h.text s rfl
        exact .inr ⟨a, rfl, rfl, Scalar.str.inj (Option.some.inj henc)⟩
      | int n => cases henc
      | bool b => cases henc
      | float f => cases henc

theorem matches32 {v : Option (HString 32)} (h : Same t (v.map fun v => .str v.bytes) py) (ht : IsText t)
    {p : UInt8 → Bool} (hp : ∀ b, p b = true → b < 0x80) :
    PyCodec.matches32 p py = v.any fun v => !v.bytes.isEmpty && v.bytes.all p := by
  rcases h.str with ⟨rfl, rfl⟩ | ⟨s, rfl, rfl, he⟩
  · rfl
  · obtain ⟨hall, hlen⟩ := ht.all_inClass hp
    rw [PyCodec.matches32, fullmatch, hall, he, Option.any_some]
    by_cases hs : s.bytes.all p = true
    · have hl := hlen (by rw [he]; exact hs)
      have hle := s.len_le
      rw [he] at hl
      rw [hl, hs]
      cases hb : s.bytes with
      | nil => rfl
      | cons b bs =>
        rw [hb] at hle
        simp only [Bool.and_true, List.isEmpty_cons, Bool.not_false, Bool.and_eq_true, decide_eq_true_eq]
        exact ⟨Nat.succ_pos _, hle⟩
    · rw [Bool.eq_false_iff.2 hs, Bool.and_false, Bool.and_false]

theorem isHexLower_ascii {b : UInt8} (h : isHexLower b = true) : b < 0x80 :=
  isPrintable_ascii (isDeviceChar_printable (isHexLower_device h))

theorem session {v : Option (HString 16)} (h : Same t (v.map fun v => .str v.bytes) py) (ht : IsText t) :
    PyCodec.session py = nonce v := by
  rcases h.str with ⟨rfl, rfl⟩ | ⟨s, rfl, rfl, he⟩
  · rfl
  · obtain ⟨hall, hlen⟩ := ht.all_inClass fun b => isHexLower_ascii (b := b)
    have hzero : (t != List.replicate 16 [48]) = (s.bytes != List.replicate 16 48) := by
      have hiff : t = ((List.replicate 16 48).map fun b => [b]) ↔ t.encode = List.replicate 16 48 :=
        ht.eq_lit fun b hb => by
        rw [List.eq_of_mem_replicate hb]
        decide
      rw [List.map_replicate, he] at hiff
      rw [Bool.eq_iff_iff, bne_iff_ne, bne_iff_ne, ne_eq, ne_eq, hiff]
    rw [PyCodec.session, fullmatch, hall, he, hzero, nonce, Option.any_some, nonceBytes]
    by_cases hs : s.bytes.all isHexLower = true
    · have hl := hlen (by rw [he]; exact hs)
      rw [he] at hl
      rw [hl, hs, Bool.eq_iff_iff]
      simp only [Bool.and_true, Bool.and_eq_true, decide_eq_true_eq, beq_iff_eq]
      refine and_congr_left fun _ => ?_
      omega
    · rw [Bool.eq_false_iff.2 hs, Bool.and_false, Bool.and_false]

end Same

/-! ## The rules -/

/-- A header and one body. -/
def messageOf {S : Type} (d : Dict (Scalar S)) (body : Key) (fields : Dict (Scalar S)) : Message S :=
  scalars d ++ [(body, .message fields)]

theorem lookup_scalars {S : Type} (d : Dict (Scalar S)) (key : Key) :
    (scalars d).lookup key = (d.lookup key).map Value.scalar := by
  induction d with
  | nil => rfl
  | cons kv d ih =>
    obtain ⟨k, v⟩ := kv
    rw [scalars, List.map_cons, List.lookup_cons, List.lookup_cons]
    cases key == k with
    | true => rfl
    | false => exact ih

section Lookup

variable {p : Key → Option (Scalar PyStr)} {body key : Key} {fields : Dict (Scalar PyStr)}

theorem lookup_messageOf (hbody : body ∉ commonCsvColumns) :
    (messageOf (columns commonCsvColumns p) body fields).lookup key =
      if key ∈ commonCsvColumns then (p key).map .scalar
      else if key = body then some (.message fields) else none := by
  rw [messageOf, List.lookup_append, lookup_scalars, lookup_columns]
  by_cases hkey : key ∈ commonCsvColumns
  · rw [if_pos hkey, if_pos hkey]
    have hne : (key == body) = false := by
      rw [beq_eq_false_iff_ne]
      rintro rfl
      exact hbody hkey
    rw [List.lookup_cons, hne]
    cases p key <;> rfl
  · rw [if_neg hkey, if_neg hkey, List.lookup_cons]
    by_cases hb : key = body
    · rw [if_pos hb, beq_iff_eq.2 hb]
      rfl
    · rw [if_neg hb, beq_eq_false_iff_ne.2 hb]
      rfl

theorem get_header (hbody : body ∉ commonCsvColumns) (hkey : key ∈ commonCsvColumns) :
    get (messageOf (columns commonCsvColumns p) body fields) key = p key := by
  unfold PyCodec.get
  rw [lookup_messageOf hbody, if_pos hkey]
  cases p key <;> rfl

theorem has_header (hbody : body ∉ commonCsvColumns) (hkey : key ∈ commonCsvColumns) :
    has (messageOf (columns commonCsvColumns p) body fields) key = (p key).isSome := by
  rw [has, lookup_messageOf hbody, if_pos hkey, Option.isSome_map]

theorem has_body (hbody : body ∉ commonCsvColumns) (hkey : key ∉ commonCsvColumns) :
    has (messageOf (columns commonCsvColumns p) body fields) key = (key == body) := by
  rw [has, lookup_messageOf hbody, if_neg hkey]
  by_cases hb : key = body
  · rw [if_pos hb, beq_iff_eq.2 hb]
    rfl
  · rw [if_neg hb, beq_eq_false_iff_ne.2 hb]
    rfl

theorem getBody_body (hbody : body ∉ commonCsvColumns) (hkey : key ∉ commonCsvColumns) :
    getBody (messageOf (columns commonCsvColumns p) body fields) key =
      if key = body then some fields else none := by
  rw [getBody, lookup_messageOf hbody, if_neg hkey]
  by_cases hb : key = body
  · rw [if_pos hb, if_pos hb]
  · rw [if_neg hb, if_neg hb]

end Lookup

/-- What `validate` asks of the header of a message of `kind`. -/
structure HeaderRules (p : Key → Option (Scalar PyStr)) (kind : Int) : Prop where
  version : isInt (p .protocolVersion) 1 = true
  device : PyCodec.matches32 isDeviceChar (p .deviceId) = true
  sender : (if kind = 1 ∨ kind = 2 ∨ kind = 3 then
    !(p .bootId).isSome && !(p .sequence).isSome && !(p .uptimeMs).isSome
    else session (p .bootId) && (p .uptimeMs).isSome) = true
  receiver : (if kind = 21 ∨ kind = 22 then
    (p .sequence).isSome && !(p .clientSession).isSome && !(p .requestId).isSome
    else session (p .clientSession) && ((p .requestId).isSome && !isInt (p .requestId) 0) &&
      !(p .sequence).isSome) = true

/-- The rules about a body. -/
def bodyRules (body : Key) (fields : Dict (Scalar PyStr)) : Bool :=
  match body with
  | .deviceInfo => deviceInfoRules .csv fields
  | .status => statusRules fields
  | .health => healthRules fields
  | .error => errorRules fields
  | _ => true

theorem validateBody_eq (m : Message PyStr) (key : Key) (check : Dict (Scalar PyStr) → Bool) :
    validateBody m key check = require (match getBody m key with
      | none => true
      | some fields => check fields) := by
  unfold validateBody
  cases getBody m key <;> rfl

theorem require_ite {α : Type} (c : Prop) [Decidable c] (a b : Bool) (k : Unit → Except CodecError α) :
    (if c then require a >>= k else require b >>= k) = require (if c then a else b) >>= k := by
  split <;> rfl

theorem requireOr_eq_ok {e : CodecError} {c : Bool} {u : Unit} : requireOr e c = .ok u ↔ c = true := by
  cases c <;> simp [requireOr]

theorem isSome_of_isInt {v : Option (Scalar PyStr)} {n : Int} (h : isInt v n = true) : v.isSome = true := by
  cases v with
  | none => cases h
  | some s => rfl

/-- A message with one body passes when its header and its body do. -/
theorem validate_messageOf {lib : PyFloat} {d : Dict (Scalar PyStr)} {p : Key → Option (Scalar PyStr)}
    {body : Key} {fields fields' : Dict (Scalar PyStr)} (hbody : body ∈ bodies) {kind : Int}
    (hkind : p .kind = some (.int kind)) (hk : kindBody.lookup kind = some body)
    (hshape : shape lib (messageOf d body fields) = .ok (messageOf (columns commonCsvColumns p) body fields'))
    (m : Message PyStr) :
    validate lib (messageOf d body fields) .csv = .ok m ↔
      m = messageOf (columns commonCsvColumns p) body fields' ∧ HeaderRules p kind ∧
        bodyRules body fields' = true := by
  have hbodies : ∀ key ∈ bodies, key ∉ commonCsvColumns := by decide
  have hb := hbodies body hbody
  have hone : (bodies.all fun key =>
      has (messageOf (columns commonCsvColumns p) body fields') key == (key == body)) = true := by
    rw [List.all_eq_true]
    intro key hkey
    rw [has_body hb (hbodies key hkey), beq_self_eq_true]
  have hcheck : ∀ check : Dict (Scalar PyStr) → Bool, ∀ key ∈ bodies,
      validateBody (messageOf (columns commonCsvColumns p) body fields') key check =
        require (if key = body then check fields' else true) := by
    intro check key hkey
    rw [validateBody_eq, getBody_body hb (hbodies key hkey)]
    by_cases he : key = body
    · rw [if_pos he, if_pos he]
    · rw [if_neg he, if_neg he]
  have hversion : has (messageOf (columns commonCsvColumns p) body fields') .protocolVersion =
      (p .protocolVersion).isSome := has_header hb (by decide)
  rw [validate, hshape, except_ok_bind, hversion]
  simp only [get_header hb (show Key.protocolVersion ∈ commonCsvColumns by decide),
    get_header hb (show Key.deviceId ∈ commonCsvColumns by decide),
    get_header hb (show Key.kind ∈ commonCsvColumns by decide),
    get_header hb (show Key.bootId ∈ commonCsvColumns by decide),
    get_header hb (show Key.clientSession ∈ commonCsvColumns by decide),
    get_header hb (show Key.requestId ∈ commonCsvColumns by decide),
    has_header hb (show Key.bootId ∈ commonCsvColumns by decide),
    has_header hb (show Key.clientSession ∈ commonCsvColumns by decide),
    has_header hb (show Key.requestId ∈ commonCsvColumns by decide),
    has_header hb (show Key.sequence ∈ commonCsvColumns by decide),
    has_header hb (show Key.uptimeMs ∈ commonCsvColumns by decide), hkind, hk, hone,
    hcheck _ .deviceInfo (by decide), hcheck _ .status (by decide), hcheck _ .health (by decide),
    hcheck _ .error (by decide), require_ite, except_bind_ok, require_eq_ok, requireOr_eq_ok, exists_const]
  constructor
  · rintro ⟨-, hver, hdev, -, hsender, hreceiver, h1, h2, h3, h4, hm⟩
    refine ⟨(Except.ok.inj hm).symm, ⟨hver, hdev, hsender, hreceiver⟩, ?_⟩
    cases body <;> first | exact h1 | exact h2 | exact h3 | exact h4
  · rintro ⟨rfl, hheader, hrules⟩
    refine ⟨isSome_of_isInt hheader.version, hheader.version, hheader.device, trivial, hheader.sender,
      hheader.receiver, ?_, ?_, ?_, ?_, rfl⟩
    all_goals
      split
      · rename_i he
        subst he
        exact hrules
      · rfl

/-- The same rules of the other side. -/
structure EnvelopeRules (m : Model.Envelope) (kind : Int) : Prop where
  version : m.protocolVersion = some 1
  device : deviceIdValid m.deviceId = true
  sender : (if kind = 1 ∨ kind = 2 ∨ kind = 3 then m.bootId.isNone && m.sequence.isNone && m.uptimeMs.isNone
    else nonce m.bootId && m.uptimeMs.isSome) = true
  receiver : (if kind = 21 ∨ kind = 22 then
    m.sequence.isSome && m.clientSession.isNone && m.requestId.isNone
    else nonce m.clientSession && m.requestId.any (· != 0) && m.sequence.isNone) = true

structure EnvelopeBodyRules (m : Model.Envelope) : Prop where
  deviceInfo : ∀ info, m.deviceInfo = some info → Validation.deviceInfoValid info .csv = true
  status : ∀ status, m.status = some status → Validation.statusValid status = true
  health : ∀ health, m.health = some health → Validation.healthValid health = true
  error : ∀ e, m.error = some e → (e.code == some 1 || e.code == some 2) = true

open Validation in
/-- The kinds are requests, responses and publications. -/
theorem kind_class {kind : Int} (h : (isRequest kind || isResponse kind || isPublication kind) = true) :
    (kind = 1 ∨ kind = 2 ∨ kind = 3) ∧ isRequest kind = true ∧ isResponse kind = false ∧
        isPublication kind = false ∧ ¬ (kind = 21 ∨ kind = 22) ∨
      ¬ (kind = 1 ∨ kind = 2 ∨ kind = 3) ∧ isRequest kind = false ∧ isResponse kind = true ∧
        isPublication kind = false ∧ ¬ (kind = 21 ∨ kind = 22) ∨
      ¬ (kind = 1 ∨ kind = 2 ∨ kind = 3) ∧ isRequest kind = false ∧ isResponse kind = false ∧
        isPublication kind = true ∧ (kind = 21 ∨ kind = 22) := by
  simp only [isRequest, isResponse, isPublication, Bool.or_eq_true, Bool.and_eq_true, decide_eq_true_eq,
    beq_iff_eq, Bool.and_eq_false_iff, decide_eq_false_iff_not, Bool.or_eq_false_iff,
    beq_eq_false_iff_ne] at h ⊢
  omega

open Validation in
theorem EnvelopeRules.of_valid {m : Model.Envelope} {format : Format} {kind : Int} (hv : ValidAs m format kind) :
    EnvelopeRules m kind := by
  refine ⟨hv.version, hv.device, ?_, ?_⟩
  · rcases kind_class hv.known with ⟨hr, h1, -, -, -⟩ | ⟨hr, -, h2, -, -⟩ | ⟨hr, -, -, h3, -⟩
    · have := hv.request h1
      simp only [Bool.and_eq_true] at this
      simp [if_pos hr, this]
    · have := hv.response h2
      simp only [Bool.and_eq_true] at this
      simp [if_neg hr, this]
    · have := hv.publication h3
      simp only [Bool.and_eq_true] at this
      simp [if_neg hr, this]
  · rcases kind_class hv.known with ⟨-, h1, -, -, hp⟩ | ⟨-, -, h2, -, hp⟩ | ⟨-, -, -, h3, hp⟩
    · have := hv.request h1
      simp only [Bool.and_eq_true, correlation] at this
      simp [if_neg hp, this]
    · have := hv.response h2
      simp only [Bool.and_eq_true, correlation] at this
      simp [if_neg hp, this]
    · have := hv.publication h3
      simp only [Bool.and_eq_true] at this
      simp [if_pos hp, this]

open Validation in
/-- The rule of the class a kind is in. -/
theorem EnvelopeRules.classes {m : Model.Envelope} {kind : Int} (hh : EnvelopeRules m kind)
    (hknown : (isRequest kind || isResponse kind || isPublication kind) = true) :
    (isRequest kind = true →
      (m.bootId.isNone && m.uptimeMs.isNone && m.sequence.isNone && correlation m) = true) ∧
    (isResponse kind = true →
      (nonce m.bootId && m.uptimeMs.isSome && m.sequence.isNone && correlation m) = true) ∧
    (isPublication kind = true → (nonce m.bootId && m.uptimeMs.isSome && m.sequence.isSome &&
      m.clientSession.isNone && m.requestId.isNone) = true) := by
  have hsender := hh.sender
  have hreceiver := hh.receiver
  refine ⟨?_, ?_, ?_⟩
  all_goals
    intro hclass
    rcases kind_class hknown with ⟨hr, h1, h2, h3, hp⟩ | ⟨hr, h1, h2, h3, hp⟩ | ⟨hr, h1, h2, h3, hp⟩
  · rw [if_pos hr, Bool.and_eq_true, Bool.and_eq_true] at hsender
    rw [if_neg hp, Bool.and_eq_true, Bool.and_eq_true] at hreceiver
    simp [correlation, hsender, hreceiver, hh.version, hh.device]
  all_goals try exact absurd (hclass.symm.trans h1) (by decide)
  · exact absurd (hclass.symm.trans h2) (by decide)
  · rw [if_neg hr, Bool.and_eq_true] at hsender
    rw [if_neg hp, Bool.and_eq_true, Bool.and_eq_true] at hreceiver
    simp [correlation, hsender, hreceiver, hh.version, hh.device]
  · exact absurd (hclass.symm.trans h2) (by decide)
  · exact absurd (hclass.symm.trans h3) (by decide)
  · exact absurd (hclass.symm.trans h3) (by decide)
  · rw [if_neg hr, Bool.and_eq_true] at hsender
    rw [if_pos hp, Bool.and_eq_true, Bool.and_eq_true] at hreceiver
    simp [hsender, hreceiver]

open Validation in
/-- A message whose one body is the one of its kind passes when its header and its body do. -/
theorem validate_iff {m : Model.Envelope} {kind : Int} (hkind : m.kind = some kind)
    (hknown : (isRequest kind || isResponse kind || isPublication kind) = true) (hone : bodies m = 1)
    (hbody : bodyMatches m kind = true) :
    validate m .csv = .ok () ↔ EnvelopeRules m kind ∧ EnvelopeBodyRules m := by
  rw [validate_ok_iff]
  constructor
  · rintro ⟨kind', hv⟩
    cases Option.some.inj (hkind.symm.trans hv.hasKind)
    exact ⟨.of_valid hv, hv.deviceInfo, hv.status, hv.health, hv.error⟩
  · rintro ⟨hh, hb⟩
    obtain ⟨hrequest, hresponse, hpublication⟩ := hh.classes hknown
    exact ⟨kind, hh.version, hh.device, hkind, hknown, hone, hbody, hrequest, hresponse, hpublication,
      hb.deviceInfo, hb.status, hb.health, hb.error⟩

/-! ## Rows -/

/-- The header cells in order. -/
abbrev Header := Option UInt32 × Option Int × Option (HString 32) × Option (HString 16) ×
  Option (HString 16) × Option UInt32 × Option UInt32 × Option UInt32 × Unit

def Header.envelope : Header → Model.Envelope
  | (protocolVersion, kind, deviceId, bootId, clientSession, requestId, sequence, uptimeMs, _) =>
    { protocolVersion, kind, deviceId, bootId, clientSession, requestId, sequence, uptimeMs }

/-- The values of the common columns. -/
def commonValues (m : Model.Envelope) : List (Option (Scalar Bytes)) :=
  [m.protocolVersion.map fun v => .int v.toNat, m.kind.map .int, m.deviceId.map fun v => .str v.bytes,
    m.bootId.map fun v => .str v.bytes, m.clientSession.map fun v => .str v.bytes,
    m.requestId.map fun v => .int v.toNat, m.sequence.map fun v => .int v.toNat,
    m.uptimeMs.map fun v => .int v.toNat]

def deviceInfoValues (b : Model.DeviceInfo) : List (Option (Scalar Bytes)) :=
  [b.firmwareVersion.map fun v => .str v.bytes, b.encoding.map .int]

def statusValues (b : Model.Status) : List (Option (Scalar Bytes)) :=
  [b.temperatureCelsius.map fun f => .float (some f), b.validity.map .int, b.synthetic.map .bool]

def healthValues (b : Model.Health) : List (Option (Scalar Bytes)) :=
  [b.state.map .int, b.receivedRequests.map fun v => .int v.toNat,
    b.rejectedDatagrams.map fun v => .int v.toNat, b.sendErrors.map fun v => .int v.toNat,
    b.skippedPublications.map fun v => .int v.toNat]

def errorValues (b : Model.Error) : List (Option (Scalar Bytes)) := [b.code.map .int]

/-- The present columns of a row of values. -/
def present (keys : List Key) (vals : List (Option (Scalar Bytes))) : Dict (Scalar Bytes) :=
  (keys.zip vals).filterMap fun (key, v) => v.map (key, ·)

/-- A body of a message, if it is there. -/
def bodyEntry {α : Type} (key : Key) (values : α → List (Option (Scalar Bytes))) (b : Option α) :
    Message Bytes :=
  (b.map fun b => (key, .message (present (bodyCsvColumns key) (values b)))).toList

/-- The message that an envelope is to Python. -/
def ofEnvelope (m : Model.Envelope) : Message Bytes :=
  scalars (present commonCsvColumns (commonValues m)) ++
    (bodyEntry .getDeviceInfo (fun _ => []) m.getDeviceInfo ++ bodyEntry .getStatus (fun _ => []) m.getStatus ++
      bodyEntry .getHealth (fun _ => []) m.getHealth ++ bodyEntry .deviceInfo deviceInfoValues m.deviceInfo ++
      bodyEntry .status statusValues m.status ++ bodyEntry .health healthValues m.health ++
      bodyEntry .error errorValues m.error)

theorem SameRow.encode {p : Key → Option (Scalar PyStr)} {keys : List Key} {row : List PyStr}
    {vals : List (Option (Scalar Bytes))} (hrow : keys.length ≤ row.length) (hvals : vals.length = keys.length)
    (h : SameRow p keys row vals) :
    (columns keys p).map (fun (key, v) => (key, v.encode)) = present keys vals := by
  induction keys generalizing row vals with
  | nil => rfl
  | cons key keys ih =>
    cases row with
    | nil => exact absurd hrow (Nat.not_succ_le_zero _)
    | cons t row => cases vals with
      | nil => cases hvals
      | cons v vals =>
        have ih := ih (Nat.le_of_succ_le_succ hrow) (Nat.succ.inj hvals) h.2
        rw [columns_cons, List.map_append, ih, ← h.1.encode]
        cases hp : p key <;> simp [present]

theorem encode_messageOf (d : Dict (Scalar PyStr)) (body : Key) (fields : Dict (Scalar PyStr)) :
    Message.encode (messageOf d body fields) =
      messageOf (d.map fun (key, v) => (key, v.encode)) body (fields.map fun (key, v) => (key, v.encode)) := by
  simp only [Message.encode, messageOf, scalars, List.map_append, List.map_map]
  rfl

/-- The header cells of a row. -/
def readHeader (t0 t1 t2 t3 t4 t5 t6 t7 : Bytes) : Except CodecError Header :=
  both (cell u32Cell t0) <| both (cell i32Cell t1) <| both (cell (stringCell 32) t2) <|
    both (cell (stringCell 16) t3) <| both (cell (stringCell 16) t4) <| both (cell u32Cell t5) <|
      both (cell u32Cell t6) <| both (cell u32Cell t7) <| .ok ()

theorem fromCells_eq (lib : FloatText) (c0 c1 c2 c3 c4 c5 c6 c7 : Text) (body : List Text) :
    Csv.fromCells lib (c0 :: c1 :: c2 :: c3 :: c4 :: c5 :: c6 :: c7 :: body) = (do
      let header ← readHeader c0.bytes c1.bytes c2.bytes c3.bytes c4.bytes c5.bytes c6.bytes c7.bytes
      Csv.fromBody lib header.envelope body) := by
  simp only [Csv.fromCells, readHeader, both, bind_assoc, except_ok_bind]
  rfl

theorem header_agrees {t0 t1 t2 t3 t4 t5 t6 t7 : PyStr} {rest : List PyStr}
    (ht : ∀ t ∈ t0 :: t1 :: t2 :: t3 :: t4 :: t5 :: t6 :: t7 :: rest, IsText t) (lib : PyFloat) :
    AgreeRow commonCsvColumns (t0 :: t1 :: t2 :: t3 :: t4 :: t5 :: t6 :: t7 :: rest)
      (readHeader t0.encode t1.encode t2.encode t3.encode t4.encode t5.encode t6.encode t7.encode)
      (fun r => commonValues r.envelope)
      (shapedColumns lib .envelope commonCsvColumns (t0 :: t1 :: t2 :: t3 :: t4 :: t5 :: t6 :: t7 :: rest)) := by
  simp only [List.mem_cons, forall_eq_or_imp] at ht
  obtain ⟨h0, h1, h2, h3, h4, h5, h6, h7, -⟩ := ht
  exact .cons rfl (by decide) (u32_agrees h0 lib) <| .cons rfl (by decide) (i32_agrees h1 lib) <|
    .cons rfl (by decide) (string_agrees h2 lib) <| .cons rfl (by decide) (string_agrees h3 lib) <|
    .cons rfl (by decide) (string_agrees h4 lib) <| .cons rfl (by decide) (u32_agrees h5 lib) <|
    .cons rfl (by decide) (u32_agrees h6 lib) <| .cons rfl (by decide) (u32_agrees h7 lib) <| .nil _ _ _

theorem isSome_eq_isNone {α : Type} (v : Option α) : (!v.isSome) = v.isNone := by
  cases v <;> rfl

/-- The rules about the header are the same where the fields are. -/
theorem header_iff {p : Key → Option (Scalar PyStr)} {m : Model.Envelope}
    (hver : isInt (p .protocolVersion) 1 = (m.protocolVersion == some 1))
    (hdev : PyCodec.matches32 isDeviceChar (p .deviceId) = deviceIdValid m.deviceId)
    (hboot : session (p .bootId) = nonce m.bootId) (hclient : session (p .clientSession) = nonce m.clientSession)
    (hzero : isInt (p .requestId) 0 = (m.requestId == some 0))
    (h3 : (p .bootId).isSome = m.bootId.isSome) (h4 : (p .clientSession).isSome = m.clientSession.isSome)
    (h5 : (p .requestId).isSome = m.requestId.isSome) (h6 : (p .sequence).isSome = m.sequence.isSome)
    (h7 : (p .uptimeMs).isSome = m.uptimeMs.isSome) (kind : Int) : HeaderRules p kind ↔ EnvelopeRules m kind := by
  have hid : ((p .requestId).isSome && !isInt (p .requestId) 0) = m.requestId.any (· != 0) := by
    rw [h5, hzero]
    cases m.requestId <;> rfl
  have hsender : (if kind = 1 ∨ kind = 2 ∨ kind = 3 then
      !(p .bootId).isSome && !(p .sequence).isSome && !(p .uptimeMs).isSome
      else session (p .bootId) && (p .uptimeMs).isSome) =
      if kind = 1 ∨ kind = 2 ∨ kind = 3 then m.bootId.isNone && m.sequence.isNone && m.uptimeMs.isNone
      else nonce m.bootId && m.uptimeMs.isSome := by
    rw [h3, h6, h7, hboot]
    simp only [isSome_eq_isNone]
  have hreceiver : (if kind = 21 ∨ kind = 22 then
      (p .sequence).isSome && !(p .clientSession).isSome && !(p .requestId).isSome
      else session (p .clientSession) && ((p .requestId).isSome && !isInt (p .requestId) 0) &&
        !(p .sequence).isSome) =
      if kind = 21 ∨ kind = 22 then m.sequence.isSome && m.clientSession.isNone && m.requestId.isNone
      else nonce m.clientSession && m.requestId.any (· != 0) && m.sequence.isNone := by
    rw [hid, h6, h4, h5, hclient]
    simp only [isSome_eq_isNone]
  constructor
  · rintro ⟨h1, h2, h3, h4⟩
    exact ⟨by rwa [hver, beq_iff_eq] at h1, hdev ▸ h2, hsender ▸ h3, hreceiver ▸ h4⟩
  · rintro ⟨h1, h2, h3, h4⟩
    exact ⟨by rw [hver, beq_iff_eq, h1], hdev ▸ h2, hsender ▸ h3, hreceiver ▸ h4⟩

theorem header_rules {p : Key → Option (Scalar PyStr)} {t0 t1 t2 t3 t4 t5 t6 t7 : PyStr} {rest : List PyStr}
    (ht : ∀ t ∈ t0 :: t1 :: t2 :: t3 :: t4 :: t5 :: t6 :: t7 :: rest, IsText t) {m : Model.Envelope}
    (h : SameRow p commonCsvColumns (t0 :: t1 :: t2 :: t3 :: t4 :: t5 :: t6 :: t7 :: rest) (commonValues m))
    (kind : Int) : HeaderRules p kind ↔ EnvelopeRules m kind := by
  simp only [List.mem_cons, forall_eq_or_imp] at ht
  obtain ⟨-, -, ht2, ht3, ht4, -, -, -, -⟩ := ht
  obtain ⟨h0, -, h2, h3, h4, h5, h6, h7, -⟩ := h
  refine header_iff (h0.isInt_u32 1) (h2.matches32 ht2 fun b hb => isPrintable_ascii (isDeviceChar_printable hb))
    (h3.session ht3) (h4.session ht4) (h5.isInt_u32 0) ?_ ?_ ?_ ?_ ?_ kind
  · rw [h3.isSome, Option.isSome_map]
  · rw [h4.isSome, Option.isSome_map]
  · rw [h5.isSome, Option.isSome_map]
  · rw [h6.isSome, Option.isSome_map]
  · rw [h7.isSome, Option.isSome_map]

/-! ## Bodies -/

theorem AgreeRow.map {R R' : Type} {keys : List Key} {row : List PyStr} {rust : Except CodecError R}
    {rust' : Except CodecError R'} {vals : R → List (Option (Scalar Bytes))}
    {vals' : R' → List (Option (Scalar Bytes))} {py : Option (Dict (Scalar PyStr))}
    (h : AgreeRow keys row rust vals py) {f : R → R'} (hrust : rust' = rust >>= fun r => .ok (f r))
    (hvals : ∀ r, vals' (f r) = vals r) : AgreeRow keys row rust' vals' py := by
  subst hrust
  constructor
  · intro hfails
    exact h.fails fun r hr => hfails (f r) (by rw [hr]; rfl)
  · intro r' hr'
    obtain ⟨r, hr, he⟩ := except_bind_ok.1 hr'
    cases he
    rw [hvals]
    exact h.value r hr

theorem deviceInfo_agrees {t8 t9 : PyStr} (h8 : IsText t8) (h9 : IsText t9) {c8 c9 : Text}
    (hc8 : c8.bytes = t8.encode) (hc9 : c9.bytes = t9.encode) (lib : PyFloat) :
    AgreeRow (bodyCsvColumns .deviceInfo) [t8, t9] (Csv.deviceInfoOf [c8, c9]) deviceInfoValues
      (shapedColumns lib .deviceInfo (bodyCsvColumns .deviceInfo) [t8, t9]) := by
  refine AgreeRow.map (f := fun r => (⟨r.1, r.2.1⟩ : Model.DeviceInfo))
    (.cons rfl (by decide) (string_agrees h8 lib) <| .cons rfl (by decide) (i32_agrees h9 lib) <| .nil _ _ _)
    ?_ fun r => rfl
  simp only [Csv.deviceInfoOf, both, bind_assoc, except_ok_bind, hc8, hc9]

theorem health_agrees {t8 t9 t10 t11 t12 : PyStr} (h8 : IsText t8) (h9 : IsText t9) (h10 : IsText t10)
    (h11 : IsText t11) (h12 : IsText t12) {c8 c9 c10 c11 c12 : Text} (hc8 : c8.bytes = t8.encode)
    (hc9 : c9.bytes = t9.encode) (hc10 : c10.bytes = t10.encode) (hc11 : c11.bytes = t11.encode)
    (hc12 : c12.bytes = t12.encode) (lib : PyFloat) :
    AgreeRow (bodyCsvColumns .health) [t8, t9, t10, t11, t12] (Csv.healthOf [c8, c9, c10, c11, c12]) healthValues
      (shapedColumns lib .health (bodyCsvColumns .health) [t8, t9, t10, t11, t12]) := by
  refine AgreeRow.map (f := fun r => (⟨r.1, r.2.1, r.2.2.1, r.2.2.2.1, r.2.2.2.2.1⟩ : Model.Health))
    (.cons rfl (by decide) (i32_agrees h8 lib) <| .cons rfl (by decide) (u32_agrees h9 lib) <|
      .cons rfl (by decide) (u32_agrees h10 lib) <| .cons rfl (by decide) (u32_agrees h11 lib) <|
      .cons rfl (by decide) (u32_agrees h12 lib) <| .nil _ _ _) ?_ fun r => rfl
  simp only [Csv.healthOf, both, bind_assoc, except_ok_bind, hc8, hc9, hc10, hc11, hc12]

theorem error_agrees {t8 : PyStr} (h8 : IsText t8) {c8 : Text} (hc8 : c8.bytes = t8.encode) (lib : PyFloat) :
    AgreeRow (bodyCsvColumns .error) [t8] (Csv.errorOf [c8]) errorValues
      (shapedColumns lib .error (bodyCsvColumns .error) [t8]) := by
  refine AgreeRow.map (f := fun r => (⟨r.1⟩ : Model.Error))
    (.cons rfl (by decide) (i32_agrees h8 lib) <| .nil _ _ _) ?_ fun r => rfl
  simp only [Csv.errorOf, both, bind_assoc, except_ok_bind, hc8]

theorem lookup_body {V : Type} {keys : List Key} {p : Key → Option V} {key : Key} (h : key ∈ keys) :
    (columns keys p).lookup key = p key := by
  rw [lookup_columns, if_pos h]

theorem deviceInfo_rules {q : Key → Option (Scalar PyStr)} {t8 t9 : PyStr} (h8 : IsText t8)
    {b : Model.DeviceInfo} (h : SameRow q (bodyCsvColumns .deviceInfo) [t8, t9] (deviceInfoValues b)) :
    bodyRules .deviceInfo (columns (bodyCsvColumns .deviceInfo) q) = Validation.deviceInfoValid b .csv := by
  obtain ⟨s8, s9, -⟩ := h
  have henc : isInt (q .encoding) (formats .csv) = (b.encoding == some (Format.id .csv)) := s9.isInt_i32 1
  have hfw : PyCodec.matches32 PyCodec.isPrintable (q .firmwareVersion) = b.firmwareVersion.any fun v =>
      !v.bytes.isEmpty && v.bytes.all Validation.isPrintable :=
    s8.matches32 h8 fun b hb => isPrintable_ascii hb
  rw [bodyRules, deviceInfoRules, lookup_body (by decide), lookup_body (by decide), henc, hfw]
  rfl

theorem health_rules {q : Key → Option (Scalar PyStr)} {t8 t9 t10 t11 t12 : PyStr} {b : Model.Health}
    (h : SameRow q (bodyCsvColumns .health) [t8, t9, t10, t11, t12] (healthValues b)) :
    bodyRules .health (columns (bodyCsvColumns .health) q) = Validation.healthValid b := by
  obtain ⟨s8, s9, s10, s11, s12, -⟩ := h
  have hhas : ∀ key ∈ bodyCsvColumns .health, has (columns (bodyCsvColumns .health) q) key = (q key).isSome := by
    intro key hkey
    rw [has, lookup_body hkey]
  have h1 : isInt (q .state) 1 = (b.state == some 1) := s8.isInt_i32 1
  have h2 : isInt (q .state) 2 = (b.state == some 2) := s8.isInt_i32 2
  have hall : healthRules (columns (bodyCsvColumns .health) q) =
      ((b.state.isSome && (b.receivedRequests.isSome && (b.rejectedDatagrams.isSome && (b.sendErrors.isSome &&
        b.skippedPublications.isSome)))) && (isInt (q .state) 1 || isInt (q .state) 2)) := by
    simp only [healthRules, lookup_body (show Key.state ∈ bodyCsvColumns .health by decide), shapes,
      List.all_cons, List.all_nil, hhas _ (show Key.state ∈ bodyCsvColumns .health by decide),
      hhas _ (show Key.receivedRequests ∈ bodyCsvColumns .health by decide),
      hhas _ (show Key.rejectedDatagrams ∈ bodyCsvColumns .health by decide),
      hhas _ (show Key.sendErrors ∈ bodyCsvColumns .health by decide),
      hhas _ (show Key.skippedPublications ∈ bodyCsvColumns .health by decide), s8.isSome, s9.isSome, s10.isSome,
      s11.isSome, s12.isSome, Option.isSome_map, Bool.and_true]
  rw [bodyRules, hall, h1, h2, Validation.healthValid, Bool.eq_iff_iff]
  simp only [Bool.and_eq_true, Bool.or_eq_true, beq_iff_eq]
  constructor
  · rintro ⟨⟨-, h1, h2, h3, h4⟩, hs⟩
    exact ⟨⟨⟨⟨hs, h1⟩, h2⟩, h3⟩, h4⟩
  · rintro ⟨⟨⟨⟨hs, h1⟩, h2⟩, h3⟩, h4⟩
    refine ⟨⟨?_, h1, h2, h3, h4⟩, hs⟩
    rcases hs with hs | hs <;> rw [hs] <;> rfl

theorem error_rules {q : Key → Option (Scalar PyStr)} {t8 : PyStr} {b : Model.Error}
    (h : SameRow q (bodyCsvColumns .error) [t8] (errorValues b)) :
    bodyRules .error (columns (bodyCsvColumns .error) q) = (b.code == some 1 || b.code == some 2) := by
  have h1 : isInt (q .code) 1 = (b.code == some 1) := h.1.isInt_i32 1
  have h2 : isInt (q .code) 2 = (b.code == some 2) := h.1.isInt_i32 2
  rw [bodyRules, errorRules, lookup_body (by decide), h1, h2]

/-! ## A row in Python -/

theorem shapedColumns_eq_some {lib : PyFloat} {name : Shape} (hn : ∀ key f, field name key = some f → f.type ≠ 2)
    {keys : List Key} {row : List PyStr} {d : Dict (Scalar PyStr)}
    (h : shapedColumns lib name keys row = some d) :
    csvColumns lib name keys row = .ok d ∧ shapeBody lib name d = .ok d := by
  unfold shapedColumns at h
  cases hc : csvColumns lib name keys row with
  | error e => rw [hc] at h; cases h
  | ok d' =>
    rw [hc] at h
    cases hs : shapeBody lib name d' with
    | error e => simp [Except.toOption, hs] at h
    | ok d'' =>
      cases shapeBody_same hn hs
      simp only [Except.toOption, hs, Option.bind_eq_bind, Option.bind_some, Option.some.injEq] at h
      rw [← h]
      exact ⟨rfl, hs⟩

theorem shapedColumns_eq_none {lib : PyFloat} {name : Shape} {keys : List Key} {row : List PyStr}
    (h : shapedColumns lib name keys row = none) {d : Dict (Scalar PyStr)}
    (hc : csvColumns lib name keys row = .ok d) (d' : Dict (Scalar PyStr)) : shapeBody lib name d ≠ .ok d' := by
  intro hs
  simp [shapedColumns, hc, hs, Except.toOption] at h

theorem bodies_message {body : Key} {f : PyCodec.Field} {name : Shape} (hf : field .envelope body = some f)
    (hm : f.message = some name) : body ∈ bodies := by
  cases body <;> cases hf <;> cases hm <;> decide

/-- A message is its header's columns and its body's. -/
theorem decodeRow_ok_iff {lib : PyFloat} {row : List PyStr} {p : Key → Option (Scalar PyStr)}
    (hlen : 8 ≤ row.length)
    (hheader : shapedColumns lib .envelope commonCsvColumns row = some (columns commonCsvColumns p))
    {kind : Int} (hkind : p .kind = some (.int kind)) {body : Key} (hk : kindBody.lookup kind = some body)
    {f : PyCodec.Field} {name : Shape} (hf : field .envelope body = some f) (hm : f.message = some name)
    (hn : ∀ key f, field name key = some f → f.type ≠ 2) {m : Message PyStr} :
    decodeRow lib row = .ok m ↔ row.length = 8 + (bodyCsvColumns body).length ∧
      ∃ fields, shapedColumns lib name (bodyCsvColumns body) (row.drop 8) = some fields ∧
        m = messageOf (columns commonCsvColumns p) body fields ∧ HeaderRules p kind ∧
        bodyRules body fields = true := by
  obtain ⟨hcommon, hshape⟩ := shapedColumns_eq_some (fun key f hf => (envelope_message hf).2) hheader
  have hlookup : (columns commonCsvColumns p).lookup .kind = some (.int kind) := by
    rw [lookup_body (by decide), hkind]
  have hmem := bodies_message hf hm
  have h8 : commonCsvColumns.length = 8 := rfl
  have hdecode : decodeRow lib row = (do
      requireOr .decode (row.length = 8 + (bodyCsvColumns body).length)
      let fields ← csvColumns lib name (bodyCsvColumns body) (row.drop 8)
      validate lib (messageOf (columns commonCsvColumns p) body fields) .csv) := by
    obtain ⟨type, message, capacity⟩ := f
    cases hm
    unfold decodeRow
    rw [h8, requireOr_bind, if_pos (decide_eq_true hlen), hcommon, except_ok_bind]
    simp only [hlookup, hk, hf]
    rfl
  rw [hdecode, requireOr_bind]
  by_cases hl : row.length = 8 + (bodyCsvColumns body).length
  · rw [if_pos (decide_eq_true hl)]
    have hmsg := fun fields => shape_message lib (columns commonCsvColumns p) hf hm fields
    cases hs : shapedColumns lib name (bodyCsvColumns body) (row.drop 8) with
    | some fields =>
      obtain ⟨hc, hb⟩ := shapedColumns_eq_some hn hs
      have hshaped : shape lib (messageOf (columns commonCsvColumns p) body fields) =
          .ok (messageOf (columns commonCsvColumns p) body fields) := by
        rw [messageOf, hmsg, hshape, except_ok_bind, hb, except_ok_bind]
      rw [hc, except_ok_bind, validate_messageOf hmem hkind hk hshaped]
      constructor
      · exact fun h => ⟨hl, fields, rfl, h⟩
      · rintro ⟨-, fields', he, h⟩
        cases he
        exact h
    | none =>
      refine ⟨fun h => ?_, fun ⟨_, fields, he, _⟩ => by cases he⟩
      obtain ⟨fields, hc, hv⟩ := except_bind_ok.1 h
      rw [validate] at hv
      obtain ⟨m', hsh, -⟩ := except_bind_ok.1 hv
      rw [messageOf, hmsg, hshape, except_ok_bind] at hsh
      obtain ⟨fields', hb, -⟩ := except_bind_ok.1 hsh
      exact absurd hb (shapedColumns_eq_none hs hc fields')
  · rw [if_neg (by simpa using hl)]
    exact ⟨(fun h => by cases h), fun h => absurd h.1 hl⟩

/-- Without a header there is no message. -/
theorem decodeRow_header {lib : PyFloat} {row : List PyStr} {m : Message PyStr} (h : decodeRow lib row = .ok m) :
    8 ≤ row.length ∧ ∃ d kind body, shapedColumns lib .envelope commonCsvColumns row = some d ∧
      d.lookup .kind = some (.int kind) ∧ kindBody.lookup kind = some body := by
  unfold decodeRow at h
  rw [requireOr_bind] at h
  split at h
  · rename_i hlen
    obtain ⟨common, hc, h⟩ := except_bind_ok.1 h
    split at h
    · rename_i kind hkind
      split at h
      · cases h
      · rename_i body hbody
        obtain ⟨-, -, h⟩ := except_bind_ok.1 h
        split at h
        · rename_i type name capacity hf
          obtain ⟨fields, -, h⟩ := except_bind_ok.1 h
          rw [validate] at h
          obtain ⟨m', hs, -⟩ := except_bind_ok.1 h
          have hmsg := shape_message lib common hf rfl fields
          obtain ⟨d, hd, -⟩ := except_bind_ok.1 (hmsg.symm.trans hs)
          refine ⟨of_decide_eq_true hlen, d, kind, body, ?_, ?_, hbody⟩
          · simp only [shapedColumns, hc, Except.toOption, Option.bind_eq_bind, Option.bind_some, hd]
          · rw [shapeBody_same (fun key f hf => (envelope_message hf).2) hd]
            exact hkind
        · cases h
    · cases h
  · cases h

/-! ## The same row -/

/-- The two results are the same message, or neither is one. -/
def Peers (rust : Except CodecError Model.Envelope) (py : Except CodecError (Message PyStr)) : Prop :=
  rust.toOption.map ofEnvelope = py.toOption.map Message.encode

theorem Peers.of {rust : Except CodecError Model.Envelope} {py : Except CodecError (Message PyStr)}
    (h : ∀ m, rust = .ok m → ∃ m', py = .ok m' ∧ m'.encode = ofEnvelope m)
    (hpy : ∀ m', py = .ok m' → ∃ m, rust = .ok m) : Peers rust py := by
  unfold Peers
  cases hr : rust with
  | ok m =>
    obtain ⟨m', hm', he⟩ := h m hr
    rw [hm']
    exact congrArg some he.symm
  | error e => cases hp : py with
    | error e => rfl
    | ok m' =>
      obtain ⟨m, hm⟩ := hpy m' hp
      rw [hr] at hm
      cases hm

theorem Peers.none {rust : Except CodecError Model.Envelope} {py : Except CodecError (Message PyStr)}
    (h : ∀ m, rust ≠ .ok m) (hpy : ∀ m', py ≠ .ok m') : Peers rust py :=
  .of (fun m hm => absurd hm (h m)) fun m' hm' => absurd hm' (hpy m')

/-- `validate` after a decoder. -/
def validated (m : Model.Envelope) : Except CodecError Model.Envelope := do
  Validation.validate m .csv
  .ok m

theorem validated_ok {m m' : Model.Envelope} :
    validated m = .ok m' ↔ m' = m ∧ Validation.validate m .csv = .ok () := by
  unfold validated
  rw [except_bind_ok]
  constructor
  · rintro ⟨_, hv, h⟩
    exact ⟨(Except.ok.inj h).symm, hv⟩
  · rintro ⟨rfl, hv⟩
    exact ⟨(), hv, rfl⟩

/-- A row whose header is the same to both, and whose body is. -/
theorem body_peers {R : Type} {lib : PyFloat} {row : List PyStr} {p : Key → Option (Scalar PyStr)}
    (hlen : 8 ≤ row.length) {h : Model.Envelope} (hrow : SameRow p commonCsvColumns row (commonValues h))
    (hheader : shapedColumns lib .envelope commonCsvColumns row = some (columns commonCsvColumns p))
    {kind : Int} (hkind : p .kind = some (.int kind)) {body : Key} (hk : kindBody.lookup kind = some body)
    {f : PyCodec.Field} {name : Shape} (hf : field .envelope body = some f) (hm : f.message = some name)
    (hn : ∀ key f, field name key = some f → f.type ≠ 2)
    {rust : Except CodecError Model.Envelope} {readBody : Except CodecError R} {set : R → Model.Envelope}
    {vals : R → List (Option (Scalar Bytes))}
    (hrust : rust = readBody >>= fun r => .ok (set r))
    (hfits : row.length ≠ 8 + (bodyCsvColumns body).length → ∀ r, readBody ≠ .ok r)
    (hbody : row.length = 8 + (bodyCsvColumns body).length → AgreeRow (bodyCsvColumns body) (row.drop 8) readBody
      vals (shapedColumns lib name (bodyCsvColumns body) (row.drop 8)))
    (hrules : row.length = 8 + (bodyCsvColumns body).length → ∀ r q,
      SameRow q (bodyCsvColumns body) (row.drop 8) (vals r) → (Validation.validate (set r) .csv = .ok () ↔
        HeaderRules p kind ∧ bodyRules body (columns (bodyCsvColumns body) q) = true))
    (hof : ∀ r, ofEnvelope (set r) =
      messageOf (present commonCsvColumns (commonValues h)) body (present (bodyCsvColumns body) (vals r)))
    (hvals : ∀ r, (vals r).length = (bodyCsvColumns body).length) :
    Peers (rust >>= validated) (decodeRow lib row) := by
  have hdec := @decodeRow_ok_iff lib row p hlen hheader kind hkind body hk f name hf hm hn
  have hok : ∀ m, rust >>= validated = .ok m ↔ ∃ r, readBody = .ok r ∧ m = set r ∧
      Validation.validate (set r) .csv = .ok () := by
    intro m
    rw [hrust]
    constructor
    · intro hm
      obtain ⟨m', h1, h2⟩ := except_bind_ok.1 hm
      obtain ⟨r, hr, h1⟩ := except_bind_ok.1 h1
      cases h1
      obtain ⟨rfl, hv⟩ := validated_ok.1 h2
      exact ⟨r, hr, rfl, hv⟩
    · rintro ⟨r, hr, rfl, hv⟩
      rw [hr]
      exact validated_ok.2 ⟨rfl, hv⟩
  by_cases hl : row.length = 8 + (bodyCsvColumns body).length
  · have hagree := hbody hl
    refine .of (fun m hm => ?_) fun m' hm' => ?_
    · obtain ⟨r, hr, rfl, hv⟩ := (hok m).1 hm
      obtain ⟨q, hq, hsame⟩ := hagree.value r hr
      obtain ⟨hheaderRules, hbodyRules⟩ := (hrules hl r q hsame).1 hv
      refine ⟨_, hdec.2 ⟨hl, _, hq, rfl, hheaderRules, hbodyRules⟩, ?_⟩
      have hrest : (bodyCsvColumns body).length ≤ (row.drop 8).length := by
        rw [List.length_drop]
        omega
      have hcommon : commonCsvColumns.length ≤ row.length := hlen
      rw [encode_messageOf, hrow.encode hcommon rfl, hsame.encode hrest (hvals r), hof]
    · obtain ⟨-, fields, hfields, -, hheaderRules, hbodyRules⟩ := hdec.1 hm'
      cases hread : readBody with
      | error e =>
        rw [hagree.fails fun r hr => by rw [hread] at hr; cases hr] at hfields
        cases hfields
      | ok r =>
        obtain ⟨q, hq, hsame⟩ := hagree.value r hread
        cases hq.symm.trans hfields
        exact ⟨set r, (hok _).2 ⟨r, hread, rfl, (hrules hl r q hsame).2 ⟨hheaderRules, hbodyRules⟩⟩⟩
  · refine .none (fun m hm => ?_) fun m' hm' => hl (hdec.1 hm').1
    obtain ⟨r, hr, -⟩ := (hok m).1 hm
    exact hfits hl r hr

/-- Texts of a row without line and quotes, and the cells of the other side. -/
theorem texts_cons {c : Text} {cells : List Text} {t : PyStr} {row : List PyStr}
    (h : Csv.texts (c :: cells) = (t :: row).map PyStr.encode) :
    c.bytes = t.encode ∧ Csv.texts cells = row.map PyStr.encode := List.cons.inj h

theorem noCells_eq {α β : Type} (body : List β) (v : α) :
    Csv.noCells body v = Csv.noCells body () >>= fun _ => .ok v := by
  cases body <;> rfl

theorem noCells_ok {α β : Type} {body : List β} {v v' : α} : Csv.noCells body v = .ok v' → body = [] := by
  intro h
  cases body with
  | nil => rfl
  | cons b body => cases h

/-- The kinds of a known body. -/
theorem kindBody_lookup {kind : Int} {body : Key} (h : kindBody.lookup kind = some body) :
    kind = 1 ∨ kind = 2 ∨ kind = 3 ∨ kind = 11 ∨ kind = 12 ∨ kind = 13 ∨ kind = 14 ∨ kind = 21 ∨ kind = 22 := by
  obtain ⟨l₁, l₂, hl, -⟩ := List.lookup_eq_some_iff.1 h
  have hmem : (kind, body) ∈ kindBody := by
    rw [hl]
    simp
  simp only [kindBody, List.mem_cons, Prod.mk.injEq, List.not_mem_nil, or_false] at hmem
  omega

theorem fromBody_kind {float : FloatText} {h m : Model.Envelope} {cells : List Text}
    (hok : Csv.fromBody float h cells = .ok m) : ∃ kind body, h.kind = some kind ∧
      kindBody.lookup kind = some body := by
  unfold Csv.fromBody at hok
  cases hkind : h.kind with
  | none => simp [hkind] at hok
  | some kind =>
    refine ⟨kind, ?_⟩
    by_contra hno
    have hk : ∀ k : Int, (kindBody.lookup k).isSome = true → kind ≠ k := by
      rintro k hk rfl
      obtain ⟨body, hbody⟩ := Option.isSome_iff_exists.1 hk
      exact hno ⟨body, rfl, hbody⟩
    simp [hkind, hk 1 rfl, hk 2 rfl, hk 3 rfl, hk 11 rfl, hk 12 rfl, hk 13 rfl, hk 14 rfl, hk 21 rfl,
      hk 22 rfl] at hok

theorem EnvelopeBodyRules.none {m : Model.Envelope} (h1 : m.deviceInfo = none) (h2 : m.status = none)
    (h3 : m.health = none) (h4 : m.error = none) : EnvelopeBodyRules m :=
  ⟨by simp [h1], by simp [h2], by simp [h3], by simp [h4]⟩

/-- Both have read the header of a row, of a message of `kind`. -/
structure HeaderRead (lib : PyFloat) (row : List PyStr) (p : Key → Option (Scalar PyStr)) (h : Model.Envelope)
    (kind : Int) : Prop where
  length : 8 ≤ row.length
  isText : ∀ t ∈ row, IsText t
  same : SameRow p commonCsvColumns row (commonValues h)
  shaped : shapedColumns lib .envelope commonCsvColumns row = some (columns commonCsvColumns p)
  rules : ∀ m, commonValues m = commonValues h → (HeaderRules p kind ↔ EnvelopeRules m kind)
  bare : Csv.headerOf h = h
  hasKind : h.kind = some kind
  pyKind : p .kind = some (.int kind)

/-- `m` is `h` with the body of `kind`. -/
structure WithBody (h m : Model.Envelope) (kind : Int) : Prop where
  values : commonValues m = commonValues h
  hasKind : m.kind = h.kind
  known : (Validation.isRequest kind || Validation.isResponse kind || Validation.isPublication kind) = true
  one : Validation.bodies m = 1
  body : Validation.bodyMatches m kind = true

namespace HeaderRead

variable {lib : PyFloat} {row : List PyStr} {p : Key → Option (Scalar PyStr)} {h : Model.Envelope}
  {kind : Int} {cells : List Text} {float : FloatText}

theorem validate_iff (hr : HeaderRead lib row p h kind) {m : Model.Envelope} (hm : WithBody h m kind) {c : Prop}
    (hc : EnvelopeBodyRules m ↔ c) : Validation.validate m .csv = .ok () ↔ HeaderRules p kind ∧ c := by
  rw [Nucleo.validate_iff (hm.hasKind.trans hr.hasKind) hm.known hm.one hm.body, hr.rules m hm.values, hc]

theorem cells_length (hr : HeaderRead lib row p h kind)
    (hcells : Csv.texts cells = (row.drop 8).map PyStr.encode) : row.length = 8 + cells.length := by
  have hlen := congrArg List.length hcells
  have := hr.length
  rw [Csv.texts, List.length_map, List.length_map, List.length_drop] at hlen
  omega

/-- The body of a kind: the same cells, and the same rules. -/
theorem body {R : Type} (hr : HeaderRead lib row p h kind)
    (hcells : Csv.texts cells = (row.drop 8).map PyStr.encode) (body : Key)
    (readBody : Except CodecError R) (set : R → Model.Envelope) (vals : R → List (Option (Scalar Bytes)))
    (hk : kindBody.lookup kind = some body) {f : PyCodec.Field} {name : Shape}
    (hf : field .envelope body = some f) (hm : f.message = some name)
    (hn : ∀ key f, field name key = some f → f.type ≠ 2)
    (hrust : Csv.fromBody float h cells = readBody >>= fun r => .ok (set r))
    (hfits : ∀ r, readBody = .ok r → cells.length = (bodyCsvColumns body).length)
    (hbody : ∀ rest : List PyStr, Csv.texts cells = rest.map PyStr.encode → (∀ t ∈ rest, IsText t) →
      rest.length = (bodyCsvColumns body).length → cells.length = (bodyCsvColumns body).length →
        AgreeRow (bodyCsvColumns body) rest readBody vals
          (shapedColumns lib name (bodyCsvColumns body) rest) ∧
        ∀ r q, SameRow q (bodyCsvColumns body) rest (vals r) →
          (EnvelopeBodyRules (set r) ↔ bodyRules body (columns (bodyCsvColumns body) q) = true))
    (hset : ∀ r, WithBody h (set r) kind)
    (hof : ∀ r, ofEnvelope (set r) =
      messageOf (present commonCsvColumns (commonValues h)) body (present (bodyCsvColumns body) (vals r)))
    (hvals : ∀ r, (vals r).length = (bodyCsvColumns body).length) :
    Peers (Csv.fromBody float h cells >>= validated) (decodeRow lib row) := by
  have hlength := hr.cells_length hcells
  have htext : ∀ t ∈ row.drop 8, IsText t := fun t ht => hr.isText t (List.mem_of_mem_drop ht)
  have hrest : row.length = 8 + (bodyCsvColumns body).length →
      (row.drop 8).length = (bodyCsvColumns body).length := by
    intro hl
    rw [List.length_drop, hl]
    omega
  refine body_peers hr.length hr.same hr.shaped hr.pyKind hk hf hm hn hrust ?_ ?_ ?_ hof hvals
  · intro hl r hread
    exact hl (by rw [hlength, hfits r hread])
  · exact fun hl => (hbody _ hcells htext (hrest hl) (Nat.add_left_cancel (hlength.symm.trans hl))).1
  · exact fun hl r q hq => hr.validate_iff (hset r)
      ((hbody _ hcells htext (hrest hl) (Nat.add_left_cancel (hlength.symm.trans hl))).2 r q hq)

/-- The three requests, whose bodies have no cells. -/
theorem request (hr : HeaderRead lib row p h kind) (hcells : Csv.texts cells = (row.drop 8).map PyStr.encode)
    (body : Key) (hk : kindBody.lookup kind = some body)
    (hf : field .envelope body = some { type := 11, message := some .empty })
    (hcols : bodyCsvColumns body = []) (m : Model.Envelope)
    (hrust : Csv.fromBody float h cells = Csv.noCells cells m) (hset : WithBody h m kind)
    (hrules : EnvelopeBodyRules m) (hbody : ∀ fields, bodyRules body fields = true)
    (hof : ofEnvelope m = messageOf (present commonCsvColumns (commonValues h)) body []) :
    Peers (Csv.fromBody float h cells >>= validated) (decodeRow lib row) := by
  refine hr.body hcells body (Csv.noCells cells ()) (fun _ => m) (fun _ => []) hk hf rfl
    (by intro key f hf; cases hf) (by rw [hrust, noCells_eq]) ?_ ?_ (fun _ => hset) ?_ ?_
  · intro r hread
    rw [noCells_ok hread, hcols]
    rfl
  · intro rest _ _ _ hc
    rw [hcols] at hc ⊢
    rw [List.eq_nil_of_length_eq_zero hc]
    exact ⟨.nil lib .empty _, fun _ _ _ => ⟨fun _ => hbody _, fun _ => hrules⟩⟩
  · intro r
    rw [hcols, hof]
    rfl
  · intro r
    rw [hcols]
    rfl

theorem length_five {α : Type} {l : List α} (h : l.length = 5) : ∃ a b c d e, l = [a, b, c, d, e] := by
  rcases l with _ | ⟨a, _ | ⟨b, _ | ⟨c, _ | ⟨d, _ | ⟨e, _ | ⟨f, l⟩⟩⟩⟩⟩⟩ <;> simp at h ⊢

/-- A response with the device's information. -/
theorem info (hr : HeaderRead lib row p h kind) (hcells : Csv.texts cells = (row.drop 8).map PyStr.encode)
    (hk : kind = 11) : Peers (Csv.fromBody float h cells >>= validated) (decodeRow lib row) := by
  subst hk
  have hbare := hr.bare
  have hkind := hr.hasKind
  refine hr.body hcells .deviceInfo (Csv.deviceInfoOf cells) (fun b => { h with deviceInfo := some b })
    deviceInfoValues rfl rfl rfl ?_ ?_ ?_ ?_ ?_ ?_ fun _ => rfl
  · intro key f hf
    cases key <;> cases hf <;> decide
  · simp [Csv.fromBody, hkind]
  · intro b hb
    unfold Csv.deviceInfoOf at hb
    split at hb
    · rfl
    · cases hb
  · intro rest hcells htext hl hc
    obtain ⟨t8, t9, rfl⟩ := List.length_eq_two.1 hl
    obtain ⟨c8, c9, rfl⟩ := List.length_eq_two.1 hc
    obtain ⟨e8, hcells⟩ := texts_cons hcells
    obtain ⟨e9, -⟩ := texts_cons hcells
    refine ⟨deviceInfo_agrees (htext t8 (by simp)) (htext t9 (by simp)) e8 e9 lib, fun b q hq => ?_⟩
    rw [deviceInfo_rules (htext t8 (by simp)) hq, ← hbare]
    refine ⟨fun hb => hb.deviceInfo b rfl, fun hv => ⟨fun info hi => ?_, ?_, ?_, ?_⟩⟩
    · cases hi
      exact hv
    all_goals
      intro _ hi
      cases hi
  · intro b
    rw [← hbare]
    exact ⟨rfl, rfl, rfl, rfl, rfl⟩
  · intro b
    rw [← hbare]
    rfl

/-- Health, as a response or a publication. -/
theorem health (hr : HeaderRead lib row p h kind) (hcells : Csv.texts cells = (row.drop 8).map PyStr.encode)
    (hk : kind = 13 ∨ kind = 22) : Peers (Csv.fromBody float h cells >>= validated) (decodeRow lib row) := by
  have hbare := hr.bare
  have hkind := hr.hasKind
  refine hr.body hcells .health (Csv.healthOf cells) (fun b => { h with health := some b })
    healthValues ?_ rfl rfl ?_ ?_ ?_ ?_ ?_ ?_ fun _ => rfl
  · rcases hk with rfl | rfl <;> rfl
  · intro key f hf
    cases key <;> cases hf <;> decide
  · rcases hk with rfl | rfl <;> simp [Csv.fromBody, hkind]
  · intro b hb
    unfold Csv.healthOf at hb
    split at hb
    · rfl
    · cases hb
  · intro rest hcells htext hl hc
    obtain ⟨t8, t9, t10, t11, t12, rfl⟩ := length_five hl
    obtain ⟨c8, c9, c10, c11, c12, rfl⟩ := length_five hc
    obtain ⟨e8, hcells⟩ := texts_cons hcells
    obtain ⟨e9, hcells⟩ := texts_cons hcells
    obtain ⟨e10, hcells⟩ := texts_cons hcells
    obtain ⟨e11, hcells⟩ := texts_cons hcells
    obtain ⟨e12, -⟩ := texts_cons hcells
    refine ⟨health_agrees (htext t8 (by simp)) (htext t9 (by simp)) (htext t10 (by simp)) (htext t11 (by simp))
      (htext t12 (by simp)) e8 e9 e10 e11 e12 lib, fun b q hq => ?_⟩
    rw [health_rules hq, ← hbare]
    refine ⟨fun hb => hb.health b rfl, fun hv => ⟨?_, ?_, fun b hb => ?_, ?_⟩⟩
    on_goal 3 =>
      cases hb
      exact hv
    all_goals
      intro _ hi
      cases hi
  · intro b
    rw [← hbare]
    rcases hk with rfl | rfl <;> exact ⟨rfl, rfl, rfl, rfl, rfl⟩
  · intro b
    rw [← hbare]
    rfl

/-- An error response. -/
theorem error (hr : HeaderRead lib row p h kind) (hcells : Csv.texts cells = (row.drop 8).map PyStr.encode)
    (hk : kind = 14) : Peers (Csv.fromBody float h cells >>= validated) (decodeRow lib row) := by
  subst hk
  have hbare := hr.bare
  have hkind := hr.hasKind
  refine hr.body hcells .error (Csv.errorOf cells) (fun b => { h with error := some b })
    errorValues rfl rfl rfl ?_ ?_ ?_ ?_ ?_ ?_ fun _ => rfl
  · intro key f hf
    cases key <;> cases hf
    decide
  · simp [Csv.fromBody, hkind]
  · intro b hb
    unfold Csv.errorOf at hb
    split at hb
    · rfl
    · cases hb
  · intro rest hcells htext hl hc
    obtain ⟨t8, rfl⟩ := List.length_eq_one_iff.1 hl
    obtain ⟨c8, rfl⟩ := List.length_eq_one_iff.1 hc
    obtain ⟨e8, -⟩ := texts_cons hcells
    refine ⟨error_agrees (htext t8 (by simp)) e8 lib, fun b q hq => ?_⟩
    rw [error_rules hq, ← hbare]
    refine ⟨fun hb => hb.error b rfl, fun hv => ⟨?_, ?_, ?_, fun e he => ?_⟩⟩
    on_goal 4 =>
      cases he
      exact hv
    all_goals
      intro _ hi
      cases hi
  · intro b
    rw [← hbare]
    exact ⟨rfl, rfl, rfl, rfl, rfl⟩
  · intro b
    rw [← hbare]
    rfl

/-- A header of any kind but a status. -/
theorem peers (hr : HeaderRead lib row p h kind) (hcells : Csv.texts cells = (row.drop 8).map PyStr.encode)
    (h12 : kind ≠ 12) (h21 : kind ≠ 21) :
    Peers (Csv.fromBody float h cells >>= validated) (decodeRow lib row) := by
  have hbare := hr.bare
  have hkind := hr.hasKind
  cases hlookup : kindBody.lookup kind with
  | none =>
    refine .none (fun m hm => ?_) fun m' hm' => ?_
    · obtain ⟨m', hm, -⟩ := except_bind_ok.1 hm
      obtain ⟨kind', body', hkind', hb⟩ := fromBody_kind hm
      cases hkind.symm.trans hkind'
      rw [hlookup] at hb
      cases hb
    · obtain ⟨-, d, kind', body', hd, hkind', hb⟩ := decodeRow_header hm'
      cases hr.shaped.symm.trans hd
      rw [lookup_body (by decide), hr.pyKind] at hkind'
      cases hkind'
      rw [hlookup] at hb
      cases hb
  | some key =>
    rcases kindBody_lookup hlookup with rfl | rfl | rfl | rfl | rfl | rfl | rfl | rfl | rfl
    · refine hr.request hcells .getDeviceInfo rfl rfl rfl { h with getDeviceInfo := some () }
        (by simp [Csv.fromBody, hkind]) ?_ ?_ (fun _ => rfl) ?_ <;> rw [← hbare]
      · exact ⟨rfl, rfl, rfl, rfl, rfl⟩
      · exact .none rfl rfl rfl rfl
      · rfl
    · refine hr.request hcells .getStatus rfl rfl rfl { h with getStatus := some () }
        (by simp [Csv.fromBody, hkind]) ?_ ?_ (fun _ => rfl) ?_ <;> rw [← hbare]
      · exact ⟨rfl, rfl, rfl, rfl, rfl⟩
      · exact .none rfl rfl rfl rfl
      · rfl
    · refine hr.request hcells .getHealth rfl rfl rfl { h with getHealth := some () }
        (by simp [Csv.fromBody, hkind]) ?_ ?_ (fun _ => rfl) ?_ <;> rw [← hbare]
      · exact ⟨rfl, rfl, rfl, rfl, rfl⟩
      · exact .none rfl rfl rfl rfl
      · rfl
    · exact hr.info hcells rfl
    · exact absurd rfl h12
    · exact hr.health hcells (.inl rfl)
    · exact hr.error hcells rfl
    · exact absurd rfl h21
    · exact hr.health hcells (.inr rfl)

end HeaderRead

theorem length_eight {α : Type} {l : List α} (h : 8 ≤ l.length) :
    ∃ a0 a1 a2 a3 a4 a5 a6 a7 rest, l = a0 :: a1 :: a2 :: a3 :: a4 :: a5 :: a6 :: a7 :: rest := by
  match l, h with
  | a0 :: a1 :: a2 :: a3 :: a4 :: a5 :: a6 :: a7 :: rest, _ => exact ⟨a0, a1, a2, a3, a4, a5, a6, a7, rest, rfl⟩

theorem fromCells_length {float : FloatText} {cells : List Text} {m : Model.Envelope}
    (h : Csv.fromCells float cells = .ok m) : 8 ≤ cells.length := by
  match cells, h with
  | _ :: _ :: _ :: _ :: _ :: _ :: _ :: _ :: rest, _ => simp

theorem both_ok {α β : Type} {x : Except CodecError α} {y : Except CodecError β} {a : α} {b : β}
    (h : both x y = .ok (a, b)) : x = .ok a ∧ y = .ok b := by
  obtain ⟨a', ha, h⟩ := except_bind_ok.1 h
  obtain ⟨b', hb, h⟩ := except_bind_ok.1 h
  cases h
  exact ⟨ha, hb⟩

/-- The text of a kind. -/
theorem kind_text {t : Bytes} {k : Int} (h : cell i32Cell t = .ok (some k)) : t = printI32 k := by
  unfold cell at h
  split at h
  · cases h
  · split at h
    · rename_i v hv
      cases h
      exact (i32_read_iff.1 hv).1
    · cases h

/-- **The rows agree.** -/
theorem row_agrees (float : FloatText) (lib : PyFloat) {row : List PyStr} (ht : ∀ t ∈ row, IsText t)
    {cells : List Text} (hcells : Csv.texts cells = row.map PyStr.encode)
    (hkind : ∀ t, row[1]? = some t → t.encode ≠ ascii "12" ∧ t.encode ≠ ascii "21") :
    Peers (Csv.fromCells float cells >>= validated) (decodeRow lib row) := by
  have hcount : cells.length = row.length := by simpa [Csv.texts] using congrArg List.length hcells
  by_cases hlen : 8 ≤ row.length
  · obtain ⟨t0, t1, t2, t3, t4, t5, t6, t7, rest, rfl⟩ := length_eight hlen
    obtain ⟨c0, c1, c2, c3, c4, c5, c6, c7, body, rfl⟩ := length_eight (hcount ▸ hlen)
    simp only [Csv.texts, List.map_cons, List.cons.injEq] at hcells
    obtain ⟨e0, e1, e2, e3, e4, e5, e6, e7, hbody⟩ := hcells
    have hagree := header_agrees ht lib
    rw [fromCells_eq, e0, e1, e2, e3, e4, e5, e6, e7]
    cases hread : readHeader t0.encode t1.encode t2.encode t3.encode t4.encode t5.encode t6.encode t7.encode with
    | error e =>
      refine .none (fun m hm => by cases hm) fun m' hm' => ?_
      obtain ⟨-, d, -, -, hd, -⟩ := decodeRow_header hm'
      rw [hagree.fails fun r hr => by rw [hread] at hr; cases hr] at hd
      cases hd
    | ok header =>
      obtain ⟨p, hp, hsame⟩ := hagree.value header hread
      have hpy : (p .kind).map Scalar.encode = header.envelope.kind.map .int := hsame.2.1.encode
      rw [except_ok_bind]
      cases hk : header.envelope.kind with
      | none =>
        refine .none (fun m hm => ?_) fun m' hm' => ?_
        · obtain ⟨m', hm, -⟩ := except_bind_ok.1 hm
          obtain ⟨kind, -, hkind', -⟩ := fromBody_kind hm
          rw [hk] at hkind'
          cases hkind'
        · obtain ⟨-, d, kind, -, hd, hlookup, -⟩ := decodeRow_header hm'
          cases hp.symm.trans hd
          rw [lookup_body (by decide)] at hlookup
          rw [hlookup, hk] at hpy
          cases hpy
      | some kind =>
        have hpk : p .kind = some (.int kind) := by
          rw [hk] at hpy
          cases hpv : p .kind with
          | none => rw [hpv] at hpy; cases hpy
          | some v =>
            rw [hpv] at hpy
            cases v with
            | int n =>
              cases hpy
              rfl
            | str s => cases hpy
            | bool b => cases hpy
            | float f => cases hpy
        obtain ⟨v0, v1, v2, v3, v4, v5, v6, v7, u⟩ := header
        have hr : HeaderRead lib _ p (Header.envelope (v0, v1, v2, v3, v4, v5, v6, v7, u)) kind :=
          ⟨hlen, ht, hsame, hp, fun m hm => header_rules ht (hm ▸ hsame) kind, rfl, hk, hpk⟩
        have htext : t1.encode = printI32 kind := by
          obtain ⟨-, h⟩ := both_ok hread
          obtain ⟨h, -⟩ := both_ok h
          exact kind_text (h.trans (congrArg Except.ok hk))
        obtain ⟨hne, hne'⟩ := hkind t1 rfl
        refine hr.peers hbody ?_ ?_
        · rintro rfl
          exact hne htext
        · rintro rfl
          exact hne' htext
  · refine .none (fun m hm => ?_) fun m' hm' => hlen (decodeRow_header hm').1
    obtain ⟨h, hm, -⟩ := except_bind_ok.1 hm
    exact hlen (hcount ▸ fromCells_length hm)

end Nucleo
