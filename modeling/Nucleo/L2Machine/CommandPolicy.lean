import Nucleo.Core.Credit
import Nucleo.L1Encoding.Message

/-!
# The command policy

`CommandPolicy::assess` of `service.rs` decides what becomes of a parsed
request: it is accepted, answered with an error, ignored or dropped by the
rate limit. Its credits are a continuous bucket of 1000 ms that an error reply
takes 100 ms from (`next_credit`).

Results:
* `assess_cases`: the four decisions and when each is made.
* `error_budget`: at most `10 + d / 100` error replies in `d` milliseconds, for
  any mix of requests in between; no other decision takes credit, and no
  credit is needed to accept.
-/
namespace Nucleo
open Model (Envelope)

/-- mirrors Rust/messaging/src/service.rs:4-10 -/
inductive Decision
  | accept
  | error (code : Int)
  | ignore
  | rateLimited
  deriving DecidableEq, Repr

structure Assessment where
  decision : Decision
  rejection : Option CodecError
  deriving DecidableEq

structure CommandPolicy where
  creditsMs : Nat
  updatedMs : Nat
  deriving DecidableEq

namespace CommandPolicy

def new (nowMs : Nat) : CommandPolicy := ⟨1000, nowMs⟩

/-- `matches!(request.kind, Some(1..=3))`. -/
def isRequest (request : Envelope) : Bool := request.kind.any Validation.isRequest

/-- `matches!(request.kind, Some(11..=14 | 21 | 22))`. -/
def isAnswer (request : Envelope) : Bool :=
  request.kind.any fun kind => Validation.isResponse kind || Validation.isPublication kind

/-- `request.device_id.as_deref() == Some(device)`. -/
def target (request : Envelope) (device : Bytes) : Bool := request.deviceId.any fun v => v.bytes == device

/-- `validity.err()`. -/
def err : Except CodecError Unit → Option CodecError
  | .ok _ => none
  | .error e => some e

/-- mirrors Rust/messaging/src/service.rs:30-73 -/
def assess (p : CommandPolicy) (request : Envelope) (format : Format) (device : Bytes) (nowMs : Nat) :
    CommandPolicy × Assessment :=
  let validity := Validation.validate request format
  if validity = .ok () ∧ isRequest request = true ∧ target request device = true then
    (p, ⟨.accept, none⟩)
  else
    let rejection := some ((err validity).getD .validation)
    if target request device = false ∨ Validation.correlation request = false ∨ isAnswer request = true then
      (p, ⟨.ignore, rejection⟩)
    else
      let credits := min (satAdd64 p.creditsMs (nowMs - p.updatedMs)) 1000
      if credits < 100 then (⟨credits, nowMs⟩, ⟨.rateLimited, rejection⟩)
      else
        (⟨credits - 100, nowMs⟩,
          ⟨.error (if request.kind.isSome ∧ isRequest request = false then 1 else 2), rejection⟩)

/-- One call of `assess`. -/
structure Call where
  request : Envelope
  format : Format
  device : Bytes
  now : Nat

def Call.time (c : Call) : Option Nat := some c.now

def machine : Machine CommandPolicy Call Assessment where
  step p c := p.assess c.request c.format c.device c.now

/-! ## One call -/

/-- A valid request for this device. -/
def Accepts (c : Call) : Prop :=
  Validation.validate c.request c.format = .ok () ∧ isRequest c.request = true ∧
    target c.request c.device = true

/-- A message that may be answered with an error. -/
structure Answerable (c : Call) : Prop where
  target : target c.request c.device = true
  correlation : Validation.correlation c.request = true
  kind : isAnswer c.request = false

instance (c : Call) : Decidable (Accepts c) := inferInstanceAs (Decidable (_ ∧ _ ∧ _))

instance (c : Call) : Decidable (Answerable c) :=
  decidable_of_iff (target c.request c.device = true ∧ Validation.correlation c.request = true ∧
    isAnswer c.request = false) ⟨fun ⟨h1, h2, h3⟩ => ⟨h1, h2, h3⟩, fun h => ⟨h.target, h.correlation, h.kind⟩⟩

def credit (p : CommandPolicy) : Credit := ⟨p.creditsMs, p.updatedMs⟩

/-- The bucket call of a call: it asks when an error reply is due. -/
def call (c : Call) : Bucket.Call := ⟨c.now, decide (¬ Accepts c ∧ Answerable c)⟩

/-- The four decisions. -/
inductive Assessed (p : CommandPolicy) (c : Call) : CommandPolicy × Assessment → Prop
  | accept (h : Accepts c) : Assessed p c (p, ⟨.accept, none⟩)
  | ignore (h : ¬ Accepts c) (ha : ¬ Answerable c) (e : CodecError) : Assessed p c (p, ⟨.ignore, some e⟩)
  | rateLimited (h : ¬ Accepts c) (ha : Answerable c) (e : CodecError)
      (hl : (p.credit.refill 1000 c.now).level < 100) :
      Assessed p c (⟨(p.credit.refill 1000 c.now).level, c.now⟩, ⟨.rateLimited, some e⟩)
  | error (h : ¬ Accepts c) (ha : Answerable c) (e : CodecError) (code : Int)
      (hl : 100 ≤ (p.credit.refill 1000 c.now).level) :
      Assessed p c (⟨(p.credit.refill 1000 c.now).level - 100, c.now⟩, ⟨.error code, some e⟩)

/-- The cap hides the saturation. -/
theorem refill_eq (p : CommandPolicy) (now : Nat) :
    min (satAdd64 p.creditsMs (now - p.updatedMs)) 1000 = (p.credit.refill 1000 now).level := by
  unfold satAdd64 u64Max Credit.refill credit
  simp only
  omega

theorem assess_cases (p : CommandPolicy) (c : Call) :
    Assessed p c (p.assess c.request c.format c.device c.now) := by
  unfold assess
  dsimp only
  by_cases h : Accepts c
  · rw [if_pos (show _ ∧ _ ∧ _ from h)]
    exact .accept h
  · rw [if_neg (show ¬ (_ ∧ _ ∧ _) from h)]
    by_cases ha : Answerable c
    · have hno : ¬ (target c.request c.device = false ∨ Validation.correlation c.request = false ∨
          isAnswer c.request = true) := by
        simp [ha.target, ha.correlation, ha.kind]
      simp only [if_neg hno, refill_eq]
      split
      · exact .rateLimited h ha _ ‹_›
      · exact .error h ha _ _ (by omega)
    · have hyes : target c.request c.device = false ∨ Validation.correlation c.request = false ∨
          isAnswer c.request = true := by
        by_contra hno
        simp only [not_or, Bool.not_eq_false, Bool.not_eq_true] at hno
        exact ha ⟨hno.1, hno.2.1, hno.2.2⟩
      simp only [if_pos hyes]
      exact .ignore h ha _

/-! ## The credits are a bucket -/

/-- The time of an error reply. -/
def errorTime (c : Call) (a : Assessment) : Option Nat :=
  match a.decision with
  | .error _ => some c.now
  | _ => none

/-- **Refinement, one call.** -/
theorem next_credit (p : CommandPolicy) (c : Call) :
    (machine.next p c).credit = (Credit.machine 1000 100).next p.credit (call c) ∧
      errorTime c (machine.out p c) = (Credit.machine 1000 100).out p.credit (call c) := by
  have h := assess_cases p c
  have hstep := Credit.step_cases 1000 100 p.credit (call c)
  unfold Machine.next Machine.out machine
  simp only
  generalize p.assess c.request c.format c.device c.now = r at h
  cases h with
  | accept h =>
    have hasks : (call c).asks = false := by simp [call, h]
    rcases hstep with ⟨-, hn, ho⟩ | ⟨ha, -⟩ | ⟨ha, -⟩
    · exact ⟨hn.symm, ho.symm⟩
    · rw [hasks] at ha
      cases ha
    · rw [hasks] at ha
      cases ha
  | ignore h ha e =>
    have hasks : (call c).asks = false := by simp [call, ha]
    rcases hstep with ⟨-, hn, ho⟩ | ⟨ha, -⟩ | ⟨ha, -⟩
    · exact ⟨hn.symm, ho.symm⟩
    · rw [hasks] at ha
      cases ha
    · rw [hasks] at ha
      cases ha
  | rateLimited h ha e hl =>
    have hasks : (call c).asks = true := by simp [call, h, ha]
    rcases hstep with ⟨hno, -⟩ | ⟨-, -, hn, ho⟩ | ⟨-, hge, -⟩
    · rw [hasks] at hno
      cases hno
    · exact ⟨hn.symm, ho.symm⟩
    · exact absurd hge (Nat.not_le.2 hl)
  | error h ha e code hl =>
    have hasks : (call c).asks = true := by simp [call, h, ha]
    rcases hstep with ⟨hno, -⟩ | ⟨-, hlt, -⟩ | ⟨-, -, hn, ho⟩
    · rw [hasks] at hno
      cases hno
    · exact absurd hl (Nat.not_le.2 hlt)
    · exact ⟨hn.symm, ho.symm⟩

/-- The times of the error replies of a run. -/
def errorTimes (p : CommandPolicy) (calls : List Call) : List Nat :=
  (machine.trace p calls).filterMap fun e => errorTime e.2.1 e.2.2

/-- **Refinement, whole runs.** -/
theorem errorTimes_eq (p : CommandPolicy) (calls : List Call) :
    errorTimes p calls = Credit.taken 1000 100 p.credit (calls.map call) := by
  induction calls generalizing p with
  | nil => rfl
  | cons c calls ih =>
    obtain ⟨hn, ho⟩ := next_credit p c
    rw [List.map_cons, Credit.taken_cons, ← hn, ← ho, ← ih]
    unfold errorTimes
    rw [Machine.trace_cons, List.filterMap_cons]
    cases errorTime c (machine.out p c) <;> rfl

theorem calls_mono {calls : List Call} {t : Nat} (h : Mono Call.time t calls) :
    Mono Bucket.Call.time t (calls.map call) := by
  induction calls generalizing t with
  | nil => trivial
  | cons c calls ih => exact ⟨h.1, ih h.2⟩

/-! ## The budget -/

theorem next_credits {p : CommandPolicy} (h : p.creditsMs ≤ 1000) (c : Call) :
    (machine.next p c).creditsMs ≤ 1000 := by
  have hn := (next_credit p c).1
  have := @Credit.next_level 1000 100 _ (show p.credit.level ≤ 1000 from h) (call c)
  rw [← hn] at this
  exact this

/-- Whom an error reply is for. -/
structure ErrorReply (c : Call) : Prop where
  version : c.request.protocolVersion = some 1
  target : ∃ v, c.request.deviceId = some v ∧ v.bytes = c.device
  session : nonce c.request.clientSession = true
  requestId : ∃ v, c.request.requestId = some v ∧ v ≠ 0
  kind : ∀ kind, c.request.kind = some kind → kind ∉ ([11, 12, 13, 14, 21, 22] : List Int)

theorem Answerable.reply {c : Call} (h : Answerable c) : ErrorReply c := by
  have hcorrelation := h.correlation
  have htarget := h.target
  have hkind := h.kind
  simp only [Validation.correlation, Bool.and_eq_true, beq_iff_eq] at hcorrelation
  obtain ⟨⟨⟨hv, -⟩, hs⟩, hid⟩ := hcorrelation
  refine ⟨hv, ?_, hs, ?_, ?_⟩
  · simpa [CommandPolicy.target, Option.any_eq_true] using htarget
  · simpa [Option.any_eq_true] using hid
  · intro kind hk hmem
    rw [isAnswer, hk, Option.any_some] at hkind
    simp only [Validation.isResponse, Validation.isPublication, Bool.or_eq_false_iff, Bool.and_eq_false_iff,
      decide_eq_false_iff_not, beq_eq_false_iff_ne] at hkind
    simp only [List.mem_cons, List.not_mem_nil, or_false] at hmem
    omega

/-- What holds at a call of a run. -/
structure Budgeted (p : CommandPolicy) (c : Call) : Prop where
  credits : p.creditsMs ≤ 1000 ∧ (machine.next p c).creditsMs ≤ 1000
  /-- Only an error reply takes credit, and it takes 100. -/
  spends : (∀ code, (machine.out p c).decision ≠ .error code) → p.creditsMs ≤ (machine.next p c).creditsMs
  errors : ∀ code, (machine.out p c).decision = .error code → ErrorReply c

theorem Budgeted.of_credits {p : CommandPolicy} (h : p.creditsMs ≤ 1000) (c : Call) : Budgeted p c := by
  have hc := assess_cases p c
  have hnext : machine.next p c = (p.assess c.request c.format c.device c.now).1 := rfl
  have hout : machine.out p c = (p.assess c.request c.format c.device c.now).2 := rfl
  refine ⟨⟨h, next_credits h c⟩, ?_, ?_⟩
  all_goals
    simp only [hnext, hout]
    clear hnext hout
    generalize p.assess c.request c.format c.device c.now = r at hc
  · intro hno
    cases hc with
    | accept => exact Nat.le_refl _
    | ignore => exact Nat.le_refl _
    | rateLimited _ _ _ _ =>
      simp only [Credit.refill, credit]
      omega
    | error _ _ _ code _ => exact absurd rfl (hno code)
  · intro code hcode
    cases hc with
    | accept => cases hcode
    | ignore => cases hcode
    | rateLimited => cases hcode
    | error _ ha => exact ha.reply

/-- A valid request for this device needs no credit. -/
theorem accepts_next (p : CommandPolicy) {c : Call} (h : Accepts c) :
    machine.out p c = ⟨.accept, none⟩ ∧ machine.next p c = p := by
  have hstep : p.assess c.request c.format c.device c.now = (p, ⟨.accept, none⟩) := if_pos h
  unfold Machine.out Machine.next machine
  simp [hstep]

/-- **Burst 10, one error reply per 100 ms**, in every run and every window, whatever is
accepted, ignored or dropped in between. -/
theorem error_budget (start : Nat) (calls : List Call) (hm : Mono Call.time start calls) :
    (∀ t d, (Bucket.window (errorTimes (new start) calls) t d).length ≤ 10 + d / 100) ∧
      (∀ e ∈ machine.trace (new start) calls, Budgeted e.1 e.2.1 ∧ e.2.2 = machine.out e.1 e.2.1) ∧
      ∀ p c, Accepts c → machine.out p c = ⟨.accept, none⟩ ∧ machine.next p c = p := by
  refine ⟨?_, ?_, fun p c h => accepts_next p h⟩
  · intro t d
    have hw := @Credit.window_le 1000 100 (new start).credit _ _ (Nat.le_refl start) (calls_mono hm) t d
    rw [errorTimes_eq]
    omega
  · intro e he
    obtain ⟨hcredits, hout⟩ := machine.trace_inv (I := fun p => p.creditsMs ≤ 1000)
      (fun p c h => next_credits h c) (new start) (Nat.le_refl _) calls e he
    exact ⟨.of_credits hcredits e.2.1, hout⟩

namespace Sample

/-- A request for the health of the sample device, of any kind. -/
def command (kind : Int) : Envelope :=
  { protocolVersion := some 1, kind := some kind, deviceId := some Nucleo.Sample.device,
    clientSession := some Nucleo.Sample.session, requestId := some 1, getHealth := some () }

end Sample

/-- Ten unknown kinds at once are answered, the eleventh is not, a valid request still is. -/
theorem error_budget_burst :
    let bad : Call := ⟨Sample.command 99, .protobuf, Nucleo.Sample.device.bytes, 0⟩
    let valid : Call := ⟨Sample.command 3, .protobuf, Nucleo.Sample.device.bytes, 99⟩
    let calls := List.replicate 11 bad ++ [valid, { bad with now := 100 }]
    errorTimes (new 0) calls = List.replicate 10 0 ++ [100] ∧
      (∀ t d, (Bucket.window (errorTimes (new 0) calls) t d).length ≤ 10 + d / 100) ∧
      (∀ e ∈ machine.trace (new 0) calls, Budgeted e.1 e.2.1 ∧ e.2.2 = machine.out e.1 e.2.1) ∧
      ∀ p c, Accepts c → machine.out p c = ⟨.accept, none⟩ ∧ machine.next p c = p :=
  ⟨by decide +kernel, error_budget 0 _ (by decide)⟩

end CommandPolicy
end Nucleo
