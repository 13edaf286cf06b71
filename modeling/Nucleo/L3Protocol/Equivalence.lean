import Nucleo.L2Machine.ServiceSteps
import Nucleo.L3Protocol.PyService

/-!
# The Rust service and its Python reference are equivalent

`Related` is the simulation relation: Python's state is the Rust state in
other units (microseconds times 1000), with the owner split off the lease, the
last control as a whole message and only the enabled streams listed. It says
nothing about the reply buckets. Every call keeps it, Python never raises, and
outside the bucket the outputs are equal: `Related.handle`, `Related.poll`.

The one place where the two decide by different data is the duplicate check,
a triple against a whole message; `control_ext` shows that for validated
controls of one lease these are the same.

`services_equivalent` states it for whole runs in terms of an abstract state
that both sides project to.
-/
namespace Nucleo.Benchmark

/-! ## Messages -/

theorem unit_ext {a b : Option Unit} (h : a.isSome = b.isSome) : a = b := by
  cases a <;> cases b <;> first | rfl | cases h

theorem absent_ext {α : Type} {a b : Option α} {p : Bool} (ha : a.isSome = p) (hb : b.isSome = p)
    (hp : p = false) : a = b := by
  subst hp
  cases a with
  | some => cases ha
  | none => cases b with
    | some => cases hb
    | none => rfl

/-- Validated controls to one run that agree in kind, ID and contents are equal. -/
theorem control_ext {m m' : Envelope} {format : Format} {crc : CrcMode} {kind : Int}
    (h : ValidAs m format crc kind) (h' : ValidAs m' format crc kind) (hk : 2 ≤ kind ∧ kind ≤ 4)
    (hd : m.deviceId = m'.deviceId) (hb : m.bootId = m'.bootId) (hs : m.sessionId = m'.sessionId)
    (he : m.runEpoch = m'.runEpoch) (hi : m.requestId = m'.requestId)
    (hc : m.configure = m'.configure) : m = m' := by
  obtain ⟨a1, -, a3, a4, a5, a6, a7, a8, a9, a10⟩ := h.body_unique
  obtain ⟨b1, -, b3, b4, b5, b6, b7, b8, b9, b10⟩ := h'.body_unique
  have hne : ∀ n : Int, ¬ (2 ≤ n ∧ n ≤ 4) → (kind == n) = false := by
    intro n hn
    simp only [beq_eq_false_iff_ne, ne_eq]
    rintro rfl
    exact hn hk
  have hreq : (!isRequest kind) = false := by simp [isRequest]; omega
  have hpub : isPublication kind = false := by
    unfold isPublication; rw [hne 21 (by decide), hne 22 (by decide)]; rfl
  have hdata : isData kind = false := by
    unfold isData
    rw [hne 5 (by decide), hne 15 (by decide), hne 21 (by decide), hne 22 (by decide)]; rfl
  exact Envelope.ext (h.version.trans h'.version.symm) (h.hasKind.trans h'.hasKind.symm) hd hb hs hi
    (absent_ext h.sequence h'.sequence hpub) (absent_ext h.uptime h'.uptime hreq)
    (absent_ext h.payload h'.payload hdata) he (unit_ext (a1.trans b1.symm)) hc
    (unit_ext (a3.trans b3.symm)) (unit_ext (a4.trans b4.symm)) (unit_ext (a5.trans b5.symm))
    (absent_ext a6 b6 (hne 11 (by decide))) (absent_ext a7 b7 (hne 12 (by decide)))
    (unit_ext (a8.trans b8.symm)) (absent_ext a9 b9 (hne 21 (by decide)))
    (absent_ext a10 b10 (hne 22 (by decide)))

/-! ## The relation -/

@[simp] theorem PyService.endLease_bucket {T : Type} (p : PyService T) :
    p.endLease.tokens = p.tokens ∧ p.endLease.bucketTime = p.bucketTime := by
  unfold PyService.endLease
  split
  · exact ⟨rfl, rfl⟩
  · simp only
    split <;> exact ⟨rfl, rfl⟩

@[simp] theorem PyService.reject_tokens {T : Type} (p : PyService T) : p.reject.tokens = p.tokens := by
  unfold PyService.reject
  split <;> rfl

/-- Python's entry for a stream. -/
def pyEntry (kind : Int) (p : Publication) : PyStream :=
  ⟨kind, 1000 * p.due, p.sequence.toNat, 1000 * p.period.toNat⟩

/-- Only an enabled stream has one. -/
def pyStream (kind : Int) (p : Publication) : Option PyStream :=
  if p.period = 0 then none else some (pyEntry kind p)

def pyStreams (schedules : Vector Publication 2) : List PyStream :=
  [pyStream 21 schedules[0], pyStream 22 schedules[1]].filterMap id

def pyCounters (c : Counters) : PyCounters :=
  ⟨c.received.toNat, c.rejected.toNat, c.sendErrors.toNat, c.skipped.toNat⟩

/-- The message behind the last accepted control of a lease. -/
structure LastControl (s : Service) (l : Lease) (m : Envelope) : Prop where
  valid : ValidAs m s.format s.crc l.last.kind
  range : 2 ≤ l.last.kind ∧ l.last.kind ≤ 4
  device : m.deviceId = some s.device
  boot : m.bootId = some s.boot
  session : m.sessionId = some l.session
  epoch : m.runEpoch = some s.epoch
  id : m.requestId = some l.last.id
  configure : m.configure = l.last.configuration

structure Related {T : Type} (s : Service) (p : PyService T) : Prop where
  inv : Service.Inv s
  device : p.device = s.device
  boot : p.boot = s.boot
  encoding : p.encoding = s.format
  crc : p.crc = s.crc
  start : p.start = 0
  clock : p.lastTime = 1000 * s.lastTime
  epoch : p.epoch = s.epoch.toNat
  exhausted : p.exhausted = s.exhausted
  owner : p.owner = s.lease.map fun l => (l.peer, l.session)
  config : p.config = s.lease.map (·.configuration)
  expiry : ∀ l, s.lease = some l → p.expiry = 1000 * l.expiry
  idle : s.lease = none → p.lastControl = none
  last : ∀ l, s.lease = some l → ∃ m, p.lastControl = some m ∧ LastControl s l m
  schedules : p.schedules = pyStreams s.schedules
  counters : p.counters = pyCounters s.counters
  quiet : p.activeSendErrors = [] ∧ s.counters.active = Vector.replicate 3 false

namespace Related

open Service

variable {T : Type} {s : Service} {p : PyService T}

theorem new (F : Tokens T) (device : HString 32) (boot : HString 16) (format : Format) (crc : CrcMode) :
    Related (Service.new device boot format crc 0) (PyService.new F device boot format crc 0) where
  inv := Inv.new device boot format crc 0
  device := rfl
  boot := rfl
  encoding := rfl
  crc := rfl
  start := rfl
  clock := rfl
  epoch := rfl
  exhausted := rfl
  owner := rfl
  config := rfl
  expiry _ h := by cases h
  idle _ := rfl
  last _ h := by cases h
  schedules := rfl
  counters := rfl
  quiet := ⟨rfl, rfl⟩

/-- The relation does not see Rust's bucket. -/
theorem of_frame {s' : Service} (h : Related s p) (hi : Inv s') (ht : s'.tenure = s.tenure)
    (hid : s'.identity = s.identity) (hc : s'.counters = s.counters) (hl : s'.lastTime = s.lastTime) :
    Related s' p := by
  obtain ⟨h1, h2, h3, h4⟩ := tenure_eq_iff.1 ht
  simp only [identity, Prod.mk.injEq] at hid
  obtain ⟨i1, i2, i3, i4⟩ := hid
  refine ⟨hi, ?_, ?_, ?_, ?_, h.start, ?_, ?_, ?_, ?_, ?_, ?_, ?_, ?_, ?_, ?_, ?_⟩
  · rw [i1]; exact h.device
  · rw [i2]; exact h.boot
  · rw [i3]; exact h.encoding
  · rw [i4]; exact h.crc
  · rw [hl]; exact h.clock
  · rw [h3]; exact h.epoch
  · rw [h4]; exact h.exhausted
  · rw [h1]; exact h.owner
  · rw [h1]; exact h.config
  · rw [h1]; exact h.expiry
  · rw [h1]; exact h.idle
  · intro l hl
    obtain ⟨m, hm, hv⟩ := h.last l (h1 ▸ hl)
    exact ⟨m, hm, ⟨i3 ▸ i4 ▸ hv.valid, hv.range, i1 ▸ hv.device, i2 ▸ hv.boot, hv.session,
      h3 ▸ hv.epoch, hv.id, hv.configure⟩⟩
  · rw [h2]; exact h.schedules
  · rw [hc]; exact h.counters
  · rw [hc]; exact h.quiet

theorem isSome_owner (h : Related s p) : p.owner.isSome = s.lease.isSome := by
  rw [h.owner]; cases s.lease <;> rfl

/-- Ending a lease. -/
theorem endLease (h : Related s p) : Related s.endLease p.endLease := by
  have hi := h.inv.endLease
  have ho := h.owner
  have hmax : p.epoch = pyMax ↔ s.epoch = UInt32.ofNat u32Max := by
    rw [h.epoch, ← UInt32.toNat_inj, toNat_ofNat32_le (Nat.le_refl _)]; rfl
  cases hl : s.lease with
  | none =>
    rw [hl] at ho
    rw [endLease_none hl]
    have : p.endLease = p := by unfold PyService.endLease; rw [ho]; rfl
    rw [this]; exact h
  | some l =>
    rw [hl] at ho
    have hs : s.endLease = if s.epoch = UInt32.ofNat u32Max then
          { s with lease := none, schedules := cleared, exhausted := true }
        else { s with lease := none, schedules := cleared, epoch := s.epoch + 1 } := by
      unfold Service.endLease; rw [hl]
    have hp : p.endLease = if p.epoch = pyMax then
          { p with owner := none, config := none, lastControl := none, schedules := [], exhausted := true }
        else { p with owner := none, config := none, lastControl := none, schedules := [],
                      epoch := p.epoch + 1 } := by
      unfold PyService.endLease; rw [ho]; rfl
    rw [hs] at hi ⊢
    rw [hp]
    by_cases he : s.epoch = UInt32.ofNat u32Max
    · rw [if_pos he] at hi ⊢
      rw [if_pos (hmax.2 he)]
      exact ⟨hi, h.device, h.boot, h.encoding, h.crc, h.start, h.clock, h.epoch, rfl, rfl, rfl,
        (fun _ h => by cases h), fun _ => rfl, (fun _ h => by cases h), rfl, h.counters, h.quiet⟩
    · rw [if_neg he] at hi ⊢
      rw [if_neg (fun e => he (hmax.1 e))]
      refine ⟨hi, h.device, h.boot, h.encoding, h.crc, h.start, h.clock, ?_, h.exhausted, rfl, rfl,
        (fun _ h => by cases h), fun _ => rfl, (fun _ h => by cases h), rfl, h.counters, h.quiet⟩
      simp only [h.epoch, toNat_succ32 he]

/-- Python's bucket and Rust's clock go their own ways. -/
theorem bucket (h : Related s p) (tokens : T) (time suppressed : Nat) :
    Related s { p with tokens := tokens, bucketTime := time, suppressed := suppressed } :=
  ⟨h.inv, h.device, h.boot, h.encoding, h.crc, h.start, h.clock, h.epoch, h.exhausted, h.owner,
    h.config, h.expiry, h.idle, h.last, h.schedules, h.counters, h.quiet⟩

theorem tick (F : Tokens T) (h : Related s p) {now : Nat} (hn : s.lastTime ≤ now) :
    ∃ p', p.tick F (1000 * now) = some p' ∧ Related (s.tick now) p' ∧
      p'.tokens = F.refill p.tokens (1000 * now - p.bucketTime) := by
  have hclk : Related { s with lastTime := now } { p with lastTime := 1000 * now } :=
    ⟨h.inv.of_tenure rfl h.inv.tokens, h.device, h.boot, h.encoding, h.crc, h.start, rfl, h.epoch,
      h.exhausted, h.owner, h.config, h.expiry, h.idle, fun l hl => by
        obtain ⟨m, hm, hv⟩ := h.last l hl
        exact ⟨m, hm, ⟨hv.valid, hv.range, hv.device, hv.boot, hv.session, hv.epoch, hv.id,
          hv.configure⟩⟩, h.schedules, h.counters, h.quiet⟩
  have hexp : (p.owner.isSome ∧ p.expiry ≤ 1000 * now) ↔ s.lease.any (·.expiry ≤ now) = true := by
    rw [h.isSome_owner]
    cases hl : s.lease with
    | none => simp
    | some l =>
      rw [h.expiry l hl]
      simp only [Option.isSome_some, true_and, Option.any_some, decide_eq_true_eq]
      omega
  unfold PyService.tick
  rw [if_neg (by rw [h.clock]; omega)]
  refine ⟨_, rfl, ?_, ?_⟩
  rotate_left
  · simp only
    split
    · rw [(PyService.endLease_bucket _).1, (PyService.endLease_bucket _).2]
    · rfl
  unfold Service.tick rollback
  rw [if_neg (by omega)]
  have hrel : Related (({ s with lastTime := now } : Service).expire now)
      (if p.owner.isSome ∧ p.expiry ≤ 1000 * now then
        ({ p with lastTime := 1000 * now } : PyService T).endLease
      else { p with lastTime := 1000 * now }) := by
    unfold Service.expire
    by_cases he : s.lease.any (·.expiry ≤ now) = true
    · rw [if_pos (hexp.2 he)]
      simp only [he, if_true]
      exact hclk.endLease
    · rw [if_neg (fun e => he (hexp.1 e))]
      simp only [he, Bool.false_eq_true, if_false]
      exact hclk
  obtain ⟨f1, f2, f3, f4⟩ := refill_frame (({ s with lastTime := now } : Service).expire now) now
  refine ((hrel.bucket _ _ _).of_frame ?_ f1 f4 f3 f2)
  exact hrel.inv.of_tenure f1 (refill_tokens _ _ hrel.inv.tokens)

theorem reject (h : Related s p) : Related (s.reject false) p.reject := by
  have hi := h.inv.reject false
  unfold Service.reject PyService.reject active at *
  rw [h.isSome_owner]
  cases hl : s.lease.isSome with
  | false => exact h
  | true =>
    simp only [if_true, hl] at hi ⊢
    refine ⟨hi, h.device, h.boot, h.encoding, h.crc, h.start, h.clock, h.epoch, h.exhausted,
      h.owner, h.config, h.expiry, h.idle, fun l hl => ?_, h.schedules, ?_, h.quiet⟩
    · obtain ⟨m, hm, hv⟩ := h.last l hl
      exact ⟨m, hm, ⟨hv.valid, hv.range, hv.device, hv.boot, hv.session, hv.epoch, hv.id, hv.configure⟩⟩
    · have hc := h.counters
      simp only [pyCounters] at hc ⊢
      rw [hc]
      simp only [toNat_satAdd32, pyCount, UInt32.toNat_one, PyCounters.mk.injEq, true_and, and_true]
      rw [Nat.min_comm]; rfl

theorem counted (h : Related s p) : Related s.counted p.countReceived := by
  refine ⟨h.inv.counted, h.device, h.boot, h.encoding, h.crc, h.start, h.clock, h.epoch, h.exhausted,
    h.owner, h.config, h.expiry, h.idle, fun l hl => ?_, h.schedules, ?_, h.quiet⟩
  · obtain ⟨m, hm, hv⟩ := h.last l hl
    exact ⟨m, hm, ⟨hv.valid, hv.range, hv.device, hv.boot, hv.session, hv.epoch, hv.id, hv.configure⟩⟩
  · have hc := h.counters
    simp only [pyCounters, Service.counted, Counters.countReceived, PyService.countReceived] at hc ⊢
    rw [hc]
    simp only [toNat_satAdd32, pyCount, UInt32.toNat_one, PyCounters.mk.injEq, and_true]
    rw [Nat.min_comm]; rfl

/-! ## Replies -/

theorem header (h : Related s p) (session : HString 16) (kind : Int) (now : Nat) :
    p.header session kind (1000 * now) = s.base session kind now := by
  have ht : UInt32.ofNat ((1000 * now - 0) / 1000000 % 2 ^ 32) = UInt32.ofNat (now / 1000) := by
    rw [← UInt32.toNat_inj, toNat_ofNat32, toNat_ofNat32]
    omega
  unfold PyService.header base
  rw [h.device, h.boot, h.start, h.epoch, ht]
  simp

theorem capabilitiesReply (h : Related s p) (session : HString 16) (id : UInt32) (now : Nat) :
    p.capabilitiesReply session id (1000 * now) = s.capabilitiesReply session id now := by
  unfold PyService.capabilitiesReply Service.capabilitiesReply
  rw [h.header, h.encoding, h.crc, h.exhausted, active, ← h.isSome_owner]
  cases p.owner <;> rfl

/-- The door is the same for a validated message. -/
theorem misdirected (h : Related s p) {m : Envelope} {kind : Int} (hv : ValidAs m s.format s.crc kind)
    (hk : 1 ≤ kind ∧ kind ≤ 5) : p.misdirected m kind = some (s.refuses m) := by
  obtain ⟨device, hd⟩ : ∃ device, m.deviceId = some device := by
    have := hv.device
    cases e : m.deviceId with
    | none => rw [e] at this; cases this
    | some device => exact ⟨device, rfl⟩
  have hok : (validate m s.format s.crc).isOk = true := by
    rw [validate_ok_iff.2 ⟨kind, hv⟩]; rfl
  have hreq : isRequest kind = true := by simp [isRequest, hk.1, hk.2]
  unfold PyService.misdirected refuses
  simp only [hd, hok, hv.hasKind, Option.any_some, hreq, Bool.not_true, Bool.false_or, Bool.or_false]
  rw [h.device, h.boot]
  by_cases hdev : device = s.device
  · subst hdev
    by_cases h1 : kind = 1
    · subst h1; simp
    · obtain ⟨boot, hb⟩ : ∃ boot, m.bootId = some boot := by
        have := (hv.correlated h1).1
        cases e : m.bootId with
        | none => rw [e] at this; cases this
        | some boot => exact ⟨boot, rfl⟩
      have hne : (boot != s.boot) = (some kind != some 1 && some boot != some s.boot) := by
        rw [Bool.eq_iff_iff]
        simp only [Bool.and_eq_true, bne_iff_ne, ne_eq, Option.some.injEq, h1, not_false_eq_true,
          true_and]
      simp [h1, hb, hne]
  · simp [hdev]

/-- A validated message of another kind is refused by both. -/
theorem refuses_other {m : Envelope} {kind : Int} (hk : m.kind = some kind)
    (h : ¬ (1 ≤ kind ∧ kind ≤ 5)) : s.refuses m = true := by
  have : isRequest kind = false := by
    unfold isRequest
    simp only [Bool.and_eq_false_iff, decide_eq_false_iff_not]
    omega
  unfold refuses
  simp [hk, this]

/-! ## Probes -/

theorem pattern_eq (length seed token : UInt32) (hl : length.toNat ≤ 512) :
    ∃ payload, pattern length seed token = some payload ∧
      payload.bytes = pyPattern length.toNat seed.toNat token.toNat := by
  unfold pattern
  rw [dif_neg (by omega)]
  exact ⟨_, rfl, rfl⟩

theorem owner_iff (h : Related s p) (peer : Peer) (session : HString 16) :
    p.owner = some (peer, session) ↔ s.owner peer session = true := by
  rw [h.owner]
  unfold Service.owner
  cases s.lease <;> simp

theorem epoch_iff (h : Related s p) (epoch : UInt32) : epoch.toNat = p.epoch ↔ epoch = s.epoch := by
  rw [h.epoch, UInt32.toNat_inj]

/-- What both do with a request: related states and, but for the bucket, one outcome. -/
def Same (F : Tokens T) (p : PyService T) (r : Service × Outcome)
    (q : Option (PyService T × Option Envelope)) : Prop :=
  ∃ p', Related r.1 p' ∧ p'.tokens = p.tokens ∧ match r.2 with
    | .none => q = some (p', none)
    | .probe out => q = some (p', some out)
    | .capabilities reply => q = some (p'.spend F reply)
    | .control _ reply => q = some (p'.spend F reply)

theorem probe (F : Tokens T) (h : Related s p) {m : Envelope} {peer : Peer} {session : HString 16}
    {id : UInt32} (hv : ValidAs m s.format s.crc 5) (hid : m.requestId = some id) (now : Nat) :
    Same F p (s.probe m (s.owner peer session) session id now)
      (p.probe m (peer, session) (1000 * now)) := by
  have hmiss : p.probeMatches m (peer, session) = some false →
      Same F p (s.reject false, .none) (p.probe m (peer, session) (1000 * now)) := by
    intro hm
    unfold PyService.probe
    rw [hm]
    exact ⟨p.reject, h.reject, p.reject_tokens, rfl⟩
  unfold Service.probe
  by_cases ho : ¬ s.owner peer session = true
  · rw [if_pos (by simp [ho])]
    refine hmiss ?_
    unfold PyService.probeMatches
    rw [if_pos (fun e => ho ((h.owner_iff peer session).1 e))]
  have ho := Decidable.not_not.1 ho
  have hpo := (h.owner_iff peer session).2 ho
  obtain ⟨l, hl, hp, hs⟩ := owner_true ho
  obtain ⟨epoch, he⟩ : ∃ epoch, m.runEpoch = some epoch := by
    have := (hv.correlated (by decide)).2
    cases e : m.runEpoch with
    | none => rw [e] at this; cases this
    | some epoch => exact ⟨epoch, rfl⟩
  by_cases hep : epoch ≠ s.epoch
  · rw [if_pos (by simp [he, hep])]
    refine hmiss ?_
    unfold PyService.probeMatches
    rw [if_neg (fun e => e hpo), he]
    exact if_pos (fun e => hep ((h.epoch_iff epoch).1 e))
  have hep := Decidable.not_not.1 hep
  obtain ⟨length, seed, _, _, _, hc, hlen, -⟩ := configurationValid_fields (h.inv.valid l hl)
  obtain ⟨payload, hpay⟩ : ∃ payload, m.payload = some payload := by
    have := hv.payload
    cases e : m.payload with
    | none => rw [e] at this; cases this
    | some payload => exact ⟨payload, rfl⟩
  obtain ⟨expected, hpat, hbytes⟩ := pattern_eq length seed id (UInt32.le_iff_toNat_le.1 hlen)
  have hconf : p.config = some l.configuration := by rw [h.config, hl]; rfl
  have hmatch : p.probeMatches m (peer, session) = some (payload.bytes == expected.bytes) := by
    unfold PyService.probeMatches
    rw [if_neg (fun e => e hpo), he]
    refine (if_neg (fun e => e ((h.epoch_iff epoch).2 hep))).trans ?_
    unfold PyService.payloadMatches
    simp [hpay, hconf, hc, hid, hbytes]
  rw [if_neg (by simp [ho, he, hep])]
  simp only [hl, hc, hpat]
  by_cases hb : payload = expected
  · rw [if_neg (by simp [hpay, hb])]
    unfold PyService.probe
    rw [hmatch, hid, hb, beq_self_eq_true]
    refine ⟨p.countReceived, h.counted, rfl, ?_⟩
    simp only [probeReply, h.counted.header]
  · rw [if_pos (by simpa [hpay] using hb)]
    refine hmiss (hmatch.trans (congrArg some ?_))
    simp only [beq_eq_false_iff_ne, ne_eq]
    exact fun e => hb (HString.ext e)

/-! ## Controls -/

theorem validConfiguration_eq (c : Configuration) : pyValidConfiguration c = configurationValid c := by
  obtain ⟨payload, seed, status, health, lease⟩ := c
  unfold pyValidConfiguration configurationValid
  cases payload <;> cases seed <;> cases status <;> cases health <;> cases lease <;>
    simp only [Option.any_some, Option.any_none, Option.isSome_some, Option.isSome_none,
      Bool.false_and, Bool.and_false]
  rename_i payload seed status health lease
  have hseed : seed.toNat ≤ pyMax := toNat_le_u32Max seed
  have h0 : ∀ a : UInt32, (a == 0) = decide (a.toNat = 0) := fun a => by
    rw [Bool.eq_iff_iff, beq_iff_eq, decide_eq_true_eq, ← UInt32.toNat_inj]; rfl
  simp only [h0, UInt32.le_iff_toNat_le, decide_eq_true hseed, Bool.and_true, Bool.decide_and]
  rfl

/-- Related states and the same code. -/
def SameCode (p : PyService T) (r : Service × Option Int) (q : Option (PyService T × Int)) : Prop :=
  ∃ p' code, Related r.1 p' ∧ p'.tokens = p.tokens ∧ r.2 = some code ∧ q = some (p', code)

/-- What both know of a control that got past ownership. -/
structure Admitted (s : Service) (m : Envelope) (session : HString 16) (control : Control) : Prop where
  valid : ValidAs m s.format s.crc control.kind
  asks : Asks m session control
  device : m.deviceId = some s.device
  boot : m.bootId = some s.boot
  epoch : m.runEpoch = some s.epoch

theorem Admitted.last {m : Envelope} {session : HString 16} {control : Control}
    (ha : Admitted s m session control) (l : Lease) (hs : l.session = session) (hc : l.last = control) :
    LastControl s l m := by
  subst hs hc
  exact ⟨ha.valid, ha.asks.range, ha.device, ha.boot, ha.asks.session, ha.epoch, ha.asks.id,
    ha.asks.configuration⟩

/-- The duplicate check: triple against message. -/
theorem duplicate_iff (h : Related s p) {m : Envelope} {session : HString 16} {control : Control}
    (ha : Admitted s m session control) {l : Lease} (hl : s.lease = some l) (hs : l.session = session) :
    p.lastControl = some m ↔ l.last = control := by
  obtain ⟨m', hm', hv⟩ := h.last l hl
  constructor
  · intro he
    rw [hm'] at he
    cases he
    have h1 := hv.valid.hasKind.symm.trans ha.asks.kind
    have h2 := hv.id.symm.trans ha.asks.id
    have h3 := hv.configure.symm.trans ha.asks.configuration
    cases hc : l.last; cases control
    simp only [hc, Option.some.injEq] at h1 h2 h3
    rw [h1, h2, h3]
  · intro he
    rw [hm']
    have hv' := ha.last l hs he
    exact congrArg some (control_ext hv.valid hv'.valid hv.range (hv.device.trans hv'.device.symm)
      (hv.boot.trans hv'.boot.symm) (hv.session.trans hv'.session.symm)
      (hv.epoch.trans hv'.epoch.symm) (hv.id.trans hv'.id.symm) (hv.configure.trans hv'.configure.symm))

theorem freshSchedules_eq (now : Nat) (status health : UInt32) (h1 : now + status.toNat ≤ u64Max)
    (h2 : now + health.toNat ≤ u64Max) :
    PyService.freshSchedules (1000 * now) status health = pyStreams #v[
      { due := satAdd64 now status.toNat, period := status, sequence := 0 },
      { due := satAdd64 now health.toNat, period := health, sequence := 0 }] := by
  have key : ∀ (kind : Int) (period : UInt32), now + period.toNat ≤ u64Max →
      (if period = 0 then none
        else some (⟨kind, 1000 * now + period.toNat * 1000, 0, period.toNat * 1000⟩ : PyStream)) =
      pyStream kind ⟨satAdd64 now period.toNat, period, 0⟩ := by
    intro kind period hp
    unfold pyStream
    split
    · rfl
    · rw [satAdd64_eq hp]
      simp only [pyEntry, Option.some.injEq, PyStream.mk.injEq, true_and]
      exact ⟨by omega, by rfl, by omega⟩
  unfold PyService.freshSchedules pyStreams
  simp only [List.filterMap_cons, key 21 status h1, key 22 health h2, List.filterMap_nil, id]
  rfl

/-- Python's state after an accepted configure. -/
def pyGranted (p : PyService T) (m : Envelope) (owner : Peer × HString 16) (config : Configuration)
    (now : Nat) : PyService T :=
  { p with
    counters := { received := 1 }
    activeSendErrors := []
    owner := some owner
    config := some config
    schedules := PyService.freshSchedules now (config.period 0) (config.period 1)
    lastControl := some m
    expiry := now + (config.leaseMs.getD 0).toNat * 1000000 }

theorem pyGranted_eq (p : PyService T) {m : Envelope} (owner : Peer × HString 16)
    {config : Configuration} (hc : m.configure = some config) (hv : configurationValid config = true)
    {kind : Int} (hk : kind = 2) (now : Nat) :
    ∃ p₁, p.acquire m owner now = some p₁ ∧
      p₁.apply m kind now = some (pyGranted p m owner config now, 1) := by
  subst hk
  obtain ⟨payload, seed, status, health, ms, rfl, -⟩ := configurationValid_fields hv
  unfold PyService.acquire
  rw [hc]
  exact ⟨_, rfl, rfl⟩

/-- Both grant the same lease. -/
theorem granted (h : Related s p) {m : Envelope} {session : HString 16} {control : Control}
    (ha : Admitted s m session control) (peer : Peer) {config : Configuration}
    (hk : control.kind = 2) (hl : s.lease = none) (hx : s.exhausted = false)
    (hc : m.configure = some config) (hv : configurationValid config = true) {now : Nat}
    (hsat : now + 30000000 ≤ u64Max) :
    Related (s.granted peer session config control now)
      (pyGranted p m (peer, session) config (1000 * now)) := by
  have he : Effect s m peer now (s.granted peer session config control now, _) :=
    .acquired ha.asks hk hl hx ha.epoch hc hv
  have h0 := period_le hv 0
  have h1 := period_le hv 1
  obtain ⟨_, _, _, _, ms, hf, -, -, -, -, hms⟩ := configurationValid_fields hv
  have hms : ms.toNat ≤ 30000 := UInt32.le_iff_toNat_le.1 hms
  refine ⟨h.inv.effect he, h.device, h.boot, h.encoding, h.crc, h.start, h.clock, h.epoch, h.exhausted,
    rfl, rfl, fun l hl => ?_, (fun hn => by cases hn), fun l hl => ?_, ?_, rfl, rfl, rfl⟩
  · cases hl
    simp only [pyGranted, Configuration.leaseMicros, hf, Option.getD_some]
    rw [satAdd64_eq (by omega)]
    omega
  · cases hl
    have hlast := ha.last ⟨peer, session, config, control, satAdd64 now config.leaseMicros⟩ rfl rfl
    exact ⟨m, rfl, ⟨hlast.valid, hlast.range, hlast.device, hlast.boot, hlast.session, hlast.epoch,
      hlast.id, hlast.configure⟩⟩
  · exact freshSchedules_eq now _ _ (by omega) (by omega)

/-- Both renew the lease. -/
theorem renewed (h : Related s p) {m : Envelope} {control : Control} {l : Lease}
    (ha : Admitted s m l.session control) (hk : control.kind = 3) (hl : s.lease = some l)
    (hid : l.last.id < control.id) {now : Nat} (hsat : now + 30000000 ≤ u64Max) :
    ∃ p', p.apply m control.kind (1000 * now) = some (p', 1) ∧
      Related (s.renewed l control now) p' ∧ p'.tokens = p.tokens := by
  have he : Effect s m l.peer now (s.renewed l control now, _) :=
    .renewed ha.asks hk hl rfl ha.epoch hid
  have hv := h.inv.valid l hl
  obtain ⟨_, _, _, _, ms, hf, -, -, -, -, hms⟩ := configurationValid_fields hv
  have hms : ms.toNat ≤ 30000 := UInt32.le_iff_toNat_le.1 hms
  have hconf : p.config = some l.configuration := by rw [h.config, hl]; rfl
  have howner : p.owner = some (l.peer, l.session) := by rw [h.owner, hl]; rfl
  have happly : p.apply m control.kind (1000 * now) = some ({ p.countReceived with
      lastControl := some m, expiry := 1000 * now + ms.toNat * 1000000 }, 1) := by
    unfold PyService.apply
    rw [if_neg (by omega)]
    simp [PyService.countReceived, hconf, hf]
  have hcnt := h.counted
  refine ⟨_, happly, ⟨h.inv.effect he, h.device, h.boot, h.encoding, h.crc, h.start, h.clock, h.epoch,
    h.exhausted, howner, hconf, fun l' hl' => ?_, (fun hn => by cases hn), fun l' hl' => ?_, h.schedules,
    hcnt.counters, h.quiet⟩, rfl⟩
  · cases hl'
    simp only [Configuration.leaseMicros, hf, Option.getD_some]
    rw [satAdd64_eq (by omega)]
    omega
  · cases hl'
    have hlast := ha.last { l with last := control } rfl rfl
    exact ⟨m, rfl, ⟨hlast.valid, hlast.range, hlast.device, hlast.boot, hlast.session, hlast.epoch,
      hlast.id, hlast.configure⟩⟩

/-- Both stop the run. -/
theorem stopped (h : Related s p) (m : Envelope) {kind : Int} (hk : kind = 4) (now : Nat) :
    ∃ p', p.apply m kind now = some (p', 3) ∧ (s.lease.isSome → Related s.stopped p') ∧
      p'.tokens = p.tokens := by
  refine ⟨({ p.countReceived with lastControl := some m } : PyService T).endLease,
    by unfold PyService.apply; rw [if_pos hk], fun hl => ?_, (PyService.endLease_bucket _).1⟩
  have := h.counted.endLease
  have hown : p.owner.isSome := h.isSome_owner.trans hl
  obtain ⟨owner, ho⟩ := Option.isSome_iff_exists.1 hown
  have heq : ({ p.countReceived with lastControl := some m } : PyService T).endLease =
      p.countReceived.endLease := by
    unfold PyService.endLease PyService.countReceived
    simp only [ho]
  rw [heq]
  exact this

theorem SameCode.ite {r r' : Service × Option Int} {q q' : Option (PyService T × Int)} {c c' : Prop}
    [Decidable c] [Decidable c'] (hc : c ↔ c') (h1 : c → SameCode p r q)
    (h2 : ¬ c → SameCode p r' q') : SameCode p (if c then r else r') (if c' then q else q') := by
  by_cases h : c
  · rw [if_pos h, if_pos (hc.1 h)]; exact h1 h
  · rw [if_neg h, if_neg (fun e => h (hc.2 e))]; exact h2 h

/-- Both chains, condition by condition. -/
theorem resultCode (h : Related s p) {m : Envelope} {peer : Peer} {session : HString 16}
    {control : Control} (hv : ValidAs m s.format s.crc control.kind) (ha : Asks m session control)
    (hd : m.deviceId = some s.device) (hb : m.bootId = some s.boot) {epoch : UInt32}
    (hep : m.runEpoch = some epoch) {now : Nat} (hsat : now + 30000000 ≤ u64Max) :
    SameCode p (s.resultCode m peer (s.owner peer session) session control now)
      (p.resultCode m (peer, session) control.kind control.id epoch (1000 * now)) := by
  have hsame : ∀ code, SameCode p (s, some code) (some (p, code)) :=
    fun code => ⟨p, code, h, rfl, rfl, rfl⟩
  have hpo := h.owner_iff peer session
  have hrange := ha.range
  unfold Service.resultCode PyService.resultCode
  refine .ite (by rw [hep, ne_eq, ne_eq, h.epoch_iff, Option.some.injEq]) (fun _ => hsame 6) fun he => ?_
  have hadm : Admitted s m session control := ⟨hv, ha, hd, hb, Decidable.not_not.1 he⟩
  refine .ite (by rw [h.exhausted]) (fun _ => hsame 10) fun hx => ?_
  refine .ite ?_ (fun _ => hsame 5) fun ho => ?_
  · rw [active, ← h.isSome_owner, Bool.and_eq_true, Bool.not_eq_true', ← Bool.not_eq_true, ← hpo]
  have hconf : control.kind = 2 → m.configure ≠ none := by
    intro h2 hn
    have := hv.body_unique.2.1
    rw [hn, h2] at this
    cases this
  have hvalid : ∀ c : Option Configuration, c.any pyValidConfiguration = c.any configurationValid :=
    fun c => by cases c <;> simp [validConfiguration_eq]
  cases hl : s.lease with
  | none =>
    have howner : p.owner = none := by rw [h.owner, hl]; rfl
    simp only [h.idle hl, howner, active, hl, Option.any_none, Option.isSome_none, Bool.false_eq_true,
      if_false, and_false, and_true, not_false_eq_true]
    refine .ite Iff.rfl (fun hc => absurd hc.2 (hconf hc.1)) fun _ => ?_
    refine .ite (by rw [hvalid]) (fun _ => hsame 4) fun hok => ?_
    refine .ite ⟨fun hk => by omega, fun hk => by omega⟩ (fun _ => hsame 9) fun hk => ?_
    have hk := Decidable.not_not.1 hk
    obtain ⟨config, hc⟩ := Option.ne_none_iff_exists'.1 (hconf hk)
    have hcv : configurationValid config = true := by simpa [hk, hc] using hok
    obtain ⟨s', hs', happ⟩ := acquire_eq hc hcv peer session control hk now (s := s)
    obtain ⟨p₁, hp₁, hp₂⟩ := pyGranted_eq p (peer, session) hc hcv hk (1000 * now)
    rw [if_pos hk, if_pos hk, hs', hp₁]
    simp only [happ, hp₂]
    exact ⟨_, 1, h.granted hadm peer hk hl (by simpa using hx) hc hcv hsat, rfl, rfl, rfl⟩
  | some l =>
    obtain ⟨mlast, hml, hlast⟩ := h.last l hl
    have hown : l.peer = peer ∧ l.session = session := by
      simp only [active, Service.owner, hl, Option.isSome_some, Option.any_some, Bool.true_and,
        Bool.not_eq_true', Bool.not_eq_false, Bool.and_eq_true, beq_iff_eq] at ho
      exact ho
    obtain ⟨rfl, rfl⟩ := hown
    have howner : p.owner = some (l.peer, l.session) := by rw [h.owner, hl]; rfl
    have hdup := h.duplicate_iff hadm hl rfl
    rw [hml] at hdup ⊢
    simp only [howner, active, hl, Option.any_some, Option.isSome_some, and_true, hlast.id,
      not_true_eq_false, and_false, if_false, reduceCtorEq]
    refine .ite (by simp) (fun _ => ?_) fun hid => ?_
    · by_cases hd : l.last = control
      · rw [if_pos (by simpa using hd), if_pos (hdup.2 hd)]; exact hsame 2
      · rw [if_neg (by simpa using hd), if_neg (fun e => hd (hdup.1 e))]; exact hsame 8
    refine .ite Iff.rfl (fun _ => hsame 7) fun hlt => ?_
    have hgt : l.last.id < control.id := by
      simp only [beq_iff_eq, decide_eq_true_eq] at hid hlt
      simp only [UInt32.lt_iff_toNat_lt] at hlt ⊢
      have : l.last.id.toNat ≠ control.id.toNat := fun e => hid (UInt32.toNat_inj.mp e)
      omega
    refine .ite Iff.rfl (fun hc => absurd hc.2 (hconf hc.1)) fun _ => ?_
    refine .ite (by rw [hvalid]) (fun _ => hsame 4) fun _ => ?_
    refine .ite Iff.rfl (fun _ => hsame 5) fun h2 => ?_
    rw [if_neg h2, if_neg h2]
    by_cases h4 : control.kind = 4
    · obtain ⟨p', hp', hrel, htok⟩ := h.stopped m h4 (1000 * now)
      have : s.apply control now = (s.stopped, some 3) := by unfold Service.apply; rw [if_pos h4]; rfl
      rw [this]
      exact ⟨p', 3, hrel (by rw [hl]; rfl), htok, rfl, hp'⟩
    · rw [renew_eq h.inv hl control h4]
      obtain ⟨p', hp', hrel, htok⟩ := h.renewed hadm (by omega) hl hgt hsat
      exact ⟨p', 1, hrel, htok, rfl, hp'⟩

/-- The control branch: code, rejection count and reply. -/
theorem control (F : Tokens T) (h : Related s p) {m : Envelope} {peer : Peer} {session : HString 16}
    {control : Control} (hv : ValidAs m s.format s.crc control.kind) (ha : Asks m session control)
    (hd : m.deviceId = some s.device) (hb : m.bootId = some s.boot) {now : Nat}
    (hsat : now + 30000000 ≤ u64Max) :
    Same F p (s.control m peer (s.owner peer session) control.kind session control.id now)
      (p.control F m (peer, session) control.kind (1000 * now)) := by
  obtain ⟨epoch, hep⟩ : ∃ epoch, m.runEpoch = some epoch := by
    have := (hv.correlated (by have := ha.range; omega)).2
    cases e : m.runEpoch with
    | none => rw [e] at this; cases this
    | some epoch => exact ⟨epoch, rfl⟩
  have hsame : SameCode p (s.resultCode m peer (s.owner peer session) session control now)
      (p.resultCode m (peer, session) control.kind control.id epoch (1000 * now)) :=
    h.resultCode hv ha hd hb hep hsat
  obtain ⟨p', code, hrel, htok, hcode, hpy⟩ := hsame
  unfold Service.control PyService.control
  rw [show (⟨control.kind, control.id, m.configure⟩ : Control) = control by rw [ha.configuration]]
  generalize s.resultCode m peer (s.owner peer session) session control now = r at hrel hcode
  obtain ⟨s', c⟩ := r
  simp only at hrel hcode
  subst hcode
  have hreply : ∀ {s' : Service} {p' : PyService T}, Related s' p' →
      p'.controlReply (peer, session) control.id epoch code (1000 * now) =
        s'.controlReply m peer session control.id code now := by
    intro s' p' hrel
    have hrem : UInt32.ofNat (p'.remaining (peer, session) epoch (1000 * now)) =
        s'.remaining m peer session now := by
      have hown := hrel.owner_iff peer session
      unfold PyService.remaining Service.remaining
      by_cases hc : s'.owner peer session = true ∧ epoch = s'.epoch
      · obtain ⟨l, hl, hp, hs⟩ := owner_true hc.1
        have hx := hrel.expiry l hl
        rw [if_pos ⟨hown.2 hc.1, (hrel.epoch_iff epoch).2 hc.2⟩, hl]
        simp only
        rw [if_pos ⟨hp, hs, by rw [hep, hc.2]⟩]
        congr 1; omega
      · rw [if_neg fun e => hc ⟨hown.1 e.1, (hrel.epoch_iff epoch).1 e.2⟩]
        cases hl : s'.lease with
        | none => rfl
        | some l =>
          simp only
          rw [if_neg]
          · rfl
          rintro ⟨hp, hs, he⟩
          refine hc ⟨by simp [Service.owner, hl, hp, hs], ?_⟩
          rw [hep] at he; exact Option.some.inj he
    unfold PyService.controlReply Service.controlReply
    rw [hrel.header, hrem, hep]
  simp only [ha.id, hep, hpy, conclude, Option.bind_eq_bind, Option.bind_some]
  by_cases hok : 1 ≤ code ∧ code ≤ 3
  · rw [if_pos (by omega : code = 1 ∨ code = 2 ∨ code = 3), if_pos hok]
    exact ⟨p', hrel, htok, by rw [hreply hrel]; rfl⟩
  · rw [if_neg (by omega : ¬ (code = 1 ∨ code = 2 ∨ code = 3)), if_neg hok]
    exact ⟨p'.reject, hrel.reject, p'.reject_tokens.trans htok, by rw [hreply hrel.reject]; rfl⟩

/-! ## Requests -/

/-- What both do after their ticks. -/
theorem assess (F : Tokens T) (h : Related s p) {m : Envelope} {kind : Int}
    (hv : ValidAs m s.format s.crc kind) (peer : Peer) {now : Nat} (hsat : now + 30000000 ≤ u64Max) :
    Same F p (s.assess m peer now) (p.afterTick F m peer (1000 * now)) := by
  have hreject : Same F p (s.reject false, .none) (some (p.reject, none)) :=
    ⟨p.reject, h.reject, p.reject_tokens, rfl⟩
  unfold Service.assess PyService.afterTick
  rw [hv.hasKind]
  by_cases hk : ¬ (1 ≤ kind ∧ kind ≤ 5)
  · rw [if_pos (refuses_other hv.hasKind hk)]
    simp only [Option.bind_eq_bind, Option.bind_some]
    rw [if_pos hk]
    exact hreject
  have hk := Decidable.not_not.1 hk
  have hdoor := h.misdirected hv hk
  cases hr : s.refuses m with
  | true =>
    rw [hr] at hdoor
    simp only [Option.bind_eq_bind, Option.bind_some, hdoor, if_true]
    rw [if_neg (fun e : ¬ (1 ≤ kind ∧ kind ≤ 5) => e hk)]
    exact hreject
  | false =>
    rw [hr] at hdoor
    obtain ⟨kind', session, id, hv', hs, hid, -, -, hdev, hboot⟩ := refuses_false hr
    cases hv.hasKind.symm.trans hv'.hasKind
    simp only [Option.bind_eq_bind, Option.bind_some, hdoor, hs, hid, Bool.false_eq_true, if_false]
    rw [if_neg (fun e : ¬ (1 ≤ kind ∧ kind ≤ 5) => e hk)]
    by_cases h1 : kind = 1
    · rw [if_pos h1, if_pos h1]
      refine ⟨p, h, rfl, ?_⟩
      rw [h.capabilitiesReply]
    rw [if_neg h1, if_neg h1]
    by_cases h5 : kind = 5
    · subst h5
      rw [if_pos rfl, if_pos rfl]
      exact h.probe F hv hid now
    rw [if_neg h5, if_neg h5]
    have hasks : Asks m session ⟨kind, id, m.configure⟩ :=
      ⟨hv.hasKind, ⟨by simp only; omega, by simp only; omega⟩, hs, hid, rfl⟩
    exact h.control F hv hasks hdev (hboot h1) hsat

/-- What a request lets out on the two sides: the same, or a capability or
control reply that an empty bucket held back on one of them. -/
def OutputsAgree (F : Tokens T) (s : Service) (p : PyService T) (m : Envelope) (now : Nat)
    (out out' : Option Envelope) : Prop :=
  out = out' ∨ m.kind.any (fun kind => 1 ≤ kind ∧ kind ≤ 4) = true ∧
    (out = none ∧ (s.tick now).tokens = 0 ∨
      out' = none ∧ F.short (F.refill p.tokens (1000 * now - p.bucketTime)) = true)

/-- **One request.** -/
theorem handle (F : Tokens T) (h : Related s p) {m : Envelope} (hm : validate m s.format s.crc = .ok ())
    (peer : Peer) {now : Nat} (hn : s.lastTime ≤ now) (hsat : now + 30000000 ≤ u64Max) :
    ∃ p' out', p.handle F m peer (1000 * now) = some (p', out') ∧
      Related (s.handle m peer now).1 p' ∧ OutputsAgree F s p m now (s.handle m peer now).2 out' := by
  obtain ⟨pt, hpt, ht, htok⟩ := h.tick F hn
  obtain ⟨-, -, hid⟩ := tick_frame s now
  obtain ⟨-, -, i3, i4⟩ : (s.tick now).device = s.device ∧ (s.tick now).boot = s.boot ∧
      (s.tick now).format = s.format ∧ (s.tick now).crc = s.crc := by
    simpa [identity] using hid
  obtain ⟨kind, hv⟩ := validate_ok_iff.1 hm
  rw [← i3, ← i4] at hv
  have hE := assess_effect ht.inv m peer now
  obtain ⟨-, -, hdry, -⟩ := effect_clock hE
  have hsame := ht.assess F hv peer hsat
  have hpy : p.handle F m peer (1000 * now) = pt.afterTick F m peer (1000 * now) := by
    unfold PyService.handle; rw [hpt]; rfl
  rw [hpy]
  unfold Service.handle
  generalize (s.tick now).assess m peer now = r at hsame hE hdry
  obtain ⟨s', o⟩ := r
  obtain ⟨p', hrel, htok', hq⟩ := hsame
  have hspend : ∀ reply, m.kind.any (fun kind => 1 ≤ kind ∧ kind ≤ 4) = true →
      ∃ q out', some (p'.spend F reply) = some (q, out') ∧ Related (s'.spend reply).1 q ∧
        OutputsAgree F s p m now (s'.spend reply).2 out' := by
    intro reply hkind
    obtain ⟨f1, f2, f3, f4, -, f6⟩ := spend_frame s' reply
    have hr := hrel.of_frame (hrel.inv.of_tenure f1 (Nat.le_trans f6 hrel.inv.tokens)) f1 f3 f2 f4
    have hout : (s'.spend reply).2 = some reply ∨ (s'.spend reply).2 = none ∧ (s.tick now).tokens = 0 := by
      unfold Service.spend; split
      · rename_i h0; exact .inr ⟨rfl, hdry.symm.trans h0⟩
      · exact .inl rfl
    unfold PyService.spend
    split
    · rename_i h0
      refine ⟨_, _, rfl, hr.bucket _ _ _, .inr ⟨hkind, .inr ⟨rfl, ?_⟩⟩⟩
      rw [← htok, ← htok']; exact h0
    · refine ⟨_, _, rfl, hr.bucket _ _ _, ?_⟩
      rcases hout with hout | hout
      · exact .inl hout
      · exact .inr ⟨hkind, .inl hout⟩
  cases o with
  | none => exact ⟨p', none, hq, hrel, .inl rfl⟩
  | probe out => exact ⟨p', some out, hq, hrel, .inl rfl⟩
  | capabilities reply =>
    have hkind : m.kind.any (fun kind => 1 ≤ kind ∧ kind ≤ 4) = true := by
      cases hE with
      | capabilities hk => rw [hk]; decide
    obtain ⟨q, out', h1, h2, h3⟩ := hspend reply hkind
    exact ⟨q, out', hq.trans h1, h2, h3⟩
  | control code reply =>
    have hkind : m.kind.any (fun kind => 1 ≤ kind ∧ kind ≤ 4) = true := by
      obtain ⟨session, c, hasks⟩ := hE.control_asks
      have := hasks.range
      rw [hasks.kind, Option.any_some, decide_eq_true_eq]
      omega
    obtain ⟨q, out', h1, h2, h3⟩ := hspend reply hkind
    exact ⟨q, out', hq.trans h1, h2, h3⟩

/-! ## Polls -/

/-- Related up to the schedules, which Python's loop updates entry by entry. -/
def RelatedBut (s : Service) (p : PyService T) : Prop :=
  Related s { p with schedules := pyStreams s.schedules }

theorem advance_eq (kind : Int) (p : Publication) {now : Nat} (hp : p.period ≠ 0) (hd : p.due ≤ now)
    (hsat : now + p.period.toNat ≤ u64Max) :
    pyStream kind (p.advance now).1 = some ((pyEntry kind p).advance (1000 * now)).1 ∧
      ((pyEntry kind p).advance (1000 * now)).2 = ((p.advance now).2.1.toNat, (p.advance now).2.2) := by
  have hpos : 0 < p.period.toNat := Nat.pos_of_ne_zero fun h => hp (UInt32.toNat_inj.mp h)
  have hskip : (1000 * now - 1000 * p.due) / (1000 * p.period.toNat) = (now - p.due) / p.period.toNat := by
    rw [← Nat.mul_sub, Nat.mul_div_mul_left _ _ (by decide)]
  have hdiv := Nat.div_add_mod' (now - p.due) p.period.toNat
  have hmod := Nat.mod_lt (now - p.due) hpos
  have hseq := toNat_add_ofNat p.sequence ((now - p.due) / p.period.toNat)
  unfold PyStream.advance Publication.advance pyStream
  simp only [pyEntry, hskip, hp, if_false, Option.some.injEq, PyStream.mk.injEq, true_and, and_true, hseq]
  rw [satAdd64_eq (by omega), UInt32.toNat_add, hseq, Nat.add_mul, Nat.one_mul, Nat.mul_left_comm]
  exact ⟨by omega, rfl⟩

theorem pyHealth (h : Related s p) : p.health = s.counters.health := by
  have hc := h.counters
  simp only [pyCounters] at hc
  unfold PyService.health Counters.health
  rw [h.quiet.1, h.quiet.2, hc]
  simp

/-- One stream's turn in Python's loop against one poll in Rust. -/
theorem publish {q : PyService T} {now : Nat} (h : RelatedBut s q) (hsat : now + 30000000 ≤ u64Max) {index : Nat}
    (hx : index < 2) {r : Service × Option Envelope}
    (hr : Polled s index now r) :
    match pyStream (21 + index) s.schedules[index] with
    | none => r = (s, none)
    | some e => ∃ q' e', q.publish e (1000 * now) = some (q', e', r.2) ∧
        pyStream (21 + index) r.1.schedules[index] = some e' ∧ RelatedBut r.1 q' := by
  by_cases hp : s.schedules[index].period = 0
  · have : pyStream (21 + index) s.schedules[index] = none := by unfold pyStream; rw [if_pos hp]
    rw [this]
    cases hr with
    | silent => rfl
    | sent _ _ hne => exact absurd hp hne
  have hsome : pyStream (21 + index) s.schedules[index] = some (pyEntry (21 + index) s.schedules[index]) :=
    if_neg hp
  rw [hsome]
  simp only
  obtain ⟨l, hl⟩ : ∃ l, s.lease = some l := by
    cases hl : s.lease with
    | some l => exact ⟨l, rfl⟩
    | none =>
      refine absurd ?_ hp
      have := h.inv.idle hl
      simp only [this, cleared, Vector.getElem_replicate]
  have hinv := h.inv.polled hr
  cases hr with
  | silent hd =>
    have hlt : now < s.schedules[index].due := by
      refine Nat.lt_of_not_le fun hle => hd ⟨hx, by rw [hl]; rfl, hp, hle⟩
    refine ⟨q, _, ?_, hsome, h⟩
    unfold PyService.publish
    rw [if_pos (by simp only [pyEntry]; omega)]
  | @sent l' hl' _ _ hd payload hpay =>
    cases hl.symm.trans hl'
    have hv := h.inv.valid l hl
    have hper : (s.schedules[index]).period = l.configuration.period index := h.inv.periods l hl index hx
    have hbound : (s.schedules[index]).period.toNat ≤ 10000000 := by rw [hper]; exact period_le hv index
    obtain ⟨a1, a2⟩ := advance_eq (21 + index) s.schedules[index] hp hd (by omega)
    obtain ⟨length, seed, _, _, _, hc, hlen, -⟩ := configurationValid_fields hv
    rw [hc] at hpay
    obtain ⟨payload', hpat, hbytes⟩ := pattern_eq length seed (s.schedules[index].advance now).2.1
      (UInt32.le_iff_toNat_le.1 hlen)
    cases hpay.symm.trans hpat
    have hconf : q.config = some l.configuration := h.config.trans (by rw [hl]; rfl)
    have howner : q.owner = some (l.peer, l.session) := h.owner.trans (by rw [hl]; rfl)
    let q' : PyService T := { q with counters := { q.counters with
      skipped := pyCount q.counters.skipped (s.schedules[index].advance now).2.2 } }
    have hrel : RelatedBut (s.advanced index hx now) q' := by
      refine ⟨hinv, h.device, h.boot, h.encoding, h.crc, h.start, h.clock, h.epoch, h.exhausted,
        h.owner, h.config, h.expiry, h.idle, fun l hl => ?_, rfl, ?_, h.quiet⟩
      · obtain ⟨m, hm, hv⟩ := h.last l hl
        exact ⟨m, hm, ⟨hv.valid, hv.range, hv.device, hv.boot, hv.session, hv.epoch, hv.id,
          hv.configure⟩⟩
      · have hcnt : q.counters = pyCounters s.counters := h.counters
        have hskip := toNat_skip s.counters (s.schedules[index].advance now).2.2
        simp only [q', hcnt, pyCounters, advanced, hskip, pyCount, Nat.min_comm]
        rfl
    have hmsg : q'.sample (21 + index) l.session (s.schedules[index].advance now).2.1.toNat payload
          (1000 * now) =
        (s.advanced index hx now).sample index l.session (s.schedules[index].advance now).2.1 payload
          now := by
      have hh : q'.header l.session (21 + index) (1000 * now) =
          (s.advanced index hx now).base l.session (21 + index) now := hrel.header _ _ _
      have hhealth : q'.health = (s.advanced index hx now).counters.health := hrel.pyHealth
      unfold PyService.sample Service.sample
      rw [hh, hhealth, UInt32.ofNat_toNat]
      by_cases h0 : index = 0
      · rw [if_pos h0, if_pos (by omega)]
      · rw [if_neg h0, if_neg (by omega)]
    refine ⟨q', ((pyEntry (21 + index) s.schedules[index]).advance (1000 * now)).1, ?_, ?_, hrel⟩
    · unfold PyService.publish
      rw [if_neg (by simp only [pyEntry]; omega)]
      obtain ⟨a3, a4⟩ := Prod.ext_iff.1 a2
      simp only [Option.bind_eq_bind, howner, hconf, hc, Option.bind_some, a3, a4, ← hbytes,
        HString.ofBytes?_bytes, Option.pure_def, Option.some.injEq, Prod.mk.injEq, true_and]
      exact ⟨by rw [← howner, ← hc, ← hconf], hmsg⟩
    · simp only [advanced, Vector.getElem_set_self]
      exact a1

theorem polled_clock {s : Service} {index now : Nat} {r : Service × Option Envelope}
    (hr : Polled s index now r) : r.1.lease = s.lease ∧ r.1.lastTime = s.lastTime := by
  cases hr <;> exact ⟨rfl, rfl⟩

/-- After a tick nothing expires at the same time. -/
theorem tick_settled (s : Service) (now : Nat) {r : Service × Option Envelope} {index : Nat}
    (hr : Polled (s.tick now) index now r) : (r.1.tick now).tenure = r.1.tenure := by
  obtain ⟨hlease, hclk⟩ := polled_clock hr
  cases hl : (s.tick now).lease with
  | none => exact tick_lease_none (hlease.trans hl)
  | some l =>
    obtain ⟨-, -, -, hlive⟩ := tick_lease_some hl
    refine tick_stays ?_
    rw [lapses, hlease, hclk, (tick_frame s now).1, hl]
    simp only [Nat.lt_irrefl, decide_false, Option.any_some, Bool.false_or, decide_eq_false_iff_not]
    omega

theorem pyStreams_eq (schedules : Vector Publication 2) :
    pyStreams schedules = (pyStream 21 schedules[0]).toList ++ (pyStream 22 schedules[1]).toList := by
  unfold pyStreams
  cases pyStream 21 schedules[0] <;> cases pyStream 22 schedules[1] <;> rfl

/-- The turn of one stream in Python's loop, whatever follows it. -/
theorem turn {q : PyService T} {now : Nat} (h : RelatedBut s q) (hsat : now + 30000000 ≤ u64Max)
    {index : Nat} (hx : index < 2) {r : Service × Option Envelope} (hr : Polled s index now r) :
    ∃ q', RelatedBut r.1 q' ∧ ∀ rest,
      q.publishAll (1000 * now) ((pyStream (21 + index) s.schedules[index]).toList ++ rest) =
        (q'.publishAll (1000 * now) rest).map fun (q, streams, messages) =>
          (q, (pyStream (21 + index) r.1.schedules[index]).toList ++ streams,
            r.2.toList ++ messages) := by
  have hturn := publish h hsat hx hr
  cases hs : pyStream (21 + index) s.schedules[index] with
  | none =>
    rw [hs] at hturn
    subst hturn
    refine ⟨q, h, fun rest => ?_⟩
    rw [hs]
    simp
  | some e =>
    rw [hs] at hturn
    obtain ⟨q', e', h1, h2, h3⟩ := hturn
    refine ⟨q', h3, fun rest => ?_⟩
    rw [h2]
    simp only [Option.toList_some, List.singleton_append, PyService.publishAll, h1, Option.bind_eq_bind,
      Option.bind_some]
    cases q'.publishAll (1000 * now) rest <;> rfl

/-- **One poll of both streams.** -/
theorem poll (F : Tokens T) (h : Related s p) {now : Nat} (hn : s.lastTime ≤ now)
    (hsat : now + 30000000 ≤ u64Max) :
    let r₀ := s.publication 0 now
    let r₁ := r₀.1.publication 1 now
    ∃ p', p.publications F (1000 * now) = some (p', r₀.2.toList ++ r₁.2.toList) ∧ Related r₁.1 p' := by
  intro r₀ r₁
  obtain ⟨pt, hpt, ht, -⟩ := h.tick F hn
  have hbut : RelatedBut (s.tick now) pt := by
    unfold RelatedBut
    rw [← ht.schedules]
    exact ht
  have hr₀ : Polled (s.tick now) 0 now r₀ := publication_polled 0 ht.inv
  obtain ⟨q₀, hq₀, hturn₀⟩ := turn hbut hsat (by decide) hr₀
  -- the second poll's tick finds the clock where it is
  have hset := tick_settled s now hr₀
  have hi₀ : Inv (r₀.1.tick now) := hq₀.inv.tick now
  have hr₁ : Polled (r₀.1.tick now) 1 now r₁ := publication_polled 1 hi₀
  have hstream : (r₀.1.tick now).schedules = r₀.1.schedules := (tenure_eq_iff.1 hset).2.1
  have hbut₀ : RelatedBut (r₀.1.tick now) q₀ := by
    obtain ⟨c1, c2, c3⟩ := tick_frame r₀.1 now
    have hclk : r₀.1.lastTime = now := (polled_clock hr₀).2.trans (tick_frame s now).1
    unfold RelatedBut
    rw [hstream]
    exact Related.of_frame hq₀ hi₀ hset c3 c2 (c1.trans hclk.symm)
  obtain ⟨q₁, hq₁, hturn₁⟩ := turn hbut₀ hsat (by decide) hr₁
  have h0 : r₁.1.schedules[0] = r₀.1.schedules[0] := by
    rw [(polled_schedule hr₁ (by decide) (by decide)).2]; simp only [hstream]
  have h1 : (r₀.1.tick now).schedules[1] = (s.tick now).schedules[1] := by
    simp only [hstream]; exact (polled_schedule hr₀ (by decide) (by decide)).2
  have hloop : pt.publishAll (1000 * now) pt.schedules =
      some (q₁, pyStreams r₁.1.schedules, r₀.2.toList ++ r₁.2.toList) := by
    have e₁ := hturn₁ []
    rw [List.append_nil, h1] at e₁
    rw [ht.schedules, pyStreams_eq, pyStreams_eq, h0]
    refine (hturn₀ _).trans ?_
    refine (congrArg _ e₁).trans ?_
    simp [PyService.publishAll]
  refine ⟨{ q₁ with schedules := pyStreams r₁.1.schedules }, ?_, hq₁⟩
  unfold PyService.publications
  rw [hpt]
  simp only [Option.bind_eq_bind, Option.bind_some, hloop, Option.pure_def]

end Related

/-! ## Runs -/

/-- What a run of either service is in: its epoch, the tenure of the lease and
the counters, with times in nanoseconds. -/
structure Abstract where
  epoch : Nat
  exhausted : Bool
  owner : Option (Peer × HString 16)
  config : Option Configuration
  /-- Kind, ID and configuration. -/
  lastControl : Option (Option Int × Option UInt32 × Option Configuration)
  /-- While there is an owner. -/
  expiry : Option Nat
  /-- The enabled streams. -/
  schedules : List PyStream
  counters : PyCounters
  deriving DecidableEq

def Service.abstract (s : Service) : Abstract where
  epoch := s.epoch.toNat
  exhausted := s.exhausted
  owner := s.lease.map fun l => (l.peer, l.session)
  config := s.lease.map (·.configuration)
  lastControl := s.lease.map fun l => (some l.last.kind, some l.last.id, l.last.configuration)
  expiry := s.lease.map (1000 * ·.expiry)
  schedules := pyStreams s.schedules
  counters := pyCounters s.counters

def PyService.abstract {T : Type} (p : PyService T) : Abstract where
  epoch := p.epoch
  exhausted := p.exhausted
  owner := p.owner
  config := p.config
  lastControl := p.lastControl.map fun m => (m.kind, m.requestId, m.configure)
  expiry := p.owner.map fun _ => p.expiry
  schedules := p.schedules
  counters := p.counters

theorem Related.abstract_eq {T : Type} {s : Service} {p : PyService T} (h : Related s p) :
    p.abstract = s.abstract := by
  have hlast : (p.lastControl.map fun m => (m.kind, m.requestId, m.configure)) =
      s.lease.map fun l => (some l.last.kind, some l.last.id, l.last.configuration) := by
    cases hl : s.lease with
    | none => rw [h.idle hl]; rfl
    | some l =>
      obtain ⟨m, hm, hv⟩ := h.last l hl
      rw [hm]
      simp only [Option.map_some, hv.valid.hasKind, hv.id, hv.configure]
  have hexp : (p.owner.map fun _ => p.expiry) = s.lease.map (1000 * ·.expiry) := by
    rw [h.owner]
    cases hl : s.lease with
    | none => rfl
    | some l => simp only [Option.map_some, h.expiry l hl]
  unfold PyService.abstract Service.abstract
  rw [hlast, hexp, h.epoch, h.exhausted, h.owner, h.config, h.schedules, h.counters]

/-- One step of a run, at a whole microsecond. -/
inductive Call where
  | request (message : Envelope) (peer : Peer) (now : Nat)
  | poll (now : Nat)
  deriving DecidableEq

namespace Call

def time : Call → Option Nat
  | request _ _ now | poll now => some now

/-- A request validates, and no deadline set now saturates. -/
def Admissible (format : Format) (crc : CrcMode) : Call → Prop
  | request m _ now => validate m format crc = .ok () ∧ now + 30000000 ≤ u64Max
  | poll now => now + 30000000 ≤ u64Max

end Call

namespace Service

/-- `handle`, or `publication` for one stream and then the other. -/
def serve (s : Service) : Call → Service × List Envelope
  | .request m peer now => ((s.handle m peer now).1, (s.handle m peer now).2.toList)
  | .poll now =>
    let r₀ := s.publication 0 now
    let r₁ := r₀.1.publication 1 now
    (r₁.1, r₀.2.toList ++ r₁.2.toList)

def server : Machine Service Call (List Envelope) := ⟨serve⟩

end Service

namespace PyService

variable {T : Type}

/-- `handle` or `publications`; Python reads its clock in nanoseconds. -/
def serve (F : Tokens T) (p : PyService T) : Call → Option (PyService T × List Envelope)
  | .request m peer now => (p.handle F m peer (1000 * now)).map fun (p, out) => (p, out.toList)
  | .poll now => p.publications F (1000 * now)

/-- A whole run; `none` once a call has raised. -/
def run (F : Tokens T) (p : PyService T) : List Call → Option (PyService T)
  | [] => some p
  | c :: cs => do
    let (p, _) ← p.serve F c
    run F p cs

end PyService

/-- Equal outputs, but for a capability or control reply that an empty bucket
held back. -/
def CallsAgree {T : Type} (F : Tokens T) (s : Service) (p : PyService T) :
    Call → List Envelope → List Envelope → Prop
  | .poll _, out, out' => out = out'
  | .request m _ now, out, out' =>
    out = out' ∨ m.kind.any (fun kind => 1 ≤ kind ∧ kind ≤ 4) = true ∧
      (out = [] ∧ (s.tick now).tokens = 0 ∨
        out' = [] ∧ F.short (F.refill p.tokens (1000 * now - p.bucketTime)) = true)

namespace Related

open Service

variable {T : Type} {s : Service} {p : PyService T}

/-- One step of both. -/
theorem serve (F : Tokens T) (h : Related s p) {c : Call} (hc : c.Admissible s.format s.crc)
    (ht : Timely Call.time s.lastTime c) :
    ∃ p' out', p.serve F c = some (p', out') ∧ Related (s.serve c).1 p' ∧
      CallsAgree F s p c (s.serve c).2 out' := by
  cases c with
  | request m peer now =>
    obtain ⟨p', out', hpy, hrel, hout⟩ := h.handle F hc.1 peer (ht now rfl) hc.2
    refine ⟨p', out'.toList, by simp only [PyService.serve, hpy, Option.map_some], hrel, ?_⟩
    simp only [Service.serve, CallsAgree]
    rcases hout with hout | ⟨hk, ⟨hout, hdry⟩ | ⟨hout, hdry⟩⟩
    · exact .inl (congrArg _ hout)
    · exact .inr ⟨hk, .inl ⟨by rw [hout]; rfl, hdry⟩⟩
    · exact .inr ⟨hk, .inr ⟨by rw [hout]; rfl, hdry⟩⟩
  | poll now =>
    obtain ⟨p', hpy, hrel⟩ := h.poll F (ht now rfl) hc
    exact ⟨p', _, hpy, hrel, rfl⟩

/-- A call leaves identity alone and moves the clock to its time. -/
theorem serve_frame (hi : Inv s) (c : Call) :
    (s.serve c).1.format = s.format ∧ (s.serve c).1.crc = s.crc ∧
      (s.serve c).1.lastTime = (c.time).getD s.lastTime := by
  have split : ∀ {a b : Service}, a.identity = b.identity → a.format = b.format ∧ a.crc = b.crc := by
    intro a b hab
    simp only [identity, Prod.mk.injEq] at hab
    exact ⟨hab.2.2.1, hab.2.2.2⟩
  cases c with
  | request m peer now =>
    obtain ⟨h1, h2⟩ := split (next_identity hi (.handle m peer now))
    exact ⟨h1, h2, next_lastTime hi (.handle m peer now)⟩
  | poll now =>
    have hi' := hi.next (.publication 0 now)
    obtain ⟨h1, h2⟩ := split ((next_identity hi' (.publication 1 now)).trans
      (next_identity hi (.publication 0 now)))
    exact ⟨h1, h2, next_lastTime hi' (.publication 1 now)⟩

/-- Runs keep the relation. -/
theorem run (F : Tokens T) (h : Related s p) {cs : List Call}
    (hc : ∀ c ∈ cs, c.Admissible s.format s.crc) (hm : Mono Call.time s.lastTime cs) :
    ∃ p', p.run F cs = some p' ∧ Related (server.run s cs) p' ∧
      (server.run s cs).format = s.format ∧ (server.run s cs).crc = s.crc ∧
      ∀ c, Mono Call.time s.lastTime (cs ++ [c]) → Timely Call.time (server.run s cs).lastTime c := by
  induction cs generalizing s p with
  | nil => exact ⟨p, rfl, h, rfl, rfl, fun c hmc => (mono_cons.1 hmc).1⟩
  | cons c cs ih =>
    obtain ⟨ht, hm⟩ := mono_cons.1 hm
    obtain ⟨p₁, out, hpy, hrel, -⟩ := h.serve F (hc c List.mem_cons_self) ht
    obtain ⟨f1, f2, f3⟩ := serve_frame h.inv c
    obtain ⟨p', hrun, hrel', g1, g2, g3⟩ := ih hrel
      (fun c' hc' => by rw [f1, f2]; exact hc c' (List.mem_cons_of_mem _ hc')) (by rw [f3]; exact hm)
    refine ⟨p', ?_, hrel', g1.trans f1, g2.trans f2, fun c' hmc => g3 c' ?_⟩
    · unfold PyService.run
      simp only [hpy, Option.bind_eq_bind, Option.bind_some, hrun]
    · rw [f3]; exact (mono_cons.1 hmc).2

end Related

/-- **Equivalence of the two services.** Started alike at time 0 and given the
same validated requests and polls at nondecreasing times, Python never raises
and after every step both are in the same abstract state; every poll sends the
same publications, and a request gets the same answer unless a bucket is empty. -/
theorem services_equivalent {T : Type} (F : Tokens T) (device : HString 32) (boot : HString 16)
    (format : Format) (crc : CrcMode) (cs : List Call) (c : Call)
    (hc : ∀ c' ∈ cs ++ [c], c'.Admissible format crc) (hm : Mono Call.time 0 (cs ++ [c])) :
    let s := Service.server.run (Service.new device boot format crc 0) cs
    ∃ p p' out', (PyService.new F device boot format crc 0).run F cs = some p ∧
      p.abstract = s.abstract ∧ p.serve F c = some (p', out') ∧ p'.abstract = (s.serve c).1.abstract ∧
      CallsAgree F s p c (s.serve c).2 out' := by
  intro s
  have hprefix : Mono Call.time 0 cs := hm.of_append
  obtain ⟨p, hrun, hrel, hformat, hcrc, htime⟩ := (Related.new F device boot format crc).run F
    (fun c' hc' => hc c' (List.mem_append_left _ hc')) hprefix
  have hlast := hc c (List.mem_append_right _ List.mem_cons_self)
  obtain ⟨p', out', hcall, hrel', hagree⟩ := hrel.serve F (by rw [hformat, hcrc]; exact hlast) (htime c hm)
  exact ⟨p, p', out', hrun, hrel.abstract_eq, hcall, hrel'.abstract_eq, hagree⟩

/-- The bucket without rounding, in units of a hundred-millionth of a token: one
for each nanosecond. -/
def Sample.tokens : Tokens Nat where
  full := 1000000000
  refill tokens elapsed := min 1000000000 (tokens + elapsed)
  short tokens := tokens < 100000000
  spend tokens := tokens - 100000000

/-- A configuration with both streams, polls, and a renewal. -/
def Sample.calls : List Call :=
  [.request (Sample.configure 5 1) Sample.peer 0, .poll 1000, .poll 10500]

theorem services_equivalent_sample :
    let s := Service.server.run Sample.service Sample.calls
    let c := Call.request (Sample.renew 6 1) Sample.peer 20000
    ∃ p p' out', (PyService.new Sample.tokens Sample.device Sample.boot .csv .on 0).run Sample.tokens
        Sample.calls = some p ∧
      p.abstract = s.abstract ∧ p.serve Sample.tokens c = some (p', out') ∧
      p'.abstract = (s.serve c).1.abstract ∧ CallsAgree Sample.tokens s p c (s.serve c).2 out' := by
  refine services_equivalent Sample.tokens Sample.device Sample.boot .csv .on Sample.calls
    (.request (Sample.renew 6 1) Sample.peer 20000) ?_ (by decide)
  intro c hc
  simp only [Sample.calls, List.cons_append, List.nil_append, List.mem_cons, List.not_mem_nil,
    or_false] at hc
  rcases hc with rfl | rfl | rfl | rfl
  · exact ⟨by rfl, by decide⟩
  · exact (by decide : 1000 + 30000000 ≤ u64Max)
  · exact (by decide : 10500 + 30000000 ≤ u64Max)
  · exact ⟨by rfl, by decide⟩

end Nucleo.Benchmark
