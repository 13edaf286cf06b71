import Nucleo.L1Encoding.BenchmarkFormats
import Nucleo.L2Machine.ServiceSteps

/-!
# Every message of the service is sendable

What `handle` and `publication` return is put together from the live state: the
identity, the epoch, the lease and its configuration, the counters. `Sound` is
what a run keeps of them, whatever the clock does and whatever the caller writes
to the public counters, and it makes every message pass the validator, which
makes it fit a datagram in every format.

Results:
* `Sound.next`: the invariant of a run.
* `Sound.handle`, `Sound.publication`: replies and publications validate.
* `service_sendable`: every message of every run is valid, echoes what it
  answers and is encoded.
-/
namespace Nucleo.Benchmark

namespace Service

/-! ## Valid messages -/

/-- The header of a message that is no request. -/
structure Header (device : HString 32) (boot : HString 16) (m : Envelope) (kind : Int) : Prop where
  version : m.protocolVersion = some 1
  device : m.deviceId = some device
  boot : m.bootId = some boot
  session : nonce m.sessionId = true
  kind : m.kind = some kind
  epoch : ∃ e, m.runEpoch = some e ∧ e ≠ 0
  uptime : m.uptimeMs.isSome = true

section
variable {device : HString 32} {boot : HString 16} {m : Envelope} {kind : Int} {format : Format} {crc : CrcMode}
  (hdevice : deviceIdValid (some device) = true) (hboot : nonce (some boot) = true)
  (h : Header device boot m kind)
include hdevice hboot h

/-- The checks of a reply that are left when its header is right. -/
theorem Header.reply (hkind : kind = 11 ∨ kind = 12 ∨ kind = 15) (hone : bodies m = 1)
    (hbody : bodyMatches m kind = true) (hsequence : m.sequence = none)
    (hid : ∃ id, m.requestId = some id ∧ id ≠ 0) (hpayload : m.payload.isSome = isData kind)
    (hchars : ∀ p, m.payload = some p → p.bytes.all isAlnum = true) (hconfigure : m.configure = none)
    (hlimits : ∀ l, m.limits = some l → limitsValid l format crc = true)
    (hresult : ∀ r, m.result = some r → resultValid r = true)
    (hsample : m.status = none ∧ m.health = none) : validate m format crc = .ok () := by
  obtain ⟨e, he, he0⟩ := h.epoch
  obtain ⟨id, hid, hid0⟩ := hid
  have hpos : ∀ v : UInt32, v ≠ 0 → decide (0 < v) = true := fun v hv =>
    decide_eq_true (UInt32.pos_iff_ne_zero.2 hv)
  have hno : isRequest kind = false ∧ isPublication kind = false := by
    rcases hkind with rfl | rfl | rfl <;> decide
  refine validate_ok_iff.2 ⟨kind, h.version, h.device ▸ hdevice, h.session, h.kind, hone, hbody, ?_, ?_, ?_, ?_, ?_,
    ?_, hpayload, hchars, ?_, hlimits, hresult, ?_⟩
  · rw [h.uptime, hno.1]; rfl
  · rw [hsequence, hno.2]; rfl
  · rw [hid, hno.2]; rfl
  · intro _
    rw [hid]
    exact hpos id hid0
  · rintro rfl
    omega
  · intro _
    rw [h.boot, he]
    exact ⟨hboot, hpos e he0⟩
  · intro c hc
    rw [hconfigure] at hc
    cases hc
  · intro hs
    rw [hsample.1, hsample.2] at hs
    cases hs

/-- The checks of a publication that are left when its header is right; its sample passes those of the
normal protocol. -/
theorem Header.publication (hkind : kind = 21 ∨ kind = 22) (hone : bodies m = 1) (hbody : bodyMatches m kind = true)
    (hsequence : m.sequence.isSome = true) (hid : m.requestId = none) (hpayload : m.payload.isSome = true)
    (hchars : ∀ p, m.payload = some p → p.bytes.all isAlnum = true)
    (hothers : m.configure = none ∧ m.limits = none ∧ m.result = none)
    (hstatus : m.status.isSome = (kind == 21)) (hhealth : m.health.isSome = (kind == 22))
    (hstatusValid : ∀ status, m.status = some status → Validation.statusValid status = true)
    (hhealthValid : ∀ health, m.health = some health → Validation.healthValid health = true) :
    validate m format crc = .ok () := by
  obtain ⟨e, he, he0⟩ := h.epoch
  have hpos : decide (0 < e) = true := decide_eq_true (UInt32.pos_iff_ne_zero.2 he0)
  obtain ⟨hconfigure, hlimits, hresult⟩ := hothers
  have hsample : Validation.validate (toNormal m kind) format = .ok () := by
    have hheader : nonce m.bootId = true := h.boot ▸ hboot
    have hid : deviceIdValid m.deviceId = true := h.device ▸ hdevice
    refine Validation.validate_ok_iff.2 ⟨kind, rfl, hid, rfl, ?_, ?_, ?_, ?_, ?_, ?_, ?_, hstatusValid,
      hhealthValid, ?_⟩
    · rcases hkind with rfl | rfl <;> rfl
    · simp only [Validation.bodies, toNormal, hstatus, hhealth]
      rcases hkind with rfl | rfl <;> rfl
    · simp only [Validation.bodyMatches, toNormal, hstatus, hhealth]
      rcases hkind with rfl | rfl <;> rfl
    · rcases hkind with rfl | rfl <;> (intro hr; cases hr)
    · rcases hkind with rfl | rfl <;> (intro hr; cases hr)
    · intro _
      simp only [toNormal, hheader, h.uptime, hsequence]
      rfl
    · nofun
    · nofun
  have hno : isRequest kind = false ∧ isPublication kind = true ∧ isData kind = true := by
    rcases hkind with rfl | rfl <;> decide
  refine validate_ok_iff.2 ⟨kind, h.version, h.device ▸ hdevice, h.session, h.kind, hone, hbody, ?_, ?_, ?_, ?_, ?_,
    ?_, ?_, hchars, ?_, ?_, ?_, fun _ => hsample⟩
  · rw [h.uptime, hno.1]; rfl
  · rw [hsequence, hno.2.1]
  · rw [hid, hno.2.1]; rfl
  · intro hp
    rw [hno.2.1] at hp
    cases hp
  · rintro rfl
    omega
  · intro _
    rw [h.boot, he]
    exact ⟨hboot, hpos⟩
  · rw [hpayload, hno.2.2]
  · intro c hc
    rw [hconfigure] at hc
    cases hc
  · intro l hl
    rw [hlimits] at hl
    cases hl
  · intro r hr
    rw [hresult] at hr
    cases hr

end

/-! ## The invariant of a run -/

/-- What the caller does to the service: a call, or a write to the public counters. -/
inductive Access
  | op (op : Op)
  | counters (counters : Counters) (suppressedReplies : UInt32)

/-- The service in the hands of its caller. -/
def served : Machine Service Access (Option Envelope) where
  step s
    | .op op => machine.step s op
    | .counters counters suppressedReplies => ({ s with counters, suppressedReplies }, none)

/-- What a run keeps: the identity, an epoch that is not zero, and of a lease a well-formed session and a
deadline within its length. -/
structure Sound (identity : HString 32 × HString 16 × Format × CrcMode) (s : Service) : Prop where
  inv : Inv s
  identity : s.identity = identity
  epoch : s.epoch ≠ 0
  session : ∀ l, s.lease = some l → nonce (some l.session) = true
  expiry : ∀ l, s.lease = some l → l.expiry ≤ s.lastTime + l.configuration.leaseMicros

section
variable {identity : HString 32 × HString 16 × Format × CrcMode} {s s' : Service}

theorem Sound.new (device : HString 32) (boot : HString 16) (format : Format) (crc : CrcMode) (now : Nat) :
    Sound (device, boot, format, crc) (Service.new device boot format crc now) where
  inv := Inv.new device boot format crc now
  identity := rfl
  epoch := by show (1 : UInt32) ≠ 0; decide
  session _ h := by cases h
  expiry _ h := by cases h

theorem endLease_epoch (h : s.epoch ≠ 0) : s.endLease.epoch ≠ 0 := by
  cases hl : s.lease with
  | none => rwa [endLease_none hl]
  | some l =>
    rcases endLease_some hl with ⟨hne, ht⟩ | ⟨-, ht⟩
    · rw [show s.endLease.epoch = s.epoch + 1 from congrArg Tenure.epoch ht]
      intro h0
      have hlt := s.epoch.toNat_lt
      have hmax : s.epoch.toNat ≠ u32Max := fun he => hne (UInt32.toNat_inj.1 (by rw [he]; rfl))
      have := congrArg UInt32.toNat h0
      rw [UInt32.toNat_add] at this
      simp only [u32Max, UInt32.toNat_one, UInt32.toNat_zero] at this hmax
      omega
    · rwa [show s.endLease.epoch = s.epoch from congrArg Tenure.epoch ht]

/-- A step that leaves the lease alone, or ends it. -/
theorem Sound.keep (h : Sound identity s) (hi : Inv s') (hid : s'.identity = s.identity)
    (ht : s'.tenure = s.tenure ∧ s.lastTime ≤ s'.lastTime ∨ s'.tenure = s.endLease.tenure) : Sound identity s' := by
  rcases ht with ⟨ht, hclock⟩ | ht
  · obtain ⟨hl, -, he, -⟩ := tenure_eq_iff.1 ht
    refine ⟨hi, hid.trans h.identity, he ▸ h.epoch, hl ▸ h.session, fun l hs => ?_⟩
    have := h.expiry l (hl ▸ hs)
    omega
  · obtain ⟨hl, -, he, -⟩ := tenure_eq_iff.1 ht
    have hnone : s'.lease = none := hl.trans (endLease_lease s)
    refine ⟨hi, hid.trans h.identity, he ▸ endLease_epoch h.epoch, fun l hs => ?_, fun l hs => ?_⟩
    · rw [hnone] at hs
      cases hs
    · rw [hnone] at hs
      cases hs

theorem Sound.tick (h : Sound identity s) (now : Nat) : Sound identity (s.tick now) := by
  refine h.keep (h.inv.tick now) (tick_frame s now).2.2 ?_
  cases hl : s.lapses now with
  | true => exact .inr (by rw [tick_tenure, if_pos hl])
  | false =>
    refine .inl ⟨tick_stays hl, ?_⟩
    rw [lapses, Bool.or_eq_false_iff, decide_eq_false_iff_not] at hl
    rw [(tick_frame s now).1]
    omega

theorem Sound.endLease (h : Sound identity s) : Sound identity s.endLease :=
  h.keep h.inv.endLease (endLease_frame s).2.2.2.2 (.inr rfl)

theorem Sound.reject (h : Sound identity s) (crc : Bool) : Sound identity (s.reject crc) := by
  obtain ⟨ht, -, -, hl, hid, -⟩ := reject_frame s crc
  exact h.keep (h.inv.reject crc) hid (.inl ⟨ht, Nat.le_of_eq hl.symm⟩)

theorem Sound.effect (h : Sound identity s) {request : Envelope} {peer : Peer} {now : Nat} {r : Service × Outcome}
    (ht : s.lastTime = now) (hs : nonce request.sessionId = true) (he : Effect s request peer now r) :
    Sound identity r.1 := by
  have hi := h.inv.effect he
  cases he with
  | refused => exact h.reject false
  | capabilities => exact h
  | probe => exact h.keep hi rfl (.inl ⟨rfl, Nat.le_refl _⟩)
  | duplicate => exact h
  | rejected => exact h.reject false
  | acquired ha =>
    refine ⟨hi, h.identity, h.epoch, fun l hl => ?_, fun l hl => ?_⟩
    · cases hl
      exact ha.session ▸ hs
    · cases hl
      exact ht ▸ satAdd64_le _ _
  | renewed ha _ hl =>
    have hsession := h.session _ hl
    refine ⟨hi, h.identity, h.epoch, fun l' hl' => ?_, fun l' hl' => ?_⟩
    · cases hl'
      exact hsession
    · cases hl'
      exact ht ▸ satAdd64_le _ _
  | stopped => exact h.keep hi (endLease_frame s.counted).2.2.2.2 (.inr (endLease_tenure rfl))

theorem assess_refused {request : Envelope} (h : s.refuses request = true) (peer : Peer) (now : Nat) :
    s.assess request peer now = (s.reject false, .none) := by
  unfold assess
  rw [h]
  rfl

theorem Sound.assess (h : Sound identity s) (request : Envelope) (peer : Peer) {now : Nat} (ht : s.lastTime = now) :
    Sound identity (s.assess request peer now).1 := by
  cases hr : s.refuses request with
  | true =>
    rw [assess_refused hr]
    exact h.reject false
  | false =>
    obtain ⟨kind, session, id, hv, -⟩ := refuses_false hr
    exact h.effect ht hv.session (assess_effect h.inv request peer now)

theorem Sound.handle (h : Sound identity s) (request : Envelope) (peer : Peer) (now : Nat) :
    Sound identity (s.handle request peer now).1 := by
  obtain ⟨ht, -, hid, hl, -⟩ := handle_frame s request peer now
  have ha := (h.tick now).assess request peer (tick_frame s now).1
  exact ha.keep (h.inv.handle request peer now) hid (.inl ⟨ht, Nat.le_of_eq hl.symm⟩)

theorem Sound.publication (h : Sound identity s) (index now : Nat) : Sound identity (s.publication index now).1 := by
  have ht := h.tick now
  have hi := h.inv.publication index now
  have hp := publication_polled index (h.inv.tick now)
  generalize s.publication index now = r at hi hp
  cases hp with
  | silent => exact ht
  | sent => exact ⟨hi, ht.identity, ht.epoch, ht.session, ht.expiry⟩

/-- **The invariant of a run**, at any readings of the clock. -/
theorem Sound.next (h : Sound identity s) (access : Access) : Sound identity (served.next s access) := by
  cases access with
  | counters counters suppressed => exact ⟨h.inv.of_tenure rfl h.inv.tokens, h.identity, h.epoch, h.session, h.expiry⟩
  | op op =>
    cases op with
    | handle request peer now => exact h.handle request peer now
    | tick now => exact h.tick now
    | publication index now => exact h.publication index now
    | endLease => exact h.endLease
    | reject crc => exact h.reject crc

end

/-! ## The messages of a sound state -/

/-- A message as it leaves the service in state `s`: it validates, and its payload has the length that the
lease configures. -/
structure Valid (s : Service) (m : Envelope) : Prop where
  validates : validate m s.format s.crc = .ok ()
  uptime : m.uptimeMs.isSome = true
  payload : ∀ p, m.payload = some p → ∃ l length, s.lease = some l ∧ l.configuration.payloadBytes = some length ∧
    p.bytes.length = length.toNat

/-- A reply echoes the request. -/
structure Echoes (request m : Envelope) : Prop where
  session : m.sessionId = request.sessionId
  requestId : ∃ id, request.requestId = some id ∧ m.requestId = some id ∧ id ≠ 0
  epoch : m.kind = some 12 → m.runEpoch = request.runEpoch

theorem pattern_some {length seed token : UInt32} {p : HString 512} (h : pattern length seed token = some p) :
    p.bytes = patternBytes length.toNat seed token := by
  unfold pattern at h
  split at h
  · cases h
  · cases h
    rfl

/-- A payload of the lease's pattern. -/
def Patterned (s : Service) (payload : Option (HString 512)) : Prop :=
  ∃ l length seed token p, s.lease = some l ∧ l.configuration.payloadBytes = some length ∧
    pattern length seed token = some p ∧ payload = some p

theorem Patterned.isSome {s : Service} {payload : Option (HString 512)} (h : Patterned s payload) :
    payload.isSome = true := by
  obtain ⟨_, _, _, _, q, -, -, -, rfl⟩ := h
  rfl

theorem Patterned.chars {s : Service} {payload : Option (HString 512)} (h : Patterned s payload) :
    ∀ p, payload = some p → p.bytes.all isAlnum = true := by
  obtain ⟨_, _, _, _, q, -, -, hq, rfl⟩ := h
  intro p hp
  cases hp
  rw [pattern_some hq, List.all_eq_true]
  exact patternBytes_alnum _ _ _

theorem Patterned.valid {s : Service} {m : Envelope} (h : Patterned s m.payload)
    (hm : validate m s.format s.crc = .ok ()) (huptime : m.uptimeMs.isSome = true) : Valid s m where
  validates := hm
  uptime := huptime
  payload p hp := by
    obtain ⟨l, length, seed, token, q, hl, hlength, hq, hpayload⟩ := h
    rw [hpayload] at hp
    cases hp
    refine ⟨l, length, hl, hlength, ?_⟩
    rw [pattern_some hq, patternBytes, List.length_map, List.length_range]

theorem any_pos {v : Option UInt32} (h : v.any (0 < ·) = true) : ∃ w, v = some w ∧ w ≠ 0 := by
  cases v with
  | none => cases h
  | some w => exact ⟨w, rfl, UInt32.pos_iff_ne_zero.1 (of_decide_eq_true h)⟩

section
variable {device : HString 32} {boot : HString 16} {format : Format} {crc : CrcMode} {s : Service}

theorem Sound.header (h : Sound (device, boot, format, crc) s) {session : HString 16}
    (hs : nonce (some session) = true) (kind : Int) (now : Nat) :
    Header device boot (s.base session kind now) kind where
  version := rfl
  device := congrArg some (congrArg Prod.fst h.identity)
  boot := congrArg some (congrArg (fun i => i.2.1) h.identity)
  session := hs
  kind := rfl
  epoch := ⟨s.epoch, rfl, h.epoch⟩
  uptime := rfl

theorem Sound.remaining (h : Sound (device, boot, format, crc) s) (request : Envelope) (peer : Peer)
    (session : HString 16) : s.remaining request peer session s.lastTime ≤ 30000 := by
  have hzero : (0 : UInt32) ≤ 30000 := by decide
  unfold Service.remaining
  cases hl : s.lease with
  | none => exact hzero
  | some l =>
    dsimp only
    split
    · have hexpiry := h.expiry l hl
      obtain ⟨_, _, _, _, ms, hc, -, -, -, -, hms⟩ := configurationValid_fields (h.inv.valid l hl)
      rw [hc] at hexpiry
      have hms : ms.toNat ≤ 30000 := UInt32.le_iff_toNat_le.1 hms
      simp only [Configuration.leaseMicros, Option.getD_some] at hexpiry
      rw [UInt32.le_iff_toNat_le, toNat_ofNat32]
      exact Nat.le_trans (Nat.mod_le _ _) (show _ ≤ 30000 by omega)
    · exact hzero

variable (hdevice : deviceIdValid (some device) = true) (hboot : nonce (some boot) = true)
  (h : Sound (device, boot, format, crc) s) {session : HString 16} (hs : nonce (some session) = true)
include hdevice hboot h hs

theorem Sound.capabilities {id : UInt32} (hid : id ≠ 0) (now : Nat) :
    Valid s (s.capabilitiesReply session id now) where
  validates := by
    have hheader : Header device boot (s.capabilitiesReply session id now) 11 := { h.header hs 11 now with }
    refine hheader.reply hdevice hboot (.inl rfl) rfl rfl rfl ⟨id, rfl, hid⟩ rfl (fun _ h => by cases h) rfl ?_
      (fun _ h => by cases h) ⟨rfl, rfl⟩
    intro l hl
    cases hl
    simp [limitsValid]
  uptime := rfl
  payload _ hp := by cases hp

theorem Sound.controlled {request : Envelope} {epoch id : UInt32} (hepoch : request.runEpoch = some epoch)
    (hne : epoch ≠ 0) (hid : id ≠ 0) (peer : Peer) {code : Int} (hcode : 1 ≤ code ∧ code ≤ 10) :
    Valid s (s.controlReply request peer session id code s.lastTime) where
  validates := by
    have hheader : Header device boot (s.controlReply request peer session id code s.lastTime) 12 :=
      { h.header hs 12 s.lastTime with epoch := ⟨epoch, hepoch, hne⟩ }
    refine hheader.reply hdevice hboot (.inr (.inl rfl)) rfl rfl rfl ⟨id, rfl, hid⟩ rfl (fun _ h => by cases h) rfl
      (fun _ h => by cases h) ?_ ⟨rfl, rfl⟩
    intro r hr
    cases hr
    simp [resultValid, hcode.1, hcode.2, h.remaining request peer session]
  uptime := rfl
  payload _ hp := by cases hp

theorem Sound.probed {request : Envelope} {id : UInt32} (hid : id ≠ 0) (hp : Patterned s request.payload)
    (now : Nat) : Valid s (s.probeReply request session id now) := by
  have hheader : Header device boot (s.probeReply request session id now) 15 := { h.header hs 15 now with }
  exact Patterned.valid hp (hheader.reply hdevice hboot (.inr (.inr rfl)) rfl rfl rfl ⟨id, rfl, hid⟩ hp.isSome
    hp.chars rfl (fun _ h => by cases h) (fun _ h => by cases h) ⟨rfl, rfl⟩) rfl

theorem Sound.sampled {index : Nat} (hindex : index < 2) (sequence : UInt32) {payload : HString 512}
    (hp : Patterned s (some payload)) (now : Nat) : Valid s (s.sample index session sequence payload now) := by
  have hkind : (21 + index : Int) = 21 ∧ index = 0 ∨ (21 + index : Int) = 22 ∧ index = 1 := by omega
  rcases hkind with ⟨-, rfl⟩ | ⟨-, rfl⟩
  · have hheader : Header device boot (s.sample 0 session sequence payload now) 21 := { h.header hs 21 now with }
    refine Patterned.valid hp (hheader.publication hdevice hboot (.inl rfl) rfl rfl rfl rfl rfl hp.chars
      ⟨rfl, rfl, rfl⟩ rfl rfl ?_ (fun _ h => by cases h)) rfl
    intro status hstatus
    cases hstatus
    decide
  · have hheader : Header device boot (s.sample 1 session sequence payload now) 22 := { h.header hs 22 now with }
    refine Patterned.valid hp (hheader.publication hdevice hboot (.inr rfl) rfl rfl rfl rfl rfl hp.chars
      ⟨rfl, rfl, rfl⟩ rfl rfl (fun _ h => by cases h) ?_) rfl
    intro health hhealth
    cases hhealth
    unfold Counters.health
    split <;> rfl

end

/-! ## What the calls return -/

/-- `handle` sends the message of its outcome. -/
theorem handle_some {s : Service} {request : Envelope} {peer : Peer} {now : Nat} {m : Envelope}
    (h : (s.handle request peer now).2 = some m) :
    ∃ s', (s.tick now).assess request peer now = (s', .probe m) ∨
      (s.tick now).assess request peer now = (s', .capabilities m) ∨
      ∃ code, (s.tick now).assess request peer now = (s', .control code m) := by
  have hspend : ∀ (t : Service) (reply : Envelope), (t.spend reply).2 = some m → reply = m := by
    intro t reply ht
    unfold spend at ht
    split at ht
    · cases ht
    · exact Option.some.inj ht
  unfold Service.handle at h
  split at h <;> rename_i ha <;> rw [ha]
  · cases h
  · cases h
    exact ⟨_, .inl rfl⟩
  · exact ⟨_, .inr (.inl (by rw [hspend _ _ h]))⟩
  · exact ⟨_, .inr (.inr ⟨_, by rw [hspend _ _ h]⟩)⟩

/-- A probe is answered when its payload is the lease's pattern. -/
theorem probe_patterned {s s' : Service} (hi : Inv s) {request : Envelope} {owner : Bool} {session : HString 16}
    {id : UInt32} {now : Nat} {out : Envelope} (h : s.probe request owner session id now = (s', .probe out)) :
    Patterned s request.payload := by
  unfold probe at h
  split at h
  · cases h
  split at h
  · cases h
  rename_i l hl
  split at h
  · rename_i length seed hlength hseed
    split at h
    · cases h
    · rename_i hpayload
      rw [bne_iff_ne, ne_eq, Decidable.not_not] at hpayload
      obtain ⟨p, hp⟩ := configurationValid_payload (hi.valid l hl) hlength seed id
      exact ⟨l, length, seed, id, p, hl, hlength, hp, hpayload.trans hp⟩
  · cases h

/-- The reply to a control, whatever its result. -/
theorem control_reply {s s' : Service} {request : Envelope} {peer : Peer} {now : Nat} {code : Int} {m : Envelope}
    (he : Effect s request peer now (s', .control code m)) : ∃ session control, Asks request session control ∧
      (1 ≤ code ∧ code ≤ 10) ∧ m = s'.controlReply request peer session control.id code now := by
  cases he with
  | duplicate ha => exact ⟨_, _, ha, by decide, rfl⟩
  | rejected ha hc => exact ⟨_, _, ha, ⟨by omega, hc.2⟩, rfl⟩
  | acquired ha => exact ⟨_, _, ha, by decide, rfl⟩
  | renewed ha => exact ⟨_, _, ha, by decide, rfl⟩
  | stopped ha => exact ⟨_, _, ha, by decide, rfl⟩

section
variable {device : HString 32} {boot : HString 16} {format : Format} {crc : CrcMode} {s : Service}
  (hdevice : deviceIdValid (some device) = true) (hboot : nonce (some boot) = true)
  (h : Sound (device, boot, format, crc) s)
include hdevice hboot h

theorem Sound.assess_valid {request : Envelope} {peer : Peer} {now : Nat} (ht : s.lastTime = now) {s' : Service}
    {m : Envelope} (ha : s.assess request peer now = (s', .probe m) ∨
      s.assess request peer now = (s', .capabilities m) ∨
      ∃ code, s.assess request peer now = (s', .control code m)) : Valid s' m ∧ Echoes request m := by
  have hlet : s.refuses request = false := by
    cases hr : s.refuses request with
    | false => rfl
    | true =>
      rw [assess_refused hr] at ha
      rcases ha with ha | ha | ⟨_, ha⟩ <;> cases ha
  obtain ⟨kind, session, id, hv, hsession, hid, h1, h5, -, -⟩ := refuses_false hlet
  have hs : nonce (some session) = true := hsession ▸ hv.session
  have hno : isPublication kind = false := by
    have h21 : kind ≠ 21 := by omega
    have h22 : kind ≠ 22 := by omega
    simp [isPublication, h21, h22]
  have hid0 : id ≠ 0 := by
    obtain ⟨_, hid', hne⟩ := any_pos (hv.requestPos hno)
    rw [hid] at hid'
    cases hid'
    exact hne
  have he := assess_effect h.inv request peer now
  have hsound := h.assess request peer ht
  have hclock := (effect_clock he).2.1.trans ht
  rcases ha with ha | ha | ⟨code, ha⟩ <;> rw [ha] at he hsound hclock
  · cases he with
    | @probe l _ hk hl hp hs' _ hid' =>
      rw [hsession] at hs'
      rw [hid] at hid'
      cases hs'
      cases hid'
      have hstep : s.assess request peer now = s.probe request (s.owner peer l.session) l.session id now := by
        unfold Service.assess
        simp only [hlet, hk, hsession, hid]
        rfl
      have hpattern := probe_patterned h.inv (hstep.symm.trans ha)
      exact ⟨hsound.probed hdevice hboot hs hid0 hpattern now, hsession.symm, ⟨id, hid, rfl, hid0⟩,
        fun hk => by cases hk⟩
  · cases he with
    | capabilities hk hs' hid' =>
      rw [hsession] at hs'
      rw [hid] at hid'
      cases hs'
      cases hid'
      exact ⟨h.capabilities hdevice hboot hs hid0 now, hsession.symm, ⟨id, hid, rfl, hid0⟩,
        fun hk => by cases hk⟩
  · obtain ⟨session', control, hasks, hcode, rfl⟩ := control_reply he
    obtain rfl : session = session' := Option.some.inj (hsession.symm.trans hasks.session)
    obtain rfl : id = control.id := Option.some.inj (hid.symm.trans hasks.id)
    have hkind : kind = control.kind := Option.some.inj (hv.hasKind.symm.trans hasks.kind)
    have hrange := hasks.range
    obtain ⟨epoch, hepoch, hne⟩ := any_pos (hv.correlated (by omega)).2
    refine ⟨?_, hsession.symm, ⟨_, hid, rfl, hid0⟩, fun _ => rfl⟩
    rw [← hclock]
    exact hsound.controlled hdevice hboot hs hepoch hne hid0 peer hcode

/-- **A reply** is valid and echoes the request. -/
theorem Sound.handle_valid {request : Envelope} {peer : Peer} {now : Nat} {m : Envelope}
    (hm : (s.handle request peer now).2 = some m) :
    Valid (s.handle request peer now).1 m ∧ Echoes request m := by
  obtain ⟨s', ha⟩ := handle_some hm
  obtain ⟨hvalid, hechoes⟩ := (h.tick now).assess_valid hdevice hboot (tick_frame s now).1 ha
  refine ⟨?_, hechoes⟩
  obtain ⟨htenure, -, hid, -⟩ := handle_frame s request peer now
  rw [show ((s.tick now).assess request peer now).1 = s' by rcases ha with ha | ha | ⟨_, ha⟩ <;> rw [ha]]
    at htenure hid
  obtain ⟨hlease, -⟩ := tenure_eq_iff.1 htenure
  simp only [Service.identity, Prod.mk.injEq] at hid
  obtain ⟨-, -, hformat, hcrc⟩ := hid
  refine ⟨?_, hvalid.uptime, fun p hp => ?_⟩
  · rw [hformat, hcrc]
    exact hvalid.validates
  · rw [hlease]
    exact hvalid.payload p hp

/-- **A publication** is valid. -/
theorem Sound.publication_valid {index now : Nat} {m : Envelope} (hm : (s.publication index now).2 = some m) :
    Valid (s.publication index now).1 m := by
  have ht := h.tick now
  have hsound := h.publication index now
  have hp := publication_polled index (h.inv.tick now)
  generalize s.publication index now = r at hm hsound hp
  cases hp with
  | silent => cases hm
  | @sent l hl hx _ _ payload hpay =>
    cases hm
    obtain ⟨_, _, _, _, _, hc, -⟩ := configurationValid_fields (ht.inv.valid l hl)
    exact hsound.sampled hdevice hboot (ht.session l hl) hx _
      ⟨l, _, _, _, payload, hl, by rw [hc]; rfl, hpay, rfl⟩ now

end

/-- A message that can be sent; `s` is the service after the call that returned it. -/
structure Sendable {W : Type} (crates : Formats W Envelope) (format : Format) (crc : CrcMode) (s : Service)
    (m : Envelope) : Prop where
  validates : validate m format crc = .ok ()
  body : ∃ kind, m.kind = some kind ∧ isRequest kind = false ∧ bodies m = 1 ∧ bodyMatches m kind = true
  epoch : ∃ epoch, m.runEpoch = some epoch ∧ epoch ≠ 0
  requestId : ∀ id, m.requestId = some id → id ≠ 0
  remaining : ∀ result, m.result = some result → ∃ ms, result.leaseRemainingMs = some ms ∧ ms ≤ 30000
  chars : ∀ payload, m.payload = some payload → payload.bytes.all isAlnum = true
  length : ∀ payload, m.payload = some payload → ∃ l length, s.lease = some l ∧
    l.configuration.payloadBytes = some length ∧ payload.bytes.length = length.toNat
  encodes : ∀ out : Bytes, 1024 ≤ out.length → ∃ buffer n,
    Codec.encode crates format crc m out = .ok (buffer, n + Framing.extra crc) ∧ n ≤ 1016

theorem Valid.sendable {W : Type} {crates : Formats W Envelope}
    (hc : crates.Lawful (Envelope.json crates.float) Envelope.proto) {s : Service} {m : Envelope}
    (h : Valid s m) : Sendable crates s.format s.crc s m := by
  obtain ⟨kind, hv⟩ := validate_ok_iff.1 h.validates
  have hresponse : isRequest kind = false := by
    have huptime := h.uptime
    rw [hv.uptime, Bool.not_eq_true'] at huptime
    exact huptime
  refine ⟨h.validates, ⟨kind, hv.hasKind, hresponse, hv.oneBody, hv.body⟩, ?_, fun id hid => ?_, fun r hr => ?_,
    hv.payloadChars, h.payload, fun out hout => Codec.encode_valid hc h.validates hout⟩
  · refine any_pos (hv.correlated ?_).2
    rintro rfl
    cases hresponse
  · have hno : isPublication kind = false := by
      have hrequest := hv.request
      rwa [hid, Option.isSome_some, eq_comm, Bool.not_eq_true'] at hrequest
    obtain ⟨id', hid', hne⟩ := any_pos (hv.requestPos hno)
    rw [hid] at hid'
    cases hid'
    exact hne
  · have hresult := hv.result r hr
    unfold resultValid at hresult
    cases hms : r.leaseRemainingMs with
    | none => simp [hms] at hresult
    | some ms =>
      simp only [hms, Option.any_some, Bool.and_eq_true, decide_eq_true_eq] at hresult
      exact ⟨ms, rfl, hresult.2⟩

/-- **Every message of the service is sendable**: over every run, whatever is requested, whenever, and
whatever the caller makes of the counters, a message is valid and is encoded, and a reply echoes its
request. -/
theorem service_sendable {W : Type} {crates : Formats W Envelope}
    (hc : crates.Lawful (Envelope.json crates.float) Envelope.proto) {device : HString 32} {boot : HString 16}
    (hdevice : deviceIdValid (some device) = true) (hboot : nonce (some boot) = true) (format : Format)
    (crc : CrcMode) (start : Nat) (accesses : List Access) :
    ∀ e ∈ served.trace (Service.new device boot format crc start) accesses, ∀ m, e.2.2 = some m →
      Sendable crates format crc (served.next e.1 e.2.1) m ∧
      ∀ request peer now, e.2.1 = .op (.handle request peer now) → Echoes request m := by
  rintro ⟨s, access, _⟩ he m rfl
  obtain ⟨hs, hout⟩ := served.trace_inv (I := Sound (device, boot, format, crc)) (fun _ l hs => hs.next l)
    _ (Sound.new device boot format crc start) accesses _ he
  have hnext := hs.next access
  have key : Valid (served.next s access) m ∧
      ∀ request peer now, access = .op (.handle request peer now) → Echoes request m := by
    have hsilent : ∀ {P : Prop}, some m = (none : Option Envelope) → P := fun h => by cases h
    cases access with
    | counters counters suppressedReplies => exact hsilent hout
    | op op =>
      cases op with
      | handle request peer now =>
        have hm : (s.handle request peer now).2 = some m := hout.symm
        obtain ⟨hvalid, hechoes⟩ := hs.handle_valid hdevice hboot hm
        refine ⟨hvalid, ?_⟩
        rintro _ _ _ ⟨⟩
        exact hechoes
      | publication index now =>
        have hm : (s.publication index now).2 = some m := hout.symm
        exact ⟨hs.publication_valid hdevice hboot hm, fun _ _ _ h => by cases h⟩
      | tick now => exact hsilent hout
      | endLease => exact hsilent hout
      | reject crc => exact hsilent hout
  refine ⟨?_, key.2⟩
  have hsendable := key.1.sendable hc
  have hidentity := hnext.identity
  simp only [Service.identity, Prod.mk.injEq] at hidentity
  rw [hidentity.2.2.1, hidentity.2.2.2] at hsendable
  exact hsendable

end Service

namespace Sample

/-- Crates that write the standard texts and read those of one message. -/
def formats (message : Envelope) : Formats Rfc4180.WriterState Envelope where
  toCrates := Nucleo.Sample.crates
  fromSlice bytes :=
    if bytes = message.json Nucleo.Sample.floatText then some (message, bytes.length) else none
  toSlice m capacity :=
    if (m.json Nucleo.Sample.floatText).length ≤ capacity then some (m.json Nucleo.Sample.floatText) else none
  fromPb bytes := if bytes = message.proto then some message else none
  toPb m := if m.proto.length ≤ maxBody then some m.proto else none

theorem formats_lawful (message : Envelope) :
    (formats message).Lawful (Envelope.json (formats message).float) Envelope.proto :=
  ⟨Nucleo.Sample.crates_lawful, fun _ _ => rfl, fun _ => rfl⟩

end Sample

namespace Service

/-- A run with a reply of every kind, a stale one and both publications. -/
theorem service_sendable_run :
    let crates := Sample.formats (Sample.capabilities 1)
    let M := served
    let start := Service.new Sample.device Sample.boot .protobuf .on 0
    let probe := { Sample.request 5 3 1 with probe := some (), payload := pattern 4 7 3 }
    let handle := fun request now => Access.op (.handle request Sample.peer now)
    let calls := [handle (Sample.capabilities 1) 0, handle (Sample.configure 2 1) 1000, handle probe 1500,
      .op (.publication 0 2000), .counters { received := 4294967295 } 4294967295, .op (.publication 1 11000),
      handle (Sample.renew 4 9) 12000]
    (M.trace start calls).map (fun e => e.2.2.bind (·.kind)) =
        [some 11, some 12, some 15, some 21, none, some 22, some 12] ∧
      ∀ e ∈ M.trace start calls, ∀ m, e.2.2 = some m →
        Sendable crates .protobuf .on (M.next e.1 e.2.1) m ∧
        ∀ request peer now, e.2.1 = .op (.handle request peer now) → Echoes request m :=
  ⟨by decide +kernel, service_sendable (Sample.formats_lawful _) (by decide) (by decide) .protobuf .on 0 _⟩

end Service

end Nucleo.Benchmark
