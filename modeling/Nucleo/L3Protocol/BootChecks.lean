import Nucleo.L3Protocol.Coordinator

/-!
# The checks at boot

`native_rmii_messaging.rs`: before the network starts, the firmware makes its
boot nonce from eight random bytes and runs two checks with it. One encodes
every answer of the command service, the other takes the benchmark service
through a run. A check that fails stops the firmware, so a trial image is not
confirmed.

The clock is read anew where the source does so.

Results:
* `bootNonce_valid`: the nonce is one that every message may carry.
* `boot_checks_pass`: in every build and at every time both checks pass, so
  only a random generator that fails can stop the firmware here.
-/
namespace Nucleo

open Model (Envelope)

/-! ## The boot nonce -/

/-- `0123456789abcdef`, as `{:x}` writes it. -/
def hexLower (n : Nat) : UInt8 := if n < 10 then UInt8.ofNat (48 + n) else UInt8.ofNat (87 + n)

/-- `{byte:02x}`. -/
def hexByte (b : UInt8) : Bytes := [hexLower (b.toNat / 16), hexLower (b.toNat % 16)]

theorem hexByte_digits (b : UInt8) : ∀ d ∈ hexByte b, isHexLower d = true := by
  have key : ∀ n < 16, isHexLower (hexLower n) = true := by decide
  have hb := b.toNat_lt
  intro d hd
  simp only [hexByte, List.mem_cons, List.not_mem_nil, or_false] at hd
  rcases hd with rfl | rfl
  · exact key _ (by omega)
  · exact key _ (by omega)

theorem hexByte_zero {b : UInt8} (h : hexByte b = [48, 48]) : b = 0 := by
  have key : ∀ n < 16, hexLower n = 48 → n = 0 := by decide
  have hb := b.toNat_lt
  simp only [hexByte, List.cons.injEq, and_true] at h
  have h1 := key _ (by omega) h.1
  have h2 := key _ (by omega) h.2
  exact UInt8.toNat_inj.1 (show b.toNat = 0 by omega)

def nonceText (random : Vector UInt8 8) : Bytes := random.toList.flatMap hexByte

theorem flatMap_hexByte_length (bytes : Bytes) : (bytes.flatMap hexByte).length = 2 * bytes.length := by
  induction bytes with
  | nil => rfl
  | cons b bytes ih =>
    rw [List.flatMap_cons, List.length_append, ih, List.length_cons]
    show 2 + 2 * bytes.length = _
    omega

theorem nonceText_length (random : Vector UInt8 8) : (nonceText random).length = 16 := by
  rw [nonceText, flatMap_hexByte_length, Vector.length_toList]

theorem nonceText_digits (random : Vector UInt8 8) : ∀ d ∈ nonceText random, isHexLower d = true := by
  intro d hd
  obtain ⟨b, -, hd⟩ := List.mem_flatMap.1 hd
  exact hexByte_digits b d hd

/-- The nonce, unless the generator failed; the firmware then stops.
mirrors Rust/src/bin/native_rmii_messaging.rs:58-71 -/
def bootNonce (random : Option (Vector UInt8 8)) : Option (HString 16) :=
  match random with
  | none => none
  | some random =>
    if random = .replicate 8 0 then none
    else some <| .ofAscii (nonceText random) (Nat.le_of_eq (nonceText_length random)) fun d hd =>
      isPrintable_ascii (isDeviceChar_printable (isHexLower_device (nonceText_digits random d hd)))

/-- Only zeros are written as zeros. -/
theorem flatMap_hexByte_zeros {bytes : Bytes} (h : ∀ d ∈ bytes.flatMap hexByte, d = 48) : ∀ b ∈ bytes, b = 0 := by
  intro b hb
  refine hexByte_zero ?_
  have hd : ∀ d ∈ hexByte b, d = 48 := fun d hd => h d (List.mem_flatMap.2 ⟨b, hb, hd⟩)
  unfold hexByte at hd ⊢
  rw [hd _ (List.mem_cons_self ..), hd _ (List.mem_cons_of_mem _ (List.mem_cons_self ..))]

/-- **The boot nonce is valid.** -/
theorem bootNonce_valid {random : Option (Vector UInt8 8)} {boot : HString 16} (h : bootNonce random = some boot) :
    nonce (some boot) = true := by
  unfold bootNonce at h
  split at h
  · cases h
  rename_i random
  split at h
  · cases h
  rename_i hzero
  cases h
  have hbytes : nonceText random ≠ List.replicate 16 48 := by
    intro he
    refine hzero (Vector.toList_inj.1 ?_)
    rw [Vector.toList_replicate]
    refine List.eq_replicate_iff.2 ⟨Vector.length_toList, flatMap_hexByte_zeros fun d hd => ?_⟩
    have hd : d ∈ nonceText random := hd
    rw [he] at hd
    exact List.eq_of_mem_replicate hd
  show nonceBytes (nonceText random) = true
  unfold nonceBytes
  rw [Bool.and_eq_true, Bool.and_eq_true, List.all_eq_true, bne_iff_ne, beq_iff_eq]
  exact ⟨⟨nonceText_length random, nonceText_digits random⟩, hbytes⟩

/-! ## The command service -/

namespace Commands

variable {W : Type} (crates : Formats W Envelope) (build : Build) (boot : HString 16) (counters : Counters)

/-- mirrors Rust/src/servers/embassy_messaging.rs:82-95 -/
def publication (kind : Int) (sequence : UInt32) (now : Nat) : Envelope :=
  let message := { base boot now with kind := some kind, sequence := some sequence }
  if kind = 21 then { message with status := some status } else { message with health := some counters.health }

/-- `GROUP.is_multicast()`. -/
def isMulticast (address : Vector UInt8 4) : Bool := (224 : UInt8) ≤ address[0] && address[0] ≤ (239 : UInt8)

/-- A request of `kind`. -/
def checkRequest (kind : Int) : Envelope :=
  let request : Envelope := {
    protocolVersion := some 1
    kind := some kind
    deviceId := some deviceId
    clientSession := some boot
    requestId := some 1 }
  if kind = 1 then { request with getDeviceInfo := some () }
  else if kind = 2 then { request with getStatus := some () }
  else { request with getHealth := some () }

/-- `encode(…).is_err()`; the buffer goes on unless it is. -/
def encodes (m : Envelope) (bytes : Bytes) : Option Bytes :=
  match Framed.encode crates build.format build.crc m bytes with
  | .error _ => none
  | .ok (bytes, _) => some bytes

/-- One turn of the loop over the kinds; `none` is `return false`.
mirrors Rust/src/servers/embassy_messaging.rs:105-147 -/
def checkKind (kind : Int) (policy : CommandPolicy) (bytes : Bytes) :
    Except Panic (Option (CommandPolicy × Bytes)) := do
  let request := checkRequest boot kind
  match Framed.encode crates build.format build.crc request bytes with
  | .error _ => pure none
  | .ok (bytes, n) => match Framed.decode crates build.format build.crc (bytes.take n) with
    | .error _ => pure none
    | .ok decoded =>
      let (policy, assessment) := policy.assess decoded build.format deviceId.bytes 0
      if decoded ≠ request ∨ assessment.decision ≠ .accept then pure none
      else
        let answer ← response build boot counters decoded none 0
        match encodes crates build answer bytes with
        | none => pure none
        | some bytes =>
          let error ← response build boot counters decoded (some 2) 0
          pure ((encodes crates build error bytes).map fun bytes => (policy, bytes))

def checkKinds : List Int → CommandPolicy → Bytes → Except Panic (Option Bytes)
  | [], _, bytes => pure (some bytes)
  | kind :: kinds, policy, bytes => do
    match ← checkKind crates build boot counters kind policy bytes with
    | none => pure none
    | some (policy, bytes) => checkKinds kinds policy bytes

/-- `all` over the kinds of the publications. -/
def checkPublications : List Int → Bytes → Bool
  | [], _ => true
  | kind :: kinds, bytes => match encodes crates build (publication boot counters kind 0 0) bytes with
    | none => false
    | some bytes => checkPublications kinds bytes

/-- mirrors Rust/src/servers/embassy_messaging.rs:98-151 -/
def selfCheck : Except Panic Bool := do
  if !isMulticast Benchmark.group then pure false
  else match ← checkKinds crates build boot counters [1, 2, 3] (.new 0) (List.replicate 1024 0) with
    | none => pure false
    | some bytes => pure (checkPublications crates build boot counters [21, 22] bytes)

section
variable {crates build boot} (hc : crates.Lawful (Envelope.json crates.float) Envelope.proto)
include hc

theorem encodes_valid {m : Envelope} (hm : Validation.validate m build.format = .ok ()) {bytes : Bytes}
    (hbytes : 1024 ≤ bytes.length) : ∃ bytes', encodes crates build m bytes = some bytes' ∧ 1024 ≤ bytes'.length := by
  obtain ⟨buffer, n, henc, -, hlen⟩ := Framed.encode_valid hc hm build.crc hbytes
  refine ⟨buffer, ?_, hlen ▸ hbytes⟩
  unfold encodes
  rw [henc]

variable (hboot : nonce (some boot) = true)
include hboot

omit hc in
theorem publication_valid {kind : Int} (hkind : kind = 21 ∨ kind = 22) (sequence : UInt32) (now : Nat) :
    Validation.validate (publication boot counters kind sequence now) build.format = .ok () := by
  have hdevice : deviceIdValid (some deviceId) = true := by decide
  have hnone : ∀ {α : Type} {P : α → Prop}, ∀ v, (none : Option α) = some v → P v := fun _ h => by cases h
  have hpublication : (nonce (some boot) && (some (UInt32.ofNat now)).isSome && (some sequence).isSome &&
      (none : Option (HString 16)).isNone && (none : Option UInt32).isNone) = true := by
    rw [hboot]
    rfl
  rcases hkind with rfl | rfl
  · refine Validation.validate_ok_iff.2 ⟨21, rfl, hdevice, rfl, rfl, rfl, rfl, (fun h => by cases h),
      (fun h => by cases h), fun _ => hpublication, hnone, fun status h => ?_, hnone, hnone⟩
    cases h
    decide
  · refine Validation.validate_ok_iff.2 ⟨22, rfl, hdevice, rfl, rfl, rfl, rfl, (fun h => by cases h),
      (fun h => by cases h), fun _ => hpublication, hnone, hnone, fun health h => ?_, hnone⟩
    cases h
    exact healthValid_health counters

omit hc in
theorem checkRequest_correlation {kind : Int} (hkind : kind = 1 ∨ kind = 2 ∨ kind = 3) :
    Validation.correlation (checkRequest boot kind) = true := by
  have hdevice : deviceIdValid (some deviceId) = true := by decide
  rcases hkind with rfl | rfl | rfl <;>
    simp [Validation.correlation, checkRequest, hdevice, hboot]

omit hc in
theorem checkRequest_valid {kind : Int} (hkind : kind = 1 ∨ kind = 2 ∨ kind = 3) :
    Validation.validate (checkRequest boot kind) build.format = .ok () := by
  have hdevice : deviceIdValid (some deviceId) = true := by decide
  have hnone : ∀ {α : Type} {P : α → Prop}, ∀ v, (none : Option α) = some v → P v := fun _ h => by cases h
  have hrequest : ((checkRequest boot kind).bootId.isNone && (checkRequest boot kind).uptimeMs.isNone &&
      (checkRequest boot kind).sequence.isNone && Validation.correlation (checkRequest boot kind)) = true := by
    rw [checkRequest_correlation hboot hkind]
    rcases hkind with rfl | rfl | rfl <;> rfl
  rcases hkind with rfl | rfl | rfl <;>
    exact Validation.validate_ok_iff.2 ⟨_, rfl, hdevice, rfl, rfl, rfl, rfl, fun _ => hrequest, (fun h => by cases h),
      (fun h => by cases h), hnone, hnone, hnone, hnone⟩

variable (build) in
omit hc in
/-- Both answers that the check asks for are valid. -/
theorem response_valid {error : Option Int} {kind : Int} (hkind : kind = 1 ∨ kind = 2 ∨ kind = 3)
    (herror : error = none ∨ error = some 2) :
    ∃ m, response build boot counters (checkRequest boot kind) error 0 = .ok m ∧
      Validation.validate m build.format = .ok () := by
  have hrequest : (checkRequest boot kind).kind = some kind := by
    rcases hkind with rfl | rfl | rfl <;> rfl
  have hasks : Asks (checkRequest boot kind) error := by
    rcases herror with rfl | rfl
    · exact .answer hrequest (by omega)
    · exact .error (.inr rfl)
  obtain ⟨m, hm, hreplied⟩ : ∃ m, response build boot counters (checkRequest boot kind) error 0 = .ok m ∧ _ :=
    reply_ok (by decide : deviceIdValid (some deviceId) = true) hboot (checkRequest_correlation hboot hkind)
      (answers_valid build.format counters) hasks
  exact ⟨m, hm, hreplied.valid⟩

variable {r : Wire.Reader} (hr : r.Lawful utf8Valid) (hpb : crates.GeneratedPb r)
  (hserde : build.format = .json → ∀ m, Validation.validate m build.format = .ok () →
    crates.fromSlice ((Messaging.normalize m).json crates.float) =
      some (Messaging.normalize m, ((Messaging.normalize m).json crates.float).length))
include hr hpb hserde

/-- One kind: the request survives the codec, is accepted, and its answers can be sent. -/
theorem checkKind_passes {kind : Int} (hkind : kind = 1 ∨ kind = 2 ∨ kind = 3) (policy : CommandPolicy)
    {bytes : Bytes} (hbytes : 1024 ≤ bytes.length) : ∃ bytes',
      checkKind crates build boot counters kind policy bytes = .ok (some (policy, bytes')) ∧
        1024 ≤ bytes'.length := by
  have hvalid : Validation.validate (checkRequest boot kind) build.format = .ok () := checkRequest_valid hboot hkind
  obtain ⟨buffer, n, henc, -, hdec⟩ :=
    Framed.framed_round_trip hc hr hpb hvalid (fun hf => hserde hf _ hvalid) build.crc hbytes
  have hlen : buffer.length = bytes.length := by
    obtain ⟨buffer', n', henc', -, hlen⟩ := Framed.encode_valid hc hvalid build.crc hbytes
    rw [henc] at henc'
    cases henc'
    exact hlen
  have hnormal : Messaging.normalize (checkRequest boot kind) = checkRequest boot kind := by
    rcases hkind with rfl | rfl | rfl <;> rfl
  rw [hnormal] at hdec
  have hassess : policy.assess (checkRequest boot kind) build.format deviceId.bytes 0 =
      (policy, ⟨.accept, none⟩) := by
    refine if_pos ⟨hvalid, ?_, ?_⟩ <;> rcases hkind with rfl | rfl | rfl <;> rfl
  obtain ⟨answer, hanswer, hav⟩ := response_valid build counters hboot hkind (.inl rfl)
  obtain ⟨error, herror, hev⟩ := response_valid build counters hboot hkind (.inr rfl)
  obtain ⟨bytes₁, h₁, hl₁⟩ := encodes_valid hc hav (hlen ▸ hbytes)
  obtain ⟨bytes₂, h₂, hl₂⟩ := encodes_valid hc hev hl₁
  refine ⟨bytes₂, ?_, hl₂⟩
  unfold checkKind
  simp only [henc, hdec, hassess, hanswer, herror]
  rw [if_neg (fun hn => hn.elim (fun h => h rfl) fun h => h rfl)]
  simp only [except_ok_bind, h₁, h₂]
  rfl

theorem checkKinds_pass {kinds : List Int} (hkinds : ∀ kind ∈ kinds, kind = 1 ∨ kind = 2 ∨ kind = 3)
    (policy : CommandPolicy) {bytes : Bytes} (hbytes : 1024 ≤ bytes.length) :
    ∃ bytes', checkKinds crates build boot counters kinds policy bytes = .ok (some bytes') ∧
      1024 ≤ bytes'.length := by
  induction kinds generalizing bytes with
  | nil => exact ⟨bytes, rfl, hbytes⟩
  | cons kind kinds ih =>
    obtain ⟨bytes₁, h₁, hl₁⟩ :=
      checkKind_passes counters hc hboot hr hpb hserde (hkinds kind (List.mem_cons_self ..)) policy hbytes
    obtain ⟨bytes₂, h₂, hl₂⟩ := ih (fun k hk => hkinds k (List.mem_cons_of_mem _ hk)) hl₁
    refine ⟨bytes₂, ?_, hl₂⟩
    unfold checkKinds
    rw [h₁]
    exact h₂

omit hr hpb hserde in
theorem checkPublications_pass {kinds : List Int} (hkinds : ∀ kind ∈ kinds, kind = 21 ∨ kind = 22) {bytes : Bytes}
    (hbytes : 1024 ≤ bytes.length) : checkPublications crates build boot counters kinds bytes = true := by
  induction kinds generalizing bytes with
  | nil => rfl
  | cons kind kinds ih =>
    have hvalid : Validation.validate (publication boot counters kind 0 0) build.format = .ok () :=
      publication_valid counters hboot (hkinds kind (List.mem_cons_self ..)) 0 0
    obtain ⟨bytes₁, h₁, hl₁⟩ := encodes_valid hc hvalid hbytes
    unfold checkPublications
    rw [h₁]
    exact ih (fun k hk => hkinds k (List.mem_cons_of_mem _ hk)) hl₁

/-- The check passes, whatever was counted before. -/
theorem selfCheck_passes : selfCheck crates build boot counters = .ok true := by
  obtain ⟨bytes, hkinds, hlen⟩ := checkKinds_pass counters hc hboot hr hpb hserde
    (show ∀ kind ∈ [1, 2, 3], kind = 1 ∨ kind = 2 ∨ kind = (3 : Int) by simp) (.new 0)
    (Nat.le_of_eq List.length_replicate.symm)
  unfold selfCheck
  rw [if_neg (by decide), hkinds]
  show Except.ok (checkPublications crates build boot counters [21, 22] bytes) = _
  rw [checkPublications_pass counters hc hboot (by simp) hlen]

end

end Commands

/-! ## The benchmark service -/

namespace Benchmark

def checkPeer : Peer := ⟨#v[127, 0, 0, 1], 1⟩
def checkConfiguration : Configuration where
  payloadBytes := some 512
  patternSeed := some 723
  statusPeriodUs := some 1000
  healthPeriodUs := some 10000
  leaseMs := some 2000

/-- The first request of the check. -/
def checkConfigure (boot : HString 16) : Envelope where
  protocolVersion := some 1
  kind := some 2
  deviceId := some Commands.deviceId
  bootId := some boot
  sessionId := some boot
  runEpoch := some 1
  requestId := some 1
  configure := some checkConfiguration

/-- The second one. -/
def checkProbe (boot : HString 16) : Envelope :=
  { checkConfigure boot with
    kind := some 5
    configure := none
    probe := some ()
    payload := pattern 512 723 1 }

/-- Both requests are valid. -/
theorem check_valid {m : Envelope} {boot : HString 16} (hboot : nonce (some boot) = true)
    (hm : m = checkConfigure boot ∨ m = checkProbe boot) (format : Format) (crc : CrcMode) :
    validate m format crc = .ok () := by
  have hdevice : deviceIdValid (some Commands.deviceId) = true := by decide
  have hnone : ∀ {α : Type} {P : α → Prop}, ∀ v, (none : Option α) = some v → P v := fun _ h => by cases h
  rcases hm with rfl | rfl
  · refine validate_ok_iff.2 ⟨2, rfl, hdevice, hboot, rfl, rfl, rfl, rfl, rfl, rfl, fun _ => rfl,
      (fun h => by cases h), fun _ => ⟨hboot, rfl⟩, rfl, hnone, fun c h => ?_, hnone, hnone, (fun h => by cases h)⟩
    cases h
    rfl
  · obtain ⟨p, hp⟩ : ∃ p, pattern 512 723 1 = some p := ⟨_, rfl⟩
    refine validate_ok_iff.2 ⟨5, rfl, hdevice, hboot, rfl, rfl, rfl, rfl, rfl, rfl, fun _ => rfl,
      (fun h => by cases h), fun _ => ⟨hboot, rfl⟩, rfl, fun q h => ?_, hnone, hnone, hnone, (fun h => by cases h)⟩
    have hq : pattern 512 723 1 = some q := h
    rw [Service.pattern_some hq, List.all_eq_true]
    exact patternBytes_alnum _ _ _

/-- A full bucket stays full. -/
theorem refill_full {s : Service} (h : s.tokens = 10) (now : Nat) : (s.refill now).tokens = 10 := by
  unfold Service.refill
  simp only
  split
  · show min (min (s.tokens + min _ 10) 255) 10 = 10
    omega
  · exact h

theorem tick_full {s : Service} (h : s.tokens = 10) (now : Nat) : (s.tick now).tokens = 10 := by
  unfold Service.tick Service.rollback
  refine refill_full ?_ now
  rw [(Service.expire_frame _ _).1]
  split
  · exact (Service.endLease_frame s).1.trans h
  · exact h

/-- The service of the check, once its clock was read. -/
structure Awake (build : Build) (boot : HString 16) (s : Service) : Prop where
  sound : Service.Sound (Coordinator.identity build boot) s
  lease : s.lease = none
  epoch : s.epoch = 1
  exhausted : s.exhausted = false
  tokens : s.tokens = 10

theorem awake (build : Build) (boot : HString 16) (start now : Nat) :
    Awake build boot ((Coordinator.service build boot start).tick now) where
  sound := (Service.Sound.new _ _ _ _ _).tick now
  lease := (Service.tenure_eq_iff.1 (Service.tick_lease_none rfl)).1
  epoch := (Service.tenure_eq_iff.1 (Service.tick_lease_none rfl)).2.2.1
  exhausted := (Service.tenure_eq_iff.1 (Service.tick_lease_none rfl)).2.2.2
  tokens := tick_full rfl now

/-- A valid request for the device and its boot is let in. -/
theorem admits_request {build : Build} {boot : HString 16} {s : Service}
    (h : Service.Sound (Coordinator.identity build boot) s) {request : Envelope} {kind : Int}
    (hv : validate request s.format s.crc = .ok ()) (hkind : request.kind = some kind)
    (hrequest : isRequest kind = true) (hdevice : request.deviceId = some Commands.deviceId)
    (hboot : request.bootId = some boot) : s.refuses request = false := by
  have hid := h.identity
  simp only [Service.identity, Coordinator.identity, Prod.mk.injEq] at hid
  unfold Service.refuses
  rw [hv, hdevice, hboot, hkind, hid.1, hid.2.1, Option.any_some, hrequest]
  simp only [Except.isOk, Except.toBool, bne_self_eq_false, Bool.not_true, Bool.and_false, Bool.or_self]

/-- The first request is granted. -/
theorem Awake.granted {build : Build} {boot : HString 16} {s : Service} (h : Awake build boot s)
    (hboot : nonce (some boot) = true) (now : Nat) :
    let s' := s.granted checkPeer boot checkConfiguration ⟨2, 1, some checkConfiguration⟩ now
    s.assess (checkConfigure boot) checkPeer now =
      (s', .control 1 (s'.controlReply (checkConfigure boot) checkPeer boot 1 1 now)) := by
  intro s'
  have hcode : s.resultCode (checkConfigure boot) checkPeer (s.owner checkPeer boot) boot
      ⟨2, 1, some checkConfiguration⟩ now = (s', some 1) := by
    have hepoch : (checkConfigure boot).runEpoch = some s.epoch := congrArg some h.epoch.symm
    unfold Service.resultCode
    rw [if_neg (not_not_intro hepoch), h.exhausted]
    simp only [Service.active, h.lease, Option.isSome_none, Option.any_none, Bool.false_and, Bool.false_eq_true,
      if_false]
    rw [if_neg (fun hn => by cases hn.2), if_neg (fun hn => hn.2 rfl), if_neg (fun hn => hn.2),
      if_neg (fun hn => hn.1 rfl), if_pos trivial]
    rfl
  unfold Service.assess
  rw [admits_request h.sound (check_valid hboot (.inl rfl) _ _) rfl rfl rfl rfl]
  show Service.conclude _ _ _ _ _ (s.resultCode (checkConfigure boot) checkPeer (s.owner checkPeer boot) boot
    ⟨2, 1, some checkConfiguration⟩ now) = _
  rw [hcode]
  rfl

/-- The service once the first request was granted at `now`. -/
structure Granted (build : Build) (boot : HString 16) (now : Nat) (s : Service) : Prop where
  sound : Service.Sound (Coordinator.identity build boot) s
  lease : s.lease = some ⟨checkPeer, boot, checkConfiguration, ⟨2, 1, some checkConfiguration⟩,
    satAdd64 now checkConfiguration.leaseMicros⟩
  epoch : s.epoch = 1
  lastTime : s.lastTime = now
  schedules : ∀ i (hi : i < 2), s.schedules[i].period = checkConfiguration.period i ∧
    s.schedules[i].due = satAdd64 now (checkConfiguration.period i).toNat

/-- A control that the bucket lets through. -/
theorem handle_control {s s' : Service} {request : Envelope} {peer : Peer} {now : Nat} {code : Int} {reply : Envelope}
    (h : (s.tick now).assess request peer now = (s', .control code reply)) (ht : s'.tokens ≠ 0) :
    s.handle request peer now = ({ s' with tokens := s'.tokens - 1 }, some reply) := by
  unfold Service.handle
  rw [h]
  exact if_neg ht

/-- The first request of the check. -/
theorem configured (build : Build) {boot : HString 16} (hboot : nonce (some boot) = true) (start now : Nat) :
    Granted build boot now ((Coordinator.service build boot start).handle (checkConfigure boot) checkPeer now).1 ∧
      ∃ reply, ((Coordinator.service build boot start).handle (checkConfigure boot) checkPeer now).2 = some reply ∧
        reply.result.bind (·.code) = some 1 := by
  have ha := awake build boot start now
  have hclock := (Service.tick_frame (Coordinator.service build boot start) now).1
  have hsound : Service.Sound (Coordinator.identity build boot)
      ((Coordinator.service build boot start).handle (checkConfigure boot) checkPeer now).1 :=
    (Service.Sound.new _ _ _ _ _).handle _ _ _
  have htokens : ((Coordinator.service build boot start).tick now).tokens ≠ 0 := by
    rw [ha.tokens]
    decide
  rw [handle_control (ha.granted hboot now) htokens] at hsound ⊢
  refine ⟨⟨hsound, rfl, ha.epoch, hclock, fun i hi => ?_⟩, _, rfl, rfl⟩
  match i, hi with
  | 0, _ => exact ⟨rfl, rfl⟩
  | 1, _ => exact ⟨rfl, rfl⟩

/-- A probe with the payload of the lease is answered. -/
theorem probe_answers {s : Service} {request : Envelope} {l : Lease} {length seed id : UInt32}
    (hlet : s.refuses request = false) (hkind : request.kind = some 5) (hsession : request.sessionId = some l.session)
    (hid : request.requestId = some id) (hl : s.lease = some l) (hepoch : request.runEpoch = some s.epoch)
    (hlength : l.configuration.payloadBytes = some length) (hseed : l.configuration.patternSeed = some seed)
    (hpayload : request.payload = pattern length seed id) (now : Nat) :
    s.assess request l.peer now = (s.counted, .probe (s.counted.probeReply request l.session id now)) := by
  have howner : s.owner l.peer l.session = true := by
    unfold Service.owner
    rw [hl]
    simp only [Option.any_some, beq_self_eq_true, Bool.and_self]
  unfold Service.assess
  rw [hlet, hkind, hsession, hid]
  show s.probe request (s.owner l.peer l.session) l.session id now = _
  unfold Service.probe
  rw [howner, hepoch, hl]
  simp only [hlength, hseed, hpayload, bne_self_eq_false, Bool.not_true, Bool.or_self, Bool.false_eq_true, if_false]

theorem handle_probe {s s' : Service} {request : Envelope} {peer : Peer} {now : Nat} {reply : Envelope}
    (h : (s.tick now).assess request peer now = (s', .probe reply)) :
    s.handle request peer now = (s', some reply) := by
  unfold Service.handle
  rw [h]

/-- A stream that is due publishes. -/
theorem due_publishes {s : Service} {index later : Nat} (hi : Service.Inv (s.tick later))
    (hdue : (s.tick later).Due index later) : ∃ h : index < 2, ∃ m, s.publication index later =
      ((s.tick later).advanced index h later, some m) ∧ normalize m = m := by
  have hp := Service.publication_polled index hi
  generalize s.publication index later = r at hp
  cases hp with
  | silent hno => exact absurd hdue hno
  | sent _ h =>
    refine ⟨h, _, rfl, ?_⟩
    unfold Service.sample
    dsimp only
    split <;> rfl

/-- A lease lasts until it expires. -/
theorem lease_lasts {s : Service} {l : Lease} (hl : s.lease = some l) {later : Nat} (hlater : s.lastTime ≤ later)
    (hlease : later < l.expiry) : (s.tick later).tenure = s.tenure := by
  refine Service.tick_stays ?_
  unfold Service.lapses
  rw [hl]
  simp only [Option.any_some, Bool.or_eq_false_iff, decide_eq_false_iff_not]
  exact ⟨Nat.not_lt.2 hlater, Nat.not_le.2 hlease⟩

/-- Two streams that are due publish one after the other, and the run goes on. -/
theorem both_publish {identity : HString 32 × HString 16 × Format × CrcMode} {s : Service}
    (h : Service.Sound identity s) {l : Lease} (hl : s.lease = some l) {later : Nat} (hlater : s.lastTime ≤ later)
    (hlease : later < l.expiry) (hdue : ∀ i (hi : i < 2), s.schedules[i].period ≠ 0 ∧ s.schedules[i].due ≤ later) :
    ∃ status health s' s'', s.publication 0 later = (s', some status) ∧
      s'.publication 1 later = (s'', some health) ∧ normalize status = status ∧ normalize health = health ∧
      s''.lease = some l ∧ s''.epoch = s.epoch := by
  obtain ⟨hl1, hs1, he1, -⟩ := Service.tenure_eq_iff.1 (lease_lasts hl hlater hlease)
  have hdue0 : (s.tick later).Due 0 later :=
    ⟨by decide, by rw [hl1, hl]; rfl, by rw [hs1]; exact hdue 0 (by decide)⟩
  obtain ⟨h0, status, hpub, hnorm⟩ := due_publishes (h.tick later).inv hdue0
  have hsound := h.publication 0 later
  rw [hpub] at hsound
  have hclock : ((s.tick later).advanced 0 h0 later).lastTime = later := (Service.tick_frame s later).1
  have hl2 : ((s.tick later).advanced 0 h0 later).lease = some l := hl1.trans hl
  have he2 : ((s.tick later).advanced 0 h0 later).epoch = s.epoch := he1
  -- the other schedule is as it was
  have hs2 : ((s.tick later).advanced 0 h0 later).schedules[1] = s.schedules[1] := by
    show ((s.tick later).schedules.set 0 _)[1] = _
    rw [Vector.getElem_set_ne _ _ (by decide), hs1]
  generalize (s.tick later).advanced 0 h0 later = t at *
  obtain ⟨hl3, hs3, he3, -⟩ := Service.tenure_eq_iff.1 (lease_lasts hl2 (Nat.le_of_eq hclock) hlease)
  have hdue1 : (t.tick later).Due 1 later :=
    ⟨by decide, by rw [hl3, hl2]; rfl, by rw [hs3, hs2]; exact hdue 1 (by decide)⟩
  obtain ⟨h1, health, hpub', hnorm'⟩ := due_publishes (hsound.tick later).inv hdue1
  exact ⟨status, health, _, _, hpub, hpub', hnorm, hnorm', hl3.trans hl2, he3.trans he2⟩

section
variable {build : Build} {boot : HString 16} {now : Nat} {s : Service} (h : Granted build boot now s)
include h

/-- The lease lasts for two seconds. -/
theorem Granted.lasts {later : Nat} (hlater : now ≤ later)
    (hlease : later < satAdd64 now checkConfiguration.leaseMicros) : (s.tick later).tenure = s.tenure :=
  lease_lasts h.lease (h.lastTime.symm ▸ hlater) hlease

/-- The probe is answered. -/
theorem Granted.probed (hboot : nonce (some boot) = true) (hnow : now < satAdd64 now checkConfiguration.leaseMicros) :
    ∃ reply, s.handle (checkProbe boot) checkPeer now = ((s.tick now).counted, some reply) ∧
      normalize reply = reply := by
  obtain ⟨hlease, -, hepoch, -⟩ := Service.tenure_eq_iff.1 (h.lasts (Nat.le_refl now) hnow)
  rw [h.lease] at hlease
  rw [h.epoch] at hepoch
  have hlet : (s.tick now).refuses (checkProbe boot) = false :=
    admits_request (h.sound.tick now) (check_valid hboot (.inr rfl) _ _) rfl rfl rfl rfl
  exact ⟨_, handle_probe (probe_answers hlet rfl rfl rfl hlease (congrArg some hepoch.symm) rfl rfl rfl now), rfl⟩

theorem Granted.counted (hnow : now < satAdd64 now checkConfiguration.leaseMicros) :
    Granted build boot now (s.tick now).counted := by
  obtain ⟨hlease, hschedules, hepoch, -⟩ := Service.tenure_eq_iff.1 (h.lasts (Nat.le_refl now) hnow)
  refine ⟨(h.sound.tick now).next (.counters (s.tick now).counters.countReceived (s.tick now).suppressedReplies),
    hlease.trans h.lease, hepoch.trans h.epoch, (Service.tick_frame s now).1, fun i hi => ?_⟩
  show (s.tick now).schedules[i].period = _ ∧ (s.tick now).schedules[i].due = _
  rw [hschedules]
  exact h.schedules i hi

end

/-! ### The check -/

variable {W : Type} (crates : Formats W Envelope) (build : Build) (boot : HString 16)

/-- The loop over the messages: each is there and survives the codec.
mirrors Rust/src/servers/embassy_benchmark.rs:77-91 -/
def survive : List (Option Envelope) → Bytes → Bool
  | [], _ => true
  | none :: _, _ => false
  | some m :: rest, bytes => match Codec.encode crates build.format build.crc m bytes with
    | .error _ => false
    | .ok (bytes, n) => match Codec.decode crates build.format build.crc (bytes.take n) with
      | .error _ => false
      | .ok decoded => decoded = m && survive rest bytes

/-- `start` and `now` are its two readings of the clock.
mirrors Rust/src/servers/embassy_benchmark.rs:33-94 -/
def selfCheck (start now : Nat) : Bool :=
  let state := Coordinator.service build boot start
  match Codec.encode crates build.format build.crc (checkConfigure boot) (List.replicate 1024 0) with
  | .error _ => false
  | .ok (bytes, n) => match Codec.decode crates build.format build.crc (bytes.take n) with
    | .error _ => false
    | .ok decoded => match state.handle decoded checkPeer now with
      | (_, none) => false
      | (state, some reply) =>
        if reply.result.bind (·.code) ≠ some 1 then false
        else match state.handle (checkProbe boot) checkPeer now with
          | (_, none) => false
          | (state, some reply) =>
            let (state, status) := state.publication 0 (now + 10000)
            let (state, health) := state.publication 1 (now + 10000)
            if survive crates build [some reply, status, health] bytes then
              let state := state.endLease
              !state.active && state.epoch == 2
            else false

section
variable {crates build boot} (hc : crates.Lawful (Envelope.json crates.float) Envelope.proto) {r : Wire.Reader}
  (hr : r.Lawful utf8Valid) (hpb : GeneratedPb crates r)
  (hserde : build.format = .json → ∀ m, validate m build.format build.crc = .ok () →
    crates.fromSlice (m.json crates.float) = some (m, (m.json crates.float).length))
include hc hr hpb hserde

/-- A valid message survives the codec, and the buffer stays as long. -/
theorem survives {m : Envelope} (hm : validate m build.format build.crc = .ok ()) (hnormal : normalize m = m)
    {bytes : Bytes} (hbytes : 1024 ≤ bytes.length) : ∃ bytes' n,
      Codec.encode crates build.format build.crc m bytes = .ok (bytes', n) ∧ 1024 ≤ bytes'.length ∧
      Codec.decode crates build.format build.crc (bytes'.take n) = .ok m := by
  obtain ⟨buffer, n, henc, -, hdec⟩ := Codec.codec_round_trip hr hpb hc hm (fun hf => hserde hf m hm) hbytes
  rw [hnormal] at hdec
  refine ⟨buffer, n, henc, ?_, hdec⟩
  obtain ⟨kind, hv⟩ := validate_ok_iff.1 hm
  obtain ⟨body, hwrite, hlen, -⟩ := Codec.write_parse hr hpb hc hv (fun hf => hserde hf m hm)
  have hmax : maxBody = 1016 := rfl
  have hcap : min bytes.length maxBody = maxBody := Nat.min_eq_right (by omega)
  unfold Codec.encode at henc
  simp only [hm, except_ok_bind, hcap, hwrite] at henc
  rw [Framing.sealFrame_length henc, List.length_append, List.length_drop]
  omega

theorem survive_all {ms : List Envelope}
    (hms : ∀ m ∈ ms, validate m build.format build.crc = .ok () ∧ normalize m = m) {bytes : Bytes}
    (hbytes : 1024 ≤ bytes.length) : survive crates build (ms.map some) bytes = true := by
  induction ms generalizing bytes with
  | nil => rfl
  | cons m ms ih =>
    obtain ⟨hm, hnormal⟩ := hms m (List.mem_cons_self ..)
    obtain ⟨bytes', n, henc, hlen, hdec⟩ := survives hc hr hpb hserde hm hnormal hbytes
    rw [List.map_cons]
    unfold survive
    simp only [henc, hdec, decide_true, Bool.true_and]
    exact ih (fun m hm => hms m (List.mem_cons_of_mem _ hm)) hlen

/-- The check passes at every time. -/
theorem selfCheck_passes (hboot : nonce (some boot) = true) (start : Nat) {now : Nat} (hnow : now + 10000 < u64Max) :
    selfCheck crates build boot start now = true := by
  have hdevice : deviceIdValid (some Commands.deviceId) = true := by decide
  have hlease : now + 10000 < satAdd64 now checkConfiguration.leaseMicros := by
    rw [show checkConfiguration.leaseMicros = 2000000 by decide]
    unfold satAdd64
    omega
  have hfirst : now < satAdd64 now checkConfiguration.leaseMicros := by omega
  have hdue : ∀ i (hi : i < 2), checkConfiguration.period i ≠ 0 ∧ (checkConfiguration.period i).toNat ≤ 10000 := by
    decide
  have hbytes : 1024 ≤ (List.replicate 1024 (0 : UInt8)).length := Nat.le_of_eq List.length_replicate.symm
  obtain ⟨bytes, n, henc, hlen, hdec⟩ := survives hc hr hpb hserde (check_valid hboot (.inl rfl) _ _) rfl hbytes
  -- the run: a grant, a probe, a sample of each stream
  obtain ⟨hgranted, reply, hreply, hcode⟩ := configured build hboot start now
  obtain ⟨answer, hprobe, hanswer⟩ := hgranted.probed hboot hfirst
  have hcounted := hgranted.counted hfirst
  obtain ⟨status, health, s', s'', hpub, hpub', hstatus, hhealth, hl, he⟩ :=
    both_publish hcounted.sound hcounted.lease
      (show _ ≤ now + 10000 from hcounted.lastTime.symm ▸ Nat.le_add_right now 10000) hlease (fun i hi => by
        obtain ⟨hperiod, hfirst⟩ := hcounted.schedules i hi
        rw [hperiod, hfirst]
        exact ⟨(hdue i hi).1, Nat.le_trans (Nat.min_le_left _ _) (Nat.add_le_add_left (hdue i hi).2 now)⟩)
  have hs' := hcounted.sound.publication 0 (now + 10000)
  rw [hpub] at hs'
  have hall : ∀ m ∈ [answer, status, health], validate m build.format build.crc = .ok () ∧ normalize m = m := by
    have hv₁ := Coordinator.sound_validates (hgranted.sound.handle (checkProbe boot) checkPeer now)
      (hgranted.sound.handle_valid hdevice hboot (congrArg Prod.snd hprobe)).1
    have hv₂ := Coordinator.sound_validates (hcounted.sound.publication 0 (now + 10000))
      (hcounted.sound.publication_valid hdevice hboot (congrArg Prod.snd hpub))
    have hv₃ := Coordinator.sound_validates (hs'.publication 1 (now + 10000))
      (hs'.publication_valid hdevice hboot (congrArg Prod.snd hpub'))
    intro m hm
    simp only [List.mem_cons, List.not_mem_nil, or_false] at hm
    rcases hm with rfl | rfl | rfl
    · exact ⟨hv₁, hanswer⟩
    · exact ⟨hv₂, hstatus⟩
    · exact ⟨hv₃, hhealth⟩
  have hsurvive := survive_all hc hr hpb hserde hall hlen
  -- its end
  have hend : s''.endLease.active = false ∧ s''.endLease.epoch = 2 := by
    refine ⟨by rw [Service.active, Service.endLease_lease]; rfl, ?_⟩
    have hone : s''.epoch = 1 := he.trans hcounted.epoch
    rcases Service.endLease_some hl with ⟨-, ht⟩ | ⟨hmax, -⟩
    · have := congrArg Service.Tenure.epoch ht
      rw [hone] at this
      exact this
    · rw [hone] at hmax
      exact absurd hmax (by decide)
  have hhandle : (Coordinator.service build boot start).handle (checkConfigure boot) checkPeer now =
      (_, some reply) := Prod.ext rfl hreply
  unfold selfCheck
  simp only [henc, hdec]
  rw [hhandle]
  simp only [hcode, ne_eq, not_true_eq_false, if_false, hprobe, hpub, hpub']
  rw [show survive crates build [some answer, some status, some health] bytes = true from hsurvive, if_pos rfl,
    hend.1, hend.2]
  rfl

end

end Benchmark

/-! ## Both checks -/

section
variable {W W' : Type} (crates : Formats W Envelope) (crates' : Formats W' Benchmark.Envelope) (build : Build)

/-- The boot nonce with which the firmware goes on to the network; `none` where it stops.
mirrors Rust/src/bin/native_rmii_messaging.rs:58-80 -/
def boots (random : Option (Vector UInt8 8)) (start now : Nat) : Except Commands.Panic (Option (HString 16)) :=
  match bootNonce random with
  | none => pure none
  | some boot => do
    if !(← Commands.selfCheck crates build boot .new) then pure none
    else if !Benchmark.selfCheck crates' build boot start now then pure none
    else pure (some boot)

variable {crates crates' build}

/-- **Only the random generator stops the firmware.** In every build and at every time, whatever bytes the
generator delivered: unless it failed or delivered zeros, the nonce is valid and both checks pass. -/
theorem boot_checks_pass (hc : crates.Lawful (Envelope.json crates.float) Envelope.proto)
    (hc' : crates'.Lawful (Benchmark.Envelope.json crates'.float) Benchmark.Envelope.proto)
    {r r' : Wire.Reader} (hr : r.Lawful utf8Valid) (hr' : r'.Lawful utf8Valid) (hpb : crates.GeneratedPb r)
    (hpb' : Benchmark.GeneratedPb crates' r')
    (hserde : build.format = .json → ∀ m, Validation.validate m build.format = .ok () →
      crates.fromSlice ((Messaging.normalize m).json crates.float) =
        some (Messaging.normalize m, ((Messaging.normalize m).json crates.float).length))
    (hserde' : build.format = .json → ∀ m, Benchmark.validate m build.format build.crc = .ok () →
      crates'.fromSlice (m.json crates'.float) = some (m, (m.json crates'.float).length))
    (random : Option (Vector UInt8 8)) (start : Nat) {now : Nat} (hnow : now + 10000 < u64Max) :
    boots crates crates' build random start now = .ok (bootNonce random) ∧
      ∀ boot, bootNonce random = some boot → nonce (some boot) = true := by
  refine ⟨?_, fun boot h => bootNonce_valid h⟩
  unfold boots
  cases h : bootNonce random with
  | none => rfl
  | some boot =>
    have hboot := bootNonce_valid h
    simp only [Commands.selfCheck_passes .new hc hboot hr hpb hserde, except_ok_bind,
      Benchmark.selfCheck_passes hc' hr' hpb' hserde' hboot start hnow, Bool.not_true, Bool.false_eq_true, if_false]
    rfl

end

theorem boot_checks_pass_sample :
    (bootNonce (some #v[1, 2, 3, 4, 5, 6, 7, 255])).isSome = true ∧
      boots (Sample.generated Sample.status) (Benchmark.Sample.generated Benchmark.Sample.probe) ⟨.protobuf, .on⟩
        (some #v[1, 2, 3, 4, 5, 6, 7, 255]) 3 4 = .ok (bootNonce (some #v[1, 2, 3, 4, 5, 6, 7, 255])) ∧
      ∀ boot, bootNonce (some #v[1, 2, 3, 4, 5, 6, 7, 255]) = some boot → nonce (some boot) = true :=
  ⟨by decide, boot_checks_pass (Sample.generated_lawful _) (Benchmark.Sample.generated_lawful _)
    (Wire.Reader.standard_lawful _ _) (Wire.Reader.standard_lawful _ _) (fun _ => rfl) (fun _ => rfl)
    (fun h => by cases h) (fun h => by cases h) _ _ (by decide)⟩

end Nucleo
