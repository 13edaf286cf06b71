import Nucleo.L1Encoding.Benchmark

/-!
# The live client's control traffic

`benchmark_live.py`: `run` acquires a lease with `exchange`, renews it with
`pending_control`, and stops it on its way out. Clock readings are
nanoseconds; `lease_expiry` is the first transmission plus the remaining time
of the reply. The pass of a loop is cut at its `select`: `poll` is the part
before it, `receive` one datagram after it.

`Moves` is what the rest of the development knows of a step: the client asks
something new, has an answer confirmed, or neither (`poll_moves`,
`receive_moves`).
-/
namespace Nucleo.Benchmark.Live

/-- What `run` puts into its requests: arguments, nonce and capabilities. -/
structure Args where
  device : HString 32
  session : HString 16
  boot : HString 16
  epoch : UInt32
  configuration : Configuration

namespace Args

/-- `base`, with what the capabilities told.
mirrors Rust/tools/message-demo/python/benchmark_live.py:304,359-361 -/
def base (a : Args) : Envelope where
  protocolVersion := some 1
  deviceId := some a.device
  sessionId := some a.session
  bootId := some a.boot
  runEpoch := some a.epoch

def configure (a : Args) (id : UInt32) : Envelope :=
  { a.base with kind := some 2, requestId := some id, configure := some a.configuration }

def renew (a : Args) (id : UInt32) : Envelope :=
  { a.base with kind := some 3, requestId := some id, renew := some () }

def stop (a : Args) (id : UInt32) : Envelope :=
  { a.base with kind := some 4, requestId := some id, stop := some () }

/-- `identity(message, peer) == run_id` for a message of the target. -/
def identifies (a : Args) (message : Envelope) : Bool :=
  message.deviceId == some a.device && message.bootId == some a.boot &&
    message.sessionId == some a.session && message.runEpoch == some a.epoch

end Args

/-! ## `exchange` -/

/-- The local variables of `exchange`. -/
structure Exchange where
  start : Nat
  deadline : Nat
  nextSend : Nat
  message : Envelope
  deriving DecidableEq

namespace Exchange

/-- mirrors Rust/tools/message-demo/python/benchmark_live.py:175-178 -/
def begin (message : Envelope) (now : Nat) : Exchange := ⟨now, now + 1500000000, 0, message⟩

/-- The loop body up to `select`.
mirrors Rust/tools/message-demo/python/benchmark_live.py:180-183 -/
def poll (x : Exchange) (now : Nat) : Exchange × List Envelope :=
  if x.nextSend ≤ now then ({ x with nextSend := now + 500000000 }, [x.message]) else (x, [])

/-- The reply that is waited for, from the target.
mirrors Rust/tools/message-demo/python/benchmark_live.py:194-205 -/
def accepts (x : Exchange) (expected : Int) (reply : Envelope) : Bool :=
  reply.kind == some expected && reply.deviceId == x.message.deviceId &&
    reply.sessionId == x.message.sessionId && reply.requestId == x.message.requestId &&
    (x.message.bootId.isNone || reply.bootId == x.message.bootId) &&
    (x.message.runEpoch.isNone || reply.runEpoch == x.message.runEpoch)

end Exchange

/-! ## `run` -/

/-- `pending_control`: the packet, when it was made, when it is to be sent. -/
structure Pending where
  message : Envelope
  made : Nat
  nextSend : Nat
  deriving DecidableEq

inductive Phase where
  | preflight
  | configuring (x : Exchange)
  | running (renewAt : Nat) (pending : Option Pending)
  | stopping (x : Exchange)
  | closed
  deriving DecidableEq

/-- `leaseExpiry` keeps its last value when the loop is left. -/
structure Client where
  controlId : UInt32 := 1
  leaseExpiry : Option Nat := none
  phase : Phase := .preflight
  deriving DecidableEq

/-- `now + max(0, lease_expiry - now) // 3`. -/
def renewAt (now expiry : Nat) : Nat := now + (expiry - now) / 3

/-- `lease_remaining_ms` of a reply with code 1 or 2. -/
def confirmed (reply : Envelope) : Option Nat :=
  match reply.result with
  | none => none
  | some r => if r.code = some 1 ∨ r.code = some 2 then r.leaseRemainingMs.map (·.toNat) else none

namespace Client

variable (a : Args)

/-- The `finally` block begins its exchange.
mirrors Rust/tools/message-demo/python/benchmark_live.py:630-641 -/
def cleanup (c : Client) (now : Nat) : Client :=
  { c with phase := .stopping (.begin (a.stop (c.controlId + 1)) now) }

/-- mirrors Rust/tools/message-demo/python/benchmark_live.py:362-370 -/
def configure (c : Client) (now : Nat) : Client :=
  match c.phase with
  | .preflight => { c with phase := .configuring (.begin (a.configure c.controlId) now) }
  | _ => c

/-- The loop is left: the run is over, or interrupted. -/
def leave (c : Client) (now : Nat) : Client :=
  match c.phase with
  | .configuring _ | .running _ _ => c.cleanup a now
  | _ => { c with phase := .closed }

/-- `if pending_control is not None and now >= pending_control[2]: …`. -/
def send (c : Client) (renewAt : Nat) (p : Pending) (now : Nat) : Client × List Envelope :=
  if p.nextSend ≤ now then
    ({ c with phase := .running renewAt (some { p with nextSend := now + 500000000 }) }, [p.message])
  else ({ c with phase := .running renewAt (some p) }, [])

/-- The control part of the loop body up to `select`.
mirrors Rust/tools/message-demo/python/benchmark_live.py:423-424,454-462 -/
def renewals (c : Client) (renewAt : Nat) (pending : Option Pending) (now : Nat) :
    Client × List Envelope :=
  if c.leaseExpiry.any (· ≤ now) then (c.cleanup a now, [])
  else match pending with
    | some p => c.send renewAt p now
    | none =>
      if now < renewAt then (c, [])
      else if 2 ^ 32 - 2 ≤ c.controlId.toNat then (c.cleanup a now, [])
      else
        let c := { c with controlId := c.controlId + 1 }
        c.send renewAt ⟨a.renew c.controlId, now, 0⟩ now

/-- One pass of the current loop up to its `select`; `entered` is the reading
of the loop's condition, `now` the one after it. -/
def poll (c : Client) (entered now : Nat) : Client × List Envelope :=
  match c.phase with
  | .configuring x =>
    if x.deadline ≤ entered then (c.cleanup a now, [])
    else ({ c with phase := .configuring (x.poll now).1 }, (x.poll now).2)
  | .running renewAt pending => c.renewals a renewAt pending now
  | .stopping x =>
    if x.deadline ≤ entered then ({ c with phase := .closed }, [])
    else ({ c with phase := .stopping (x.poll now).1 }, (x.poll now).2)
  | _ => (c, [])

/-- A confirmed control: the lease counts from `first`.
mirrors Rust/tools/message-demo/python/benchmark_live.py:371-377,532-545 -/
def confirm (c : Client) (first : Nat) (reply : Envelope) (now : Nat) : Client :=
  match confirmed reply with
  | none => c.cleanup a now
  | some ms =>
    let expiry := first + ms * 1000000
    { c with leaseExpiry := some expiry, phase := .running (renewAt now expiry) none }

/-- A datagram of the target on the command socket; `now` is `confirmed_at` or
`observed`.
mirrors Rust/tools/message-demo/python/benchmark_live.py:184-206,526-545 -/
def receive (c : Client) (reply : Envelope) (now : Nat) : Client :=
  match c.phase with
  | .configuring x => if x.accepts 12 reply then c.confirm a x.start reply now else c
  | .running _ (some p) =>
    if reply.kind == some 12 && a.identifies reply && reply.requestId == some c.controlId then
      c.confirm a p.made reply now
    else c
  | .stopping x => if x.accepts 12 reply then { c with phase := .closed } else c
  | _ => c

/-! ## What a step can do -/

/-- The request whose reply would move the lease, and the reading that the
lease would count from. -/
def awaited (c : Client) : Option (Envelope × Nat) :=
  match c.phase with
  | .configuring x => some (x.message, x.start)
  | .running _ (some p) => some (p.message, p.made)
  | _ => none

/-- The last control ID in use, while replies still count. -/
def issued (c : Client) : Option Nat :=
  match c.phase with
  | .preflight => some 0
  | .configuring _ | .running _ _ => some c.controlId.toNat
  | _ => none

/-- The client has not yet asked, or waits for the reply to its last control. -/
structure WF (c : Client) (now : Nat) : Prop where
  first : c.phase = .preflight → c.controlId = 1
  awaits : ∀ m made, c.awaited = some (m, made) →
    m.sessionId = some a.session ∧ m.requestId = some c.controlId ∧ made ≤ now

/-- The three things a step of the client does; `heard` is the datagram it
received, if any. -/
inductive Moves (c : Client) (now : Nat) (heard : Option Envelope) : Client → List Envelope → Prop
  /-- the lease stays; what is sent was asked before or no longer counts -/
  | still {c' : Client} {out : List Envelope} (hl : c'.leaseExpiry = c.leaseExpiry)
      (hc : (c'.issued = c.issued ∧ c'.awaited = c.awaited ∧ c'.controlId = c.controlId) ∨
        c'.issued = none ∧ c'.awaited = none)
      (hf : c'.phase = .preflight → c' = c)
      (ho : ∀ m ∈ out, c.issued = none ∨ ∃ made, c.awaited = some (m, made)) : Moves c now heard c' out
  /-- a new control, with an ID past all others -/
  | ask {c' : Client} {out : List Envelope} {n : Nat} {m : Envelope}
      (hl : c'.leaseExpiry = c.leaseExpiry) (hn : c.issued = some n) (hlt : n < c'.controlId.toNat)
      (hi : c'.issued = some c'.controlId.toNat) (hs : m.sessionId = some a.session)
      (hm : m.requestId = some c'.controlId) (ha : c'.awaited = some (m, now))
      (ho : ∀ m' ∈ out, m' = m) : Moves c now heard c' out
  /-- the reply to the last control, with code 1 or 2 -/
  | confirm {c' : Client} {m reply : Envelope} {made ms : Nat} (hh : heard = some reply)
      (ha : c.awaited = some (m, made)) (hk : reply.kind = some 12)
      (hs : reply.sessionId = some a.session) (hid : reply.requestId = m.requestId)
      (hms : confirmed reply = some ms) (hl : c'.leaseExpiry = some (made + ms * 1000000))
      (hc : c'.issued = c.issued ∧ c'.awaited = none) (hp : c'.phase ≠ .preflight) :
      Moves c now heard c' []

variable {a : Args} {c : Client} {now : Nat}

theorem cleanup_moves (a : Args) (c : Client) (now : Nat) (heard : Option Envelope) :
    Moves a c now heard (c.cleanup a now) [] :=
  .still rfl (.inr ⟨rfl, rfl⟩) (fun h => by cases h) fun _ h => by cases h

theorem leave_moves (a : Args) (c : Client) (now : Nat) : Moves a c now none (c.leave a now) [] := by
  unfold leave
  split
  · exact cleanup_moves a c now none
  · exact cleanup_moves a c now none
  · exact .still rfl (.inr ⟨rfl, rfl⟩) (fun h => by cases h) fun _ h => by cases h

theorem configure_moves (hw : c.WF a now) : Moves a c now none (c.configure a now) [] := by
  unfold configure
  split
  · rename_i hp
    refine .ask (n := 0) rfl (by unfold issued; rw [hp]) ?_ rfl rfl rfl rfl fun _ h => by cases h
    rw [show ({ c with phase := .configuring (.begin (a.configure c.controlId) now) } : Client).controlId =
      c.controlId from rfl, hw.first hp]
    decide
  · exact .still rfl (.inl ⟨rfl, rfl, rfl⟩) (fun _ => rfl) fun _ h => by cases h

/-- Sending what is pending, or not yet. -/
theorem send_eq (c : Client) (renewAt : Nat) (p : Pending) (now : Nat) :
    ∃ p', (c.send renewAt p now).1 = { c with phase := .running renewAt (some p') } ∧
      p'.message = p.message ∧ p'.made = p.made ∧ ∀ m ∈ (c.send renewAt p now).2, m = p.message := by
  unfold send
  split
  · exact ⟨_, rfl, rfl, rfl, fun m hm => List.mem_singleton.1 hm⟩
  · exact ⟨p, rfl, rfl, rfl, fun m hm => by cases hm⟩

theorem renewals_moves {t : Nat} {pending : Option Pending} (hp : c.phase = .running t pending) :
    Moves a c now none (c.renewals a t pending now).1 (c.renewals a t pending now).2 := by
  have hissued : c.issued = some c.controlId.toNat := by unfold issued; rw [hp]
  unfold renewals
  split
  · exact cleanup_moves a c now none
  cases pending with
  | some p =>
    obtain ⟨p', h1, h2, h3, h4⟩ := send_eq c t p now
    have ha : c.awaited = some (p.message, p.made) := by unfold awaited; rw [hp]
    simp only [h1]
    refine .still rfl (.inl ⟨?_, ?_, rfl⟩) (fun h => by cases h) fun m hm => .inr ⟨p.made, ?_⟩
    · exact hissued.symm
    · rw [ha]; simp only [awaited, h2, h3]
    · rw [h4 m hm]; exact ha
  | none =>
    simp only
    split
    · exact .still rfl (.inl ⟨rfl, rfl, rfl⟩) (fun _ => rfl) fun _ h => by cases h
    split
    · exact cleanup_moves a c now none
    rename_i hid
    obtain ⟨p', h1, h2, h3, h4⟩ := send_eq { c with controlId := c.controlId + 1 } t
      ⟨a.renew (c.controlId + 1), now, 0⟩ now
    have hne : c.controlId ≠ UInt32.ofNat u32Max := fun e => hid (by rw [e]; decide)
    have hsucc := toNat_succ32 hne
    simp only [h1]
    refine .ask rfl hissued (show c.controlId.toNat < (c.controlId + 1).toNat by omega) rfl rfl rfl ?_ h4
    simp only [awaited, h2, h3]

/-- **One pass of a loop.** -/
theorem poll_moves (a : Args) (c : Client) (entered now : Nat) :
    Moves a c now none (c.poll a entered now).1 (c.poll a entered now).2 := by
  have hsend : ∀ x : Exchange, (x.poll now).1.message = x.message ∧ (x.poll now).1.start = x.start ∧
      ∀ m ∈ (x.poll now).2, m = x.message := by
    intro x
    unfold Exchange.poll
    split
    · exact ⟨rfl, rfl, fun m hm => List.mem_singleton.1 hm⟩
    · exact ⟨rfl, rfl, fun m hm => by cases hm⟩
  unfold poll
  split
  · rename_i x hp
    split
    · exact cleanup_moves a c now none
    obtain ⟨h1, h2, h3⟩ := hsend x
    have ha : c.awaited = some (x.message, x.start) := by unfold awaited; rw [hp]
    refine .still rfl (.inl ⟨?_, ?_, rfl⟩) (fun h => by cases h) fun m hm => .inr ⟨x.start, ?_⟩
    · unfold issued; rw [hp]
    · rw [ha]; simp only [awaited, h1, h2]
    · rw [h3 m hm]; exact ha
  · rename_i t pending hp
    exact renewals_moves hp
  · rename_i x hp
    have hnone : c.issued = none := by unfold issued; rw [hp]
    split
    · exact .still rfl (.inr ⟨rfl, rfl⟩) (fun h => by cases h) fun _ h => by cases h
    · exact .still rfl (.inr ⟨rfl, rfl⟩) (fun h => by cases h) fun _ _ => .inl hnone
  · exact .still rfl (.inl ⟨rfl, rfl, rfl⟩) (fun _ => rfl) fun _ h => by cases h

theorem confirm_moves {m reply : Envelope} {made : Nat} (ha : c.awaited = some (m, made))
    (hi : c.issued = some c.controlId.toNat) (hk : reply.kind = some 12)
    (hs : reply.sessionId = some a.session) (hid : reply.requestId = m.requestId) :
    Moves a c now (some reply) (c.confirm a made reply now) [] := by
  unfold confirm
  split
  · exact cleanup_moves a c now (some reply)
  · rename_i ms hms
    exact .confirm rfl ha hk hs hid hms rfl ⟨hi.symm, rfl⟩ nofun

/-- **One datagram.** -/
theorem receive_moves (hw : c.WF a now) (reply : Envelope) :
    Moves a c now (some reply) (c.receive a reply now) [] := by
  have hsame : Moves a c now (some reply) c [] :=
    .still rfl (.inl ⟨rfl, rfl, rfl⟩) (fun _ => rfl) fun _ h => by cases h
  unfold receive
  split
  · rename_i x hp
    have ha : c.awaited = some (x.message, x.start) := by unfold awaited; rw [hp]
    split
    · rename_i h
      simp only [Exchange.accepts, Bool.and_eq_true, beq_iff_eq] at h
      obtain ⟨⟨⟨⟨⟨hk, -⟩, hs⟩, hid⟩, -⟩, -⟩ := h
      exact confirm_moves ha (by unfold issued; rw [hp]) hk (hs.trans (hw.awaits _ _ ha).1) hid
    · exact hsame
  · rename_i t p hp
    have ha : c.awaited = some (p.message, p.made) := by unfold awaited; rw [hp]
    split
    · rename_i h
      simp only [Args.identifies, Bool.and_eq_true, beq_iff_eq] at h
      obtain ⟨⟨hk, ⟨-, hs⟩, -⟩, hid⟩ := h
      exact confirm_moves ha (by unfold issued; rw [hp]) hk hs (hid.trans (hw.awaits _ _ ha).2.1.symm)
    · exact hsame
  · split
    · exact .still rfl (.inr ⟨rfl, rfl⟩) (fun h => by cases h) fun _ h => by cases h
    · exact hsame
  · exact hsame

/-- A step leaves the client well formed, for any later reading. -/
theorem Moves.wf {heard : Option Envelope} {c' : Client} {out : List Envelope}
    (h : Moves a c now heard c' out) (hw : c.WF a now) : c'.WF a now := by
  cases h with
  | still hl hc hf ho =>
    refine ⟨fun hp => by rw [hf hp]; exact hw.first (by rw [← hf hp]; exact hp), fun m made ha => ?_⟩
    rcases hc with ⟨-, h2, h3⟩ | ⟨-, h2⟩
    · rw [h3]; exact hw.awaits m made (h2 ▸ ha)
    · rw [h2] at ha; cases ha
  | ask hl hn hlt hi hs hm ha ho =>
    refine ⟨fun hp => ?_, fun m made ha' => ?_⟩
    · unfold issued at hi
      rw [hp] at hi
      simp only [Option.some.injEq] at hi
      omega
    · rw [ha] at ha'
      cases ha'
      exact ⟨hs, hm, Nat.le_refl _⟩
  | confirm hh ha hk hs hid hms hl hc hp =>
    exact ⟨fun h => absurd h hp, fun m made ha' => by rw [hc.2] at ha'; cases ha'⟩

theorem WF.later {now' : Nat} (h : c.WF a now) (hle : now ≤ now') : c.WF a now' :=
  ⟨h.first, fun m made ha =>
    let ⟨h1, h2, h3⟩ := h.awaits m made ha
    ⟨h1, h2, Nat.le_trans h3 hle⟩⟩

end Client
end Nucleo.Benchmark.Live
