import Nucleo.L2Machine.Tenant
import Nucleo.L3Protocol.LiveClient

/-!
# Lease safety: the client never outlives the server

The live client and the service on a network that keeps every datagram ever
sent and delivers any of them at any time, any number of times. Both clocks
advance with one time in nanoseconds; the client reads nanoseconds, the
service whole microseconds. Other peers, other sessions and the service's own
calls interleave freely.

* `inv_reachable`: the replies in flight and `lease_expiry` are promises that
  the service keeps (`Holding.Covers`).
* `lease_safety`: read on the server's clock, `lease_expiry` is never past the
  expiry of the lease; while the server's clock has not come to it, the server
  holds the lease.
* `lease_clock_gap`: read in nanoseconds it can be past it, by what the
  server's clock has cut off.
-/
namespace Nucleo.Benchmark.Live

open Service (Op)

/-- The origins of the two clocks. -/
structure Clocks where
  client : Nat
  server : Nat

namespace Clocks

/-- `time.monotonic_ns()` at the client. -/
def clientNow (k : Clocks) (time : Nat) : Nat := time + k.client

/-- The reading the service is called with.
mirrors Rust/tools/message-demo/python/benchmark_rust_service.py:45-46 -/
def serverNow (k : Clocks) (time : Nat) : Nat := (time + k.server) / 1000

/-- What the server's clock reads when the client's reads `reading`. -/
def toServer (k : Clocks) (reading : Nat) : Nat := (reading - k.client + k.server) / 1000

theorem serverNow_mono (k : Clocks) {time time' : Nat} (h : time ≤ time') :
    k.serverNow time ≤ k.serverNow time' :=
  Nat.div_le_div_right (Nat.add_le_add_right h k.server)

/-- Time counted from a moment before `time` is over before the same time
counted from `time`. -/
theorem toServer_le (k : Clocks) {made time : Nat} (h : made ≤ k.clientNow time) (ms : Nat) :
    k.toServer (made + ms * 1000000) ≤ k.serverNow time + ms * 1000 := by
  unfold clientNow at h
  unfold toServer serverNow
  omega

/-- A microsecond before `reading` the server's clock has not come to it. -/
theorem serverNow_lt (k : Clocks) {time reading : Nat} (h : k.clientNow time + 1000 ≤ reading) :
    k.serverNow time < k.toServer reading := by
  unfold clientNow at h
  unfold toServer serverNow
  omega

end Clocks

/-- The client's address and arguments, and the clocks. -/
structure Setup where
  clocks : Clocks
  peer : Peer
  args : Args

/-- A datagram and the time it was sent, which nobody sees. -/
structure Packet where
  sent : Nat
  message : Envelope
  deriving DecidableEq

/-- `requests` and `replies` are all datagrams ever sent between the client and
the server; `ended` is set once the server ended the client's lease by a stop,
a clock that went back or `end()`. -/
structure World where
  time : Nat
  service : Service
  client : Client
  requests : List Packet
  replies : List Packet
  ended : Bool

inductive Label where
  | wait (duration : Nat)
  /-- the client: configure, a pass of a loop, the end of the run, a discovery or probe -/
  | configure
  | poll (entered : Nat)
  | leave
  | other (request : Envelope)
  /-- a datagram arrives at the server, at the client -/
  | deliver (p : Packet)
  | answer (p : Packet)
  /-- a request of another peer or session -/
  | foreign (request : Envelope) (peer : Peer)
  /-- `tick`, `publication`, `end` or `reject` -/
  | call (op : Op)
  deriving DecidableEq

namespace World

variable (u : Setup)

/-- The client moves and sends. -/
def sends (w : World) (c : Client) (out : List Envelope) : World :=
  { w with client := c, requests := w.requests ++ out.map (⟨w.time, ·⟩) }

/-- The service is called; a reply to the client's address goes on the network. -/
def serve (w : World) (op : Op) : World :=
  { w with
    service := Service.machine.next w.service op
    replies := match op with
      | .handle _ p _ =>
        if p = u.peer then w.replies ++ (Service.machine.out w.service op).toList.map (⟨w.time, ·⟩)
        else w.replies
      | _ => w.replies
    ended := w.ended || w.service.revokes u.peer u.args.session op }

def step (w : World) : Label → Option World
  | .wait duration =>
    if u.clocks.serverNow (w.time + duration) ≤ u64Max then some { w with time := w.time + duration }
    else none
  | .configure => some (w.sends (w.client.configure u.args (u.clocks.clientNow w.time)) [])
  | .poll entered =>
    let now := u.clocks.clientNow w.time
    if entered ≤ now then
      let (c, out) := w.client.poll u.args entered now
      some (w.sends c out)
    else none
  | .leave => some (w.sends (w.client.leave u.args (u.clocks.clientNow w.time)) [])
  | .other request =>
    if request.kind = some 1 ∨ request.kind = some 5 then some (w.sends w.client [request]) else none
  | .deliver p =>
    if p ∈ w.requests then
      some (w.serve u (.handle p.message u.peer (u.clocks.serverNow w.time)))
    else none
  | .answer p =>
    if p ∈ w.replies then
      some (w.sends (w.client.receive u.args p.message (u.clocks.clientNow w.time)) [])
    else none
  | .foreign request peer =>
    if peer ≠ u.peer ∨ request.sessionId ≠ some u.args.session then
      some (w.serve u (.handle request peer (u.clocks.serverNow w.time)))
    else none
  | .call op =>
    match op with
    | .handle _ _ _ => none
    | .tick now | .publication _ now =>
      if now = u.clocks.serverNow w.time then some (w.serve u op) else none
    | .endLease | .reject _ => some (w.serve u op)

/-- The server has started, the client has sent nothing, and its session is new. -/
structure Initial (w : World) : Prop where
  service : ∃ device boot format crc,
    w.service = .new device boot format crc (u.clocks.serverNow w.time)
  client : w.client = {}
  requests : w.requests = []
  replies : w.replies = []
  ended : w.ended = false
  fits : u.clocks.serverNow w.time ≤ u64Max

end World

/-- The client and the server. -/
def system (u : Setup) : LTS World Label where
  init := World.Initial u
  step w l w' := w.step u l = some w'

/-! ## The invariant -/

namespace World

variable {u : Setup} {w : World}

/-- The client's lease at the server, as a holding. -/
def holding (u : Setup) (w : World) : Holding Nat := w.service.holdingOf u.peer u.args.session w.ended

/-- A control with this ID, or a reply to one, was sent at this time. -/
def Control (u : Setup) (w : World) (id : UInt32) (sent : Nat) : Prop :=
  (∃ m, ⟨sent, m⟩ ∈ w.requests ∧ m.requestId = some id ∧ m.kind ≠ some 1 ∧ m.kind ≠ some 5) ∨
  ∃ m, ⟨sent, m⟩ ∈ w.replies ∧ m.requestId = some id ∧ m.kind = some 12 ∧
    m.sessionId = some u.args.session

structure Inv (u : Setup) (w : World) : Prop where
  service : w.service.Inv
  timed : w.service.Timed
  clock : w.service.lastTime ≤ u.clocks.serverNow w.time
  fits : u.clocks.serverNow w.time ≤ u64Max
  client : w.client.WF u.args (u.clocks.clientNow w.time)
  past : ∀ id sent, w.Control u id sent → sent ≤ w.time
  /-- no control has an ID past the last one in use -/
  bounded : ∀ n, w.client.issued = some n → ∀ id sent, w.Control u id sent → id.toNat ≤ n
  /-- the reading the lease would count from is before every copy of the last control -/
  anchored : ∀ m made, w.client.awaited = some (m, made) → ∀ sent,
    w.Control u w.client.controlId sent → made ≤ u.clocks.clientNow sent
  promised : ∀ sent m ms, ⟨sent, m⟩ ∈ w.replies → m.kind = some 12 →
    m.sessionId = some u.args.session → confirmed m = some ms →
    (w.holding u).Covers (u.clocks.serverNow sent + ms * 1000)
  expiry : ∀ e, w.client.leaseExpiry = some e → (w.holding u).Covers (u.clocks.toServer e)

theorem Inv.init (h : w.Initial u) : w.Inv u := by
  obtain ⟨⟨device, boot, format, crc, hs⟩, hc, hq, hr, -, hfits⟩ := h
  have hnone : ∀ id sent, ¬ w.Control u id sent := by
    rintro id sent (⟨m, hm, -⟩ | ⟨m, hm, -⟩)
    · rw [hq] at hm; cases hm
    · rw [hr] at hm; cases hm
  refine ⟨?_, ?_, ?_, hfits, ⟨fun _ => ?_, fun m made ha => ?_⟩, fun id sent h => absurd h (hnone id sent),
    fun n _ id sent h => absurd h (hnone id sent), fun m made _ sent h => absurd h (hnone _ sent),
    fun sent m ms hm => ?_, fun e he => ?_⟩
  · rw [hs]; exact .new device boot format crc _
  · rw [hs]; exact .of_none rfl
  · rw [hs]; exact Nat.le_refl _
  · rw [hc]
  · rw [hc] at ha; cases ha
  · rw [hr] at hm; cases hm
  · rw [hc] at he; cases he

theorem Inv.wait (hi : w.Inv u) {duration : Nat}
    (hfits : u.clocks.serverNow (w.time + duration) ≤ u64Max) :
    ({ w with time := w.time + duration } : World).Inv u where
  service := hi.service
  timed := hi.timed
  clock := Nat.le_trans hi.clock (u.clocks.serverNow_mono (Nat.le_add_right _ _))
  fits := hfits
  client := hi.client.later (by unfold Clocks.clientNow; simp only; omega)
  past id sent h := Nat.le_trans (hi.past id sent h) (Nat.le_add_right _ _)
  bounded := hi.bounded
  anchored := hi.anchored
  promised := hi.promised
  expiry := hi.expiry

/-! ## Steps of the client -/

theorem issued_of_awaited {c : Client} {m : Envelope} {made : Nat} (h : c.awaited = some (m, made)) :
    c.issued = some c.controlId.toNat := by
  unfold Client.awaited at h
  unfold Client.issued
  split at h
  · rename_i hp; rw [hp]
  · rename_i hp; rw [hp]
  · cases h

/-- A control on the network after a send was there before, or is in `out`. -/
theorem control_sends {c : Client} {out : List Envelope} {id : UInt32} {sent : Nat}
    (h : (w.sends c out).Control u id sent) : w.Control u id sent ∨
      sent = w.time ∧ ∃ m ∈ out, m.requestId = some id ∧ m.kind ≠ some 1 ∧ m.kind ≠ some 5 := by
  rcases h with ⟨m, hm, hid, hk⟩ | h
  · rcases List.mem_append.1 hm with hm | hm
    · exact .inl (.inl ⟨m, hm, hid, hk⟩)
    · simp only [List.mem_map, Packet.mk.injEq] at hm
      obtain ⟨m', hm', rfl, rfl⟩ := hm
      exact .inr ⟨rfl, m', hm', hid, hk⟩
  · exact .inl (.inr h)

/-- What a step of the client must show, beyond what holds of every send. -/
theorem Inv.sends (hi : w.Inv u) {c : Client} {out : List Envelope}
    (hc : c.WF u.args (u.clocks.clientNow w.time))
    (hb : ∀ n, c.issued = some n → ∀ id sent, (w.sends c out).Control u id sent → id.toNat ≤ n)
    (ha : ∀ m made, c.awaited = some (m, made) → ∀ sent,
      (w.sends c out).Control u c.controlId sent → made ≤ u.clocks.clientNow sent)
    (he : ∀ e, c.leaseExpiry = some e → (w.holding u).Covers (u.clocks.toServer e)) :
    (w.sends c out).Inv u where
  service := hi.service
  timed := hi.timed
  clock := hi.clock
  fits := hi.fits
  client := hc
  past id sent h := by
    rcases control_sends h with h | ⟨rfl, -⟩
    · exact hi.past id sent h
    · exact Nat.le_refl _
  bounded := hb
  anchored := ha
  promised := hi.promised
  expiry := he

theorem Inv.other (hi : w.Inv u) {request : Envelope} (hk : request.kind = some 1 ∨ request.kind = some 5) :
    (w.sends w.client [request]).Inv u := by
  have hold : ∀ id sent, (w.sends w.client [request]).Control u id sent → w.Control u id sent := by
    intro id sent h
    rcases control_sends h with h | ⟨-, m, hm, -, h1, h5⟩
    · exact h
    · rw [List.mem_singleton.1 hm] at h1 h5
      exact absurd hk (not_or.2 ⟨h1, h5⟩)
  exact hi.sends hi.client (fun n hn id sent h => hi.bounded n hn id sent (hold id sent h))
    (fun m made ha sent h => hi.anchored m made ha sent (hold _ sent h)) hi.expiry

/-- **The client's step.** -/
theorem Inv.moves (hi : w.Inv u) {heard : Option Envelope} {c : Client} {out : List Envelope}
    (hm : Client.Moves u.args w.client (u.clocks.clientNow w.time) heard c out)
    (hheard : ∀ reply, heard = some reply → ∃ sent, ⟨sent, reply⟩ ∈ w.replies) : (w.sends c out).Inv u := by
  have hwf := hm.wf hi.client
  cases hm with
  | still hl hc hf ho =>
    -- what is sent has the ID of the last control, while IDs count
    have hid : ∀ m ∈ out, ∀ n id, w.client.issued = some n → m.requestId = some id →
        id = w.client.controlId ∧ n = w.client.controlId.toNat ∧ w.client.awaited.isSome := by
      intro m hm n id hn hreq
      rcases ho m hm with h | ⟨made, h⟩
      · rw [h] at hn; cases hn
      · rw [(hi.client.awaits m made h).2.1] at hreq
        rw [issued_of_awaited h] at hn
        cases hreq
        cases hn
        exact ⟨rfl, rfl, by rw [h]; rfl⟩
    refine hi.sends hwf (fun n hn id sent h => ?_) (fun m made ha sent h => ?_) fun e he => ?_
    · rcases hc with ⟨h1, -⟩ | ⟨h1, -⟩
      · rw [h1] at hn
        rcases control_sends h with h | ⟨-, m, hm, hreq, -⟩
        · exact hi.bounded n hn id sent h
        · obtain ⟨rfl, rfl, -⟩ := hid m hm n id hn hreq
          exact Nat.le_refl _
      · rw [h1] at hn; cases hn
    · rcases hc with ⟨h1, h2, h3⟩ | ⟨-, h2⟩
      · rw [h2] at ha
        rw [h3] at h
        rcases control_sends h with h | ⟨rfl, -⟩
        · exact hi.anchored m made ha sent h
        · exact (hi.client.awaits m made ha).2.2
      · rw [h2] at ha; cases ha
    · rw [hl] at he
      exact hi.expiry e he
  | @ask _ n m hl hn hlt hi' hs hm ha ho =>
    refine hi.sends hwf (fun n' hn' id sent h => ?_) (fun m' made ha' sent h => ?_) fun e he => ?_
    · rw [hi'] at hn'
      cases hn'
      rcases control_sends h with h | ⟨-, m', hm', hreq, -⟩
      · exact Nat.le_of_lt (Nat.lt_of_le_of_lt (hi.bounded n hn id sent h) hlt)
      · rw [ho m' hm', hm] at hreq
        cases hreq
        exact Nat.le_refl _
    · rw [ha] at ha'
      cases ha'
      -- no earlier control has the new ID
      rcases control_sends h with h | ⟨rfl, -⟩
      · exact absurd (hi.bounded n hn _ sent h) (Nat.not_le.2 hlt)
      · exact Nat.le_refl _
    · rw [hl] at he
      exact hi.expiry e he
  | @confirm m reply made ms hh ha hk hs hid hms hl hc hp =>
    have hold : ∀ id sent, (w.sends c []).Control u id sent → w.Control u id sent := by
      intro id sent h
      rcases control_sends h with h | ⟨-, m, hm, -⟩
      · exact h
      · cases hm
    refine hi.sends hwf (fun n hn id sent h => ?_) (fun m' made' ha' => ?_) fun e he => ?_
    · rw [hc.1] at hn
      exact hi.bounded n hn id sent (hold id sent h)
    · rw [hc.2] at ha'; cases ha'
    · rw [hl] at he
      cases he
      -- the reply names a time counted from its own sending, which is not before `made`
      obtain ⟨sent, hmem⟩ := hheard reply hh
      have hreq : reply.requestId = some w.client.controlId := hid.trans (hi.client.awaits m made ha).2.1
      have hmade := hi.anchored m made ha sent (.inr ⟨reply, hmem, hreq, hk, hs⟩)
      exact (hi.promised sent reply ms hmem hk hs hms).mono (u.clocks.toServer_le hmade ms)

/-! ## Steps of the server -/

theorem confirmed_eq_some {m : Envelope} {ms : Nat} (h : confirmed m = some ms) :
    ∃ r left, m.result = some r ∧ (r.code = some 1 ∨ r.code = some 2) ∧
      r.leaseRemainingMs = some left ∧ left.toNat = ms := by
  unfold confirmed at h
  split at h
  · cases h
  rename_i r hr
  split at h
  · rename_i hcode
    obtain ⟨left, hleft, he⟩ := Option.map_eq_some_iff.1 h
    exact ⟨r, left, hr, hcode, hleft, he⟩
  · cases h

/-- A reply on the network after a call was there before, or is the call's. -/
theorem mem_serve {op : Op} {p : Packet} (h : p ∈ (w.serve u op).replies) : p ∈ w.replies ∨
    p.sent = w.time ∧ ∃ request now, op = .handle request u.peer now ∧
      (w.service.handle request u.peer now).2 = some p.message := by
  unfold serve at h
  cases op with
  | handle request peer now =>
    simp only at h
    split at h
    · rename_i hp
      rcases List.mem_append.1 h with h | h
      · exact .inl h
      · obtain ⟨m, hm, rfl⟩ := List.mem_map.1 h
        subst hp
        exact .inr ⟨rfl, request, now, rfl, Option.mem_toList.1 hm⟩
    · exact .inl h
  | tick now => exact .inl h
  | publication index now => exact .inl h
  | endLease => exact .inl h
  | reject crc => exact .inl h

/-- **The server's step**: a call at the present reading; a request with the
client's address and session is one that the client sent. -/
theorem Inv.serve (hi : w.Inv u) {op : Op}
    (ht : ∀ now, op.time = some now → now = u.clocks.serverNow w.time)
    (hop : ∀ request now, op = .handle request u.peer now → request.sessionId = some u.args.session →
      ∃ sent, ⟨sent, request⟩ ∈ w.requests) : (w.serve u op).Inv u := by
  have htimely : Timely Op.time w.service.lastTime op := fun now hnow => (ht now hnow) ▸ hi.clock
  have hmax : ∀ now, op.time = some now → now ≤ u64Max := fun now hnow => (ht now hnow) ▸ hi.fits
  obtain ⟨es, hrun⟩ := Service.next_follows u.peer u.args.session hi.timed hi.service htimely w.ended
  have hcovers : ∀ {b : Nat}, (w.holding u).Covers b → ((w.serve u op).holding u).Covers b :=
    fun hb => Holding.run_covers hrun hb
  -- a new reply to the client: what it promises and which request it answers
  have hnew : ∀ request now reply, op = .handle request u.peer now →
      (w.service.handle request u.peer now).2 = some reply → reply.kind = some 12 →
      reply.sessionId = some u.args.session →
      Service.Promises (w.serve u op).service request u.peer now reply ∧ now = u.clocks.serverNow w.time ∧
        ∃ sent, ⟨sent, request⟩ ∈ w.requests := by
    intro request now reply hop' hr hk hs
    subst hop'
    have hp := Service.handle_promises hi.service hi.timed (htimely now rfl) (hmax now rfl) hr hk
    exact ⟨hp, ht now rfl, hop request now rfl (hp.session.symm.trans hs)⟩
  -- so its ID is that of a control sent earlier
  have hcontrol : ∀ id sent, (w.serve u op).Control u id sent →
      w.Control u id sent ∨ sent = w.time ∧ ∃ earlier, w.Control u id earlier := by
    rintro id sent (h | ⟨m, hm, hid, hk, hs⟩)
    · exact .inl (.inl h)
    · rcases mem_serve hm with hm | ⟨hsent, request, now, hop', hr⟩
      · exact .inl (.inr ⟨m, hm, hid, hk, hs⟩)
      · obtain ⟨hp, -, earlier, hmem⟩ := hnew request now m hop' hr hk hs
        exact .inr ⟨hsent, earlier, .inl ⟨request, hmem, hp.id.symm.trans hid, hp.kind⟩⟩
  refine ⟨hi.service.next op, hi.timed.next hi.service htimely hmax, ?_, hi.fits, hi.client, ?_, ?_, ?_, ?_,
    fun e he => hcovers (hi.expiry e he)⟩
  · show (Service.machine.next w.service op).lastTime ≤ _
    rw [Service.next_lastTime hi.service]
    cases htime : op.time with
    | none => exact hi.clock
    | some now => exact Nat.le_of_eq (ht now htime)
  · intro id sent h
    rcases hcontrol id sent h with h | ⟨rfl, -⟩
    · exact hi.past id sent h
    · exact Nat.le_refl _
  · intro n hn id sent h
    rcases hcontrol id sent h with h | ⟨-, earlier, h⟩
    · exact hi.bounded n hn id sent h
    · exact hi.bounded n hn id earlier h
  · intro m made ha sent h
    rcases hcontrol _ sent h with h | ⟨rfl, earlier, h⟩
    · exact hi.anchored m made ha sent h
    · have hmade := hi.anchored m made ha earlier h
      exact Nat.le_trans hmade (Nat.add_le_add_right (hi.past _ earlier h) u.clocks.client)
  · intro sent m ms hm hk hs hms
    rcases mem_serve hm with hm | ⟨hsent, request, now, hop', hr⟩
    · exact hcovers (hi.promised sent m ms hm hk hs hms)
    · obtain ⟨hp, hnow, -⟩ := hnew request now m hop' hr hk hs
      obtain ⟨r, left, hres, hcode, hleft, rfl⟩ := confirmed_eq_some hms
      obtain ⟨d, hd, hle⟩ := hp.lasts r left hres hcode hleft _ hs
      simp only at hsent
      rw [hsent, ← hnow]
      exact .inr (.inl ⟨d, hd, hle⟩)

/-! ## Runs -/

theorem Inv.step (hi : w.Inv u) {l : Label} {w' : World} (h : w.step u l = some w') : w'.Inv u := by
  cases l with
  | wait duration =>
    simp only [World.step] at h
    split at h
    · rename_i hfits
      simp only [Option.some.injEq] at h
      subst h
      exact hi.wait hfits
    · cases h
  | configure =>
    simp only [World.step, Option.some.injEq] at h
    subst h
    exact hi.moves (Client.configure_moves hi.client) fun _ h => by cases h
  | poll entered =>
    simp only [World.step] at h
    split at h
    · simp only [Option.some.injEq] at h
      subst h
      exact hi.moves (Client.poll_moves u.args w.client entered _) fun _ h => by cases h
    · cases h
  | leave =>
    simp only [World.step, Option.some.injEq] at h
    subst h
    exact hi.moves (Client.leave_moves u.args w.client _) fun _ h => by cases h
  | other request =>
    simp only [World.step] at h
    split at h
    · rename_i hk
      simp only [Option.some.injEq] at h
      subst h
      exact hi.other hk
    · cases h
  | deliver p =>
    simp only [World.step] at h
    split at h
    · rename_i hp
      simp only [Option.some.injEq] at h
      subst h
      refine hi.serve (fun now hnow => by cases hnow; rfl) fun request now hop _ => ?_
      cases hop
      exact ⟨p.sent, hp⟩
    · cases h
  | answer p =>
    simp only [World.step] at h
    split at h
    · rename_i hp
      simp only [Option.some.injEq] at h
      subst h
      refine hi.moves (Client.receive_moves hi.client p.message) fun reply hr => ?_
      cases hr
      exact ⟨p.sent, hp⟩
    · cases h
  | foreign request peer =>
    simp only [World.step] at h
    split at h
    · rename_i hother
      simp only [Option.some.injEq] at h
      subst h
      refine hi.serve (fun now hnow => by cases hnow; rfl) fun request' now hop hs => ?_
      cases hop
      exact absurd hs (hother.resolve_left (by simp))
    · cases h
  | call op =>
    cases op with
    | handle => cases h
    | tick now =>
      simp only [World.step] at h
      split at h
      · rename_i hnow
        simp only [Option.some.injEq] at h
        subst h
        exact hi.serve (fun now' hnow' => by cases hnow'; exact hnow) fun _ _ hop => by cases hop
      · cases h
    | publication index now =>
      simp only [World.step] at h
      split at h
      · rename_i hnow
        simp only [Option.some.injEq] at h
        subst h
        exact hi.serve (fun now' hnow' => by cases hnow'; exact hnow) fun _ _ hop => by cases hop
      · cases h
    | endLease =>
      simp only [World.step, Option.some.injEq] at h
      subst h
      exact hi.serve (fun _ h => by cases h) fun _ _ hop => by cases hop
    | reject crc =>
      simp only [World.step, Option.some.injEq] at h
      subst h
      exact hi.serve (fun _ h => by cases h) fun _ _ hop => by cases hop

end World

theorem inv_inductive (u : Setup) : (system u).Inductive (World.Inv u) where
  init _ h := .init h
  step _ _ _ hi h := hi.step h

theorem inv_reachable {u : Setup} {w : World} (h : (system u).Reachable w) : w.Inv u :=
  (inv_inductive u).reachable w h

/-- The server holds the client's lease, and keeps it in a call made now. -/
def World.Holds (u : Setup) (w : World) : Prop :=
  ∃ l, w.service.lease = some l ∧ l.peer = u.peer ∧ l.session = u.args.session ∧
    u.clocks.serverNow w.time < l.expiry ∧
    (w.service.tick (u.clocks.serverNow w.time)).lease = some l

/-- **Lease safety.** Unless the server ended the lease itself, `lease_expiry`,
read on the server's clock, is not past the expiry of the lease the server
holds for the session; while the server's clock has not come to it, and so up
to one microsecond before it, the server holds the lease. -/
theorem lease_safety (u : Setup) (w : World) (hr : (system u).Reachable w) (hended : w.ended = false)
    (expiry : Nat) (he : w.client.leaseExpiry = some expiry) :
    (∀ l, w.service.lease = some l → l.peer = u.peer → l.session = u.args.session →
      u.clocks.toServer expiry ≤ l.expiry) ∧
    (u.clocks.serverNow w.time < u.clocks.toServer expiry → w.Holds u) ∧
    (u.clocks.clientNow w.time + 1000 ≤ expiry → w.Holds u) := by
  have hi := inv_reachable hr
  have hcovers := hi.expiry expiry he
  have hholds : u.clocks.serverNow w.time < u.clocks.toServer expiry → w.Holds u := by
    intro hlt
    have hclock := hi.clock
    obtain ⟨d, hd, hle⟩ := hcovers.held hended (by
      show ¬ u.clocks.toServer expiry ≤ w.service.lastTime
      omega)
    obtain ⟨l, hl, hp, hs, rfl⟩ := Service.deadline_eq_some.1 hd
    have hstays : w.service.lapses (u.clocks.serverNow w.time) = false := by
      simp only [Service.lapses, hl, Option.any_some, Bool.or_eq_false_iff, decide_eq_false_iff_not]
      omega
    exact ⟨l, hl, hp, hs, by omega, (Service.tenure_eq_iff.1 (Service.tick_stays hstays)).1.trans hl⟩
  refine ⟨fun l hl hp hs => ?_, hholds, fun hlt => hholds (u.clocks.serverNow_lt hlt)⟩
  have htimed := (hi.timed l hl).1
  rcases hcovers with hrev | ⟨d, hd, hle⟩ | hle
  · exact absurd (hended.symm.trans hrev) (by decide)
  · obtain ⟨l', hl', -, -, rfl⟩ := Service.deadline_eq_some.1 hd
    rw [hl] at hl'
    cases hl'
    exact hle
  · exact Nat.le_trans hle htimed

/-! ## The microsecond between the clocks -/

/-- The labels of a run, one after the other. -/
def World.run (u : Setup) (w : World) : List Label → Option World
  | [] => some w
  | l :: ls => (w.step u l).bind fun w' => World.run u w' ls

theorem World.run_reachable {u : Setup} {w w' : World} {ls : List Label} (hw : w.Initial u)
    (h : World.run u w ls = some w') : (system u).Reachable w' := by
  refine ⟨w, ls, hw, ?_⟩
  clear hw
  induction ls generalizing w with
  | nil => cases h; exact .nil _
  | cons l ls ih =>
    obtain ⟨w₁, h1, h2⟩ := Option.bind_eq_some_iff.1 h
    exact .cons h1 (ih h2)

namespace Sample

def setup : Setup where
  clocks := ⟨0, 0⟩
  peer := Benchmark.Sample.peer
  args := ⟨Benchmark.Sample.device, Benchmark.Sample.session, Benchmark.Sample.boot, 1,
    Benchmark.Sample.configuration⟩

/-- The server has just started. -/
def world : World := ⟨0, Benchmark.Sample.service, {}, [], [], false⟩

theorem world_initial : world.Initial setup :=
  ⟨⟨_, _, _, _, rfl⟩, rfl, rfl, rfl, rfl, by decide⟩

/-- The reply to the configure, made before the server's clock reads 1. -/
def reply : Envelope :=
  ((Benchmark.Sample.service.handle (setup.args.configure 1) setup.peer 0).2).getD {}

/-- A lease acquired 999 ns into the server's microsecond, without delay. -/
def acquire : List Label :=
  [.wait 999, .configure, .poll 999, .deliver ⟨999, setup.args.configure 1⟩, .answer ⟨999, reply⟩]

end Sample

theorem lease_safety_acquired : ∃ w : World, (system Sample.setup).Reachable w ∧
    w.client.leaseExpiry = some 2000000999 ∧
    (∀ l, w.service.lease = some l → l.peer = Sample.setup.peer → l.session = Sample.setup.args.session →
      Sample.setup.clocks.toServer 2000000999 ≤ l.expiry) ∧
    (Sample.setup.clocks.serverNow w.time < Sample.setup.clocks.toServer 2000000999 →
      w.Holds Sample.setup) ∧
    (Sample.setup.clocks.clientNow w.time + 1000 ≤ 2000000999 → w.Holds Sample.setup) := by
  have hrun : (World.run Sample.setup Sample.world Sample.acquire).any (fun w =>
      !w.ended && w.client.leaseExpiry == some 2000000999) = true := by decide +kernel
  obtain ⟨w, hw, h⟩ := Option.any_eq_true .. |>.1 hrun
  simp only [Bool.and_eq_true, Bool.not_eq_true', beq_iff_eq] at h
  have hreach := World.run_reachable Sample.world_initial hw
  exact ⟨w, hreach, h.2, lease_safety Sample.setup w hreach h.1 2000000999 h.2⟩

/-- In nanoseconds the client's lease can be the longer one: here it has 499 ns left
and the server drops it. -/
theorem lease_clock_gap : ∃ w : World, (system Sample.setup).Reachable w ∧ w.ended = false ∧
    ∃ expiry, w.client.leaseExpiry = some expiry ∧ Sample.setup.clocks.clientNow w.time < expiry ∧
      (∃ l, w.service.lease = some l ∧ l.peer = Sample.setup.peer ∧
        l.session = Sample.setup.args.session ∧ l.expiry * 1000 < expiry) ∧
      (w.service.tick (Sample.setup.clocks.serverNow w.time)).lease = none := by
  have hrun : (World.run Sample.setup Sample.world (Sample.acquire ++ [.wait 1999999501])).any (fun w =>
      !w.ended && w.client.leaseExpiry == some 2000000999 && decide (w.time = 2000000500) &&
      (w.service.lease.any fun l => l.peer == Sample.setup.peer && l.session == Sample.setup.args.session &&
        l.expiry == 2000000) &&
      (w.service.tick 2000000).lease == none) = true := by decide +kernel
  obtain ⟨w, hw, h⟩ := Option.any_eq_true .. |>.1 hrun
  simp only [Bool.and_eq_true, Bool.not_eq_true', beq_iff_eq, decide_eq_true_eq] at h
  obtain ⟨⟨⟨⟨hended, he⟩, ht⟩, hl⟩, hdrop⟩ := h
  obtain ⟨l, hl, hl'⟩ := Option.any_eq_true .. |>.1 hl
  simp only [Bool.and_eq_true, beq_iff_eq] at hl'
  refine ⟨w, World.run_reachable Sample.world_initial hw, hended, 2000000999, he, ?_,
    ⟨l, hl, hl'.1.1, hl'.1.2, by rw [hl'.2]; decide⟩, ?_⟩
  · rw [ht]; decide
  · rw [ht]; exact hdrop

end Nucleo.Benchmark.Live
