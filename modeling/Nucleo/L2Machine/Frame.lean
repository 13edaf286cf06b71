import Nucleo.L2Machine.ServiceSteps

/-!
# The frame of `handle`

Only APPLIED and STOPPED change the run: `effect_frame` reads it off the
effects. The two-run form follows from `assess_congr`: what `handle` decides
after its tick depends on the tenure and the identity alone, not on counters,
bucket or clock. So calls by anyone but the owner can be deleted from a run
without the owner noticing (`Machine.run_drop` is that argument for any
machine). `frame_law` has both.
-/
namespace Nucleo.Benchmark
namespace Service

/-! ## One call -/

theorem effect_frame {s : Service} {request : Envelope} {peer : Peer} {now : Nat}
    {r : Service × Outcome} (he : Effect s request peer now r) (h1 : r.2.code ≠ some 1)
    (h3 : r.2.code ≠ some 3) : r.1.tenure = s.tenure := by
  cases he with
  | refused => exact (reject_frame s false).1
  | capabilities => rfl
  | probe => rfl
  | duplicate => rfl
  | rejected => exact (reject_frame s false).1
  | acquired => exact absurd rfl h1
  | renewed => exact absurd rfl h1
  | stopped => exact absurd rfl h3

/-- Discovery, probes and refused messages compute no code. -/
theorem outcome_code_none {s : Service} {request : Envelope} {peer : Peer} {now : Nat}
    (h : request.kind = some 1 ∨ request.kind = some 5 ∨ (s.tick now).refuses request = true) :
    (s.outcome request peer now).code = none := by
  unfold outcome assess probe
  rcases h with h | h | h
  · rw [h]
    split
    · rfl
    split
    · rename_i hk _ _
      cases hk; rfl
    · rfl
  · rw [h]
    split
    · rfl
    split
    · rename_i hk _ _
      cases hk
      simp only [if_true, show ¬ (5 : Int) = 1 by decide, if_false]
      split
      · rfl
      split
      · rfl
      split
      · split <;> rfl
      · rfl
    · rfl
  · rw [if_pos h]; rfl

/-! ## The decision only looks at tenure and identity -/

section
variable {s s' : Service} {request : Envelope} {peer : Peer} {session : HString 16}

theorem identity_eq_iff : s.identity = s'.identity ↔
    s.device = s'.device ∧ s.boot = s'.boot ∧ s.format = s'.format ∧ s.crc = s'.crc := by
  simp [identity]

/-- Two results leave the same run and code. -/
def Agree {O : Type} (code : O → Option Int) (r r' : Service × O) : Prop :=
  r.1.tenure = r'.1.tenure ∧ code r.2 = code r'.2

theorem Agree.ite {O : Type} {code : O → Option Int} {a a' b b' : Service × O} {c : Prop}
    [Decidable c] (ha : Agree code a a') (hb : Agree code b b') :
    Agree code (if c then a else b) (if c then a' else b') := by
  split
  · exact ha
  · exact hb

theorem acquire_congr (request : Envelope) (peer : Peer) (session : HString 16) (control : Control)
    (now : Nat) (ht : s.tenure = s'.tenure) :
    (s.acquire request peer session control now).map tenure =
      (s'.acquire request peer session control now).map tenure := by
  obtain ⟨-, -, h3, h4⟩ := tenure_eq_iff.1 ht
  unfold acquire
  split
  · rfl
  split
  · simp [tenure, h3, h4]
  · rfl

theorem apply_congr (control : Control) (now : Nat) (ht : s.tenure = s'.tenure) :
    Agree (fun c => c) (s.apply control now) (s'.apply control now) := by
  have hc : s.counted.tenure = s'.counted.tenure := ht
  obtain ⟨h1, h2, h3, h4⟩ := tenure_eq_iff.1 hc
  unfold apply
  simp only
  split
  · exact ⟨endLease_tenure hc, rfl⟩
  rw [h1]
  split
  · exact ⟨hc, rfl⟩
  split
  · simp [Agree, tenure, h2, h3, h4]
  · simp [Agree, tenure, h2, h3, h4]

theorem resultCode_congr (request : Envelope) (peer : Peer) (owner : Bool) (session : HString 16)
    (control : Control) (now : Nat) (ht : s.tenure = s'.tenure) :
    Agree (fun c => c) (s.resultCode request peer owner session control now)
      (s'.resultCode request peer owner session control now) := by
  obtain ⟨h1, -, h3, h4⟩ := tenure_eq_iff.1 ht
  have ha := acquire_congr request peer session control now ht
  unfold resultCode active
  rw [h1, h3, h4]
  have hrej : ∀ code, Agree (fun c => c) (s, code) (s', code) := fun _ => ⟨ht, rfl⟩
  -- every guard looks at the tenure; the rejections change nothing
  refine .ite (hrej _) (.ite (hrej _) (.ite (hrej _) (.ite (hrej _) (.ite (hrej _) (.ite (hrej _)
    (.ite (hrej _) (.ite (hrej _) (.ite (hrej _) (.ite ?_ (apply_congr control now ht))))))))))
  cases e : s.acquire request peer session control now <;>
    cases e' : s'.acquire request peer session control now <;> rw [e, e'] at ha
  · exact hrej _
  · cases ha
  · cases ha
  · exact apply_congr control now (Option.some.inj ha)

theorem conclude_congr (request : Envelope) (peer : Peer) (session : HString 16) (id : UInt32)
    (now : Nat) {r r' : Service × Option Int} (h : Agree (fun c => c) r r') :
    Agree Outcome.code (conclude request peer session id now r)
      (conclude request peer session id now r') := by
  obtain ⟨s, c⟩ := r
  obtain ⟨s', c'⟩ := r'
  obtain ⟨ht, hc⟩ := h
  simp only at ht hc
  subst hc
  cases c with
  | none => exact ⟨ht, rfl⟩
  | some code =>
    refine ⟨?_, rfl⟩
    simp only [conclude]
    split
    · exact ht
    · rw [(reject_frame s false).1, (reject_frame s' false).1, ht]

theorem owner_congr (peer : Peer) (session : HString 16) (ht : s.tenure = s'.tenure) :
    s.owner peer session = s'.owner peer session := by
  unfold owner; rw [(tenure_eq_iff.1 ht).1]

theorem reject_congr (crc : Bool) (ht : s.tenure = s'.tenure) :
    (s.reject crc).tenure = (s'.reject crc).tenure := by
  rw [(reject_frame s crc).1, (reject_frame s' crc).1, ht]

theorem probe_congr (request : Envelope) (owner : Bool) (session : HString 16) (id : UInt32)
    (now : Nat) (ht : s.tenure = s'.tenure) :
    Agree Outcome.code (s.probe request owner session id now)
      (s'.probe request owner session id now) := by
  obtain ⟨h1, -, h3, -⟩ := tenure_eq_iff.1 ht
  unfold probe
  rw [h1, h3]
  refine .ite ⟨reject_congr false ht, rfl⟩ ?_
  split
  · exact ⟨ht, rfl⟩
  split
  · exact .ite ⟨reject_congr false ht, rfl⟩ ⟨ht, rfl⟩
  · exact ⟨ht, rfl⟩

/-- Services in one run of one identity decide alike. -/
theorem assess_congr (request : Envelope) (peer : Peer) (now : Nat) (ht : s.tenure = s'.tenure)
    (hid : s.identity = s'.identity) :
    Agree Outcome.code (s.assess request peer now) (s'.assess request peer now) := by
  obtain ⟨i1, i2, i3, i4⟩ := identity_eq_iff.1 hid
  have hr : s.refuses request = s'.refuses request := by unfold refuses; rw [i1, i2, i3, i4]
  unfold assess
  rw [hr]
  refine .ite ⟨reject_congr false ht, rfl⟩ ?_
  split
  · rw [owner_congr peer _ ht]
    exact .ite ⟨ht, rfl⟩ (.ite (probe_congr _ _ _ _ _ ht)
      (conclude_congr _ _ _ _ _ (resultCode_congr request peer _ _ _ now ht)))
  · exact ⟨ht, rfl⟩

end

/-! ## Two runs -/

/-- Two services in the same run, the second with the older clock. -/
structure Twin (s s' : Service) : Prop where
  inv : Inv s
  inv' : Inv s'
  tenure : s.tenure = s'.tenure
  identity : s.identity = s'.identity
  clock : s'.lastTime ≤ s.lastTime

namespace Twin

variable {s s' : Service}

theorem tick (h : Twin s s') {now : Nat} (hn : s.lastTime ≤ now) : Twin (s.tick now) (s'.tick now) := by
  obtain ⟨c1, -, i1⟩ := tick_frame s now
  obtain ⟨c2, -, i2⟩ := tick_frame s' now
  have hc := h.clock
  refine ⟨h.inv.tick now, h.inv'.tick now, ?_, i1.trans (h.identity.trans i2.symm), by omega⟩
  have hl : s.lapses now = s'.lapses now := by
    unfold lapses
    rw [(tenure_eq_iff.1 h.tenure).1, decide_eq_false (by omega : ¬ now < s.lastTime),
      decide_eq_false (by omega : ¬ now < s'.lastTime)]
  rw [tick_tenure, tick_tenure, hl, h.tenure, endLease_tenure h.tenure]

theorem outcome (h : Twin s s') {now : Nat} (hn : s.lastTime ≤ now) (request : Envelope) (peer : Peer) :
    (s.outcome request peer now).code = (s'.outcome request peer now).code :=
  (assess_congr request peer now (h.tick hn).tenure (h.tick hn).identity).2

theorem due_iff (h : Twin s s') (index now : Nat) : s.Due index now ↔ s'.Due index now := by
  unfold Due
  obtain ⟨h1, h2, -, -⟩ := tenure_eq_iff.1 h.tenure
  rw [h1, h2]

/-- A poll moves both to the same schedule. -/
theorem publication (h : Twin s s') {now : Nat} (hn : s.lastTime ≤ now) (index : Nat) :
    Twin (s.publication index now).1 (s'.publication index now).1 := by
  have ht := h.tick hn
  have hi := h.inv.publication index now
  have hi' := h.inv'.publication index now
  have hp := publication_polled index (h.inv.tick now)
  have hp' := publication_polled index (h.inv'.tick now)
  generalize s.publication index now = r at hp hi
  generalize s'.publication index now = r' at hp' hi'
  obtain ⟨h1, h2, h3, h4⟩ := tenure_eq_iff.1 ht.tenure
  cases hp with
  | silent hd =>
    cases hp' with
    | silent => exact ht
    | sent hl hx hp hd' => exact absurd ((ht.due_iff index now).2 ⟨hx, by rw [hl]; rfl, hp, hd'⟩) hd
  | sent hl hx hp hd =>
    cases hp' with
    | silent hd' => exact absurd ((ht.due_iff index now).1 ⟨hx, by rw [hl]; rfl, hp, hd⟩) hd'
    | sent => exact ⟨hi, hi', by simp only [advanced, Service.tenure, h1, h2, h3, h4], ht.identity, ht.clock⟩

theorem handle (h : Twin s s') {now : Nat} (hn : s.lastTime ≤ now) (request : Envelope) (peer : Peer) :
    Twin (s.handle request peer now).1 (s'.handle request peer now).1 := by
  have ht := h.tick hn
  obtain ⟨t1, -, i1, c1, -⟩ := handle_frame s request peer now
  obtain ⟨t2, -, i2, c2, -⟩ := handle_frame s' request peer now
  obtain ⟨ia, ca, -⟩ := effect_clock (assess_effect ht.inv request peer now)
  obtain ⟨ib, cb, -⟩ := effect_clock (assess_effect ht.inv' request peer now)
  refine ⟨h.inv.handle request peer now, h.inv'.handle request peer now, ?_, ?_, ?_⟩
  · rw [t1, t2]
    exact (assess_congr request peer now ht.tenure ht.identity).1
  · rw [i1, i2, ia, ib, ht.identity]
  · rw [c1, c2, ca, cb]; exact ht.clock

/-- Every call at a reading not before the clock keeps twins. -/
theorem next (h : Twin s s') (op : Op) (ht : ∀ now, op.time = some now → s.lastTime ≤ now) :
    Twin (machine.next s op) (machine.next s' op) := by
  cases op with
  | handle request peer now => exact h.handle (ht now rfl) request peer
  | tick now => exact h.tick (ht now rfl)
  | publication index now => exact h.publication (ht now rfl) index
  | endLease =>
    obtain ⟨-, -, c1, -, i1⟩ := endLease_frame s
    obtain ⟨-, -, c2, -, i2⟩ := endLease_frame s'
    refine ⟨h.inv.endLease, h.inv'.endLease, endLease_tenure h.tenure,
      i1.trans (h.identity.trans i2.symm), ?_⟩
    show s'.endLease.lastTime ≤ s.endLease.lastTime
    rw [c1, c2]; exact h.clock
  | reject crc =>
    obtain ⟨-, -, -, c1, i1, -⟩ := reject_frame s crc
    obtain ⟨-, -, -, c2, i2, -⟩ := reject_frame s' crc
    refine ⟨h.inv.reject crc, h.inv'.reject crc, reject_congr crc h.tenure,
      i1.trans (h.identity.trans i2.symm), ?_⟩
    show (s'.reject crc).lastTime ≤ (s.reject crc).lastTime
    rw [c1, c2]; exact h.clock

end Twin

/-- `peer` holds the lease under `session`. -/
def OwnedBy (peer : Peer) (session : HString 16) (s : Service) : Prop :=
  ∃ l, s.lease = some l ∧ l.peer = peer ∧ l.session = session

/-- A request of another peer or under another session. -/
def foreign (peer : Peer) (session : HString 16) : Op → Bool
  | .handle request from_ _ => from_ != peer || request.sessionId != some session
  | _ => false

/-- A foreign request that leaves the lease with its owner left the run alone. -/
theorem foreign_keeps {s : Service} (hi : Inv s) {peer : Peer} {session : HString 16} {op : Op}
    (hf : foreign peer session op = true) (ho : OwnedBy peer session s)
    (ho' : OwnedBy peer session (machine.next s op)) : (machine.next s op).tenure = s.tenure := by
  cases op with
  | tick => cases hf
  | publication => cases hf
  | endLease => cases hf
  | reject => cases hf
  | handle request from_ now =>
    have hnot : ∀ session', request.sessionId = some session' → from_ = peer → session' ≠ session := by
      rintro session' hs rfl rfl
      simp [foreign, hs] at hf
    have hown : ∀ l, (s.tick now).lease = some l →
        (s.tick now).tenure = s.tenure ∧ l.peer = peer ∧ l.session = session := by
      intro l hl
      obtain ⟨ht, hl, -⟩ := tick_lease_some hl
      obtain ⟨l', hl', ho⟩ := ho
      rw [hl] at hl'; cases hl'
      exact ⟨ht, ho⟩
    have he := assess_effect (hi.tick now) request from_ now
    have ht : (machine.next s (.handle request from_ now)).tenure =
        ((s.tick now).assess request from_ now).1.tenure := (handle_frame s request from_ now).1
    obtain ⟨l', hl', hp', hs'⟩ := ho'
    rw [(tenure_eq_iff.1 ht).1] at hl'
    rw [ht]
    generalize (s.tick now).assess request from_ now = r at he hl'
    cases he with
    | refused =>
      have hr := (reject_frame (s.tick now) false).1
      exact hr.trans (hown l' ((tenure_eq_iff.1 hr).1.symm.trans hl')).1
    | rejected =>
      have hr := (reject_frame (s.tick now) false).1
      exact hr.trans (hown l' ((tenure_eq_iff.1 hr).1.symm.trans hl')).1
    | capabilities => exact (hown l' hl').1
    | probe _ hl => exact (hown _ hl).1
    | duplicate _ hl => exact (hown _ hl).1
    | acquired ha =>
      -- the new holder would be the foreign peer itself
      cases hl'
      exact absurd hs' (hnot _ ha.session hp')
    | renewed ha _ hl hp =>
      obtain ⟨-, ho1, ho2⟩ := hown _ hl
      exact absurd ho2 (hnot _ ha.session (hp.symm.trans ho1))
    | stopped ha _ hl hp =>
      obtain ⟨-, ho1, ho2⟩ := hown _ hl
      exact absurd ho2 (hnot _ ha.session (hp.symm.trans ho1))

/-- The code computed for a request of the owner. -/
def ownerCode (peer : Peer) (session : HString 16) (s : Service) : Op → Option (Option Int)
  | .handle request from_ now =>
    if foreign peer session (.handle request from_ now) then none
    else some (s.outcome request from_ now).code
  | _ => none

/-- The codes computed for the owner's requests along a run. -/
def ownerCodes (peer : Peer) (session : HString 16) (s : Service) (ops : List Op) : List (Option Int) :=
  (machine.trace s ops).filterMap fun e => ownerCode peer session e.1 e.2.1

/-- The calls that are not foreign requests. -/
def own (peer : Peer) (session : HString 16) (ops : List Op) : List Op :=
  ops.filter (! foreign peer session ·)

theorem twin_ownerCode {s s' : Service} (h : Twin s s') {peer : Peer} {session : HString 16} {op : Op}
    (ht : Timely Op.time s.lastTime op) :
    ownerCode peer session s op = ownerCode peer session s' op := by
  cases op with
  | handle request from_ now => simp only [ownerCode, h.outcome (ht now rfl)]
  | tick => rfl
  | publication => rfl
  | endLease => rfl
  | reject => rfl

/-- Deleting the foreign requests from a run, while the owner holds on. -/
theorem twin_run {s s' : Service} (h : Twin s s') {peer : Peer} {session : HString 16} {ops : List Op}
    (hm : Mono Op.time s.lastTime ops)
    (ho : ∀ e ∈ machine.trace s ops, OwnedBy peer session e.1) :
    ownerCodes peer session s' (own peer session ops) = ownerCodes peer session s ops ∧
      (OwnedBy peer session (machine.run s ops) →
        Twin (machine.run s ops) (machine.run s' (own peer session ops))) := by
  refine machine.run_drop (R := Twin) (fun s s' op h => next_lastTime h.inv op)
    (fun s s' op h _ ht => h.next op ht) (fun s s' op h hk ht hl hl' => ?_)
    (fun s s' op h _ ht => ?_) (fun s op hk => ?_) h hm ho
  · -- a foreign request: only the clock of the first run moves
    simp only [Bool.not_eq_false'] at hk
    have hf := foreign_keeps h.inv hk hl hl'
    refine ⟨h.inv.next op, h.inv', hf.trans h.tenure, ?_, ?_⟩
    · exact (next_identity h.inv op).trans h.identity
    · rw [next_lastTime h.inv op]
      have hc := h.clock
      cases e : op.time with
      | none => exact hc
      | some now => exact Nat.le_trans hc (ht now e)
  · exact (twin_ownerCode h ht).symm
  · cases op with
    | handle request from_ now =>
      simp only [Bool.not_eq_false'] at hk
      simp only [ownerCode, hk, if_true]
    | tick => rfl
    | publication => rfl
    | endLease => rfl
    | reject => rfl

/-! ## The law -/

/-- **Only APPLIED and STOPPED change the run.** At every reachable state: a
capabilities request, a probe, a refused message and a control with another
code leave lease, schedules, epoch and `exhausted` as the tick left them. And
over every continuation with nondecreasing readings in which the owner still
holds the lease before each call, deleting all requests of other peers and
sessions changes none of the owner's codes, nor the run as long as the owner
holds it, nor the effect of the call that follows. -/
theorem frame_law (device : HString 32) (boot : HString 16) (format : Format) (crc : CrcMode)
    (start : Nat) (ops : List Op) :
    let s := machine.run (new device boot format crc start) ops
    (∀ request peer now,
      request.kind = some 1 ∨ request.kind = some 5 ∨ (s.tick now).refuses request = true ∨
        ((s.outcome request peer now).code ≠ some 1 ∧ (s.outcome request peer now).code ≠ some 3) →
      (s.handle request peer now).1.tenure = (s.tick now).tenure) ∧
    (∀ peer session mixed, Mono Op.time s.lastTime mixed →
      (∀ e ∈ machine.trace s mixed, OwnedBy peer session e.1) →
      ownerCodes peer session s (own peer session mixed) = ownerCodes peer session s mixed ∧
      (OwnedBy peer session (machine.run s mixed) →
        (machine.run s (own peer session mixed)).tenure = (machine.run s mixed).tenure ∧
        ∀ op, Timely Op.time (machine.run s mixed).lastTime op → foreign peer session op = false →
          ownerCode peer session (machine.run s (own peer session mixed)) op =
              ownerCode peer session (machine.run s mixed) op ∧
            (machine.next (machine.run s (own peer session mixed)) op).tenure =
              (machine.next (machine.run s mixed) op).tenure)) := by
  intro s
  have hi : Inv s := (Inv.new device boot format crc start).run ops
  refine ⟨fun request peer now hq => ?_, fun peer session mixed hm ho => ?_⟩
  · have he := assess_effect (hi.tick now) request peer now
    rw [(handle_frame s request peer now).1]
    have hcode : (s.outcome request peer now).code ≠ some 1 ∧
        (s.outcome request peer now).code ≠ some 3 := by
      rcases hq with h | h | h | h
      · rw [outcome_code_none (.inl h)]; exact ⟨nofun, nofun⟩
      · rw [outcome_code_none (.inr (.inl h))]; exact ⟨nofun, nofun⟩
      · rw [outcome_code_none (.inr (.inr h))]; exact ⟨nofun, nofun⟩
      · exact h
    exact effect_frame he hcode.1 hcode.2
  · have htwin : Twin s s := ⟨hi, hi, rfl, rfl, Nat.le_refl _⟩
    obtain ⟨h1, h2⟩ := twin_run htwin hm ho
    refine ⟨h1, fun hlive => ⟨(h2 hlive).tenure.symm, fun op ht hf => ⟨?_, ((h2 hlive).next op ht).tenure.symm⟩⟩⟩
    exact (twin_ownerCode (h2 hlive) ht).symm

end Service
end Nucleo.Benchmark
