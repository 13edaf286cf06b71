import Nucleo.Core.Lts

/-!
# Holdings with a deadline

A resource that one party holds until a deadline, on a clock that does not go
back. The holder does not see the deadline; it is given times it may count on.
`Covers h b`: the promise `b` is kept so far, because the holding lasts to `b`,
or `b` has passed, or the holding was revoked.

* `run_covers`: a promise that is kept stays kept, along every run.
* `Covers.held`: until `b`, an unrevoked holding is held, to `b` at least.

A component with such a deadline refines `holding`, and then has to show of a
promise only that it is kept when it is made.
-/
namespace Nucleo

/-- `deadline` is `none` while nothing is held. -/
structure Holding (T : Type) where
  clock : T
  deadline : Option T
  revoked : Bool

namespace Holding

inductive Event (T : Type) where
  | wait (now : T)
  | grant (deadline : T)
  | extend (deadline : T)
  | lapse
  | revoke

variable {T : Type} [LE T] {h h' : Holding T} {es : List (Event T)}

inductive Step : Holding T → Event T → Holding T → Prop
  | wait {h : Holding T} {now : T} (hc : h.clock ≤ now) : Step h (.wait now) { h with clock := now }
  | grant {h : Holding T} {d : T} (hd : h.deadline = none) :
      Step h (.grant d) { h with deadline := some d }
  | extend {h : Holding T} {d d' : T} (hd : h.deadline = some d) (hle : d ≤ d') :
      Step h (.extend d') { h with deadline := some d' }
  | lapse {h : Holding T} {d : T} (hd : h.deadline = some d) (hc : d ≤ h.clock) :
      Step h .lapse { h with deadline := none }
  | revoke {h : Holding T} : Step h .revoke { h with deadline := none, revoked := true }

/-- Holdings as a transition system; every holding may be the first. -/
def holding (T : Type) [LE T] : LTS (Holding T) (Event T) where
  init _ := True
  step := Step

/-- The promise `b` is kept so far. -/
def Covers (h : Holding T) (b : T) : Prop :=
  h.revoked = true ∨ (∃ d, h.deadline = some d ∧ b ≤ d) ∨ b ≤ h.clock

/-- **Before `b` the resource is held.** -/
theorem Covers.held {b : T} (hc : h.Covers b) (hr : h.revoked = false) (hlt : ¬ b ≤ h.clock) :
    ∃ d, h.deadline = some d ∧ b ≤ d := by
  rcases hc with hr' | hd | hb
  · rw [hr] at hr'; cases hr'
  · exact hd
  · exact absurd hb hlt

variable [Std.IsPreorder T] {b b' : T}

theorem Covers.mono (hc : h.Covers b) (hle : b' ≤ b) : h.Covers b' := by
  rcases hc with hr | ⟨d, hd, hb⟩ | hb
  · exact .inl hr
  · exact .inr (.inl ⟨d, hd, Std.IsPreorder.le_trans _ _ _ hle hb⟩)
  · exact .inr (.inr (Std.IsPreorder.le_trans _ _ _ hle hb))

theorem Step.covers {e : Event T} (hs : Step h e h') (hc : h.Covers b) : h'.Covers b := by
  rcases hc with hr | ⟨d, hd, hb⟩ | hb
  · cases hs with
    | revoke => exact .inl rfl
    | wait => exact .inl hr
    | grant => exact .inl hr
    | extend => exact .inl hr
    | lapse => exact .inl hr
  · cases hs with
    | revoke => exact .inl rfl
    | wait => exact .inr (.inl ⟨d, hd, hb⟩)
    | grant hn => rw [hn] at hd; cases hd
    | extend hd' hle =>
      rw [hd'] at hd
      cases hd
      exact .inr (.inl ⟨_, rfl, Std.IsPreorder.le_trans _ _ _ hb hle⟩)
    | lapse hd' hclock =>
      rw [hd'] at hd
      cases hd
      exact .inr (.inr (Std.IsPreorder.le_trans _ _ _ hb hclock))
  · cases hs with
    | revoke => exact .inl rfl
    | wait hclock => exact .inr (.inr (Std.IsPreorder.le_trans _ _ _ hb hclock))
    | grant => exact .inr (.inr hb)
    | extend => exact .inr (.inr hb)
    | lapse => exact .inr (.inr hb)

/-- **A kept promise stays kept.** -/
theorem run_covers (hrun : (holding T).Run h es h') (hc : h.Covers b) : h'.Covers b := by
  refine LTS.Run.inv (I := (Covers · b)) (fun _ _ _ hc hs => ?_) hrun hc
  exact Step.covers hs hc

end Holding
end Nucleo
