import Nucleo.Core.Lts

/-!
# Fenced leases

A resource with at most one holder at a time, each under a token that no
earlier holder had. Revoking the holder steps the token; at `limit` it spends
the resource for good. `Event.grant` carries the token it hands out.

* `run_grants_increasing`: the tokens granted along a run are strictly
  increasing, so no two holders share one.
* `run_revoked`: once the holder at some point has been revoked, its token is
  behind the current one or the resource is spent.
* `run_spent_stays`: nothing happens any more to a spent resource.
* `run_reached`: a token that somebody holds is held on, or it is past.

`between f f'` names the one event that leads from `f` to `f'`, if any; a
component that moves by such events refines the fence (`Moves.ended`,
`Moves.kept`).
-/
namespace Nucleo

structure Fence (H : Type) where
  token : Nat
  spent : Bool
  holder : Option H

namespace Fence

inductive Event (H : Type) where
  | grant (token : Nat) (h : H)
  | update (h : H)
  | revoke

variable {H : Type} {limit : Nat} {f f' : Fence H} {es : List (Event H)}

inductive Step (limit : Nat) : Fence H → Event H → Fence H → Prop
  | grant {f : Fence H} {h : H} (hf : f.holder = none) (hs : f.spent = false) :
      Step limit f (.grant f.token h) { f with holder := some h }
  | update {f : Fence H} {h h' : H} (hf : f.holder = some h) :
      Step limit f (.update h') { f with holder := some h' }
  | revoke {f : Fence H} {h : H} (hf : f.holder = some h) (ht : f.token ≠ limit) :
      Step limit f .revoke ⟨f.token + 1, f.spent, none⟩
  | exhaust {f : Fence H} {h : H} (hf : f.holder = some h) (ht : f.token = limit) :
      Step limit f .revoke ⟨f.token, true, none⟩

/-- The fence as a transition system. -/
def fence (H : Type) (limit : Nat) : LTS (Fence H) (Event H) where
  init f := f.holder = none ∧ f.spent = false
  step := Step limit

def Event.granted : Event H → Option Nat
  | .grant token _ => some token
  | _ => none

/-- The tokens handed out, in order. -/
def grants (es : List (Event H)) : List Nat := es.filterMap Event.granted

theorem grants_append (es es' : List (Event H)) : grants (es ++ es') = grants es ++ grants es' :=
  List.filterMap_append

/-- The least token the next grant can have. -/
def next (f : Fence H) : Nat := if f.holder.isSome then f.token + 1 else f.token

/-- The holder is gone when the resource is spent. -/
def Ok (f : Fence H) : Prop := f.spent = true → f.holder = none

/-! ## One step -/

theorem Step.ok {e : Event H} (h : Step limit f e f') (hf : Ok f) : Ok f' := by
  cases h with
  | grant _ hs => intro h; rw [hs] at h; cases h
  | update hh => intro h; rw [hf h] at hh; cases hh
  | revoke => intro _; rfl
  | exhaust => intro _; rfl

theorem Step.next_le {e : Event H} (h : Step limit f e f') : f.token ≤ f'.token ∧
    next f ≤ next f' ∨ f'.spent = true ∧ f.token = f'.token := by
  cases h with
  | grant hf => exact .inl ⟨Nat.le_refl _, by simp [next, hf]⟩
  | update hf => exact .inl ⟨Nat.le_refl _, by simp [next, hf]⟩
  | revoke hf => exact .inl ⟨Nat.le_succ _, by simp [next, hf]⟩
  | exhaust => exact .inr ⟨rfl, rfl⟩

theorem Step.token_le {e : Event H} (h : Step limit f e f') : f.token ≤ f'.token := by
  rcases h.next_le with ⟨h, -⟩ | ⟨-, h⟩ <;> omega

theorem Step.not_spent {e : Event H} (h : Step limit f e f') (hf : Ok f) : f.spent = false := by
  cases hs : f.spent with
  | false => rfl
  | true =>
    cases h with
    | grant _ h => rw [hs] at h; exact h
    | update h => rw [hf hs] at h; cases h
    | revoke h => rw [hf hs] at h; cases h
    | exhaust h => rw [hf hs] at h; cases h

/-! ## Runs -/

theorem run_token_le (h : (fence H limit).Run f es f') : f.token ≤ f'.token := by
  induction h with
  | nil => exact Nat.le_refl _
  | cons hs _ ih => exact Nat.le_trans (Step.token_le hs) ih

/-- A spent resource has no events left. -/
theorem run_spent_stays (h : (fence H limit).Run f es f') (hf : Ok f) (hs : f.spent = true) :
    f' = f ∧ es = [] := by
  cases h with
  | nil => exact ⟨rfl, rfl⟩
  | cons h _ => rw [Step.not_spent h hf] at hs; cases hs

theorem run_spent_mono (h : (fence H limit).Run f es f') (hf : Ok f) (hs : f.spent = true) :
    f'.spent = true := by
  rw [(run_spent_stays h hf hs).1]; exact hs

/-- No run grants a token that was current, and held, before it. -/
theorem run_next_le_grants (h : (fence H limit).Run f es f') (hf : Ok f) :
    ∀ t ∈ grants es, next f ≤ t := by
  induction h with
  | nil => intro t ht; cases ht
  | @cons f g f' e es hs hrun ih =>
    intro t ht
    have hle : ∀ t ∈ grants es, next f ≤ t := by
      intro t ht
      rcases Step.next_le hs with ⟨-, h⟩ | ⟨h, -⟩
      · exact Nat.le_trans h (ih (Step.ok hs hf) t ht)
      · rw [(run_spent_stays hrun (Step.ok hs hf) h).2] at ht; cases ht
    cases hs with
    | grant hn =>
      rcases List.mem_cons.1 ht with rfl | ht
      · simp [next, hn]
      · exact hle t ht
    | update => exact hle t ht
    | revoke => exact hle t ht
    | exhaust => exact hle t ht

/-- **No token twice.** -/
theorem run_grants_increasing (h : (fence H limit).Run f es f') (hf : Ok f) :
    (grants es).Pairwise (· < ·) := by
  induction h with
  | nil => exact .nil
  | cons hs hrun ih =>
    have hrest := ih (Step.ok hs hf)
    have hle := run_next_le_grants hrun (Step.ok hs hf)
    cases hs with
    | grant hn => exact .cons (fun t ht => Nat.lt_of_succ_le (hle t ht)) hrest
    | update => exact hrest
    | revoke => exact hrest
    | exhaust => exact hrest

/-- A revoked holder's token is behind, or there will be no holder again. -/
theorem run_revoked (h : (fence H limit).Run f es f') (hf : Ok f) (hr : Event.revoke ∈ es) :
    f.token < f'.token ∨ f'.spent = true := by
  induction h with
  | nil => cases hr
  | cons hs hrun ih =>
    have hok := Step.ok hs hf
    cases hs with
    | revoke => exact .inl (Nat.lt_of_succ_le (run_token_le hrun))
    | exhaust => exact .inr (run_spent_mono hrun hok rfl)
    | grant => exact ih hok ((List.mem_cons.1 hr).resolve_left nofun)
    | update => exact ih hok ((List.mem_cons.1 hr).resolve_left nofun)

/-! ## One token -/

/-- Token `t` is past: nobody holds under it. -/
def Past (t : Nat) (f : Fence H) : Prop := t < f.token ∨ f.spent = true

/-- Somebody holds under `t`, or it is past. -/
def Reached (t : Nat) (f : Fence H) : Prop := f.holder.isSome ∧ f.token = t ∨ Past t f

theorem Past.not_held {t : Nat} (h : Past t f) (hf : Ok f) : ¬ (f.holder.isSome ∧ f.token = t) := by
  rintro ⟨hh, ht⟩
  rcases h with h | h
  · omega
  · rw [hf h] at hh
    cases hh

theorem Step.past {t : Nat} {e : Event H} (h : Step limit f e f') (hf : Ok f) (hp : Past t f) : Past t f' :=
  hp.imp (fun hlt => Nat.lt_of_lt_of_le hlt h.token_le) fun hs => by
    rw [h.not_spent hf] at hs
    cases hs

theorem Step.reached {t : Nat} {e : Event H} (h : Step limit f e f') (hf : Ok f) (hr : Reached t f) :
    Reached t f' := by
  rcases hr with ⟨hh, ht⟩ | hp
  · cases h with
    | grant hn =>
      rw [hn] at hh
      cases hh
    | update => exact .inl ⟨rfl, ht⟩
    | revoke => exact .inr (.inl (ht ▸ Nat.lt_succ_self _))
    | exhaust => exact .inr (.inr rfl)
  · exact .inr (h.past hf hp)

theorem run_past {t : Nat} (h : (fence H limit).Run f es f') (hf : Ok f) (hp : Past t f) : Past t f' :=
  (h.inv (I := fun f => Ok f ∧ Past t f) (fun _ _ _ hi hs => ⟨Step.ok hs hi.1, Step.past hs hi.1 hi.2⟩) ⟨hf, hp⟩).2

/-- **A holder keeps its token, or the token is past.** -/
theorem run_reached {t : Nat} (h : (fence H limit).Run f es f') (hf : Ok f) (hr : Reached t f) : Reached t f' :=
  (h.inv (I := fun f => Ok f ∧ Reached t f) (fun _ _ _ hi hs => ⟨Step.ok hs hi.1, Step.reached hs hi.1 hi.2⟩)
    ⟨hf, hr⟩).2

/-! ## Moves of at most one event -/

/-- The event that leads from `f` to `f'`. -/
def between (f f' : Fence H) : List (Event H) :=
  match f.holder, f'.holder with
  | none, none => []
  | none, some h => [.grant f.token h]
  | some _, some h => [.update h]
  | some _, none => [.revoke]

/-- `f` moves to `f'` by the event their holders show. -/
def Moves (limit : Nat) (f f' : Fence H) : Prop := (fence H limit).Run f (between f f') f'

theorem Moves.refl (f : Fence H) : Moves limit f f := by
  unfold Moves between
  cases h : f.holder with
  | none => exact .nil f
  | some x =>
    have hs : Step limit f (.update x) { f with holder := some x } := .update h
    rw [← h] at hs
    exact .cons hs (.nil f)

theorem Moves.ended (h : Moves limit f f') (h1 : f.holder.isSome) (h2 : f'.holder = none) :
    (f.token ≠ limit ∧ f'.token = f.token + 1 ∧ f'.spent = f.spent) ∨
    (f.token = limit ∧ f'.token = f.token ∧ f'.spent = true) := by
  obtain ⟨x, hx⟩ := Option.isSome_iff_exists.1 h1
  unfold Moves between at h
  rw [hx, h2] at h
  cases h with
  | cons hs hrun =>
    cases hrun
    cases hs with
    | revoke _ ht => exact .inl ⟨ht, rfl, rfl⟩
    | exhaust _ ht => exact .inr ⟨ht, rfl, rfl⟩

theorem Moves.kept (h : Moves limit f f') (hk : ¬ (f.holder.isSome ∧ f'.holder = none)) :
    f'.token = f.token ∧ f'.spent = f.spent := by
  unfold Moves between at h
  cases h1 : f.holder <;> cases h2 : f'.holder <;> rw [h1, h2] at h
  · cases h; exact ⟨rfl, rfl⟩
  · cases h with
    | cons hs hrun => cases hrun; cases hs; exact ⟨rfl, rfl⟩
  · exact absurd ⟨by rw [h1]; rfl, h2⟩ hk
  · cases h with
    | cons hs hrun => cases hrun; cases hs; exact ⟨rfl, rfl⟩

end Fence
end Nucleo
