import Mathlib

/-!
# Programs that call a device

`Prog C R α` is a program that makes calls `c : C`, gets a reply in `R c` to
each and goes on. A `Device` says which replies a call may get in a world and
which world each leaves; nothing about it is deterministic, so a call may fail,
and a run may be cut after any call: `Reaches` is any prefix of a run.

`Always D I Q p w` is the logic for such runs: `I` holds after every call, `Q`
of the result. It composes over `bind` (`always_bind`, and `ensures_bind` for
programs that may throw), and `Always.reaches` turns it into a statement about
every prefix.
-/
namespace Nucleo

inductive Prog (C : Type) (R : C → Type) (α : Type) : Type
  | ret (a : α)
  | call (c : C) (next : R c → Prog C R α)

namespace Prog

variable {C : Type} {R : C → Type} {W α β ε : Type}

def bind (p : Prog C R α) (f : α → Prog C R β) : Prog C R β :=
  match p with
  | .ret a => f a
  | .call c next => .call c fun r => (next r).bind f

instance : Monad (Prog C R) where
  pure := .ret
  bind := bind

/-- One call, for its reply. -/
def perform (c : C) : Prog C R (R c) := .call c .ret

@[simp] theorem ret_bind (a : α) (f : α → Prog C R β) : (Prog.ret a >>= f) = f a := rfl

@[simp] theorem call_bind (c : C) (next : R c → Prog C R α) (f : α → Prog C R β) :
    (Prog.call c next >>= f) = .call c fun r => next r >>= f := rfl

theorem bind_assoc' (p : Prog C R α) (f : α → Prog C R β) (g : β → Prog C R ε) :
    p >>= f >>= g = p >>= fun a => f a >>= g := by
  induction p with
  | ret a => rfl
  | call c next ih => exact congrArg (Prog.call c) (funext ih)

theorem bind_ret (p : Prog C R α) : p >>= Prog.ret = p := by
  induction p with
  | ret a => rfl
  | call c next ih => exact congrArg (Prog.call c) (funext ih)

theorem lawful : LawfulMonad (Prog C R) := .mk' _ bind_ret (fun _ _ => rfl) bind_assoc'

/-- Run with every reply computed from a state. -/
def eval {S : Type} (handler : (c : C) → S → R c × S) : Prog C R α → S → α × S
  | .ret a, s => (a, s)
  | .call c next, s => (next (handler c s).1).eval handler (handler c s).2

end Prog

/-! ## Runs -/

/-- Replies and following worlds that a call may have. -/
abbrev Device (C : Type) (R : C → Type) (W : Type) := (c : C) → W → R c → W → Prop

/-- What is left of a program, and the world, after some of its calls. -/
inductive Reaches {C : Type} {R : C → Type} {W α : Type} (D : Device C R W) :
    Prog C R α → W → Prog C R α → W → Prop
  | here (p : Prog C R α) (w : W) : Reaches D p w p w
  | step {c : C} {next : R c → Prog C R α} {q : Prog C R α} {w w' w'' : W} {r : R c} :
      D c w r w' → Reaches D (next r) w' q w'' → Reaches D (.call c next) w q w''

section Logic

variable {C : Type} {R : C → Type} {W α β ε : Type} {D : Device C R W}

/-- What every call keeps, every run keeps. -/
theorem Reaches.inv {I : W → Prop} (hI : ∀ c w r w', I w → D c w r w' → I w') {p q : Prog C R α}
    {w w' : W} (h : Reaches D p w q w') (hw : I w) : I w' := by
  induction h with
  | here => exact hw
  | step hd _ ih => exact ih (hI _ _ _ _ hw hd)

/-- A run goes on after a reply the call may have. -/
theorem Reaches.call {c : C} {next : R c → Prog C R α} {w w' w'' : W} (r : R c) (hd : D c w r w')
    (h : ∃ q, Reaches D (next r) w' q w'') : ∃ q, Reaches D (.call c next) w q w'' := by
  obtain ⟨q, hq⟩ := h
  exact ⟨q, .step hd hq⟩

/-- `I` after every call, `Q` at the end. -/
def Always (D : Device C R W) (I : W → Prop) (Q : α → W → Prop) : Prog C R α → W → Prop
  | .ret a, w => Q a w
  | .call c next, w => ∀ r w', D c w r w' → I w' ∧ Always D I Q (next r) w'

/-- **Cutting a run anywhere finds the invariant.** -/
theorem Always.reaches {I : W → Prop} {Q : α → W → Prop} {p q : Prog C R α} {w w' : W}
    (h : Always D I Q p w) (hw : I w) (hr : Reaches D p w q w') : I w' := by
  induction hr with
  | here => exact hw
  | step hd _ ih =>
    obtain ⟨hi, hnext⟩ := h _ _ hd
    exact ih hnext hi

theorem always_mono {I : W → Prop} {Q Q' : α → W → Prop} {p : Prog C R α} {w : W}
    (h : Always D I Q p w) (hq : ∀ a w, Q a w → Q' a w) : Always D I Q' p w := by
  induction p generalizing w with
  | ret a => exact hq a w h
  | call c next ih => exact fun r w' hd => ⟨(h r w' hd).1, ih r (h r w' hd).2⟩

theorem always_bind {I : W → Prop} {Q : α → W → Prop} {Q' : β → W → Prop} {p : Prog C R α}
    {f : α → Prog C R β} {w : W} (h : Always D I Q p w)
    (hf : ∀ a w', Q a w' → Always D I Q' (f a) w') : Always D I Q' (p >>= f) w := by
  induction p generalizing w with
  | ret a => exact hf a w h
  | call c next ih => exact fun r w' hd => ⟨(h r w' hd).1, ih r (h r w' hd).2⟩

/-! ## Programs that may throw -/

/-- `Q` of the value, nothing of an error: the invariant has all there is. -/
def Ensures (D : Device C R W) (I : W → Prop) (Q : α → W → Prop) (p : ExceptT ε (Prog C R) α)
    (w : W) : Prop :=
  Always D I (fun r w => match r with
    | .ok a => Q a w
    | .error _ => True) p.run w

theorem Ensures.reaches {I : W → Prop} {Q : α → W → Prop} {p : ExceptT ε (Prog C R) α}
    {q : Prog C R (Except ε α)} {w w' : W} (h : Ensures D I Q p w) (hw : I w)
    (hr : Reaches D p.run w q w') : I w' := Always.reaches h hw hr

theorem ensures_pure {I : W → Prop} {Q : α → W → Prop} {a : α} {w : W} (h : Q a w) :
    Ensures D I Q (pure a : ExceptT ε (Prog C R) α) w := h

theorem ensures_throw {I : W → Prop} {Q : α → W → Prop} {e : ε} {w : W} :
    Ensures D I Q (throw e : ExceptT ε (Prog C R) α) w := trivial

theorem ensures_bind {I : W → Prop} {Q : α → W → Prop} {Q' : β → W → Prop}
    {p : ExceptT ε (Prog C R) α} {f : α → ExceptT ε (Prog C R) β} {w : W} (h : Ensures D I Q p w)
    (hf : ∀ a w', Q a w' → Ensures D I Q' (f a) w') : Ensures D I Q' (p >>= f) w := by
  refine always_bind h fun r w' hr => ?_
  cases r with
  | ok a => exact hf a w' hr
  | error e => trivial

/-- A call whose reply is used as it is. -/
theorem ensures_perform {I : W → Prop} {c : C} {Q : R c → W → Prop} {w : W}
    (h : ∀ r w', D c w r w' → I w' ∧ Q r w') :
    Ensures D I Q (ExceptT.lift (Prog.perform c) : ExceptT ε (Prog C R) (R c)) w :=
  fun r w' hd => h r w' hd

end Logic

end Nucleo
