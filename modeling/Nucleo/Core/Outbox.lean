/-!
# Outboxes

The send side of a datagram socket: it is bound or not, and what was handed to
it waits in order until the network takes it. Closing it drops what waits, so an
outbox that is not bound is empty.

`Holds P` says that everything that waits satisfies `P`; every operation keeps
it, `push` for what satisfies `P` itself.
-/
namespace Nucleo

structure Outbox (D : Type) where
  isOpen : Bool
  queue : List D
  empty : isOpen = false → queue = []

namespace Outbox

variable {D : Type}

/-- `close`. -/
def closed : Outbox D := ⟨false, [], fun _ => rfl⟩

/-- `bind` on a closed outbox. -/
def bound : Outbox D := ⟨true, [], fun h => by cases h⟩

/-- `try_send_to`, when there is room. -/
def push (o : Outbox D) (d : D) : Outbox D :=
  if h : o.isOpen then { o with queue := o.queue ++ [d], empty := fun h' => by rw [h] at h'; cases h' } else o

/-- The network takes the first datagram. -/
def pop (o : Outbox D) : Outbox D × Option D :=
  match h : o.queue with
  | [] => (o, none)
  | d :: rest => ({ o with queue := rest, empty := fun h' => by rw [o.empty h'] at h; cases h }, some d)

/-- Everything that waits. -/
def Holds (P : D → Prop) (o : Outbox D) : Prop := ∀ d ∈ o.queue, P d

variable {P Q : D → Prop} {o : Outbox D}

theorem Holds.closed : Holds P (closed : Outbox D) := fun _ h => by cases h

theorem Holds.bound : Holds P (bound : Outbox D) := fun _ h => by cases h

theorem Holds.mono (h : Holds P o) (hpq : ∀ d, P d → Q d) : Holds Q o := fun d hd => hpq d (h d hd)

theorem Holds.push (h : Holds P o) {d : D} (hd : P d) : Holds P (o.push d) := by
  unfold Outbox.push
  split
  · intro d' hd'
    rcases List.mem_append.1 hd' with hd' | hd'
    · exact h d' hd'
    · rw [List.mem_singleton.1 hd']
      exact hd
  · exact h

@[simp] theorem pop_queue (o : Outbox D) : o.pop.1.queue = o.queue.tail := by
  unfold pop
  split
  · rename_i hq
    rw [hq]
    rfl
  · rename_i d rest hq
    exact (congrArg List.tail hq).symm

theorem Holds.pop (h : Holds P o) : Holds P o.pop.1 := fun d hd =>
  h d (List.mem_of_mem_tail (pop_queue o ▸ hd))

theorem Holds.popped (h : Holds P o) {d : D} (hd : o.pop.2 = some d) : P d := by
  unfold Outbox.pop at hd
  split at hd
  · cases hd
  · rename_i d' rest hq
    cases hd
    exact h d (hq ▸ List.mem_cons_self)

theorem push_length (o : Outbox D) (d : D) : (o.push d).queue.length ≤ o.queue.length + 1 := by
  unfold push
  split
  · rw [List.length_append]
    exact Nat.le_refl _
  · exact Nat.le_succ _

/-- What waits and what was taken. -/
theorem pop_length (o : Outbox D) : o.pop.1.queue.length + o.pop.2.toList.length = o.queue.length := by
  unfold pop
  split
  · rfl
  · rename_i d rest hq
    exact (congrArg List.length hq).symm

end Outbox

end Nucleo
