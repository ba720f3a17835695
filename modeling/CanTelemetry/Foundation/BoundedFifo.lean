import CanTelemetry.Foundation.Execution

/-! The bounded queue that drops the newest element when it is full. Refusing an
element and finding the queue empty are operations of their own, so that a trace of
operations says when each of them was right. -/

namespace CanTelemetry.BoundedFifo

open Execution

inductive Op (α : Type*)
  | enqueue (element : α)
  | refuse (element : α)
  | dequeue
  | miss
  deriving DecidableEq

variable {α : Type*} {capacity : ℕ} {queue queue' : List α} {ops : List (Op α)}

def next (capacity : ℕ) (queue : List α) : Op α → Option (List α)
  | .enqueue element => if queue.length < capacity then some (queue ++ [element]) else none
  | .refuse _ => if capacity ≤ queue.length then some queue else none
  | .dequeue => queue.tail?
  | .miss => if queue = [] then some queue else none

/-- The elements that entered the queue. -/
def entered : Op α → List α
  | .enqueue element => [element]
  | _ => []

/-- The elements that an operation takes out. -/
def left (queue : List α) : Op α → List α
  | .dequeue => queue.head?.toList
  | _ => []

theorem next_dequeue :
    next capacity queue .dequeue = some queue' ↔ ∃ element, queue = element :: queue' := by
  cases queue with
  | nil => simp [next]
  | cons element rest => simp [next]

theorem next_conserves {op : Op α} (step : next capacity queue op = some queue') :
    queue ++ entered op = left queue op ++ queue' := by
  cases op with
  | enqueue element =>
    obtain ⟨-, rfl⟩ : _ ∧ queue ++ [element] = queue' := by simpa [next] using step
    rfl
  | refuse element =>
    obtain ⟨-, rfl⟩ : _ ∧ queue = queue' := by simpa [next] using step
    simp [entered, left]
  | dequeue =>
    obtain ⟨element, rfl⟩ := next_dequeue.mp step
    simp [entered, left]
  | miss =>
    obtain ⟨rfl, rfl⟩ : queue = [] ∧ queue = queue' := by simpa [next] using step
    rfl

/-- Nothing is lost, duplicated or reordered: what was queued and entered is what left
and is queued. -/
theorem exec_conserves (run : exec (next capacity) queue ops = some queue') :
    queue ++ ops.flatMap entered = trace (next capacity) left queue ops ++ queue' := by
  induction ops generalizing queue with
  | nil =>
    obtain rfl := Option.some.inj run
    simp [trace]
  | cons op ops ih =>
    obtain ⟨middle, step, run⟩ := exec_cons_eq_some.mp run
    have first := next_conserves step
    calc queue ++ (op :: ops).flatMap entered
        = (queue ++ entered op) ++ ops.flatMap entered := by simp [List.append_assoc]
      _ = left queue op ++ (middle ++ ops.flatMap entered) := by
          rw [first, List.append_assoc]
      _ = left queue op ++ (trace (next capacity) left middle ops ++ queue') := by rw [ih run]
      _ = trace (next capacity) left queue (op :: ops) ++ queue' := by
          simp [trace, step, List.append_assoc]

/-- What left an initially empty queue is a prefix of what entered it. -/
theorem left_prefix_entered (run : exec (next capacity) [] ops = some queue') :
    trace (next capacity) left [] ops <+: ops.flatMap entered := by
  have conserved := exec_conserves run
  rw [List.nil_append] at conserved
  rw [conserved]
  exact List.prefix_append _ _

end CanTelemetry.BoundedFifo
