import CKGameServer.Library.Runs

/-!
A queue the front of which is under way.

* `Op`, `step`: an element is put at the end; the front, which was under way, is done and goes.
* `start`: what goes under way with an operation, which is an element put to an empty queue and
  the one behind a front that is done.
* `outputs_append_tail`: over a run what goes under way, and then what still waits, is what waited
  before and what was put, in order.
-/

namespace InFlight

open Runs

variable {α : Type*}

/-- The operations. -/
inductive Op (α : Type*) where
  | put (x : α)
  | done

/-- The element an operation brings. -/
def Op.incoming : Op α → List α
  | put x => [x]
  | done => []

/-- The queue after an operation. Nothing is done where nothing is under way. -/
def step : List α → Op α → Option (List α)
  | q, .put x => some (q ++ [x])
  | [], .done => none
  | _ :: q, .done => some q

/-- What goes under way. -/
def start : List α → Op α → Option α
  | [], .put x => some x
  | _ :: _, .put _ => none
  | q, .done => q.tail.head?

variable {q q' : List α} {op : Op α}

/-- **One operation**: what waits loses what goes under way at its front, and gains what is put at
its end. -/
lemma start_append_tail (h : step q op = some q') :
    (start q op).toList ++ q'.tail = q.tail ++ op.incoming := by
  cases op with
  | put x =>
      obtain rfl := Option.some.inj h
      cases q with
      | nil => rfl
      | cons y q => rfl
  | done =>
      cases q with
      | nil => cases h
      | cons y q =>
          obtain rfl := Option.some.inj h
          cases q with
          | nil => rfl
          | cons z q => exact (List.append_nil (z :: q)).symm

/-- **First in, first out**: over a run what goes under way, and then what still waits, is what
waited before and what was put. -/
theorem outputs_append_tail {ops : List (Op α)} (h : run step q ops = some q') :
    outputs step start q ops ++ q'.tail = q.tail ++ ops.flatMap Op.incoming := by
  induction ops generalizing q with
  | nil =>
      obtain rfl := Option.some.inj h
      rw [outputs_nil, List.nil_append, List.flatMap_nil, List.append_nil]
  | cons op ops ih =>
      obtain ⟨q₁, hstep, hrest⟩ := Option.bind_eq_some_iff.mp h
      calc outputs step start q (op :: ops) ++ q'.tail
          = (start q op).toList ++ (outputs step start q₁ ops ++ q'.tail) := by
            rw [outputs_cons hstep, List.append_assoc]
        _ = (start q op).toList ++ q₁.tail ++ ops.flatMap Op.incoming := by
            rw [ih hrest, List.append_assoc]
        _ = q.tail ++ (op :: ops).flatMap Op.incoming := by
            rw [start_append_tail hstep, List.append_assoc, List.flatMap_cons]

end InFlight
