import CKGameServer.Library.FrameQueue

/-!
A queue in a block whose content slides to the front when the end is reached.

The consumed symbols stay in the block in front of the waiting ones until a put reaches the end
of the block; then the waiting symbols are copied over them.

* `Sliding`, `slide`: the waiting symbols, and how many have been consumed since they last
  slid.
* `KeepsUp`: a put that slides finds no more symbols waiting than have been consumed, so that
  the copy does not overlap what it copies.
* `keepsUp_of_half`: a put keeps up if the block has room for the waiting symbols twice.
-/

namespace Framing

open Runs

variable {α : Type*}

/-- The symbols that wait, and the number of those consumed since the queue last slid. -/
structure Sliding (α : Type*) where
  waiting : List α := []
  taken : ℕ := 0

/-- A put of `xs` reaches the end of a block of `size` symbols. -/
def Sliding.Slides (size : ℕ) (q : Sliding α) (xs : List α) : Prop :=
  size ≤ q.taken + q.waiting.length + xs.length

instance (size : ℕ) (q : Sliding α) (xs : List α) : Decidable (q.Slides size xs) :=
  inferInstanceAs (Decidable (_ ≤ _))

/-- The waiting symbols and those of a put have room in the block. -/
def Sliding.HasRoom (size : ℕ) (q : Sliding α) (xs : List α) : Prop :=
  q.waiting.length + xs.length ≤ size

instance (size : ℕ) (q : Sliding α) (xs : List α) : Decidable (q.HasRoom size xs) :=
  inferInstanceAs (Decidable (_ ≤ _))

variable (F : Framing α) (size : ℕ)

/-- The queue after an operation, if there is room for what it puts. -/
def slide (q : Sliding α) : QueueOp α → Option (Sliding α)
  | .put xs =>
    if q.HasRoom size xs then
      some ⟨q.waiting ++ xs, if q.Slides size xs then 0 else q.taken⟩
    else none
  | .take =>
    some (if F.BeginsFrame q.waiting then
      ⟨q.waiting.drop (F.frameLength q.waiting), q.taken + F.frameLength q.waiting⟩
    else q)

/-- Where a put slides, no more symbols wait than have been consumed. -/
def Sliding.KeepsUp (q : Sliding α) : QueueOp α → Prop
  | .put xs => q.HasRoom size xs → q.Slides size xs → q.waiting.length ≤ q.taken
  | .take => True

instance (q : Sliding α) : ∀ op, Decidable (q.KeepsUp size op)
  | .put xs => inferInstanceAs (Decidable (q.HasRoom size xs → q.Slides size xs → _ ≤ _))
  | .take => isTrue trivial

/-- A put finds the block half empty: the waiting symbols would have room in it twice. -/
def Sliding.HalfEmpty (q : Sliding α) : QueueOp α → Prop
  | .put xs => 2 * q.waiting.length + xs.length ≤ size
  | .take => True

variable {F size}

lemma keepsUp_of_half {q : Sliding α} {op : QueueOp α} (h : q.HalfEmpty size op) :
    q.KeepsUp size op := by
  cases op with
  | put xs =>
      intro _ hslides
      rw [Sliding.HalfEmpty] at h
      rw [Sliding.Slides] at hslides
      omega
  | take => trivial

/-- A consumer that keeps half of the block empty keeps up over the whole run. -/
theorem along_keepsUp_of_half {q : Sliding α} {ops : List (QueueOp α)}
    (h : Along (F.slide size) (Sliding.HalfEmpty size) q ops) :
    Along (F.slide size) (Sliding.KeepsUp size) q ops :=
  along_of_along (P := fun _ => True) (fun _ _ _ h => keepsUp_of_half h)
    (fun _ _ _ _ _ _ => trivial) trivial h

end Framing
