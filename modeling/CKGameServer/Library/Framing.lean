import Mathlib.Data.List.Basic

/-!
Streams framed by a length field.

A `Framing` says how long the frame at the head of a stream is, once its header has arrived;
what arrives later does not change that.

* `BeginsFrame`, `BeginsFrames n`: the stream begins with a complete frame, with `n` of them
  one after the other.
* `BeginsFrame.append`, `BeginsFrames.append`: bytes that arrive later keep the complete
  frames complete.
-/

/-- A framing of streams over `α`: the length of a header, and the length of the frame at the
head of a stream as its header gives it. -/
structure Framing (α : Type*) where
  header : ℕ
  frameLength : List α → ℕ
  frameLength_append : ∀ s t, header ≤ s.length → frameLength (s ++ t) = frameLength s

namespace Framing

variable {α : Type*} (F : Framing α)

/-- The stream begins with a complete frame. -/
def BeginsFrame (s : List α) : Prop := F.header ≤ s.length ∧ F.frameLength s ≤ s.length

/-- The stream begins with `n` complete frames, one after the other. -/
def BeginsFrames : ℕ → List α → Prop
  | 0, _ => True
  | n + 1, s => F.BeginsFrame s ∧ BeginsFrames n (s.drop (F.frameLength s))

instance (s : List α) : Decidable (F.BeginsFrame s) :=
  inferInstanceAs (Decidable (_ ∧ _))

instance decidableBeginsFrames : ∀ n s, Decidable (F.BeginsFrames n s)
  | 0, _ => isTrue trivial
  | n + 1, s =>
    have := decidableBeginsFrames n (s.drop (F.frameLength s))
    inferInstanceAs (Decidable (_ ∧ _))

variable {F} {s : List α}

@[simp] lemma beginsFrames_zero (s : List α) : F.BeginsFrames 0 s := trivial

lemma beginsFrames_succ {n : ℕ} :
    F.BeginsFrames (n + 1) s ↔ F.BeginsFrame s ∧ F.BeginsFrames n (s.drop (F.frameLength s)) :=
  Iff.rfl

lemma beginsFrames_one : F.BeginsFrames 1 s ↔ F.BeginsFrame s := by
  simp [beginsFrames_succ]

/-- Later bytes leave a complete frame complete. -/
lemma BeginsFrame.append (h : F.BeginsFrame s) (t : List α) : F.BeginsFrame (s ++ t) := by
  obtain ⟨h1, h2⟩ := h
  refine ⟨?_, ?_⟩
  · rw [List.length_append]; omega
  · rw [F.frameLength_append s t h1, List.length_append]; omega

/-- Later bytes leave complete frames complete. -/
lemma BeginsFrames.append {n : ℕ} (h : F.BeginsFrames n s) (t : List α) :
    F.BeginsFrames n (s ++ t) := by
  induction n generalizing s with
  | zero => trivial
  | succ n ih =>
      refine ⟨h.1.append t, ?_⟩
      rw [F.frameLength_append s t h.1.1, List.drop_append_of_le_length h.1.2]
      exact ih h.2

end Framing
