import CKGameServer.Library.Framing
import CKGameServer.Library.Runs

/-!
A queue of symbols whose consumer takes one frame at a time.

* `QueueOp`, `queueStep`, `queueOutput`: the queue; a take that finds no complete frame at the
  head leaves the queue as it is.
* `IsFrame`: a word that is exactly one frame.
* `beginsFrame_iff`: a queue that holds the front of a stream of frames begins with a frame
  exactly when the first of them has arrived in full.
* `queue_outputs`: over any interleaving of the two operations on a stream of frames, the takes
  put out the frames of the stream from the first on, and what they have not put out is in the
  queue.
-/

namespace Framing

open Runs

variable {α : Type*} (F : Framing α)

/-- What a producer and a consumer do to a queue. -/
inductive QueueOp (α : Type*) where
  | put (xs : List α)
  | take

/-- The symbols an operation brings. -/
def QueueOp.incoming : QueueOp α → List α
  | put xs => xs
  | take => []

/-- The queue after an operation. -/
def queueStep (s : List α) : QueueOp α → Option (List α)
  | .put xs => some (s ++ xs)
  | .take => some (if F.BeginsFrame s then s.drop (F.frameLength s) else s)

/-- What an operation hands to the consumer: the header it reads and the frame it takes. A length
field may be shorter than the header. -/
def queueOutput (s : List α) : QueueOp α → Option (List α × List α)
  | .put _ => none
  | .take =>
    if F.BeginsFrame s then some (s.take F.header, s.take (F.frameLength s)) else none

/-- A frame with its header. -/
def headed (x : List α) : List α × List α := (x.take F.header, x)

/-- The word is one frame. -/
def IsFrame (x : List α) : Prop := F.header ≤ x.length ∧ F.frameLength x = x.length

instance (x : List α) : Decidable (F.IsFrame x) := inferInstanceAs (Decidable (_ ∧ _))

variable {F} {s x rest : List α} {frames : List (List α)}

lemma IsFrame.beginsFrame (hx : F.IsFrame x) : F.BeginsFrame x := ⟨hx.1, Nat.le_of_eq hx.2⟩

/-- The length field of a stream is the one of its first frame. -/
lemma IsFrame.frameLength_append (hx : F.IsFrame x) (t : List α) :
    F.frameLength (x ++ t) = x.length := by
  rw [F.frameLength_append x t hx.1, hx.2]

/-- A frame is complete once as many symbols have arrived as it has. -/
lemma beginsFrame_iff (hx : F.IsFrame x) (h : s ++ rest = x ++ frames.flatten) :
    F.BeginsFrame s ↔ x.length ≤ s.length := by
  constructor
  · rintro ⟨hheader, hlength⟩
    calc x.length
        = F.frameLength (x ++ frames.flatten) := (hx.frameLength_append _).symm
      _ = F.frameLength s := by rw [← h, F.frameLength_append s rest hheader]
      _ ≤ s.length := hlength
  · intro hle
    have hprefix : x <+: s :=
      List.prefix_of_prefix_length_le ⟨frames.flatten, h.symm⟩ ⟨rest, rfl⟩ hle
    obtain ⟨t, rfl⟩ := hprefix
    exact hx.beginsFrame.append t

/-- The head of a queue whose first frame has arrived. -/
lemma exists_eq_append (hx : F.IsFrame x) (h : s ++ rest = x ++ frames.flatten)
    (hs : F.BeginsFrame s) : ∃ t, s = x ++ t ∧ t ++ rest = frames.flatten := by
  have hle := (beginsFrame_iff hx h).mp hs
  obtain ⟨t, rfl⟩ : x <+: s :=
    List.prefix_of_prefix_length_le ⟨frames.flatten, h.symm⟩ ⟨rest, rfl⟩ hle
  rw [List.append_assoc] at h
  exact ⟨t, rfl, List.append_cancel_left h⟩

/-- An empty queue begins with no frame. -/
lemma not_beginsFrame_nil (hF : 0 < F.header) : ¬F.BeginsFrame ([] : List α) :=
  fun h => absurd h.1 (Nat.not_le.mpr hF)

/-- The first entry of a list, if it passes a test, is as much of the list as it is long. -/
lemma toList_filter_head? {β : Type*} (l : List β) (p : β → Bool) :
    (l.head?.filter p).toList = l.take (l.head?.filter p).toList.length := by
  cases l with
  | nil => rfl
  | cons b l => cases h : p b <;> simp [Option.filter, h]

/-- What a take puts out, and what it leaves, where the queue holds the front of a stream. -/
lemma take_spec (hF : 0 < F.header) (hframes : ∀ x ∈ frames, F.IsFrame x)
    (h : s ++ rest = frames.flatten) :
    F.queueOutput s .take =
        (frames.head?.filter fun x => x.length ≤ s.length).map F.headed ∧
      ∃ s', F.queueStep s .take = some s' ∧
        s' ++ rest = (frames.drop (F.queueOutput s .take).toList.length).flatten := by
  rw [queueOutput, queueStep]
  cases frames with
  | nil =>
      have hs : s = [] := (List.append_eq_nil_iff.mp (by simpa using h)).1
      subst hs
      rw [if_neg (not_beginsFrame_nil hF), if_neg (not_beginsFrame_nil hF)]
      exact ⟨rfl, [], rfl, h⟩
  | cons x frames =>
      have hx := hframes x List.mem_cons_self
      rw [List.flatten_cons] at h
      by_cases hs : F.BeginsFrame s
      · have hle := (beginsFrame_iff hx h).mp hs
        obtain ⟨t, rfl, ht⟩ := exists_eq_append hx h hs
        rw [if_pos hs, if_pos hs, hx.frameLength_append, List.take_left, List.drop_left,
          List.take_append_of_le_length hx.1]
        exact ⟨by simp [Option.filter, headed], t, rfl, ht⟩
      · have hlt := (beginsFrame_iff hx h).not.mp hs
        rw [if_neg hs, if_neg hs]
        exact ⟨by simp [Option.filter, hlt], s, rfl, h⟩

/-- **A stream of frames through the queue.** Whatever the interleaving of puts and takes, the
takes put out the frames of the stream from the first on, and the queue holds what has arrived
of the others. -/
theorem queue_outputs (hF : 0 < F.header) (hframes : ∀ x ∈ frames, F.IsFrame x)
    (ops : List (QueueOp α)) (h : s ++ (ops.flatMap QueueOp.incoming ++ rest) = frames.flatten) :
    ∃ k s', run F.queueStep s ops = some s' ∧ k ≤ frames.length ∧
      outputs F.queueStep F.queueOutput s ops = (frames.take k).map F.headed ∧
      s' ++ rest = (frames.drop k).flatten := by
  induction ops generalizing s frames with
  | nil => exact ⟨0, s, rfl, Nat.zero_le _, rfl, h⟩
  | cons op ops ih =>
      cases op with
      | put xs =>
          have h' : (s ++ xs) ++ (ops.flatMap QueueOp.incoming ++ rest) = frames.flatten := by
            rw [← h, List.flatMap_cons, QueueOp.incoming]
            simp only [List.append_assoc]
          exact ih hframes h'
      | take =>
          rw [List.flatMap_cons, QueueOp.incoming, List.nil_append] at h
          obtain ⟨hout, s₁, hstep, hs₁⟩ := take_spec hF hframes h
          generalize hj : (F.queueOutput s .take).toList.length = j at hs₁
          obtain ⟨k, s', hrun, hk, houts, hs'⟩ :=
            ih (fun x hx => hframes x (List.mem_of_mem_drop hx)) hs₁
          have hhead : (F.queueOutput s .take).toList = (frames.take j).map F.headed := by
            rw [← hj, hout, Option.toList_map, List.length_map, ← toList_filter_head?]
          have hj' : j ≤ frames.length := by
            have hlength := congrArg List.length hhead
            rw [hj, List.length_map, List.length_take] at hlength
            omega
          refine ⟨j + k, s', ?_, ?_, ?_, ?_⟩
          · rw [run_cons, hstep, Option.bind_some, hrun]
          · rw [List.length_drop] at hk
            omega
          · rw [outputs_cons hstep, houts, hhead, List.take_add, List.map_append]
          · rw [hs', List.drop_drop]

end Framing
