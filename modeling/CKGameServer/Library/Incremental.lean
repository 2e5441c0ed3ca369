import Mathlib.Data.List.TakeWhile
import CKGameServer.Library.Runs

/-!
Readers that take their input as it arrives.

An `Incremental` reader takes tokens from the front of what has arrived. A token that is complete
is taken in the same way whatever arrives behind it.

* `read`: go on until something is put out, or until the next token is incomplete.
* `read_append_of_some`, `read_append_of_none`: input that arrives later changes nothing of what is
  put out, and the reader goes on where it has stopped.
* `Frame`: input after which the reader has put out one value, and is where it was;
  `read_eq_none_of_lt`: not before the last symbol of it has arrived.
* `Call`, `callStep`, `callOutput`: input that is fed to the reader, and calls that make it read.
* `Arrivals`: the frames that are to come, and how many symbols have arrived of them.
* `outputs_eq_arrivals`: however the frames are split and the calls interleaved, each call puts out
  the next frame if all of it has arrived, and nothing if not.
-/

/-- A reader with states `σ` of symbols `β`, which puts out values `ω`. A step takes a token from
the front of the input and leaves the rest; there is none where the input ends in the token. -/
structure Incremental (σ β ω : Type*) where
  step : σ → List β → Option (Option ω × σ × List β)
  cost : σ → List β → ℕ
  cost_lt : ∀ {s u o s' u'}, step s u = some (o, s', u') → cost s' u' < cost s u
  step_append : ∀ {s u o s' u'}, step s u = some (o, s', u') →
    ∀ v, step s (u ++ v) = some (o, s', u' ++ v)

namespace Incremental

open Runs

variable {σ β ω : Type*} (R : Incremental σ β ω)

/-- Take tokens until a value is put out, or the next token is incomplete. -/
def read (s : σ) (u : List β) : Option ω × σ × List β :=
  match _h : R.step s u with
  | none => (none, s, u)
  | some (some w, s', u') => (some w, s', u')
  | some (none, s', u') => read s' u'
termination_by R.cost s u
decreasing_by exact R.cost_lt _h

variable {R} {s s' : σ} {u u' v : List β} {w : ω}

lemma read_of_step_none (h : R.step s u = none) : R.read s u = (none, s, u) := by
  rw [read]
  split <;> simp_all

lemma read_of_step_some (h : R.step s u = some (some w, s', u')) :
    R.read s u = (some w, s', u') := by
  rw [read]
  split <;> simp_all

lemma read_of_step (h : R.step s u = some (none, s', u')) : R.read s u = R.read s' u' := by
  conv_lhs => rw [read]
  split <;> simp_all

/-- A proof about `read` goes through the tokens it takes. -/
lemma read_induction {P : σ → List β → Prop}
    (hnone : ∀ s u, R.step s u = none → P s u)
    (hsome : ∀ s u w s' u', R.step s u = some (some w, s', u') → P s u)
    (hstep : ∀ s u s' u', R.step s u = some (none, s', u') → P s' u' → P s u)
    (s : σ) (u : List β) : P s u := by
  induction hn : R.cost s u using Nat.strong_induction_on generalizing s u with
  | _ n ih =>
    cases h : R.step s u with
    | none => exact hnone s u h
    | some t =>
        obtain ⟨o, s', u'⟩ := t
        cases o with
        | none => exact hstep s u s' u' h (ih _ (hn ▸ R.cost_lt h) s' u' rfl)
        | some w => exact hsome s u w s' u' h

/-- **Prefix stability.** A value that is put out stays what it is, and later input stays where it
is. -/
theorem read_append_of_some (h : R.read s u = (some w, s', u')) (v : List β) :
    R.read s (u ++ v) = (some w, s', u' ++ v) := by
  induction s, u using read_induction (R := R) with
  | hnone s u hs => simp [read_of_step_none hs] at h
  | hsome s u w₁ s₁ u₁ hs =>
      rw [read_of_step_some hs] at h
      obtain ⟨h1, h2, h3⟩ : w₁ = w ∧ s₁ = s' ∧ u₁ = u' := by simpa using h
      subst h1 h2 h3
      exact read_of_step_some (R.step_append hs v)
  | hstep s u s₁ u₁ hs ih =>
      rw [read_of_step hs] at h
      rw [read_of_step (R.step_append hs v), ih h]

/-- Where the input ends in a token, the reader goes on from there. -/
theorem read_append_of_none (h : R.read s u = (none, s', u')) (v : List β) :
    R.read s (u ++ v) = R.read s' (u' ++ v) := by
  induction s, u using read_induction (R := R) with
  | hnone s u hs =>
      rw [read_of_step_none hs] at h
      obtain ⟨rfl, rfl⟩ : s = s' ∧ u = u' := by simpa using h
      rfl
  | hsome s u w₁ s₁ u₁ hs => simp [read_of_step_some hs] at h
  | hstep s u s₁ u₁ hs ih =>
      rw [read_of_step hs] at h
      rw [read_of_step (R.step_append hs v), ih h]

/-! ### Frames -/

/-- From `s₀` the reader puts out `w` at the end of `x`, and is in `s₀` again. -/
def Frame (R : Incremental σ β ω) (s₀ : σ) (x : List β) (w : ω) : Prop :=
  R.read s₀ x = (some w, s₀, [])

variable {s₀ : σ} {x : List β}

lemma Frame.read_append (hx : R.Frame s₀ x w) (v : List β) :
    R.read s₀ (x ++ v) = (some w, s₀, v) := read_append_of_some hx v

/-- Nothing is put out before the end of the frame. -/
lemma Frame.eq_nil_of_read (hx : R.Frame s₀ x w) (h : x = u ++ v) {w' : ω}
    (hread : R.read s₀ u = (some w', s', u')) : v = [] := by
  have hall := read_append_of_some hread v
  rw [← h, hx] at hall
  exact (List.append_eq_nil_iff.mp (congrArg (fun t => t.2.2) hall).symm).2

/-- The reader waits for the rest of a frame. -/
lemma Frame.read_fst_of_lt (hx : R.Frame s₀ x w) (h : u ++ v = x ++ u')
    (hlt : u.length < x.length) :
    (R.read s₀ u).1 = none := by
  obtain ⟨t, rfl⟩ : u <+: x := List.prefix_of_prefix_length_le ⟨v, h⟩ ⟨u', rfl⟩ hlt.le
  cases hread : R.read s₀ u with
  | mk o rest =>
      cases o with
      | none => rfl
      | some w' =>
          have := hx.eq_nil_of_read rfl hread
          subst this
          simp at hlt

/-! ### Calls -/

/-- What happens to a reader: input arrives, or it is called. -/
inductive Call (β : Type*) where
  | feed (xs : List β)
  | get

/-- The symbols that a call brings. -/
def Call.incoming : Call β → List β
  | .feed xs => xs
  | .get => []

/-- The reader and the input it has not taken, after a call. -/
def callStep (R : Incremental σ β ω) (c : σ × List β) : Call β → Option (σ × List β)
  | .feed xs => some (c.1, c.2 ++ xs)
  | .get => some (R.read c.1 c.2).2

/-- What a call puts out. -/
def callOutput (R : Incremental σ β ω) (c : σ × List β) : Call β → Option ω
  | .feed _ => none
  | .get => (R.read c.1 c.2).1

/-- The frames that are to come, and how many of their symbols have arrived. -/
structure Arrivals (β ω : Type*) where
  arrived : ℕ
  frames : List (List β × ω)

namespace Arrivals

/-- A call takes the next frame if it has arrived. -/
def step (a : Arrivals β ω) : Call β → Option (Arrivals β ω)
  | .feed xs => some { a with arrived := a.arrived + xs.length }
  | .get =>
    match a.frames with
    | [] => some a
    | (x, _) :: frames =>
      some (if x.length ≤ a.arrived then { arrived := a.arrived - x.length, frames } else a)

/-- What it puts out. -/
def output (a : Arrivals β ω) : Call β → Option ω
  | .feed _ => none
  | .get => a.frames.head?.bind fun p => if p.1.length ≤ a.arrived then some p.2 else none

end Arrivals

section Arrivals

/-- A call where frames are to come. -/
lemma Arrivals.step_get_cons (n : ℕ) (frames : List (List β × ω)) :
    Arrivals.step ⟨n, (x, w) :: frames⟩ .get =
      some (if x.length ≤ n then ⟨n - x.length, frames⟩ else ⟨n, (x, w) :: frames⟩) := rfl

/-- The values of the frames go through a function. -/
lemma Arrivals.outputs_map {ω' : Type*} (f : ω → ω') (n : ℕ) (frames : List (List β × ω))
    (calls : List (Call β)) :
    outputs Arrivals.step Arrivals.output ⟨n, frames.map fun p => (p.1, f p.2)⟩ calls =
      (outputs Arrivals.step Arrivals.output ⟨n, frames⟩ calls).map f := by
  induction calls generalizing n frames with
  | nil => rfl
  | cons call calls ih =>
      cases call with
      | feed xs => exact ih (n + xs.length) frames
      | get =>
          cases frames with
          | nil => exact ih n []
          | cons p frames =>
              obtain ⟨x, w⟩ := p
              rw [List.map_cons, outputs_cons (Arrivals.step_get_cons n _),
                outputs_cons (Arrivals.step_get_cons n frames), List.map_append]
              by_cases hle : x.length ≤ n
              · rw [if_pos hle, if_pos hle, ih]
                simp [Arrivals.output, hle]
              · have hrest := ih n ((x, w) :: frames)
                rw [List.map_cons] at hrest
                rw [if_neg hle, if_neg hle, hrest]
                simp [Arrivals.output, hle]

/-- Where no frame is to come nothing is put out. -/
lemma Arrivals.outputs_nil (n : ℕ) (calls : List (Call β)) :
    outputs Arrivals.step Arrivals.output (⟨n, []⟩ : Arrivals β ω) calls = [] := by
  induction calls generalizing n with
  | nil => rfl
  | cons call calls ih =>
      cases call with
      | feed xs => exact ih (n + xs.length)
      | get => exact ih n

/-- A frame that arrives in full is put out once, by the next call at the latest. -/
lemma Arrivals.outputs_single (x : List β) (w : ω) {n : ℕ} {calls : List (Call β)}
    (h : n + (calls.flatMap Call.incoming).length = x.length) :
    outputs Arrivals.step Arrivals.output ⟨n, [(x, w)]⟩ (calls ++ [.get]) = [w] := by
  induction calls generalizing n with
  | nil =>
      have hle : x.length ≤ n := by simpa using h.ge
      simp [outputs, Arrivals.step, Arrivals.output, hle]
  | cons call calls ih =>
      rw [List.flatMap_cons, List.length_append] at h
      cases call with
      | feed xs =>
          rw [Call.incoming] at h
          exact ih (n := n + xs.length) (by omega)
      | get =>
          rw [Call.incoming, List.length_nil, Nat.zero_add] at h
          rw [List.cons_append, outputs_cons (Arrivals.step_get_cons n [])]
          by_cases hle : x.length ≤ n
          · rw [if_pos hle, Arrivals.outputs_nil]
            simp [Arrivals.output, hle]
          · rw [if_neg hle, ih h]
            simp [Arrivals.output, hle]

end Arrivals

/-- The reader has taken the symbols `u` that have arrived of the frames to come, up to tokens that
are not complete. -/
structure Pending (R : Incremental σ β ω) (s₀ : σ) (c : σ × List β) (u : List β) : Prop where
  read_eq : ∀ v, R.read c.1 (c.2 ++ v) = R.read s₀ (u ++ v)

lemma Pending.refl (s₀ : σ) (u : List β) : R.Pending s₀ (s₀, u) u := ⟨fun _ => rfl⟩

lemma Pending.feed {c : σ × List β} (h : R.Pending s₀ c u) (xs : List β) :
    R.Pending s₀ (c.1, c.2 ++ xs) (u ++ xs) :=
  ⟨fun v => by simpa only [List.append_assoc] using h.read_eq (xs ++ v)⟩

lemma Pending.read {c : σ × List β} (h : R.Pending s₀ c u) : R.read c.1 c.2 = R.read s₀ u := by
  simpa only [List.append_nil] using h.read_eq []

/-- A call that puts out nothing leaves the reader where it is. -/
lemma Pending.get_none {c : σ × List β} (h : R.Pending s₀ c u)
    (hnone : (R.read s₀ u).1 = none) : R.Pending s₀ (R.read c.1 c.2).2 u := by
  refine ⟨fun v => ?_⟩
  have hread : R.read c.1 c.2 = (none, (R.read c.1 c.2).2.1, (R.read c.1 c.2).2.2) := by
    rw [← hnone, ← h.read]
  rw [← read_append_of_none hread v]
  exact h.read_eq v

/-- **A stream of frames through a reader.** However the frames arrive and whenever the reader is
called, it puts out the frames one after the other, each at the first call after its last symbol. -/
theorem outputs_eq_arrivals (h₀ : R.step s₀ [] = none) {frames : List (List β × ω)}
    (hframes : ∀ p ∈ frames, R.Frame s₀ p.1 p.2) {c : σ × List β} (hc : R.Pending s₀ c u)
    (calls : List (Call β)) (rest : List β)
    (h : u ++ (calls.flatMap Call.incoming ++ rest) = (frames.map Prod.fst).flatten) :
    outputs R.callStep R.callOutput c calls =
      outputs Arrivals.step Arrivals.output ⟨u.length, frames⟩ calls := by
  induction calls generalizing c u frames with
  | nil => rfl
  | cons call calls ih =>
      cases call with
      | feed xs =>
          rw [List.flatMap_cons, Call.incoming, List.append_assoc, ← List.append_assoc] at h
          have hrest := ih hframes (hc.feed xs) h
          rw [List.length_append] at hrest
          rw [outputs_cons (show R.callStep c (.feed xs) = some (c.1, c.2 ++ xs) from rfl), hrest]
          rfl
      | get =>
          rw [List.flatMap_cons, Call.incoming, List.nil_append] at h
          rw [outputs_cons (show R.callStep c .get = some (R.read c.1 c.2).2 from rfl), callOutput]
          cases frames with
          | nil =>
              obtain rfl := (List.append_eq_nil_iff.mp h).1
              have hread : (R.read s₀ []).1 = none := by rw [read_of_step_none h₀]
              rw [ih hframes (hc.get_none hread) h, hc.read, hread]
              rfl
          | cons p frames =>
              obtain ⟨x, w⟩ := p
              have hx := hframes _ List.mem_cons_self
              rw [List.map_cons, List.flatten_cons] at h
              rw [outputs_cons (Arrivals.step_get_cons u.length frames)]
              by_cases hle : x.length ≤ u.length
              · obtain ⟨t, rfl⟩ : x <+: u :=
                  List.prefix_of_prefix_length_le ⟨_, h.symm⟩ ⟨_, rfl⟩ hle
                rw [List.append_assoc] at h
                have hread := hx.read_append t
                have hrest := ih (fun p hp => hframes p (List.mem_cons_of_mem _ hp))
                  (Pending.refl s₀ t) (List.append_cancel_left h)
                rw [hc.read, hread, hrest, if_pos hle, List.length_append, Nat.add_sub_cancel_left]
                simp [Arrivals.output]
              · have hread := hx.read_fst_of_lt h (Nat.lt_of_not_le hle)
                rw [ih hframes (hc.get_none hread) (by rw [h, List.map_cons, List.flatten_cons]),
                  hc.read, hread, if_neg hle]
                simp [Arrivals.output, hle]

end Incremental
