import Mathlib.Order.Lattice.Nat
import Mathlib.Data.List.Basic

/-!
A value on display until a deadline.

Three commands work on the display: a tick puts up a new value where the old one has expired, a
reset puts one up in any case, and an extension moves the deadline and keeps the value.

* `Display`, `Command`: the state and its commands.
* `Command.put`: what a command puts up at a time, if it puts up anything.
* `ahead_apply`: after every command the deadline is in the future.
* `put_tick_of_ahead`, `expired_of_apply_tick_ne`: until the deadline ticks do nothing.
* `apply_extend`: an extension keeps the value.
-/

namespace Deadline

variable {α : Type*}

/-- The value on display and the time from which it is expired; `none` before there is one. -/
abbrev Display (α : Type*) := Option (α × ℕ)

/-- The commands, with what they may put up. -/
inductive Command (α : Type*) where
  | tick (fresh : α) (deadline : ℕ)
  | reset (fresh : α) (deadline : ℕ)
  | extend (n : ℕ) (fresh : α)

/-- The display shows a value whose deadline is in the future. -/
def Ahead (now : ℕ) (d : Display α) : Prop := ∃ x t, d = some (x, t) ∧ now < t

/-- There is nothing on display, or it has expired. -/
def Expired (now : ℕ) (d : Display α) : Prop := ∀ x t, d = some (x, t) → t ≤ now

instance (now : ℕ) (d : Display α) : Decidable (Expired now d) :=
  match d with
  | none => isTrue fun _ _ h => by cases h
  | some (x, t) => decidable_of_iff (t ≤ now)
      ⟨fun ht _ _ h => (Prod.mk.inj (Option.some.inj h)).2 ▸ ht, fun h => h x t rfl⟩

lemma not_expired_iff {now : ℕ} {d : Display α} : ¬Expired now d ↔ Ahead now d := by
  simp [Expired, Ahead]

namespace Command

/-- What the command puts up. -/
def put (now : ℕ) (d : Display α) : Command α → Option (α × ℕ)
  | tick fresh deadline => if Expired now d then some (fresh, deadline) else none
  | reset fresh deadline => some (fresh, deadline)
  | extend n fresh =>
    match d with
    | none => some (fresh, now + n)
    | some (x, t) => some (x, max now t + n)

/-- The display after the command. -/
def apply (now : ℕ) (d : Display α) (c : Command α) : Display α := (c.put now d).or d

/-- The deadlines it brings are in the future, and an extension is one. -/
def Valid (now : ℕ) : Command α → Prop
  | tick _ deadline => now < deadline
  | reset _ deadline => now < deadline
  | extend n _ => 0 < n

/-- The command is a tick. -/
def IsTick : Command α → Prop
  | tick _ _ => True
  | _ => False

variable {now : ℕ} {d : Display α} {c : Command α}

lemma apply_of_put {p : α × ℕ} (h : c.put now d = some p) : c.apply now d = some p := by
  rw [apply, h, Option.some_or]

lemma apply_of_put_none (h : c.put now d = none) : c.apply now d = d := by
  rw [apply, h, Option.none_or]

/-- Before the deadline a tick puts up nothing. -/
lemma put_tick_of_ahead (htick : c.IsTick) (h : Ahead now d) : c.put now d = none := by
  cases c with
  | tick fresh deadline => exact if_neg (not_expired_iff.mpr h)
  | reset fresh deadline => exact htick.elim
  | extend n fresh => exact htick.elim

/-- **After every command** the display is ahead of the time. -/
theorem ahead_apply (h : c.Valid now) : Ahead now (c.apply now d) := by
  cases c with
  | tick fresh deadline =>
      by_cases hexpired : Expired now d
      · have hput : (tick fresh deadline).put now d = some (fresh, deadline) := if_pos hexpired
        rw [apply_of_put hput]
        exact ⟨fresh, deadline, rfl, h⟩
      · have hput : (tick fresh deadline).put now d = none := if_neg hexpired
        rw [apply_of_put_none hput]
        exact not_expired_iff.mp hexpired
  | reset fresh deadline => exact ⟨fresh, deadline, rfl, h⟩
  | extend n fresh =>
      have hn : 0 < n := h
      cases d with
      | none => exact ⟨fresh, now + n, rfl, by omega⟩
      | some p => exact ⟨p.1, max now p.2 + n, rfl, by omega⟩

/-- A tick changes the display only where it has expired. -/
lemma expired_of_apply_tick_ne (htick : c.IsTick) (h : c.apply now d ≠ d) : Expired now d := by
  by_contra hahead
  exact h (apply_of_put_none (put_tick_of_ahead htick (not_expired_iff.mp hahead)))

/-- An extension keeps the value on display. -/
lemma apply_extend {x : α} {t n : ℕ} {fresh : α} :
    (extend n fresh).apply now (some (x, t)) = some (x, max now t + n) := rfl

end Command

end Deadline
