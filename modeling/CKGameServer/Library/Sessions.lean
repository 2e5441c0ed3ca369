import Mathlib.Data.Int.Notation
import Mathlib.Data.List.Induction

/-!
Calls that come in sessions: one that opens the session, any number that use it, one that closes it.

* `InSessions`: the calls are the beginning of sessions one after the other.
* `turn`: whether a session is open after the calls, or that one of them came out of turn.
* `turn_concat`, `inSessions_iff`: calls are taken one by one, and are in sessions if all of them
  are in turn.
* `count_of_turn`: what is open has been opened and not closed.
* `inSessions_concat_iff`: so one more call is in turn if the counts say so.
-/

namespace Sessions

/-- A call of a session. -/
inductive Call where
  | opens | uses | closes
  deriving DecidableEq, Repr

/-- A session with `n` uses. -/
def session (n : ℕ) : List Call := .opens :: (List.replicate n .uses ++ [.closes])

/-- The calls are the beginning of sessions one after the other. -/
def InSessions (calls : List Call) : Prop := ∃ ns : List ℕ, calls <+: ns.flatMap session

/-- Whether a session is open after a call. -/
def Call.turn : Bool → Call → Option Bool
  | false, opens => some true
  | true, uses => some true
  | true, closes => some false
  | _, _ => none

/-- Whether a session is open after the calls. -/
def turn (calls : List Call) : Option Bool := calls.foldlM Call.turn false

/-- The number of open sessions that a call must find. -/
def Call.finds : Call → ℤ
  | opens => 0
  | uses | closes => 1

variable {calls more : List Call} {b : Bool}

lemma turn_append (calls more : List Call) :
    turn (calls ++ more) = (turn calls).bind fun b => more.foldlM Call.turn b :=
  List.foldlM_append

/-- One more call. -/
lemma turn_concat (calls : List Call) (c : Call) :
    turn (calls ++ [c]) = (turn calls).bind fun b => Call.turn b c := by
  rw [turn_append]
  refine Option.bind_congr fun b _ => ?_
  rw [List.foldlM_cons]
  exact bind_pure _

lemma foldlM_uses (n : ℕ) : (List.replicate n Call.uses).foldlM Call.turn true = some true := by
  induction n with
  | zero => rfl
  | succ n ih => exact ih

/-- Whole sessions leave none open. -/
lemma turn_sessions (ns : List ℕ) : turn (ns.flatMap session) = some false := by
  induction ns using List.reverseRecOn with
  | nil => rfl
  | append_singleton ns n ih =>
      rw [List.flatMap_append, turn_append, ih]
      show ((List.replicate n Call.uses ++ [Call.closes] ++ []).foldlM Call.turn true) = _
      rw [List.append_nil, List.foldlM_append, foldlM_uses]
      rfl

/-- Calls in turn are whole sessions, and the beginning of one if it is open. -/
lemma exists_of_turn (h : turn calls = some b) : ∃ (ns : List ℕ) (n : ℕ),
    calls = ns.flatMap session ++ if b then .opens :: List.replicate n .uses else [] := by
  induction calls using List.reverseRecOn generalizing b with
  | nil =>
      obtain rfl := Option.some.inj h
      exact ⟨[], 0, rfl⟩
  | append_singleton calls c ih =>
      rw [turn_concat] at h
      obtain ⟨b', hb', hc⟩ := Option.bind_eq_some_iff.mp h
      obtain ⟨ns, n, rfl⟩ := ih hb'
      cases b' with
      | false =>
          cases c with
          | opens =>
              obtain rfl := Option.some.inj hc
              exact ⟨ns, 0, by simp⟩
          | uses => cases hc
          | closes => cases hc
      | true =>
          cases c with
          | opens => cases hc
          | uses =>
              obtain rfl := Option.some.inj hc
              exact ⟨ns, n + 1, by simp [List.replicate_succ']⟩
          | closes =>
              obtain rfl := Option.some.inj hc
              exact ⟨ns ++ [n], 0, by simp [session]⟩

/-- **Calls are in sessions** exactly if all of them are in turn. -/
theorem inSessions_iff : InSessions calls ↔ ∃ b, turn calls = some b := by
  constructor
  · rintro ⟨ns, more, hmore⟩
    have hall := turn_sessions ns
    rw [← hmore, turn_append] at hall
    obtain ⟨b, hb, -⟩ := Option.bind_eq_some_iff.mp hall
    exact ⟨b, hb⟩
  · rintro ⟨b, hb⟩
    obtain ⟨ns, n, rfl⟩ := exists_of_turn hb
    cases b with
    | false => exact ⟨ns, by simp⟩
    | true => exact ⟨ns ++ [n], [.closes], by simp [session]⟩

/-- What is open has been opened and not closed. -/
lemma count_of_turn (h : turn calls = some b) :
    calls.count .opens = calls.count .closes + b.toNat := by
  induction calls using List.reverseRecOn generalizing b with
  | nil =>
      obtain rfl := Option.some.inj h
      rfl
  | append_singleton calls c ih =>
      rw [turn_concat] at h
      obtain ⟨b', hb', hc⟩ := Option.bind_eq_some_iff.mp h
      have hcount := ih hb'
      rw [List.count_append, List.count_append, hcount]
      cases b' <;> cases c <;> cases hc <;> rfl

/-- **One more call** is in its turn exactly if it finds as many open sessions as it must. -/
theorem inSessions_concat_iff (h : InSessions calls) {n : ℤ}
    (hn : (calls.count .opens : ℤ) = calls.count .closes + n) (c : Call) :
    InSessions (calls ++ [c]) ↔ n = c.finds := by
  obtain ⟨b, hb⟩ := inSessions_iff.mp h
  have hcount := count_of_turn hb
  obtain rfl : n = b.toNat := by omega
  rw [inSessions_iff, turn_concat, hb, Option.bind_some]
  cases b <;> cases c <;> simp [Call.turn, Call.finds]

end Sessions
