import Mathlib.Data.List.Basic
import Mathlib.Logic.Function.Iterate

/-!
What a party learns from the messages it is sent.

An outbox is the list of all messages sent so far, each with the party it goes to. A party keeps a
value that it brings up to date with every message it gets.

* `sentTo`: the messages that go to a party, in order.
* `replica`: the value a party has after them.
* `replica_append`: it is brought up to date by what is sent later.
* `replica_of_ignored`, `replica_of_const`: messages the value does not depend on, and messages
  that each determine it.
* `replica_rel`: two values that are brought up to date in step with each other.
* `replica_broadcast`: one message to all members of a list; `replica_broadcast_iterate`: it is
  learnt as often as the party is in the list.
* `replica_drop_append`: the value learnt since a point in time.
* `eq_filter_append_filter`: where the messages go to one address after the other, those to one of
  them stand together.
-/

namespace Outbox

variable {ι α β : Type*} [DecidableEq ι]

/-- The messages that go to `u`. -/
def sentTo (u : ι) (out : List (ι × α)) : List α := (out.filter fun q => q.1 = u).map Prod.snd

/-- The value `u` has after the messages, from the value `b` on. -/
def replica (learn : β → α → β) (b : β) (u : ι) (out : List (ι × α)) : β :=
  (sentTo u out).foldl learn b

variable {learn : β → α → β} {b c : β} {u : ι} {out new : List (ι × α)}

@[simp] lemma sentTo_nil (u : ι) : sentTo u ([] : List (ι × α)) = [] := rfl

lemma sentTo_append (u : ι) (out new : List (ι × α)) :
    sentTo u (out ++ new) = sentTo u out ++ sentTo u new := by
  rw [sentTo, List.filter_append, List.map_append]
  rfl

lemma mem_sentTo {x : α} : x ∈ sentTo u out ↔ (u, x) ∈ out := by
  constructor
  · intro h
    obtain ⟨⟨v, y⟩, hq, rfl⟩ := List.mem_map.mp h
    obtain ⟨hmem, hv⟩ := List.mem_filter.mp hq
    obtain rfl : v = u := of_decide_eq_true hv
    exact hmem
  · exact fun h => List.mem_map.mpr ⟨(u, x), List.mem_filter.mpr ⟨h, decide_eq_true rfl⟩, rfl⟩

@[simp] lemma replica_nil (b : β) (u : ι) : replica learn b u [] = b := rfl

lemma replica_append (learn : β → α → β) (b : β) (u : ι) (out new : List (ι × α)) :
    replica learn b u (out ++ new) = replica learn (replica learn b u out) u new := by
  rw [replica, sentTo_append, List.foldl_append]
  rfl

/-- Messages on which the value does not depend. -/
lemma replica_of_ignored (h : ∀ x, (u, x) ∈ new → ∀ b, learn b x = b) :
    replica learn b u new = b := by
  have hall : ∀ x ∈ sentTo u new, ∀ b, learn b x = b := fun x hx => h x (mem_sentTo.mp hx)
  rw [replica]
  generalize sentTo u new = xs at hall
  induction xs with
  | nil => rfl
  | cons x xs ih =>
      rw [List.foldl_cons, hall x List.mem_cons_self]
      exact ih fun y hy => hall y (List.mem_cons_of_mem _ hy)

/-- Messages that each determine the value. -/
lemma replica_of_const (h : ∀ x, (u, x) ∈ new → ∀ b, learn b x = c) {x : α} (hx : (u, x) ∈ new) :
    replica learn b u new = c := by
  have hall : ∀ x ∈ sentTo u new, ∀ b, learn b x = c := fun x hx => h x (mem_sentTo.mp hx)
  have hne : sentTo u new ≠ [] := List.ne_nil_of_mem (mem_sentTo.mpr hx)
  rw [replica]
  generalize sentTo u new = xs at hall hne
  induction xs generalizing b with
  | nil => exact absurd rfl hne
  | cons y ys ih =>
      rw [List.foldl_cons, hall y List.mem_cons_self]
      cases ys with
      | nil => rfl
      | cons z zs =>
          exact ih (fun y hy => hall y (List.mem_cons_of_mem _ hy)) (List.cons_ne_nil _ _)

/-- Messages to others. -/
lemma replica_of_notMem (h : ∀ x, (u, x) ∉ new) : replica learn b u new = b :=
  replica_of_ignored fun x hx => absurd hx (h x)

/-- Several messages to one party. -/
lemma replica_map_self {γ : Type*} (f : γ → α) (xs : List γ) :
    replica learn b u (xs.map fun y => (u, f y)) = (xs.map f).foldl learn b := by
  have hall : (xs.map fun y => (u, f y)).filter (fun q => q.1 = u) = xs.map fun y => (u, f y) :=
    List.filter_eq_self.mpr fun q hq => by
      obtain ⟨y, -, rfl⟩ := List.mem_map.mp hq
      exact decide_eq_true rfl
  rw [replica, sentTo, hall, List.map_map]
  rfl

/-- Two values that are brought up to date in step with each other. -/
lemma replica_rel {γ : Type*} {learn' : γ → α → γ} {R : β → γ → Prop}
    (h : ∀ b c x, R b c → R (learn b x) (learn' c x)) {b : β} {c : γ} (hR : R b c) (u : ι)
    (out : List (ι × α)) : R (replica learn b u out) (replica learn' c u out) := by
  rw [replica, replica]
  generalize sentTo u out = xs
  induction xs generalizing b c with
  | nil => exact hR
  | cons x xs ih => exact ih (h b c x hR)

/-! ### Broadcasts -/

/-- A broadcast reaches a party as often as it is in the list. -/
lemma sentTo_broadcast (users : List ι) (x : α) :
    sentTo u (users.map fun v => (v, x)) = List.replicate (users.count u) x := by
  induction users with
  | nil => rfl
  | cons v users ih =>
      rw [List.map_cons, ← List.singleton_append, sentTo_append, ih, List.count_cons]
      by_cases hv : v = u
      · subst hv
        rw [if_pos (beq_self_eq_true v), List.replicate_succ]
        simp [sentTo]
      · rw [if_neg (by simpa using hv)]
        simp [sentTo, hv]

/-- The message is learnt as often. -/
lemma replica_broadcast_iterate (users : List ι) (x : α) :
    replica learn b u (users.map fun v => (v, x)) = (learn · x)^[users.count u] b := by
  rw [replica, sentTo_broadcast]
  generalize users.count u = n
  induction n generalizing b with
  | zero => rfl
  | succ n ih => rw [List.replicate_succ, List.foldl_cons, ih, Function.iterate_succ_apply]

lemma replica_broadcast {users : List ι} (h : users.count u = 1) (x : α) :
    replica learn b u (users.map fun v => (v, x)) = learn b x := by
  rw [replica_broadcast_iterate, h]
  rfl

/-- A message that is learnt once and for all. -/
lemma replica_broadcast_of_mem {users : List ι} (h : u ∈ users) {x : α}
    (hidem : ∀ b, learn (learn b x) x = learn b x) :
    replica learn b u (users.map fun v => (v, x)) = learn b x := by
  obtain ⟨n, hn⟩ := Nat.exists_eq_add_one.mpr (List.count_pos_iff.mpr h)
  rw [replica_broadcast_iterate, hn, Function.iterate_succ_apply]
  exact Function.iterate_fixed (hidem b) n

lemma replica_broadcast_of_notMem {users : List ι} (h : u ∉ users) (x : α) :
    replica learn b u (users.map fun v => (v, x)) = b := by
  rw [replica, sentTo_broadcast, List.count_eq_zero.mpr h]
  rfl

/-! ### From a point in time -/

/-- What is learnt since a point in time. -/
lemma replica_drop_append {n : ℕ} (h : n ≤ out.length) :
    replica learn b u ((out ++ new).drop n) =
      replica learn (replica learn b u (out.drop n)) u new := by
  rw [List.drop_append_of_le_length h, replica_append]

/-! ### One address after the other -/

/-- In a list that is sorted by a key the elements with one key stand together. -/
lemma eq_filter_append_filter {γ : Type*} {key : γ → ℕ} {l : List γ}
    (h : l.Pairwise fun a b => key a ≤ key b) (k : ℕ) :
    l = l.filter (fun a => key a < k) ++ l.filter (fun a => key a = k) ++
      l.filter fun a => k < key a := by
  induction l with
  | nil => rfl
  | cons a l ih =>
      obtain ⟨hhead, htail⟩ := List.pairwise_cons.mp h
      rcases Nat.lt_trichotomy (key a) k with hlt | heq | hgt
      · simpa [hlt, Nat.ne_of_lt hlt, Nat.lt_asymm hlt] using ih htail
      · have hnone : l.filter (fun b => key b < k) = [] :=
          List.filter_eq_nil_iff.mpr fun b hb => by
            have := hhead b hb
            simp only [decide_eq_true_eq]
            omega
        simpa [heq, hnone] using ih htail
      · have hnone : ∀ b ∈ l, ¬key b < k ∧ key b ≠ k := fun b hb => by
          have := hhead b hb
          omega
        have hfirst : l.filter (fun b => key b < k) = [] :=
          List.filter_eq_nil_iff.mpr fun b hb => by simpa using (hnone b hb).1
        have hsecond : l.filter (fun b => key b = k) = [] :=
          List.filter_eq_nil_iff.mpr fun b hb => by simpa using (hnone b hb).2
        simpa [hgt, Nat.ne_of_gt hgt, Nat.lt_asymm hgt, hfirst, hsecond] using ih htail

end Outbox
