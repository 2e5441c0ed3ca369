import Mathlib.Data.Fintype.Basic
import Mathlib.Data.Multiset.Filter
import Mathlib.Data.Finset.Erase
import Mathlib.Data.Finset.Insert

/-!
Filling the empty cells of an array from a queue.

An array is a function on its indices, and zero marks an empty cell.

* `fill`: go through a list of indices and put the next item of the queue into every empty
  cell met.
* `items`: what the array holds, as a multiset; `items_fill`: the array and the queue together
  keep what they hold.
* `fill_queue`: of the queue as many items go as there are empty cells.
* `fill_of_ne_zero`: a cell that is not empty keeps its item.
* `items_clear`: clearing some cells takes exactly their items out.
-/

namespace FillEmpty

variable {ι α : Type*} [DecidableEq ι] [Zero α] [DecidableEq α]

/-- One cell: an empty cell takes the next item, if there is one. -/
def fillCell (cells : ι → α) (queue : List α) (i : ι) : (ι → α) × List α :=
  match queue with
  | [] => (cells, [])
  | item :: rest =>
    if cells i = 0 then (Function.update cells i item, rest) else (cells, item :: rest)

/-- One cell after the other. -/
def fill : List ι → (ι → α) → List α → (ι → α) × List α
  | [], cells, queue => (cells, queue)
  | i :: is, cells, queue => fill is (fillCell cells queue i).1 (fillCell cells queue i).2

/-- The number of empty cells met. -/
def empties (is : List ι) (cells : ι → α) : ℕ := is.countP fun i => cells i = 0

/-- What the cells that meet `p` hold, empty ones left out. -/
def itemsAt [Fintype ι] (p : ι → Prop) [DecidablePred p] (cells : ι → α) : Multiset α :=
  ((Finset.univ.val.filter p).map cells).filter (· ≠ 0)

/-- What the array holds. -/
def items [Fintype ι] (cells : ι → α) : Multiset α := (Finset.univ.val.map cells).filter (· ≠ 0)

/-- The array with the cells that meet `p` cleared. -/
def clear (p : ι → Prop) [DecidablePred p] (cells : ι → α) : ι → α := fun i =>
  if p i then 0 else cells i

variable {cells : ι → α} {queue : List α} {i : ι} {is : List ι}

/-! ### One cell -/

@[simp] lemma fillCell_nil : fillCell cells [] i = (cells, []) := rfl

lemma fillCell_cons_of_zero {item : α} (h : cells i = 0) :
    fillCell cells (item :: queue) i = (Function.update cells i item, queue) := if_pos h

lemma fillCell_of_ne_zero (h : cells i ≠ 0) : fillCell cells queue i = (cells, queue) := by
  cases queue with
  | nil => rfl
  | cons item rest => exact if_neg h

/-- The other cells stay as they are. -/
lemma fillCell_of_ne {j : ι} (h : j ≠ i) : (fillCell cells queue i).1 j = cells j := by
  cases queue with
  | nil => rfl
  | cons item rest =>
      by_cases hi : cells i = 0
      · rw [fillCell_cons_of_zero hi]
        exact Function.update_of_ne h _ _
      · rw [fillCell_of_ne_zero hi]

/-- An item is added to what the array holds. -/
lemma items_update [Fintype ι] {item : α} (h : cells i = 0) (hitem : item ≠ 0) :
    items (Function.update cells i item) = item ::ₘ items cells := by
  have huniv : (Finset.univ : Finset ι).val = i ::ₘ (Finset.univ.erase i).val := by
    rw [← Finset.insert_val_of_notMem (Finset.notMem_erase i _),
      Finset.insert_erase (Finset.mem_univ i)]
  have hrest : ((Finset.univ.erase i).val.map (Function.update cells i item)) =
      (Finset.univ.erase i).val.map cells :=
    Multiset.map_congr rfl fun j hj =>
      Function.update_of_ne (Finset.ne_of_mem_erase (Finset.mem_val.mp hj)) _ _
  rw [items, items, huniv, Multiset.map_cons, Multiset.map_cons, hrest, Function.update_self, h]
  simp [hitem]

/-! ### All cells -/

/-- A cell that is not empty keeps its item. -/
lemma fill_of_ne_zero {j : ι} (h : cells j ≠ 0) : (fill is cells queue).1 j = cells j := by
  induction is generalizing cells queue with
  | nil => rfl
  | cons i is ih =>
      have hstep : (fillCell cells queue i).1 j = cells j := by
        by_cases hi : cells i = 0
        · exact fillCell_of_ne (by rintro rfl; exact h hi)
        · rw [fillCell_of_ne_zero hi]
      rw [fill, ih (by rwa [hstep]), hstep]

/-- Array and queue together keep what they hold. -/
theorem items_fill [Fintype ι] (hqueue : ∀ item ∈ queue, item ≠ 0) :
    items (fill is cells queue).1 + (fill is cells queue).2 = items cells + queue := by
  induction is generalizing cells queue with
  | nil => rfl
  | cons i is ih =>
      rw [fill]
      cases queue with
      | nil => exact ih hqueue
      | cons item rest =>
          by_cases hi : cells i = 0
          · rw [fillCell_cons_of_zero hi]
            have hrest : ∀ x ∈ rest, x ≠ 0 := fun x hx => hqueue x (List.mem_cons_of_mem _ hx)
            calc items (fill is (Function.update cells i item) rest).1 +
                  (fill is (Function.update cells i item) rest).2
                = items (Function.update cells i item) + rest := ih hrest
              _ = item ::ₘ items cells + rest := by
                  rw [items_update hi (hqueue item List.mem_cons_self)]
              _ = items cells + (item :: rest : List α) := by
                  rw [← Multiset.cons_coe, Multiset.cons_add, Multiset.add_cons]
          · rw [fillCell_of_ne_zero hi]
            exact ih hqueue

omit [DecidableEq ι] in
lemma empties_congr {cells' : ι → α} (h : ∀ i ∈ is, cells i = cells' i) :
    empties is cells = empties is cells' :=
  List.countP_congr fun i hi => by simp [h i hi]

omit [DecidableEq ι] in
lemma empties_cons :
    empties (i :: is) cells = empties is cells + if cells i = 0 then 1 else 0 := by
  simp [empties, List.countP_cons]

/-- Of the queue as many items go as there are empty cells. -/
theorem fill_queue (his : is.Nodup) : (fill is cells queue).2 = queue.drop (empties is cells) := by
  induction is generalizing cells queue with
  | nil => rfl
  | cons i is ih =>
      obtain ⟨hi, his⟩ := List.nodup_cons.mp his
      have hrest : empties is (fillCell cells queue i).1 = empties is cells :=
        empties_congr fun j hj => fillCell_of_ne (by rintro rfl; exact hi hj)
      rw [fill, ih his, hrest, empties_cons]
      cases queue with
      | nil => simp
      | cons item rest =>
          by_cases hzero : cells i = 0
          · rw [fillCell_cons_of_zero hzero, if_pos hzero, List.drop_succ_cons]
          · rw [fillCell_of_ne_zero hzero, if_neg hzero, Nat.add_zero]

/-! ### Clearing -/

omit [DecidableEq ι] in
/-- Clearing some cells takes exactly their items out. -/
theorem items_clear [Fintype ι] (p : ι → Prop) [DecidablePred p] (cells : ι → α) :
    items (clear p cells) + itemsAt p cells = items cells := by
  have hsplit := Multiset.filter_add_not p (Finset.univ (α := ι)).val
  have hin : (Multiset.filter p Finset.univ.val).map (clear p cells) =
      (Multiset.filter p Finset.univ.val).map fun _ => 0 :=
    Multiset.map_congr rfl fun i hi => if_pos (Multiset.mem_filter.mp hi).2
  have hout : (Multiset.filter (fun i => ¬p i) Finset.univ.val).map (clear p cells) =
      (Multiset.filter (fun i => ¬p i) Finset.univ.val).map cells :=
    Multiset.map_congr rfl fun i hi => if_neg (Multiset.mem_filter.mp hi).2
  have hzero : ((Multiset.filter p Finset.univ.val).map fun _ : ι => (0 : α)).filter (· ≠ 0) = 0 :=
    Multiset.filter_eq_nil.mpr fun x hx => by
      obtain ⟨i, -, rfl⟩ := Multiset.mem_map.mp hx
      simp
  have hleft : items (clear p cells) =
      ((Multiset.filter (fun i => ¬p i) Finset.univ.val).map cells).filter (· ≠ 0) := by
    rw [items]
    conv_lhs => rw [← hsplit]
    rw [Multiset.map_add, Multiset.filter_add, hin, hzero, hout, Multiset.zero_add]
  have hall : items cells = itemsAt p cells +
      ((Multiset.filter (fun i => ¬p i) Finset.univ.val).map cells).filter (· ≠ 0) := by
    rw [items]
    conv_lhs => rw [← hsplit]
    rw [Multiset.map_add, Multiset.filter_add]
    rfl
  rw [hleft, hall, Multiset.add_comm]

end FillEmpty
