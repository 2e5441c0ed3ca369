import CKGameServer.Library.FillEmpty
import CKGameServer.Trade.Inventory

/-!
The exchange of a trade (`TaskProcessThread`, `REQUEST_TRADE_EXCHANGE`).

* `clearOffered_eq`, `clearOffered_outOfRange`: the loop that clears the offered slots.
* `exchange_foldl`, `exchange_foldl_nil`: the loop that fills the two arrays. The items of A
  never reach the array of B.
* `Loads`: the two inventories are read as two arrays.
* `requestTradeExchange_of_loads`, `requestTradeExchange_outOfRange`,
  `requestTradeExchange_of_not_loads`: the three ways the branch can end.
* `inventoryAt_trade`: what is stored after a trade that succeeds.
-/

namespace CKGameServer

open Memory FillEmpty

/-! ### Offers -/

/-- The slot is among the offered ones. -/
def IsOffered (slots : Inventory) (i : Fin inventorySize) : Prop :=
  ∃ k, (slots k).toInt = i.val

instance (slots : Inventory) : DecidablePred (IsOffered slots) := fun i =>
  inferInstanceAs (Decidable (∃ k, (slots k).toInt = i.val))

/-- No offered slot is past the end of the inventory. A negative entry offers nothing. -/
def SlotsInRange (slots : Inventory) : Prop := ∀ k, (slots k).toInt < inventorySize

instance (slots : Inventory) : Decidable (SlotsInRange slots) :=
  inferInstanceAs (Decidable (∀ k, (slots k).toInt < inventorySize))

/-- In each array the empty cells, once the offered slots are cleared, are at least as many as
the items the other side offers. -/
def OffersFit (req : RedisTradeReq) (a b : Inventory) : Prop :=
  (exchangeQueue req.itemsBID).length ≤
      empties (List.finRange inventorySize) (clear (IsOffered req.itemsASlot) a) ∧
    (exchangeQueue req.itemsAID).length ≤
      empties (List.finRange inventorySize) (clear (IsOffered req.itemsBSlot) b)

instance (req : RedisTradeReq) (a b : Inventory) : Decidable (OffersFit req a b) :=
  inferInstanceAs (Decidable (_ ∧ _))

lemma exchangeQueue_ne_zero {items : Inventory} {item : Int32} (h : item ∈ exchangeQueue items) :
    item ≠ 0 := by
  simpa using (List.mem_filter.mp h).2

/-! ### Clearing -/

/-- A cell that is neither offered nor empty is not cleared. -/
lemma clear_of_not_isOffered {slots inven : Inventory} {i : Fin inventorySize}
    (h : ¬IsOffered slots i) : clear (IsOffered slots) inven i = inven i := if_neg h

lemma clearOffered_inRange {slots : Inventory} (h : SlotsInRange slots)
    (ks : List (Fin inventorySize)) (array : Inventory) :
    clearOffered slots ks array =
      .ok fun i => if ∃ k ∈ ks, (slots k).toInt = i.val then 0 else array i := by
  induction ks generalizing array with
  | nil => simp [clearOffered]
  | cons k ks ih =>
      have hk := h k
      rw [clearOffered]
      split
      · rename_i hpos
        rw [dif_pos (by omega), ih]
        congr 1
        funext i
        by_cases hi : (slots k).toInt = i.val
        · have heq : i = ⟨(slots k).toInt.toNat, by omega⟩ := Fin.ext (by simp only; omega)
          have hzero : Function.update array ⟨(slots k).toInt.toNat, by omega⟩ 0 i = 0 :=
            heq ▸ Function.update_self _ _ _
          rw [hzero, ite_self, if_pos ⟨k, List.mem_cons_self, hi⟩]
        · have hne : i ≠ ⟨(slots k).toInt.toNat, by omega⟩ := fun heq => hi (by
            have := congrArg Fin.val heq
            simp only at this
            omega)
          rw [Function.update_of_ne hne]
          exact if_congr (by simp [hi]) rfl rfl
      · rename_i hneg
        rw [ih]
        congr 1
        funext i
        have hi : (slots k).toInt ≠ i.val := by omega
        exact if_congr (by simp [hi]) rfl rfl

/-- With its slots in range the loop clears the offered cells. -/
lemma clearOffered_eq {slots : Inventory} (h : SlotsInRange slots) (array : Inventory) :
    clearOffered slots (List.finRange inventorySize) array =
      .ok (clear (IsOffered slots) array) := by
  rw [clearOffered_inRange h]
  congr 1
  funext i
  rw [clear]
  exact if_congr (by simp [IsOffered]) rfl rfl

/-- A slot past the end is written to. -/
lemma clearOffered_outOfRange {slots : Inventory} {ks : List (Fin inventorySize)}
    (h : ∃ k ∈ ks, (inventorySize : ℤ) ≤ (slots k).toInt) (array : Inventory) :
    clearOffered slots ks array = .error .arrayBounds := by
  induction ks generalizing array with
  | nil =>
      obtain ⟨k, hk, -⟩ := h
      cases hk
  | cons k ks ih =>
      rw [clearOffered]
      by_cases hk : (inventorySize : ℤ) ≤ (slots k).toInt
      · rw [if_pos (by omega), dif_neg (by omega)]
      · have hrest : ∃ k ∈ ks, (inventorySize : ℤ) ≤ (slots k).toInt := by
          obtain ⟨k', hk', hout⟩ := h
          rcases List.mem_cons.mp hk' with rfl | hk'
          · exact absurd hout hk
          · exact ⟨k', hk', hout⟩
        split
        · rw [dif_pos (by omega)]
          exact ih hrest _
        · exact ih hrest _

/-! ### Exchanging -/

/-- One pass: each queue gives an item if the array of the other side is empty there. -/
lemma exchange_step (x : Exchange) (i : Fin inventorySize) :
    (x.step i).arrayB = x.arrayB ∧
      (x.step i).exchangeQueueA = x.exchangeQueueA.drop (if x.arrayB i = 0 then 1 else 0) ∧
      (x.step i).exchangeQueueB = x.exchangeQueueB.drop (if x.arrayA i = 0 then 1 else 0) ∧
      ∀ j, j ≠ i → (x.step i).arrayA j = x.arrayA j := by
  obtain ⟨arrayA, arrayB, queueA, queueB⟩ := x
  cases queueA <;> cases queueB <;> by_cases hA : arrayA i = 0 <;> by_cases hB : arrayB i = 0 <;>
    simp +contextual [Exchange.step, hA, hB]

/-- **The loop**: of each queue as many items go as the array of the other side has empty cells,
and the array of B does not change. -/
theorem exchange_foldl {is : List (Fin inventorySize)} (his : is.Nodup) (x : Exchange) :
    (is.foldl Exchange.step x).arrayB = x.arrayB ∧
      (is.foldl Exchange.step x).exchangeQueueA = x.exchangeQueueA.drop (empties is x.arrayB) ∧
      (is.foldl Exchange.step x).exchangeQueueB = x.exchangeQueueB.drop (empties is x.arrayA) := by
  induction is generalizing x with
  | nil => exact ⟨rfl, rfl, rfl⟩
  | cons i is ih =>
      obtain ⟨hi, his⟩ := List.nodup_cons.mp his
      obtain ⟨hB, hqA, hqB, hA⟩ := exchange_step x i
      obtain ⟨hB', hqA', hqB'⟩ := ih his (x.step i)
      have hrest : empties is (x.step i).arrayA = empties is x.arrayA :=
        empties_congr fun j hj => hA j (by rintro rfl; exact hi hj)
      rw [List.foldl_cons, hB', hqA', hqB', hB, hqA, hqB, hrest, List.drop_drop, List.drop_drop,
        empties_cons, empties_cons, Nat.add_comm (empties is x.arrayB),
        Nat.add_comm (empties is x.arrayA)]
      exact ⟨rfl, rfl, rfl⟩

/-- Where A offers nothing the loop fills the array of A from the queue of B. -/
theorem exchange_foldl_nil (is : List (Fin inventorySize)) (x : Exchange)
    (hx : x.exchangeQueueA = []) :
    (is.foldl Exchange.step x).arrayA = (fill is x.arrayA x.exchangeQueueB).1 := by
  induction is generalizing x with
  | nil => rfl
  | cons i is ih =>
      have hstep : (x.step i).exchangeQueueA = [] ∧
          ((x.step i).arrayA, (x.step i).exchangeQueueB) =
            fillCell x.arrayA x.exchangeQueueB i := by
        obtain ⟨arrayA, arrayB, queueA, queueB⟩ := x
        obtain rfl : queueA = [] := hx
        cases queueB <;> by_cases hA : arrayA i = 0 <;> simp [Exchange.step, fillCell, hA]
      rw [List.foldl_cons, ih _ hstep.1, fill, ← hstep.2]

/-! ### The branch -/

/-- The exchange as the branch starts it, on the two arrays it has read. -/
def exchanged (req : RedisTradeReq) (a b : Inventory) : Exchange :=
  (List.finRange inventorySize).foldl Exchange.step
    { arrayA := clear (IsOffered req.itemsASlot) a
      arrayB := clear (IsOffered req.itemsBSlot) b
      exchangeQueueA := exchangeQueue req.itemsAID
      exchangeQueueB := exchangeQueue req.itemsBID }

/-- The two inventories are read as the arrays `a` and `b`. -/
def Loads (env : RedisEnv) (db : Store) (req : RedisTradeReq) (a b : Inventory) : Prop :=
  ∃ invenA invenB, db.hgetall (env.replies 0) (invenKey req.userAID) = some invenA ∧
    db.hgetall (env.replies 1) (invenKey req.userBID) = some invenB ∧
    loadSlots (fun i => env.stackInts i) invenA = .ok a ∧
    loadSlots (fun i => env.stackInts' i) invenB = .ok b

section Branch

variable {env : RedisEnv} {db : Store} {req : RedisTradeReq} {a b : Inventory}

/-- The array of B is the inventory of B without its offer. -/
lemma exchanged_arrayB : (exchanged req a b).arrayB = clear (IsOffered req.itemsBSlot) b :=
  (exchange_foldl (List.nodup_finRange inventorySize) _).1

/-- The queues are empty at the end exactly if the offers fit. -/
lemma exchanged_queues_iff :
    ((exchanged req a b).exchangeQueueA ≠ [] ∨ (exchanged req a b).exchangeQueueB ≠ []) ↔
      ¬OffersFit req a b := by
  obtain ⟨-, hqA, hqB⟩ := exchange_foldl (List.nodup_finRange inventorySize)
    { arrayA := clear (IsOffered req.itemsASlot) a
      arrayB := clear (IsOffered req.itemsBSlot) b
      exchangeQueueA := exchangeQueue req.itemsAID
      exchangeQueueB := exchangeQueue req.itemsBID }
  rw [exchanged, hqA, hqB, OffersFit]
  simp only [ne_eq, List.drop_eq_nil_iff]
  tauto

/-- The inventories are read and all offered slots are in range: the trade succeeds exactly if
the offers fit, and otherwise changes nothing. -/
theorem requestTradeExchange_of_loads (h : Loads env db req a b)
    (hA : SlotsInRange req.itemsASlot) (hB : SlotsInRange req.itemsBSlot) :
    requestTradeExchange env db req = .ok
      (if OffersFit req a b then
        { store := db.multiExec (fun k => env.replies (k + 2))
            (tradeCommands (invenKey req.userAID) (invenKey req.userBID)
              (exchanged req a b).arrayA (exchanged req a b).arrayB)
          responses := tradeResponses env req true }
      else { store := db, responses := tradeResponses env req false }) := by
  obtain ⟨invenA, invenB, hgetA, hgetB, hloadA, hloadB⟩ := h
  rw [requestTradeExchange]
  simp only [hgetA, hgetB, hloadA, hloadB, clearOffered_eq hA, clearOffered_eq hB, bind,
    Except.bind]
  have hqueues : _ ↔ ¬OffersFit req a b := exchanged_queues_iff
  rw [exchanged] at hqueues
  by_cases hfit : OffersFit req a b
  · rw [if_pos hfit, if_neg (fun hq => hqueues.mp hq hfit)]
    rfl
  · rw [if_neg hfit, if_pos (hqueues.mpr hfit)]

/-- The inventories are read and an offered slot is past the end: it is written to. -/
theorem requestTradeExchange_outOfRange (h : Loads env db req a b)
    (hslots : ¬(SlotsInRange req.itemsASlot ∧ SlotsInRange req.itemsBSlot)) :
    requestTradeExchange env db req = .error .arrayBounds := by
  obtain ⟨invenA, invenB, hgetA, hgetB, hloadA, hloadB⟩ := h
  have hout : ∀ {slots : Inventory}, ¬SlotsInRange slots → ∀ array,
      clearOffered slots (List.finRange inventorySize) array = .error .arrayBounds :=
    fun hslots array => by
      obtain ⟨k, hk⟩ := not_forall.mp hslots
      exact clearOffered_outOfRange ⟨k, List.mem_finRange k, not_lt.mp hk⟩ array
  rw [requestTradeExchange]
  simp only [hgetA, hgetB, hloadA, hloadB, bind, Except.bind]
  by_cases hA : SlotsInRange req.itemsASlot
  · simp only [clearOffered_eq hA, hout (fun hB => hslots ⟨hA, hB⟩)]
  · simp only [hout hA]

/-- Reading an inventory never leaves the array. -/
lemma loadSlots_ne_arrayBounds {slots : Inventory} {m : ValueMap} :
    loadSlots slots m ≠ .error .arrayBounds := by
  have hstoi : ∀ s, stoi s ≠ .error .arrayBounds := fun s h => by
    rw [stoi] at h
    split at h
    · cases h
    · split at h <;> cases h
  induction m generalizing slots with
  | nil => exact fun h => by cases h
  | cons e m ih =>
      intro h
      rw [loadSlots] at h
      split at h
      · rename_i heq
        rw [Except.error.injEq] at h
        exact hstoi _ (h ▸ heq)
      · split at h
        · split at h
          · rename_i heq
            rw [Except.error.injEq] at h
            exact hstoi _ (h ▸ heq)
          · exact ih h
        · exact ih h

/-- An inventory is not read: there is no answer, and nothing changes. -/
theorem requestTradeExchange_of_not_loads (h : ∀ a b, ¬Loads env db req a b) :
    (∃ e, requestTradeExchange env db req = .error e ∧ e ≠ .arrayBounds) ∨
      requestTradeExchange env db req = .ok { store := db } := by
  rw [requestTradeExchange]
  cases hgetA : db.hgetall (env.replies 0) (invenKey req.userAID) with
  | none => exact .inr rfl
  | some invenA =>
      cases hgetB : db.hgetall (env.replies 1) (invenKey req.userBID) with
      | none => exact .inr rfl
      | some invenB =>
          simp only [bind, Except.bind]
          refine .inl ?_
          cases hloadA : loadSlots (fun i => env.stackInts i) invenA with
          | error e =>
              exact ⟨e, rfl, fun he => loadSlots_ne_arrayBounds (he ▸ hloadA)⟩
          | ok a =>
              cases hloadB : loadSlots (fun i => env.stackInts' i) invenB with
              | error e =>
                  exact ⟨e, rfl, fun he => loadSlots_ne_arrayBounds (he ▸ hloadB)⟩
              | ok b => exact absurd ⟨invenA, invenB, hgetA, hgetB, hloadA, hloadB⟩ (h a b)

/-! ### The answer -/

/-- The branch answers `IsSuccess = true`. -/
def AnswersSuccess (out : RedisOutcome) : Prop :=
  ∃ task ∈ out.responses, task.taskID = .responseTradeExchange ∧ tradeSuccessAt task.pData = true

/-- `IsSuccess` reads back from a response. -/
lemma tradeSuccessAt_make {user : ℕ} {isSuccess : Bool} :
    tradeSuccessAt (RedisTask.make user .responseTradeExchange redisTradeResSize
      (redisTradeRes env.stack isSuccess) env.heap).pData = isSuccess := by
  rw [tradeSuccessAt, RedisTask.make_pData_lt (by decide), redisTradeRes,
    show (4 : ℕ) = 4 + 0 from rfl, View.append_apply_add]
  cases isSuccess <;> rfl

lemma answersSuccess_tradeResponses {store : Store} {isSuccess : Bool} :
    AnswersSuccess { store, responses := tradeResponses env req isSuccess } ↔
      isSuccess = true := by
  constructor
  · rintro ⟨task, htask, -, hsuccess⟩
    simp only [tradeResponses, List.mem_cons, List.not_mem_nil, or_false] at htask
    rcases htask with rfl | rfl
    · rwa [tradeSuccessAt_make] at hsuccess
    · rwa [tradeSuccessAt_make] at hsuccess
  · rintro rfl
    exact ⟨_, List.mem_cons_self, rfl, tradeSuccessAt_make⟩

/-- Without both inventories there is no answer, and nothing changes. -/
lemma not_answersSuccess_of_not_loads (h : ∀ a b, ¬Loads env db req a b) {out : RedisOutcome}
    (hout : requestTradeExchange env db req = .ok out) : ¬AnswersSuccess out ∧ out.store = db := by
  rcases requestTradeExchange_of_not_loads h with ⟨e, he, -⟩ | hok
  · cases he.symm.trans hout
  · obtain rfl := Except.ok.inj (hok.symm.trans hout)
    exact ⟨fun ⟨_, htask, _⟩ => (List.not_mem_nil htask).elim, rfl⟩

/-! ### What is stored -/

/-- The `HSET` commands for a list of slots write the two arrays there. -/
lemma hashAt_hsetAll {Aid Bid : Bytes} (hne : cstr Aid ≠ cstr Bid) (arrayA arrayB : Inventory)
    (is : List (Fin inventorySize)) {db : Store} {hA hB : Hash}
    (hdbA : db.hashAt Aid = some hA) (hdbB : db.hashAt Bid = some hB)
    (hinvA : hA.IsInventory a) (hinvB : hB.IsInventory b) :
    ∃ hA' hB', (db.hsetAll (fun _ => true) (is.flatMap fun i : Fin inventorySize =>
        [(Aid, slotField i, toString32 (arrayA i)), (Bid, slotField i, toString32 (arrayB i))])
        ).hashAt Aid = some hA' ∧
      (db.hsetAll (fun _ => true) (is.flatMap fun i : Fin inventorySize =>
        [(Aid, slotField i, toString32 (arrayA i)), (Bid, slotField i, toString32 (arrayB i))])
        ).hashAt Bid = some hB' ∧
      hA'.IsInventory (fun i => if i ∈ is then arrayA i else a i) ∧
      hB'.IsInventory (fun i => if i ∈ is then arrayB i else b i) := by
  induction is generalizing db hA hB a b with
  | nil => exact ⟨hA, hB, hdbA, hdbB, by simpa using hinvA, by simpa using hinvB⟩
  | cons i is ih =>
      have hA1 := Store.hashAt_hset (slotField i) (toString32 (arrayA i)) hdbA
      have hB1 : (db.hset true Aid (slotField i) (toString32 (arrayA i))).hashAt Bid = some hB := by
        rw [Store.hashAt_hset_of_ne _ _ true hne.symm, hdbB]
      have hB2 := Store.hashAt_hset (slotField i) (toString32 (arrayB i)) hB1
      have hA2 := (Store.hashAt_hset_of_ne (slotField i) (toString32 (arrayB i)) true hne).trans hA1
      simp only [cstr_slotField, cstr_toString32] at hA2 hB2
      obtain ⟨hA', hB', hdbA', hdbB', hinvA', hinvB'⟩ :=
        ih hA2 hB2 (hinvA.insert i (arrayA i)) (hinvB.insert i (arrayB i))
      have hcover : ∀ (array inven : Inventory) (j : Fin inventorySize),
          (if j ∈ is then array j else Function.update inven i (array i) j) =
            if j ∈ i :: is then array j else inven j := fun array inven j => by
        by_cases hj : j = i
        · subst hj; simp
        · simp [hj]
      simp only [hcover] at hinvA' hinvB'
      exact ⟨hA', hB', hdbA', hdbB', hinvA', hinvB'⟩

/-- Redis answers the commands of the transaction: `MULTI`, every `HSET` and `EXEC`. -/
def Commits (env : RedisEnv) : Prop := ∀ k < 2 * inventorySize + 2, env.replies (k + 2) = true

instance (env : RedisEnv) : Decidable (Commits env) :=
  inferInstanceAs (Decidable (∀ k < 2 * inventorySize + 2, env.replies (k + 2) = true))

/-- The replies `multiExec` looks at. -/
lemma commits_iff : Commits env ↔ env.replies 2 = true ∧
    (List.range (2 * inventorySize + 1)).all (fun k => env.replies (k + 1 + 2)) = true := by
  simp only [Commits, List.all_eq_true, List.mem_range]
  constructor
  · exact fun h => ⟨h 0 (by decide), fun k hk => h (k + 1) (by omega)⟩
  · rintro ⟨hmulti, hqueued⟩ k hk
    cases k with
    | zero => exact hmulti
    | succ k => exact hqueued k (by omega)

lemma length_tradeCommands (Aid Bid : Bytes) (arrayA arrayB : Inventory) :
    (tradeCommands Aid Bid arrayA arrayB).length = 2 * inventorySize := rfl

/-- A transaction that Redis opens and does not commit changes nothing. -/
lemma multiExec_of_not_commits (hmulti : env.replies 2 = true) (hcommits : ¬Commits env)
    (Aid Bid : Bytes) (arrayA arrayB : Inventory) :
    db.multiExec (fun k => env.replies (k + 2)) (tradeCommands Aid Bid arrayA arrayB) = db := by
  rw [Store.multiExec, if_pos hmulti, length_tradeCommands,
    if_neg fun hqueued => hcommits (commits_iff.mpr ⟨hmulti, hqueued⟩)]

/-- **After a trade that commits** the two arrays are stored. -/
theorem inventoryAt_trade (hcommits : Commits env) (hids : req.userAID ≠ req.userBID)
    (hA : HoldsInventory db req.userAID) (hB : HoldsInventory db req.userBID)
    (arrayA arrayB : Inventory) :
    let db' := db.multiExec (fun k => env.replies (k + 2))
      (tradeCommands (invenKey req.userAID) (invenKey req.userBID) arrayA arrayB)
    inventoryAt db' req.userAID = arrayA ∧ inventoryAt db' req.userBID = arrayB := by
  obtain ⟨hashA, a, hdbA, hinvA⟩ := hA
  obtain ⟨hashB, b, hdbB, hinvB⟩ := hB
  have hkeys : cstr (invenKey req.userAID) ≠ cstr (invenKey req.userBID) := by
    rw [cstr_invenKey req.zero_notMem_userAID, cstr_invenKey req.zero_notMem_userBID]
    exact invenKey_injective.ne hids
  obtain ⟨hashA', hashB', hdbA', hdbB', hinvA', hinvB'⟩ :=
    hashAt_hsetAll hkeys arrayA arrayB (List.finRange inventorySize) hdbA hdbB hinvA hinvB
  simp only [List.mem_finRange, if_true] at hinvA' hinvB'
  have hstore : db.multiExec (fun k => env.replies (k + 2))
      (tradeCommands (invenKey req.userAID) (invenKey req.userBID) arrayA arrayB) =
      db.hsetAll (fun _ => true)
        (tradeCommands (invenKey req.userAID) (invenKey req.userBID) arrayA arrayB) := by
    have hreplies := commits_iff.mp hcommits
    rw [Store.multiExec, if_pos hreplies.1, length_tradeCommands, if_pos hreplies.2]
  simp only [hstore]
  exact ⟨inventoryAt_eq hdbA' hinvA', inventoryAt_eq hdbB' hinvB'⟩

end Branch

end CKGameServer
