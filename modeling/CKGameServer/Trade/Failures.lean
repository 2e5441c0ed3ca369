import CKGameServer.Inventory.Failures
import CKGameServer.Session.Tasks
import CKGameServer.Trade.Exchange

/-!
Redis commands that fail in the middle of a trade (`TaskProcessThread`, `REQUEST_TRADE_EXCHANGE`),
and the four kinds of tasks together.

* `Exchange.foldl_arrayA`: what the exchange loop leaves in a slot of A.
* `inventoryAt_of_succeeds`: what a trade that is carried out leaves in a slot.
* `tradeContained_iff`: a trade says success only for writes that are committed, and keeps the
  occupied slots that are not offered, exactly if its writes are committed whenever it is carried
  out, and what it leaves in those slots is what they hold; `tradeContained_of_storesItems`: that
  is, no item of A is put onto an occupied slot.
* `failuresContained_iff`: the four kinds of tasks.
-/

namespace CKGameServer

open Memory FillEmpty

/-! ### The slots of A after the exchange -/

namespace Exchange

variable {is : List (Fin inventorySize)} {i : Fin inventorySize}

/-- What the exchange leaves in a slot of A, given the slots it goes through before: the next
item of A where the slot of B is empty; otherwise the next item of B where the slot is empty. -/
def slotAfter (x : Exchange) (before : List (Fin inventorySize)) (i : Fin inventorySize) : Int32 :=
  let item := if x.arrayA i = 0 then
      (x.exchangeQueueB[empties before x.arrayA]?).getD (x.arrayA i)
    else x.arrayA i
  if x.arrayB i = 0 then (x.exchangeQueueA[empties before x.arrayB]?).getD item else item

/-- One pass of the loop, at its own slot. -/
lemma step_self (x : Exchange) (i : Fin inventorySize) :
    (x.step i).arrayA i = x.slotAfter [] i := by
  obtain ⟨arrayA, arrayB, queueA, queueB⟩ := x
  cases queueA <;> cases queueB <;> by_cases hA : arrayA i = 0 <;> by_cases hB : arrayB i = 0 <;>
    simp [step, slotAfter, empties, hA, hB]

/-- One pass at another slot takes the items it takes. -/
lemma slotAfter_step (x : Exchange) {j : Fin inventorySize} {before : List (Fin inventorySize)}
    (hij : i ≠ j) (hj : j ∉ before) :
    (x.step j).slotAfter before i = x.slotAfter (j :: before) i := by
  obtain ⟨hB, hqA, hqB, hA⟩ := exchange_step x j
  have hbefore : empties before (x.step j).arrayA = empties before x.arrayA :=
    empties_congr fun k hk => hA k (fun hkj => hj (hkj ▸ hk))
  simp only [slotAfter, hB, hqA, hqB, hA i hij, hbefore, List.getElem?_drop, empties_cons,
    Nat.add_comm (empties before x.arrayA), Nat.add_comm (empties before x.arrayB)]

/-- The loop does not touch the slots of A it does not visit. -/
lemma foldl_notMem (x : Exchange) (hi : i ∉ is) :
    (is.foldl step x).arrayA i = x.arrayA i := by
  induction is generalizing x with
  | nil => rfl
  | cons j is ih =>
      rw [List.mem_cons, not_or] at hi
      rw [List.foldl_cons, ih _ hi.2]
      exact (exchange_step x j).2.2.2 i hi.1

/-- **What the loop leaves in a slot of A.** -/
theorem foldl_arrayA (his : is.Nodup) (x : Exchange) (hmem : i ∈ is) :
    (is.foldl step x).arrayA i = x.slotAfter (is.takeWhile (· ≠ i)) i := by
  induction is generalizing x with
  | nil => cases hmem
  | cons j is ih =>
      obtain ⟨hj, his⟩ := List.nodup_cons.mp his
      rw [List.foldl_cons]
      by_cases hij : i = j
      · subst hij
        rw [foldl_notMem _ hj, step_self]
        simp
      · have hbefore : j ∉ is.takeWhile (· ≠ i) := fun h => hj (List.takeWhile_subset _ h)
        rw [ih his _ ((List.mem_cons.mp hmem).resolve_left hij), slotAfter_step x hij hbefore,
          List.takeWhile_cons_of_pos (by simpa using Ne.symm hij)]

end Exchange

/-! ### The commands of a trade -/

section Trade

variable {env : RedisEnv} {db : Store} {req : RedisTradeReq} {task : RedisTask} {a b : Inventory}

/-- The `HSET` commands for a list of slots, seen from any user. -/
lemma inventoryAt_tradeCommands {userA userB u : Bytes} (hzeroA : (0 : UInt8) ∉ userA)
    (hzeroB : (0 : UInt8) ∉ userB) (hu : (0 : UInt8) ∉ u) (arrayA arrayB : Inventory)
    (is : List (Fin inventorySize)) (hA : HoldsNoString db userA) (hB : HoldsNoString db userB)
    (i : Fin inventorySize) :
    inventoryAt (db.hsetAll (fun _ => true) (is.flatMap fun i : Fin inventorySize =>
        [(invenKey userA, slotField i, toString32 (arrayA i)),
          (invenKey userB, slotField i, toString32 (arrayB i))])) u i =
      if i ∈ is then
        if u = userB then arrayB i else if u = userA then arrayA i else inventoryAt db u i
      else inventoryAt db u i := by
  induction is generalizing db with
  | nil => rfl
  | cons j is ih =>
      have hA' := hA.hset (invenKey userA) (slotField j) (toString32 (arrayA j)) true
      have hB' := hB.hset (invenKey userA) (slotField j) (toString32 (arrayA j)) true
      rw [List.flatMap_cons]
      simp only [List.cons_append, List.nil_append, Store.hsetAll]
      rw [ih (hA'.hset _ _ _ _) (hB'.hset _ _ _ _),
        inventoryAt_hset_user hB' hzeroB hu, inventoryAt_hset_user hA hzeroA hu]
      by_cases hij : i = j
      · subst hij
        by_cases huB : u = userB <;> by_cases huA : u = userA <;> simp [huB, huA]
      · simp [hij]

/-- Replies that agree as far as there are commands. -/
lemma hsetAll_congr {replies replies' : ℕ → Bool} {cmds : List (Bytes × Bytes × Bytes)}
    (h : ∀ k < cmds.length, replies k = replies' k) :
    db.hsetAll replies cmds = db.hsetAll replies' cmds := by
  induction cmds generalizing db replies replies' with
  | nil => rfl
  | cons cmd cmds ih =>
      rw [Store.hsetAll, Store.hsetAll, h 0 (Nat.succ_pos _)]
      exact ih fun k hk => h (k + 1) (Nat.succ_lt_succ hk)

/-- The writes of a trade are committed: Redis answers the whole transaction, or it refuses
`MULTI` and answers every `HSET` by itself. No key of a trade that is carried out holds a string:
both inventories were loaded. -/
def TradeWritten (env : RedisEnv) : Prop :=
  Commits env ∨ env.replies 2 = false ∧ ∀ k < 2 * inventorySize, env.replies (k + 3) = true

instance (env : RedisEnv) : Decidable (TradeWritten env) :=
  inferInstanceAs (Decidable (_ ∨ _ ∧ ∀ k < 2 * inventorySize, env.replies (k + 3) = true))

/-- Writes that are committed are all made. -/
lemma multiExec_of_written (h : TradeWritten env) (Aid Bid : Bytes) (arrayA arrayB : Inventory) :
    db.multiExec (fun k => env.replies (k + 2)) (tradeCommands Aid Bid arrayA arrayB) =
      db.hsetAll (fun _ => true) (tradeCommands Aid Bid arrayA arrayB) := by
  rw [Store.multiExec, length_tradeCommands]
  rcases h with hcommits | ⟨hmulti, hsets⟩
  · have hreplies := commits_iff.mp hcommits
    rw [if_pos hreplies.1, if_pos hreplies.2]
  · have hmulti' : env.replies (0 + 2) = false := hmulti
    rw [hmulti', if_neg Bool.false_ne_true]
    exact hsetAll_congr fun k hk => hsets k hk

/-! ### Trades -/

/-- The slot is offered by its user. -/
def OffersSlot (req : RedisTradeReq) (u : Bytes) (i : Fin inventorySize) : Prop :=
  u = req.userAID ∧ IsOffered req.itemsASlot i ∨ u = req.userBID ∧ IsOffered req.itemsBSlot i

/-- What a trade leaves in a slot of A. -/
def tradedSlot (req : RedisTradeReq) (a b : Inventory) (i : Fin inventorySize) : Int32 :=
  Exchange.slotAfter
    { arrayA := clear (IsOffered req.itemsASlot) a
      arrayB := clear (IsOffered req.itemsBSlot) b
      exchangeQueueA := exchangeQueue req.itemsAID
      exchangeQueueB := exchangeQueue req.itemsBID }
    ((List.finRange inventorySize).takeWhile (· ≠ i)) i

/-- The trade is carried out. -/
structure Succeeds (env : RedisEnv) (db : Store) (req : RedisTradeReq) (a b : Inventory) : Prop
    where
  loads : Loads env db req a b
  inRangeA : SlotsInRange req.itemsASlot
  inRangeB : SlotsInRange req.itemsBSlot
  fits : OffersFit req a b

/-- A trade that is contained: if it is carried out, its writes are committed, the occupied slots
of B that are not offered were read as they are stored, and in those of A it leaves what they
hold. -/
def TradeContained (env : RedisEnv) (db : Store) (req : RedisTradeReq) : Prop :=
  ∀ a b, Succeeds env db req a b → TradeWritten env ∧
    (∀ i, inventoryAt db req.userBID i ≠ 0 → ¬OffersSlot req req.userBID i →
      b i = inventoryAt db req.userBID i) ∧
    (req.userAID ≠ req.userBID → ∀ i, inventoryAt db req.userAID i ≠ 0 →
      ¬OffersSlot req req.userAID i → tradedSlot req a b i = inventoryAt db req.userAID i)

/-- The two arrays are determined by what Redis answers and the memory they stand in. -/
lemma Loads.unique {a' b' : Inventory} (h : Loads env db req a b) (h' : Loads env db req a' b') :
    a = a' ∧ b = b' := by
  obtain ⟨invenA, invenB, hgetA, hgetB, hloadA, hloadB⟩ := h
  obtain ⟨invenA', invenB', hgetA', hgetB', hloadA', hloadB'⟩ := h'
  obtain rfl := Option.some.inj (hgetA.symm.trans hgetA')
  obtain rfl := Option.some.inj (hgetB.symm.trans hgetB')
  exact ⟨Except.ok.inj (hloadA.symm.trans hloadA'), Except.ok.inj (hloadB.symm.trans hloadB')⟩

/-- An inventory that `HGETALL` answers is a hash. -/
lemma exists_hash_of_hgetall {reply : Bool} {userID : Bytes} {m : ValueMap}
    (h : db.hgetall reply (invenKey userID) = some m) :
    ∃ hash, db.hashAt (invenKey userID) = some hash ∧ m = getArryToMap hash := by
  rw [Store.hgetall] at h
  split at h
  · obtain ⟨hash, hdb, h⟩ := Option.bind_eq_some_iff.mp h
    split at h
    · cases h
    · exact ⟨hash, hdb, (Option.some.inj h).symm⟩
  · cases h

/-- An occupied slot is read as it is stored. -/
lemma loadSlots_occupied {reply : Bool} {userID : Bytes} {m : ValueMap} {slots slots' : Inventory}
    (hstores : (storedHash db userID).StoresItems)
    (hget : db.hgetall reply (invenKey userID) = some m) (hload : loadSlots slots m = .ok slots')
    {i : Fin inventorySize} (hi : inventoryAt db userID i ≠ 0) :
    slots' i = inventoryAt db userID i := by
  obtain ⟨hash, hdb, rfl⟩ := exists_hash_of_hgetall hget
  rw [inventoryAt_eq_inventory] at hi ⊢
  rw [storedHash, hdb, Option.getD_some] at hstores hi ⊢
  exact hstores.loadSlots_occupied hload hi

/-! ### What a trade leaves -/

/-- A trade that is carried out, on the database of its commands. -/
lemma requestTradeExchange_of_succeeds (h : Succeeds env db req a b) :
    requestTradeExchange env db req = .ok
      { store := db.multiExec (fun k => env.replies (k + 2))
          (tradeCommands (invenKey req.userAID) (invenKey req.userBID)
            (exchanged req a b).arrayA (exchanged req a b).arrayB)
        responses := tradeResponses env req true } := by
  rw [requestTradeExchange_of_loads h.loads h.inRangeA h.inRangeB, if_pos h.fits]

/-- A trade that is not carried out changes nothing, and does not answer success. -/
lemma not_answersSuccess_of_not_succeeds (h : ∀ a b, ¬Succeeds env db req a b) :
    (∃ e, requestTradeExchange env db req = .error e) ∨
      ∃ out, requestTradeExchange env db req = .ok out ∧ out.store = db ∧
        ¬AnswersSuccess out := by
  by_cases hloads : ∃ a b, Loads env db req a b
  · obtain ⟨a, b, hloads⟩ := hloads
    by_cases hslots : SlotsInRange req.itemsASlot ∧ SlotsInRange req.itemsBSlot
    · have hfit : ¬OffersFit req a b := fun hfit => h a b ⟨hloads, hslots.1, hslots.2, hfit⟩
      refine .inr ⟨_, requestTradeExchange_of_loads hloads hslots.1 hslots.2, ?_⟩
      rw [if_neg hfit]
      exact ⟨rfl, fun hsuccess => Bool.false_ne_true (answersSuccess_tradeResponses.mp hsuccess)⟩
    · exact .inl ⟨_, requestTradeExchange_outOfRange hloads hslots⟩
  · rw [not_exists] at hloads
    rcases requestTradeExchange_of_not_loads fun a b hab => hloads a ⟨b, hab⟩ with
      ⟨e, he, -⟩ | hok
    · exact .inl ⟨e, he⟩
    · refine .inr ⟨_, hok, rfl, ?_⟩
      rintro ⟨r, hr, -⟩
      exact List.not_mem_nil hr

/-- The array of A after the exchange. -/
lemma exchanged_arrayA (i : Fin inventorySize) :
    (exchanged req a b).arrayA i = tradedSlot req a b i :=
  Exchange.foldl_arrayA (List.nodup_finRange _) _ (List.mem_finRange i)

/-- A slot after a trade whose writes are made. -/
lemma inventoryAt_of_succeeds (h : Succeeds env db req a b) (hwritten : TradeWritten env) {u : Bytes}
    (hu : (0 : UInt8) ∉ u) (i : Fin inventorySize) :
    inventoryAt (db.multiExec (fun k => env.replies (k + 2))
        (tradeCommands (invenKey req.userAID) (invenKey req.userBID)
          (exchanged req a b).arrayA (exchanged req a b).arrayB)) u i =
      if u = req.userBID then clear (IsOffered req.itemsBSlot) b i
      else if u = req.userAID then tradedSlot req a b i else inventoryAt db u i := by
  obtain ⟨invenA, invenB, hgetA, hgetB, -⟩ := h.loads
  obtain ⟨hashA, hdbA, -⟩ := exists_hash_of_hgetall hgetA
  obtain ⟨hashB, hdbB, -⟩ := exists_hash_of_hgetall hgetB
  rw [multiExec_of_written hwritten, ← exchanged_arrayB (a := a), ← exchanged_arrayA]
  exact (inventoryAt_tradeCommands req.zero_notMem_userAID req.zero_notMem_userBID hu _ _ _
    (holdsNoString_of_hashAt hdbA) (holdsNoString_of_hashAt hdbB) i).trans
      (if_pos (List.mem_finRange i))

/-- **The occupied slots after a trade** whose writes are made: all that are not offered are
kept exactly if those of B were read as they are stored and those of A are left alone. -/
lemma occupied_trade_iff (h : Succeeds env db req a b) (hwritten : TradeWritten env) :
    (∀ u, (0 : UInt8) ∉ u → ∀ i, inventoryAt db u i ≠ 0 → ¬OffersSlot req u i →
        inventoryAt (db.multiExec (fun k => env.replies (k + 2))
          (tradeCommands (invenKey req.userAID) (invenKey req.userBID)
            (exchanged req a b).arrayA (exchanged req a b).arrayB)) u i = inventoryAt db u i) ↔
      (∀ i, inventoryAt db req.userBID i ≠ 0 → ¬OffersSlot req req.userBID i →
        b i = inventoryAt db req.userBID i) ∧
      (req.userAID ≠ req.userBID → ∀ i, inventoryAt db req.userAID i ≠ 0 →
        ¬OffersSlot req req.userAID i → tradedSlot req a b i = inventoryAt db req.userAID i) := by
  have hclear : ∀ i, ¬OffersSlot req req.userBID i →
      clear (IsOffered req.itemsBSlot) b i = b i := fun i hoffered =>
    clear_of_not_isOffered fun hB => hoffered (.inr ⟨rfl, hB⟩)
  constructor
  · intro hkept
    refine ⟨fun i hi hoffered => ?_, fun hne i hi hoffered => ?_⟩
    · have hslot := hkept req.userBID req.zero_notMem_userBID i hi hoffered
      rwa [inventoryAt_of_succeeds h hwritten req.zero_notMem_userBID, if_pos rfl,
        hclear i hoffered] at hslot
    · have hslot := hkept req.userAID req.zero_notMem_userAID i hi hoffered
      rwa [inventoryAt_of_succeeds h hwritten req.zero_notMem_userAID, if_neg hne,
        if_pos rfl] at hslot
  · rintro ⟨hB, hA⟩ u hu i hi hoffered
    rw [inventoryAt_of_succeeds h hwritten hu]
    split
    · rename_i huB
      subst huB
      rw [hclear i hoffered]
      exact hB i hi hoffered
    · rename_i huB
      split
      · rename_i huA
        subst huA
        exact hA huB i hi hoffered
      · rfl

/-- Where the stored inventories are read as they are, only an item of A that is put onto an
occupied slot of A is in the way. -/
lemma tradeContained_of_storesItems (hstoresA : (storedHash db req.userAID).StoresItems)
    (hstoresB : (storedHash db req.userBID).StoresItems) :
    TradeContained env db req ↔ ∀ a b, Succeeds env db req a b → TradeWritten env ∧
      ∀ i, inventoryAt db req.userAID i ≠ 0 → ¬OffersSlot req req.userAID i →
        clear (IsOffered req.itemsBSlot) b i = 0 →
        ∀ item ∈ (exchangeQueue req.itemsAID)[
            empties ((List.finRange inventorySize).takeWhile (· ≠ i))
              (clear (IsOffered req.itemsBSlot) b)]?,
          item = inventoryAt db req.userAID i := by
  refine forall₂_congr fun a b => imp_congr_right fun hs => and_congr_right fun _ => ?_
  obtain ⟨invenA, invenB, hgetA, hgetB, hloadA, hloadB⟩ := hs.loads
  have hreadB : ∀ i, inventoryAt db req.userBID i ≠ 0 → b i = inventoryAt db req.userBID i :=
    fun i hi => loadSlots_occupied hstoresB hgetB hloadB hi
  have hslot : ∀ i, inventoryAt db req.userAID i ≠ 0 → ¬OffersSlot req req.userAID i →
      tradedSlot req a b i =
        if clear (IsOffered req.itemsBSlot) b i = 0 then
          ((exchangeQueue req.itemsAID)[
            empties ((List.finRange inventorySize).takeWhile (· ≠ i))
              (clear (IsOffered req.itemsBSlot) b)]?).getD (inventoryAt db req.userAID i)
        else inventoryAt db req.userAID i := by
    intro i hi hoffered
    have hA : clear (IsOffered req.itemsASlot) a i = inventoryAt db req.userAID i := by
      rw [clear_of_not_isOffered fun hA => hoffered (.inl ⟨rfl, hA⟩)]
      exact loadSlots_occupied hstoresA hgetA hloadA hi
    simp only [tradedSlot, Exchange.slotAfter, hA, if_neg hi]
  constructor
  · rintro ⟨-, hA⟩ i hi hoffered hzero item hitem
    by_cases hself : req.userAID = req.userBID
    · -- a trade with oneself: the slot of B is the occupied slot itself
      have hnotB : ¬IsOffered req.itemsBSlot i := fun hB => hoffered (.inr ⟨hself, hB⟩)
      rw [hself] at hi
      rw [clear_of_not_isOffered hnotB, hreadB i hi] at hzero
      exact absurd hzero hi
    · have hkept := hA hself i hi hoffered
      rwa [hslot i hi hoffered, if_pos hzero, Option.mem_def.mp hitem, Option.getD_some] at hkept
  · intro hcond
    refine ⟨fun i hi _ => hreadB i hi, fun _ i hi hoffered => ?_⟩
    rw [hslot i hi hoffered]
    split
    · rename_i hzero
      cases hput : (exchangeQueue req.itemsAID)[
          empties ((List.finRange inventorySize).takeWhile (· ≠ i))
            (clear (IsOffered req.itemsBSlot) b)]? with
      | none => rfl
      | some item => exact hcond i hi hoffered hzero item hput
    · rfl

/-- The database after a trade: its branch writes nothing before it ends in a fault. -/
lemma storeAfter_trade (h : task.taskID = .requestTradeExchange) :
    storeAfter env db task =
      match requestTradeExchange env db (RedisTradeReq.ofView task.pData) with
      | .ok out => out.store
      | .error _ => db := by
  have hnotLoad : ¬(task.taskID = .requestLoadInventory ∧
      db.hgetall (env.replies 0) (invenKey (loadedUser task)) = none) := by
    rw [h]
    exact fun hload => by cases hload.1
  rw [storeAfter, show taskProcess env db task =
    requestTradeExchange env db (RedisTradeReq.ofView task.pData) by rw [taskProcess, h]]
  cases requestTradeExchange env db (RedisTradeReq.ofView task.pData) with
  | ok out => rfl
  | error e => exact if_neg hnotLoad

/-- A trade changes nothing, or runs its commands. -/
lemma store_requestTradeExchange {out : RedisOutcome}
    (h : requestTradeExchange env db req = .ok out) :
    out.store = db ∨ ∃ arrayA arrayB, out.store = db.multiExec (fun k => env.replies (k + 2))
      (tradeCommands (invenKey req.userAID) (invenKey req.userBID) arrayA arrayB) := by
  by_cases hsucceeds : ∃ a b, Succeeds env db req a b
  · obtain ⟨a, b, hs⟩ := hsucceeds
    obtain rfl := Except.ok.inj ((requestTradeExchange_of_succeeds hs).symm.trans h)
    exact .inr ⟨_, _, rfl⟩
  · rcases not_answersSuccess_of_not_succeeds fun a b hs => hsucceeds ⟨a, b, hs⟩ with
      ⟨e, he⟩ | ⟨out', hok, hstore, -⟩
    · cases he.symm.trans h
    · obtain rfl := Except.ok.inj (hok.symm.trans h)
      exact .inl hstore

/-- **A trade says success only for writes that are committed**, and keeps the occupied slots that
are not offered, exactly if it is contained. -/
theorem tradeContained_iff (h : task.taskID = .requestTradeExchange) :
    ((∀ u, (0 : UInt8) ∉ u → ∀ i, inventoryAt db u i ≠ 0 →
        ¬OffersSlot (RedisTradeReq.ofView task.pData) u i →
        inventoryAt (storeAfter env db task) u i = inventoryAt db u i) ∧
      (∀ out, taskProcess env db task = .ok out → AnswersSuccess out → TradeWritten env)) ↔
      TradeContained env db (RedisTradeReq.ofView task.pData) := by
  rw [storeAfter_trade h, show taskProcess env db task =
    requestTradeExchange env db (RedisTradeReq.ofView task.pData) by rw [taskProcess, h]]
  generalize RedisTradeReq.ofView task.pData = req
  by_cases hsucceeds : ∃ a b, Succeeds env db req a b
  · obtain ⟨a, b, hs⟩ := hsucceeds
    rw [requestTradeExchange_of_succeeds hs]
    have hanswer : AnswersSuccess
        { store := db.multiExec (fun k => env.replies (k + 2))
            (tradeCommands (invenKey req.userAID) (invenKey req.userBID)
              (exchanged req a b).arrayA (exchanged req a b).arrayB)
          responses := tradeResponses env req true } := answersSuccess_tradeResponses.mpr rfl
    have hoccupied := fun hwritten => occupied_trade_iff hs hwritten
    constructor
    · rintro ⟨hkept, hsuccess⟩ a' b' hs'
      obtain ⟨rfl, rfl⟩ := hs.loads.unique hs'.loads
      have hwritten := hsuccess _ rfl hanswer
      exact ⟨hwritten, (hoccupied hwritten).mp hkept⟩
    · intro hcontained
      obtain ⟨hwritten, hcond⟩ := hcontained a b hs
      exact ⟨(hoccupied hwritten).mpr hcond, fun _ _ _ => hwritten⟩
  · have hnot : ∀ a b, ¬Succeeds env db req a b := fun a b hs => hsucceeds ⟨a, b, hs⟩
    refine iff_of_true ?_ fun a b hs => absurd hs (hnot a b)
    rcases not_answersSuccess_of_not_succeeds hnot with ⟨e, he⟩ | ⟨out, hok, hstore, hanswer⟩
    · rw [he]
      exact ⟨fun _ _ _ _ _ => rfl, fun out hout => by cases hout⟩
    · rw [hok]
      refine ⟨fun _ _ _ _ _ => by simp only [hstore], fun out' hout hsuccess => ?_⟩
      rw [← Except.ok.inj hout] at hsuccess
      exact absurd hsuccess hanswer

end Trade

/-! ### The four kinds of tasks -/

section Tasks

variable {env : RedisEnv} {db : Store} {task : RedisTask}

/-- A command of a client to the shop: it may reset it at any time. -/
def CommandsShop (task : RedisTask) : Prop :=
  task.taskID = .requestShopUpdate ∧ commandValue task ≠ -1

/-- The writes a reply of success stands for are committed. -/
def WritesCommitted (env : RedisEnv) (db : Store) (task : RedisTask) : Prop :=
  match task.taskID with
  | .requestShopBuy => PurchaseWritten env db task
  | .requestTradeExchange => TradeWritten env
  | _ => True

/-- **Failures are not taken for data**: a task keeps every occupied slot but those a trade
offers; only a command of a client resets the shop before its deadline; and a reply says success
only for writes that are committed. -/
structure FailuresContained (env : RedisEnv) (db : Store) (task : RedisTask) : Prop where
  occupied : ∀ u, (0 : UInt8) ∉ u → ∀ i, inventoryAt db u i ≠ 0 →
    ¬(task.taskID = .requestTradeExchange ∧ OffersSlot (RedisTradeReq.ofView task.pData) u i) →
    inventoryAt (storeAfter env db task) u i = inventoryAt db u i
  shop : ¬CommandsShop task → ∀ storedNextTime, readNextTime true db = .ok storedNextTime →
    env.now < storedNextTime → ShopKept env db task
  success : ∀ out, taskProcess env db task = .ok out →
    SaysBought out ∨ AnswersSuccess out → WritesCommitted env db task

/-- The condition under which this is so, for each kind of task. -/
def Contained (env : RedisEnv) (db : Store) (task : RedisTask) : Prop :=
  match task.taskID with
  | .requestLoadInventory => env.replies 0 = true ∨
      ∀ i, inventoryAt db (loadedUser task) i ≠ 0 →
        ∀ x ∈ grantedItem env i, x = inventoryAt db (loadedUser task) i
  | .requestShopBuy => PurchaseContained env db task
  | .requestShopUpdate => commandValue task = -1 →
      ∀ storedNextTime, readNextTime true db = .ok storedNextTime → env.now < storedNextTime →
        env.replies 0 = true ∨ ∃ e, readCurrentItem (env.replies 1) db = .error e
  | .requestTradeExchange => TradeContained env db (RedisTradeReq.ofView task.pData)
  | _ => True

/-- `HSET` commands on inventories leave the shop alone. -/
lemma shopState_hsetAll {cmds : List (Bytes × Bytes × Bytes)} (replies : ℕ → Bool)
    (h : ∀ cmd ∈ cmds, ∃ u, cmd.1 = invenKey u) :
    (db.hsetAll replies cmds).hashAt shopStateKey = db.hashAt shopStateKey :=
  hsetAll_induction (P := fun db' => db'.hashAt shopStateKey = db.hashAt shopStateKey)
    (fun db' reply cmd hcmd hdb' => by
      obtain ⟨u, hu⟩ := h cmd hcmd
      rw [hu, Store.hashAt_hset_of_ne _ _ _ (cstr_invenKey_ne_shopStateKey u).symm, hdb']) _ rfl

lemma shopState_multiExec {cmds : List (Bytes × Bytes × Bytes)} (replies : ℕ → Bool)
    (h : ∀ cmd ∈ cmds, ∃ u, cmd.1 = invenKey u) :
    (db.multiExec replies cmds).hashAt shopStateKey = db.hashAt shopStateKey := by
  rw [Store.multiExec]
  split_ifs
  · exact shopState_hsetAll _ h
  · rfl
  · exact shopState_hsetAll _ h

/-- The commands of a trade write to inventories. -/
lemma mem_tradeCommands {userA userB : Bytes} {arrayA arrayB : Inventory}
    {cmd : Bytes × Bytes × Bytes}
    (h : cmd ∈ tradeCommands (invenKey userA) (invenKey userB) arrayA arrayB) :
    ∃ u, cmd.1 = invenKey u := by
  obtain ⟨i, -, hi⟩ := List.mem_flatMap.mp h
  rcases List.mem_pair.mp hi with rfl | rfl
  · exact ⟨_, rfl⟩
  · exact ⟨_, rfl⟩

/-- A purchase writes one slot of its user at most. -/
lemma storeAfter_shopBuy_cases (env : RedisEnv) (db : Store)
    (h : task.taskID = .requestShopBuy) :
    storeAfter env db task = db ∨ ∃ k, storeAfter env db task =
      db.hset (env.replies 1) (invenKey (boughtBy task)) (slotField k)
        (toString32 (boughtItem task)) := by
  cases hread : readInventory (env.replies 0) db (boughtBy task) with
  | error e => exact .inl (taskProcess_shopBuy_error h hread).2
  | ok inven =>
      rw [storeAfter_shopBuy h hread]
      cases firstEmptySlot inven with
      | none => exact .inl rfl
      | some k => exact .inr ⟨k, rfl⟩

/-- The tasks that neither write nor answer for the shop or an inventory. -/
lemma exists_ok_of_other (hload : task.taskID ≠ .requestLoadInventory)
    (hbuy : task.taskID ≠ .requestShopBuy) (hupdate : task.taskID ≠ .requestShopUpdate)
    (htrade : task.taskID ≠ .requestTradeExchange) :
    ∃ out, taskProcess env db task = .ok out ∧ out.store = db ∧
      ∀ r ∈ out.responses, r.taskID = .responseLogin ∨ r.taskID = .responseNotice := by
  rw [taskProcess]
  split
  case h_1 => exact ⟨_, rfl, rfl, by simp [requestLogin, RedisTask.make]⟩
  case h_2 => exact ⟨_, rfl, rfl, by simp [requestNotice]⟩
  case h_7 => exact ⟨_, rfl, rfl, by simp⟩
  all_goals contradiction

lemma storeAfter_of_ok {out : RedisOutcome} (h : taskProcess env db task = .ok out) :
    storeAfter env db task = out.store := by
  rw [storeAfter, h]

/-- **Only its update changes the shop**, and answers for it. -/
lemma shopKept_of_ne (h : task.taskID ≠ .requestShopUpdate) : ShopKept env db task := by
  by_cases hload : task.taskID = .requestLoadInventory
  · refine ⟨?_, fun out hout r hr => ?_⟩
    · rw [storeAfter_loadInventory env db hload]
      split
      · refine shopState_hsetAll _ fun cmd hcmd => ?_
        obtain ⟨n, x, rfl⟩ := mem_grantCommands hcmd
        exact ⟨_, rfl⟩
      · rfl
    · rw [taskProcess, hload] at hout
      rw [((tasks_requestLoadInventory hout).2 r hr).1]
      decide
  by_cases hbuy : task.taskID = .requestShopBuy
  · refine ⟨?_, fun out hout r hr => ?_⟩
    · rcases storeAfter_shopBuy_cases env db hbuy with hsame | ⟨k, hset⟩
      · rw [hsame]
      · rw [hset, Store.hashAt_hset_of_ne _ _ _ (cstr_invenKey_ne_shopStateKey _).symm]
    · rw [taskProcess, hbuy] at hout
      rw [(tasks_requestShopBuy hout).2 r hr]
      decide
  by_cases htrade : task.taskID = .requestTradeExchange
  · refine ⟨?_, fun out hout r hr => ?_⟩
    · rw [storeAfter_trade htrade]
      split
      · rename_i out hout
        rcases store_requestTradeExchange hout with hsame | ⟨arrayA, arrayB, hcommands⟩
        · rw [hsame]
        · rw [hcommands, shopState_multiExec]
          exact fun cmd hcmd => mem_tradeCommands hcmd
      · rfl
    · rw [taskProcess, htrade] at hout
      rw [(tasks_requestTradeExchange hout).2 r hr]
      decide
  obtain ⟨out, hok, hstore, hresponses⟩ := exists_ok_of_other hload hbuy h htrade
  refine ⟨by rw [storeAfter_of_ok hok, hstore], fun out' hout' r hr => ?_⟩
  obtain rfl := Except.ok.inj (hok.symm.trans hout')
  rcases hresponses r hr with hid | hid <;> rw [hid] <;> decide

/-- A task that leaves the shop alone and the inventories of all users but one. -/
lemma failuresContained_of_user {userID : Bytes} (hzero : (0 : UInt8) ∉ userID)
    (hid : task.taskID ≠ .requestTradeExchange) (hshop : ShopKept env db task)
    (hother : ∀ u, (0 : UInt8) ∉ u → u ≠ userID →
      inventoryAt (storeAfter env db task) u = inventoryAt db u) :
    FailuresContained env db task ↔
      (∀ i, inventoryAt db userID i ≠ 0 →
        inventoryAt (storeAfter env db task) userID i = inventoryAt db userID i) ∧
      ∀ out, taskProcess env db task = .ok out → SaysBought out ∨ AnswersSuccess out →
        WritesCommitted env db task := by
  constructor
  · intro hcontained
    exact ⟨fun i hi => hcontained.occupied userID hzero i hi fun htrade => hid htrade.1,
      hcontained.success⟩
  · rintro ⟨hkept, hsuccess⟩
    refine ⟨fun u hu i hi _ => ?_, fun _ _ _ _ => hshop, hsuccess⟩
    by_cases hne : u = userID
    · rw [hne] at hi ⊢
      exact hkept i hi
    · rw [hother u hu hne]

lemma failuresContained_load (h : task.taskID = .requestLoadInventory) :
    FailuresContained env db task ↔ Contained env db task := by
  have hstore := storeAfter_loadInventory env db h
  have hother : ∀ u, (0 : UInt8) ∉ u → u ≠ loadedUser task →
      inventoryAt (storeAfter env db task) u = inventoryAt db u := by
    intro u hu hne
    rw [hstore]
    split
    · exact inventoryAt_congr (hashAt_grantStore hu (View.zero_notMem_cString 4) hne)
    · rfl
  have hshop : ShopKept env db task := shopKept_of_ne (by rw [h]; decide)
  have hcommitted : WritesCommitted env db task := by
    rw [WritesCommitted, h]
    trivial
  rw [failuresContained_of_user (View.zero_notMem_cString 4) (by rw [h]; decide) hshop hother,
    Contained, h]
  simp only
  rw [← occupied_loadInventory_iff h]
  exact and_iff_left fun _ _ _ => hcommitted

lemma failuresContained_buy (h : task.taskID = .requestShopBuy) :
    FailuresContained env db task ↔ Contained env db task := by
  have hresponses : ∀ out, taskProcess env db task = .ok out → ∀ r ∈ out.responses,
      r.taskID = .responseShopBuy := by
    intro out hout
    rw [taskProcess, h] at hout
    exact (tasks_requestShopBuy hout).2
  have hother : ∀ u, (0 : UInt8) ∉ u → u ≠ boughtBy task →
      inventoryAt (storeAfter env db task) u = inventoryAt db u := by
    intro u hu hne
    rcases storeAfter_shopBuy_cases env db h with hsame | ⟨k, hset⟩
    · rw [hsame]
    · rw [hset]
      exact inventoryAt_congr (hashAt_hset_other (View.zero_notMem_cString 0) hu hne _ _ _)
  have hshop : ShopKept env db task := shopKept_of_ne (by rw [h]; decide)
  have hnoTrade : ∀ out, taskProcess env db task = .ok out → ¬AnswersSuccess out := by
    rintro out hout ⟨r, hr, hid, -⟩
    cases (hresponses out hout r hr).symm.trans hid
  have hcommitted : WritesCommitted env db task ↔ PurchaseWritten env db task := by
    rw [WritesCommitted, h]
  rw [failuresContained_of_user (View.zero_notMem_cString 0) (by rw [h]; decide) hshop hother,
    Contained, h]
  simp only [hcommitted]
  rw [← purchaseContained_iff h]
  refine and_congr_right fun _ => forall₂_congr fun out hout => ?_
  rw [or_iff_left (hnoTrade out hout)]

lemma failuresContained_update (h : task.taskID = .requestShopUpdate) :
    FailuresContained env db task ↔ Contained env db task := by
  have hprocess : taskProcess env db task = requestShopUpdate env db task := by
    rw [taskProcess, h]
  rw [Contained, h]
  simp only
  constructor
  · intro hcontained htick storedNextTime hstored hlt
    refine (shopKept_tick_iff h htick hstored hlt).mp (hcontained.shop ?_ _ hstored hlt)
    exact fun hcommand => hcommand.2 htick
  · intro hread
    refine ⟨fun u hu i hi _ => (keeps_shopUpdate h none).occupied u hu i hi,
      fun hcommand storedNextTime hstored hlt => ?_, fun out hout hreplied => ?_⟩
    · have htick : commandValue task = -1 := by
        by_contra hne
        exact hcommand ⟨h, hne⟩
      exact (shopKept_tick_iff h htick hstored hlt).mpr (hread htick _ hstored hlt)
    · rw [WritesCommitted, h]
      trivial

/-- The other tasks write nothing, and answer neither for a purchase, nor for a trade, nor for
the shop. -/
lemma failuresContained_other (hload : task.taskID ≠ .requestLoadInventory)
    (hbuy : task.taskID ≠ .requestShopBuy) (hupdate : task.taskID ≠ .requestShopUpdate)
    (htrade : task.taskID ≠ .requestTradeExchange) : FailuresContained env db task := by
  obtain ⟨out, hok, hstore, hresponses⟩ :=
    (exists_ok_of_other hload hbuy hupdate htrade : ∃ out, taskProcess env db task = .ok out ∧ _)
  have hsame : storeAfter env db task = db := (storeAfter_of_ok hok).trans hstore
  refine ⟨fun _ _ _ _ _ => by rw [hsame], fun _ _ _ _ => shopKept_of_ne hupdate,
    fun out' hout' hreplied => ?_⟩
  obtain rfl := Except.ok.inj (hok.symm.trans hout')
  rcases hreplied with ⟨r, hr, hid, -⟩ | ⟨r, hr, hid, -⟩ <;>
    rcases hresponses r hr with hid' | hid' <;> cases hid.symm.trans hid'

lemma failuresContained_trade (h : task.taskID = .requestTradeExchange) :
    FailuresContained env db task ↔ Contained env db task := by
  have hprocess : taskProcess env db task =
      requestTradeExchange env db (RedisTradeReq.ofView task.pData) := by
    rw [taskProcess, h]
  have hshop : ShopKept env db task := shopKept_of_ne (by rw [h]; decide)
  have hnoBuy : ∀ out, taskProcess env db task = .ok out → ¬SaysBought out := by
    rintro out hout ⟨r, hr, hid, -⟩
    rw [hprocess] at hout
    rw [(tasks_requestTradeExchange hout).2 r hr] at hid
    cases hid
  rw [Contained, h]
  simp only
  rw [← tradeContained_iff h]
  constructor
  · intro hcontained
    refine ⟨fun u hu i hi hoffered => hcontained.occupied u hu i hi fun hboth => hoffered hboth.2,
      fun out hout hreplied => ?_⟩
    have hwritten := hcontained.success out hout (.inr hreplied)
    rwa [WritesCommitted, h] at hwritten
  · rintro ⟨hkept, hsuccess⟩
    refine ⟨fun u hu i hi hoffered => hkept u hu i hi fun hoffers => hoffered ⟨h, hoffers⟩,
      fun _ _ _ _ => hshop, fun out hout hreplied => ?_⟩
    rw [WritesCommitted, h]
    exact hsuccess out hout (hreplied.resolve_left (hnoBuy out hout))

/-- **Redis failures are contained exactly if** the task meets the condition of its kind. -/
theorem failuresContained_iff (env : RedisEnv) (db : Store) (task : RedisTask) :
    FailuresContained env db task ↔ Contained env db task := by
  by_cases hload : task.taskID = .requestLoadInventory
  · exact failuresContained_load hload
  by_cases hbuy : task.taskID = .requestShopBuy
  · exact failuresContained_buy hbuy
  by_cases hupdate : task.taskID = .requestShopUpdate
  · exact failuresContained_update hupdate
  by_cases htrade : task.taskID = .requestTradeExchange
  · exact failuresContained_trade htrade
  refine iff_of_true (failuresContained_other hload hbuy hupdate htrade) ?_
  rw [Contained]
  split
  case h_5 => trivial
  all_goals contradiction

/-- `a` has item 101 in slot 1; its inventory is loaded and `HGETALL` answers an error. -/
theorem load_overwrites_item :
    let db := inventoriesOf [97] [98] (Function.update (fun _ => 0) 1 101) fun _ => 0
    let env : RedisEnv := { (default : RedisEnv) with replies := fun k => k ≠ 0 }
    let task : RedisTask :=
      { taskID := .requestLoadInventory, pData := View.ofBytes [0, 0, 0, 0, 97] }
    inventoryAt db [97] 1 = 101 ∧ inventoryAt (storeAfter env db task) [97] 1 = 0 ∧
      ¬FailuresContained env db task := by
  intro db env task
  have hbefore : inventoryAt db [97] 1 = 101 := by decide +kernel
  have hafter : inventoryAt (storeAfter env db task) [97] 1 = 0 := by decide +kernel
  refine ⟨hbefore, hafter, fun hcontained => ?_⟩
  have hkept := hcontained.occupied [97] (by decide) 1 (by rw [hbefore]; decide) (by simp [task])
  rw [hbefore, hafter] at hkept
  exact absurd hkept (by decide)

end Tasks

end CKGameServer
