import CKGameServer.Inventory.Load

/-!
A purchase in the database and the load that follows it (`TaskProcessThread`, `REQUEST_SHOP_BUY`
and `REQUEST_LOAD_INVENTORY`), with every command answered.

* `Hash.IsFree`: a slot without a field, or with a zero in it; `Hash.IsLowestFree`: no slot below
  it is free.
* `firstEmptySlot_eq_some_iff`: the branch takes the lowest free slot.
* `hset_slot_eq`: `HSET` on a slot writes to the hash of its user and to nothing else.
* `requestLoadInventory_of_stored`: a load answers with what it reads of a hash that has fields.
* `purchase_stored`: what a purchase does, on any inventory whose numbers can be read.
-/

namespace CKGameServer

open Memory

/-! ### Free slots -/

namespace Hash

/-- The slot has no field, or zero stands there. -/
def IsFree (h : Hash) (i : Fin inventorySize) : Prop :=
  ∀ value ∈ h.lookup (slotField i), stoi (cstr value) = .ok 0

/-- The slot is free and those below it are not. -/
structure IsLowestFree (h : Hash) (i : Fin inventorySize) : Prop where
  free : h.IsFree i
  lowest : ∀ j < i, ¬h.IsFree j

variable {h : Hash} {i : Fin inventorySize}

/-- A free slot is an empty one of the inventory. -/
lemma StoresItems.isFree_iff (hstores : h.StoresItems) : h.IsFree i ↔ h.inventory i = 0 := by
  cases hlookup : h.lookup (slotField i) with
  | none => simp [IsFree, inventory, hlookup]
  | some value =>
      have hvalue := hstores.stoi_value hlookup
      simp [IsFree, hlookup, hvalue]

end Hash

/-- No slot below the first empty one is empty. -/
lemma ne_zero_of_lt_firstEmptySlot {inven : Inventory} {i j : Fin inventorySize}
    (h : firstEmptySlot inven = some i) (hj : j < i) : inven j ≠ 0 := by
  obtain ⟨-, before, behind, hall, hbefore⟩ := List.find?_eq_some_iff_append.mp h
  have hsorted : (before ++ i :: behind).Pairwise (· < ·) :=
    hall ▸ List.pairwise_lt_finRange inventorySize
  have hmem : j ∈ before ++ i :: behind := hall ▸ List.mem_finRange j
  rcases List.mem_append.mp hmem with hj' | hj'
  · simpa using hbefore j hj'
  · have hle : i ≤ j := by
      rcases List.mem_cons.mp hj' with rfl | hj'
      · exact le_rfl
      · exact (List.rel_of_pairwise_cons (List.pairwise_append.mp hsorted).2.1 hj').le
    exact absurd hj (not_lt.mpr hle)

/-- The first empty slot is the lowest one. -/
lemma firstEmptySlot_eq_some_iff {inven : Inventory} {i : Fin inventorySize} :
    firstEmptySlot inven = some i ↔ inven i = 0 ∧ ∀ j < i, inven j ≠ 0 := by
  constructor
  · exact fun h => ⟨firstEmptySlot_eq_zero h, fun j => ne_zero_of_lt_firstEmptySlot h⟩
  · rintro ⟨hi, hlowest⟩
    cases hfirst : firstEmptySlot inven with
    | none => exact absurd hi (firstEmptySlot_eq_none_iff.mp hfirst i)
    | some k =>
        rcases lt_trichotomy k i with hki | rfl | hik
        · exact absurd (firstEmptySlot_eq_zero hfirst) (hlowest k hki)
        · rfl
        · exact absurd hi (ne_zero_of_lt_firstEmptySlot hfirst hik)

section Purchase

variable {env : RedisEnv} {db : Store} {task : RedisTask} {userID : Bytes}

/-- The lowest free slot of a hash is the first empty one of its inventory. -/
lemma Hash.StoresItems.isLowestFree_iff {h : Hash} (hstores : h.StoresItems)
    {i : Fin inventorySize} : h.IsLowestFree i ↔ firstEmptySlot h.inventory = some i := by
  rw [firstEmptySlot_eq_some_iff]
  constructor
  · exact fun hi => ⟨hstores.isFree_iff.mp hi.free, fun j hj hzero =>
      hi.lowest j hj (hstores.isFree_iff.mpr hzero)⟩
  · exact fun ⟨hi, hlowest⟩ => ⟨hstores.isFree_iff.mpr hi, fun j hj hfree =>
      hlowest j hj (hstores.isFree_iff.mp hfree)⟩

/-! ### The commands -/

/-- **`HSET` on a slot** writes to the hash of its user, and to nothing else. -/
lemma hset_slot_eq (h : HoldsNoString db userID) (k : Fin inventorySize) (x : Int32) :
    db.hset true (invenKey userID) (slotField k) (toString32 x) =
      Function.update db (cstr (invenKey userID))
        (some (.hash (AList.insert (slotField k) (toString32 x) (storedHash db userID)))) := by
  rw [Store.hset, if_pos rfl, storedHash, Store.hashAt]
  cases hvalue : db (cstr (invenKey userID)) with
  | none => simp [AList.insert_empty]
  | some value =>
      cases value with
      | str s => exact absurd hvalue (h s)
      | hash fields => simp

/-- `HGETALL` answers with a hash that has fields. -/
lemma hgetall_of_hashAt {key : Bytes} {h : Hash} (hdb : db.hashAt key = some h)
    (hne : h.entries ≠ []) : db.hgetall true key = some (getArryToMap h) := by
  rw [Store.hgetall, if_pos rfl, hdb, Option.bind_some, if_neg hne]

/-- **A load of a hash with fields** answers with the array it is read into and changes nothing. -/
lemma requestLoadInventory_of_stored {h : Hash} {inven : Inventory} (hreply : env.replies 0 = true)
    (hdb : db.hashAt (invenKey (loadedUser task)) = some h) (hne : h.entries ≠ [])
    (hload : loadSlots (fun _ => 0) (getArryToMap h) = .ok inven) :
    requestLoadInventory env db task = .ok
      { store := db
        responses :=
          [RedisTask.make task.userIndex .responseLoadInventory redisInvenResSize
            (redisInvenRes (int32At task.pData 0) inven) env.heap] } := by
  have hget := hgetall_of_hashAt hdb hne
  rw [← hreply] at hget
  rw [requestLoadInventory, ← loadedUser]
  simp only [hget, hload, Except.map]

/-! ### The purchase -/

/-- With every command answered the request gets `inven` for its client, and changes nothing. -/
def LoadsInventory (db : Store) (request : RedisTask) (inven : Inventory) : Prop :=
  ∀ env : RedisEnv, (∀ k, env.replies k = true) → ∃ response,
    taskProcess env db request = .ok { store := db, responses := [response] } ∧
      response.taskID = .responseLoadInventory ∧ response.userIndex = request.userIndex ∧
      itemSlotsAt response.pData = inven

/-- What is left of a purchase with the item in slot `i`: that slot of the user's hash is written
and nothing else, and the request in the queue loads the inventory of the same user, which
differs in that slot only. -/
structure Bought (db : Store) (task : RedisTask) (i : Fin inventorySize) (out : RedisOutcome) :
    Prop where
  store : out.store = Function.update db (cstr (invenKey (boughtBy task)))
    (some (.hash (AList.insert (slotField i) (toString32 (boughtItem task))
      (storedHash db (boughtBy task)))))
  reload : ∃ request, out.requests = [request] ∧ request.taskID = .requestLoadInventory ∧
    request.userIndex = task.userIndex ∧ loadedUser request = boughtBy task ∧
    LoadsInventory out.store request
      (Function.update (inventoryAt db (boughtBy task)) i (boughtItem task))

/-- A load of a hash with fields, as the thread runs it. -/
lemma loadsInventory_of_stored {h : Hash} {inven : Inventory}
    (hid : task.taskID = .requestLoadInventory)
    (hdb : db.hashAt (invenKey (loadedUser task)) = some h) (hne : h.entries ≠ [])
    (hload : loadSlots (fun _ => 0) (getArryToMap h) = .ok inven) :
    LoadsInventory db task inven := by
  intro env hreplies
  have hrun : taskProcess env db task = requestLoadInventory env db task := by
    rw [taskProcess, hid]
  rw [requestLoadInventory_of_stored (hreplies 0) hdb hne hload] at hrun
  exact ⟨_, hrun, rfl, rfl, itemSlotsAt_loadResponse⟩

/-- The outcome of a purchase that finds slot `i`. -/
lemma bought_of_firstEmptySlot (hlength : (boughtBy task).length ≤ maxUserIdLen)
    (hkey : HoldsNoString db (boughtBy task))
    (hstores : (storedHash db (boughtBy task)).StoresItems) (i : Fin inventorySize) :
    Bought db task i
      { store := db.hset true (invenKey (boughtBy task)) (slotField i)
          (toString32 (boughtItem task))
        responses := [shopBuyResponseTask env task true]
        requests := [reloadTask env task] } := by
  refine ⟨hset_slot_eq hkey i _, _, rfl, rfl, rfl, loadedUser_reloadTask hlength, ?_⟩
  have hreload := @loadedUser_reloadTask env task hlength
  have hinven : inventoryAt (db.hset true (invenKey (boughtBy task)) (slotField i)
      (toString32 (boughtItem task))) (boughtBy task) =
        Hash.inventory (AList.insert (slotField i) (toString32 (boughtItem task))
          (storedHash db (boughtBy task))) := by
    rw [inventoryAt_eq_inventory, slotField, storedHash_hset hkey]
  rw [← inventoryAt_hset_slot hkey, hinven]
  refine loadsInventory_of_stored rfl ?_ ?_ (hstores.insert _ _).loadSlots_inventory
  · rw [hreload, Store.hashAt]
    simp only [hset_slot_eq hkey, Function.update_self]
    rfl
  · rw [AList.entries_insert]
    exact List.cons_ne_nil _ _

/-- **A purchase in the database**, with every command answered and on any inventory whose numbers
can be read: it succeeds exactly if a slot is free, and the lowest free one gets the item; where
none is free nothing changes. -/
theorem purchase_stored (env : RedisEnv) (db : Store) (task : RedisTask)
    (hid : task.taskID = .requestShopBuy) (hlength : (boughtBy task).length ≤ maxUserIdLen)
    (hkey : HoldsNoString db (boughtBy task))
    (hstores : (storedHash db (boughtBy task)).StoresItems)
    (hreplies : ∀ k, env.replies k = true) :
    ∃ out response, taskProcess env db task = .ok out ∧ out.responses = [response] ∧
      response.taskID = .responseShopBuy ∧ response.userIndex = task.userIndex ∧
      (response.pData 0 ≠ 0 ↔ ∃ i, (storedHash db (boughtBy task)).IsFree i) ∧
      (response.pData 0 ≠ 0 →
        ∃ i, (storedHash db (boughtBy task)).IsLowestFree i ∧ Bought db task i out) ∧
      (response.pData 0 = 0 → out.store = db ∧ out.requests = []) := by
  have hread := readInventory_eq hstores (env.replies 0)
  rw [hreplies 0, if_pos rfl, ← hreplies 0] at hread
  have hbranch : taskProcess env db task = requestShopBuy env db task := by
    rw [taskProcess, hid]
  rw [requestShopBuy_of_read hread] at hbranch
  have hbyte : ∀ isSuccess, (shopBuyResponseTask env task isSuccess).pData 0 =
      if isSuccess then 1 else 0 := fun isSuccess => RedisTask.make_pData_lt (by decide)
  cases hfirst : firstEmptySlot (inventoryAt db (boughtBy task)) with
  | none =>
      rw [hfirst] at hbranch
      have hfull : ¬∃ i, (storedHash db (boughtBy task)).IsFree i := by
        rintro ⟨i, hi⟩
        rw [hstores.isFree_iff, ← inventoryAt_eq_inventory] at hi
        exact firstEmptySlot_eq_none_iff.mp hfirst i hi
      refine ⟨_, _, hbranch, rfl, rfl, rfl, ?_, fun hyes => ?_, fun _ => ⟨rfl, rfl⟩⟩
      · rw [hbyte]
        exact iff_of_false (by simp) hfull
      · rw [hbyte] at hyes
        exact absurd rfl hyes
  | some i =>
      rw [hfirst] at hbranch
      simp only [hreplies 1] at hbranch
      have hlowest : (storedHash db (boughtBy task)).IsLowestFree i := by
        rw [hstores.isLowestFree_iff, ← inventoryAt_eq_inventory, hfirst]
      refine ⟨_, _, hbranch, rfl, rfl, rfl, ?_, fun _ => ⟨i, hlowest, ?_⟩, fun hno => ?_⟩
      · rw [hbyte]
        exact iff_of_true (by simp) ⟨i, hlowest.free⟩
      · exact bought_of_firstEmptySlot hlength hkey hstores i
      · rw [hbyte] at hno
        cases hno

end Purchase

/-! ### A run -/

/-- `a` buys item 103. -/
def buyTask : RedisTask where
  taskID := .requestShopBuy
  dataSize := redisShopBuyReqSize
  pData := View.ofBytes (97 :: List.replicate maxUserIdLen 0 ++ [103])

/-- An item in slot zero. -/
def slotZeroItem : Inventory := fun i => if i.val = 0 then 101 else 0

/-- The inventory of `a` holds it. -/
def oneItemStored : Store := inventoriesOf [97] [98] slotZeroItem fun _ => 102

lemma hashAt_oneItemStored :
    oneItemStored.hashAt (invenKey (boughtBy buyTask)) = some (inventoryHash slotZeroItem) := by
  rw [show boughtBy buyTask = [97] by decide]
  exact hashAt_inventoriesOf_left _ _ (by decide)

lemma storedHash_oneItemStored :
    storedHash oneItemStored (boughtBy buyTask) = inventoryHash slotZeroItem := by
  rw [storedHash, hashAt_oneItemStored, Option.getD_some]

/-- Slot zero is occupied, and the item is put into slot one. -/
theorem purchase_stored_slotOne :
    ∃ out, taskProcess default oneItemStored buyTask = .ok out ∧
      Bought oneItemStored buyTask 1 out := by
  have hstores : (storedHash oneItemStored (boughtBy buyTask)).StoresItems := by
    rw [storedHash_oneItemStored]
    exact .of_isInventory (inventoryHash_isInventory _)
  have hlowest : (storedHash oneItemStored (boughtBy buyTask)).IsLowestFree 1 := by
    rw [hstores.isLowestFree_iff, storedHash_oneItemStored]
    decide
  obtain ⟨out, response, hout, -, -, -, hsuccess, hbought, -⟩ :=
    purchase_stored default oneItemStored buyTask rfl (by decide)
      (holdsNoString_of_hashAt hashAt_oneItemStored) hstores fun _ => rfl
  obtain ⟨i, hi, hi'⟩ := hbought (hsuccess.mpr ⟨1, hlowest.free⟩)
  rw [hstores.isLowestFree_iff] at hi hlowest
  obtain rfl : i = 1 := Option.some.inj (hi.symm.trans hlowest)
  exact ⟨out, hout, hi'⟩

end CKGameServer
