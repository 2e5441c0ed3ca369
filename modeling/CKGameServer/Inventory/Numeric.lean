import CKGameServer.Shop.Schedule
import CKGameServer.Trade.Failures

/-!
A database whose numbers can be read.

* `Hash.IsNumeric`: fields and values of a hash are `int`s; `IsNumeric.loadSlots`: the loop that
  reads it comes to its end.
* `NumericStore`: all inventories are numeric, and what is stored of the shop can be read.
* `NumericStore.loads`: a trade reads the two inventories that are there.
* `NumericStore.after_task`: every task leaves the database numeric.
-/

namespace CKGameServer

open Memory

/-! ### Hashes -/

namespace Hash

/-- Fields and values can be read as `int`s. -/
def IsNumeric (h : Hash) : Prop :=
  ∀ e ∈ h.entries, (∃ n, stoi (cstr e.1) = .ok n) ∧ ∃ x, stoi (cstr e.2) = .ok x

instance (h : Hash) : Decidable h.IsNumeric :=
  inferInstanceAs (Decidable (∀ e ∈ h.entries, _))

variable {h : Hash}

lemma isNumeric_empty : IsNumeric ∅ := fun _ he => absurd he List.not_mem_nil

lemma IsNumeric.insert (hnum : h.IsNumeric) (n x : Int32) :
    IsNumeric (AList.insert (toString32 n) (toString32 x) h) := fun e he => by
  rw [AList.entries_insert] at he
  rcases List.mem_cons.mp he with rfl | he
  · exact ⟨⟨n, by simp⟩, x, by simp⟩
  · exact hnum e ((List.kerase_sublist (toString32 n) h.entries).subset he)

lemma isNumeric_inventoryHash (inven : Inventory) : (inventoryHash inven).IsNumeric := by
  intro e he
  obtain ⟨i, -, rfl⟩ := List.mem_map.mp he
  exact ⟨⟨Int32.ofNat i.val, by simp⟩, inven i, by simp⟩

end Hash

/-- The loop over numbers comes to its end. -/
lemma exists_loadSlots {m : ValueMap}
    (hm : ∀ e ∈ m, (∃ n, stoi e.1 = .ok n) ∧ ∃ x, stoi e.2 = .ok x) (slots : Inventory) :
    ∃ slots', loadSlots slots m = .ok slots' := by
  induction m generalizing slots with
  | nil => exact ⟨slots, rfl⟩
  | cons e m ih =>
      obtain ⟨⟨n, hn⟩, x, hx⟩ := hm e List.mem_cons_self
      have hrest := ih fun e' he' => hm e' (List.mem_cons_of_mem e he')
      rw [loadSlots, hn]
      simp only
      split
      · rw [hx]
        exact hrest _
      · exact hrest slots

/-- The loop that reads a numeric hash comes to its end. -/
lemma Hash.IsNumeric.loadSlots {h : Hash} (hnum : h.IsNumeric) (slots : Inventory) :
    ∃ slots', loadSlots slots (getArryToMap h) = .ok slots' := by
  refine exists_loadSlots (fun e he => ?_) slots
  obtain ⟨e₀, he₀, rfl⟩ := mem_getArryToMap he
  exact hnum e₀ he₀

/-! ### The database -/

/-- The inventories hold numbers, and so does the shop. -/
structure NumericStore (db : Store) : Prop where
  inventory : ∀ u, (0 : UInt8) ∉ u → (storedHash db u).IsNumeric
  nextTime : ∃ t, readNextTime true db = .ok t
  currentItem : ∃ n, readCurrentItem true db = .ok n

section Numeric

variable {env : RedisEnv} {db db' : Store} {task : RedisTask} {userID : Bytes}

/-- An inventory that is found is read. -/
lemma NumericStore.loadSlots (h : NumericStore db) (huser : (0 : UInt8) ∉ userID) {reply : Bool}
    {m : ValueMap} (hget : db.hgetall reply (invenKey userID) = some m) (slots : Inventory) :
    ∃ slots', CKGameServer.loadSlots slots m = .ok slots' := by
  obtain ⟨hash, hdb, rfl⟩ := exists_hash_of_hgetall hget
  have hnum := h.inventory userID huser
  rw [storedHash, hdb, Option.getD_some] at hnum
  exact hnum.loadSlots slots

/-- So is the inventory of a purchase, found or not. -/
lemma NumericStore.readInventory (h : NumericStore db) (huser : (0 : UInt8) ∉ userID)
    (reply : Bool) : ∃ inven, CKGameServer.readInventory reply db userID = .ok inven := by
  rw [CKGameServer.readInventory]
  cases hget : db.hgetall reply (invenKey userID) with
  | none => exact ⟨_, rfl⟩
  | some m => exact h.loadSlots huser hget _

/-- **A trade reads** the two inventories where they are there. -/
lemma NumericStore.loads (h : NumericStore db) {req : RedisTradeReq} {invenA invenB : ValueMap}
    (hA : db.hgetall (env.replies 0) (invenKey req.userAID) = some invenA)
    (hB : db.hgetall (env.replies 1) (invenKey req.userBID) = some invenB) :
    ∃ a b, Loads env db req a b := by
  obtain ⟨a, ha⟩ := h.loadSlots req.zero_notMem_userAID hA fun i => env.stackInts i
  obtain ⟨b, hb⟩ := h.loadSlots req.zero_notMem_userBID hB fun i => env.stackInts' i
  exact ⟨a, b, invenA, invenB, hA, hB, ha, hb⟩

/-! ### What is written -/

/-- Writing a number to a field of an inventory leaves the inventories numeric. -/
lemma isNumeric_hset (h : ∀ u, (0 : UInt8) ∉ u → (storedHash db u).IsNumeric)
    (huser : (0 : UInt8) ∉ userID) (reply : Bool) (n x : Int32) (u : Bytes)
    (hu : (0 : UInt8) ∉ u) :
    (storedHash (db.hset reply (invenKey userID) (toString32 n) (toString32 x)) u).IsNumeric := by
  rcases @storedHash_hset_cases db userID u huser hu reply n x with hsame | hinsert
  · rw [hsame]
    exact h u hu
  · rw [hinsert]
    exact (h u hu).insert n x

/-- A write to the hash of an inventory, of a number to a field that is a number. -/
def IsSlotWrite (cmd : Bytes × Bytes × Bytes) : Prop :=
  ∃ u n x, (0 : UInt8) ∉ u ∧ cmd = (invenKey u, toString32 n, toString32 x)

lemma isNumeric_hsetAll (h : ∀ u, (0 : UInt8) ∉ u → (storedHash db u).IsNumeric)
    {cmds : List (Bytes × Bytes × Bytes)} (hcmds : ∀ cmd ∈ cmds, IsSlotWrite cmd)
    (replies : ℕ → Bool) (u : Bytes) (hu : (0 : UInt8) ∉ u) :
    (storedHash (db.hsetAll replies cmds) u).IsNumeric :=
  hsetAll_induction (P := fun db => ∀ u, (0 : UInt8) ∉ u → (storedHash db u).IsNumeric)
    (fun db' reply cmd hcmd hdb' => by
      obtain ⟨v, n, x, hv, rfl⟩ := hcmds cmd hcmd
      exact isNumeric_hset hdb' hv reply n x) replies h u hu

lemma isNumeric_multiExec (h : ∀ u, (0 : UInt8) ∉ u → (storedHash db u).IsNumeric)
    {cmds : List (Bytes × Bytes × Bytes)} (hcmds : ∀ cmd ∈ cmds, IsSlotWrite cmd)
    (replies : ℕ → Bool) (u : Bytes) (hu : (0 : UInt8) ∉ u) :
    (storedHash (db.multiExec replies cmds) u).IsNumeric := by
  rw [Store.multiExec]
  split_ifs
  · exact isNumeric_hsetAll h hcmds _ u hu
  · exact h u hu
  · exact isNumeric_hsetAll h hcmds _ u hu

lemma isSlotWrite_tradeCommands {req : RedisTradeReq} {arrayA arrayB : Inventory}
    {cmd : Bytes × Bytes × Bytes}
    (h : cmd ∈ tradeCommands (invenKey req.userAID) (invenKey req.userBID) arrayA arrayB) :
    IsSlotWrite cmd := by
  obtain ⟨i, -, hi⟩ := List.mem_flatMap.mp h
  rcases List.mem_pair.mp hi with rfl | rfl
  · exact ⟨_, _, _, req.zero_notMem_userAID, rfl⟩
  · exact ⟨_, _, _, req.zero_notMem_userBID, rfl⟩

/-- A task that leaves the shop alone leaves what is stored of it readable. -/
lemma NumericStore.of_inventory (h : NumericStore db)
    (hshop : db'.hashAt shopStateKey = db.hashAt shopStateKey)
    (hinven : ∀ u, (0 : UInt8) ∉ u → (storedHash db' u).IsNumeric) : NumericStore db' where
  inventory := hinven
  nextTime := by
    obtain ⟨t, ht⟩ := h.nextTime
    refine ⟨t, ?_⟩
    simp only [readNextTime, Store.hget, hshop]
    exact ht
  currentItem := by
    obtain ⟨n, hn⟩ := h.currentItem
    refine ⟨n, ?_⟩
    simp only [readCurrentItem, Store.hget, hshop]
    exact hn

/-- What an update of the shop writes can be read. -/
lemma NumericStore.shopStore (h : NumericStore db) (itemID : Int32) (next : UInt64) :
    NumericStore (shopStore env db itemID next) := by
  have hinven : ∀ u, (0 : UInt8) ∉ u →
      (storedHash (CKGameServer.shopStore env db itemID next) u).IsNumeric := fun u hu => by
    rw [storedHash_congr (hashAt_shopStore itemID next u)]
    exact h.inventory u hu
  by_cases hstring : ∃ s, db (cstr shopStateKey) = some (.str s)
  · obtain ⟨s, hs⟩ := hstring
    have hsame : CKGameServer.shopStore env db itemID next = db := by
      rw [CKGameServer.shopStore, hset_of_string _ _ _ hs, hset_of_string _ _ _ hs]
    rwa [hsame]
  · rw [not_exists] at hstring
    refine ⟨hinven, ?_, ?_⟩
    · obtain ⟨t, ht⟩ := h.nextTime
      rw [readNextTime, hget_shopStore_next hstring]
      cases env.replies 3 with
      | false => exact ⟨t, ht⟩
      | true =>
          refine ⟨UInt64.ofNat next.toNat, ?_⟩
          rw [if_pos rfl, Option.getD_some, if_neg (toDecimal_ne_nil _),
            stoull_toDecimal next.toNat_lt]
    · obtain ⟨n, hn⟩ := h.currentItem
      rw [readCurrentItem, hget_shopStore_item hstring]
      cases env.replies 2 with
      | false => exact ⟨n, hn⟩
      | true =>
          have hne : toString32 itemID ≠ [] := toDecimal_ne_nil _
          refine ⟨itemID, ?_⟩
          rw [if_pos rfl, Option.getD_some, if_neg hne, stoi_toString32]

/-- **Every task leaves the database numeric.** -/
theorem NumericStore.after_task (h : NumericStore db) : NumericStore (storeAfter env db task) := by
  by_cases hupdate : task.taskID = .requestShopUpdate
  · rcases storeAfter_shopUpdate env db hupdate with heq | ⟨itemID, next, heq⟩
    · rwa [heq]
    · rw [heq]
      exact h.shopStore itemID next
  refine h.of_inventory (shopKept_of_ne hupdate).1 ?_
  by_cases hload : task.taskID = .requestLoadInventory
  · rw [storeAfter_loadInventory env db hload]
    split
    · refine isNumeric_hsetAll h.inventory (fun cmd hcmd => ?_) _
      obtain ⟨n, x, rfl⟩ := mem_grantCommands hcmd
      exact ⟨_, n, x, View.zero_notMem_cString 4, rfl⟩
    · exact h.inventory
  by_cases hbuy : task.taskID = .requestShopBuy
  · rcases storeAfter_shopBuy_cases env db hbuy with heq | ⟨k, heq⟩
    · rw [heq]
      exact h.inventory
    · rw [heq]
      exact isNumeric_hset h.inventory (View.zero_notMem_cString 0) _ _ _
  by_cases htrade : task.taskID = .requestTradeExchange
  · rw [storeAfter_trade htrade]
    cases hrun : requestTradeExchange env db (RedisTradeReq.ofView task.pData) with
    | error e => exact h.inventory
    | ok out =>
        rcases store_requestTradeExchange hrun with heq | ⟨arrayA, arrayB, heq⟩
        · simp only [heq]
          exact h.inventory
        · simp only [heq]
          exact isNumeric_multiExec h.inventory (fun cmd hcmd => isSlotWrite_tradeCommands hcmd) _
  · obtain ⟨out, hout, hstore, -⟩ :=
      (exists_ok_of_other hload hbuy hupdate htrade : ∃ out, taskProcess env db task = .ok out ∧ _)
    rw [storeAfter_of_ok hout, hstore]
    exact h.inventory

end Numeric

end CKGameServer
