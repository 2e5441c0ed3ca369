import CKGameServer.Inventory.Stored
import CKGameServer.Model.GameServer

/-!
A purchase from the request to its result (`ProcessShopBuyRequest`, the `REQUEST_SHOP_BUY` branch
of the Redis thread, `ProcessShopBuyDBResult`).

* `requestShopBuy_of_read`, `requestShopBuy_of_error`: what the branch does, by what it reads.
* `purchaseRound`: the three functions in a row. The request says nothing about the packet and
  its client: the block of its task is not written and its `UserIndex` is zero.
* `purchaseRound_correct_iff`: the purchase is right exactly if the client has the index zero,
  the block happens to name the user and the item, and Redis answers.
-/

namespace CKGameServer

open Memory PacketManager

/-! ### The branch -/

/-- The first empty slot of an inventory. -/
def firstEmptySlot (inven : Inventory) : Option (Fin inventorySize) :=
  (List.finRange inventorySize).find? fun i => inven i = 0

/-- `RedisShopBuyReq::UserID`. -/
def boughtBy (task : RedisTask) : Bytes := task.pData.cString 0

/-- `RedisShopBuyReq::itemID`. -/
def boughtItem (task : RedisTask) : Int32 := int32At task.pData (maxUserIdLen + 1)

/-- The response of a purchase. -/
def shopBuyResponseTask (env : RedisEnv) (task : RedisTask) (isSuccess : Bool) : RedisTask :=
  RedisTask.make task.userIndex .responseShopBuy redisShopBuyResSize (redisShopBuyRes isSuccess)
    env.heap

/-- The request to load the inventory again. -/
def reloadTask (env : RedisEnv) (task : RedisTask) : RedisTask :=
  RedisTask.make task.userIndex .requestLoadInventory redisInvenReqSize
    (redisInvenReq task.userIndex (strncpyUserID (boughtBy task) env.stack)) env.heap

section Branch

variable {env : RedisEnv} {db : Store} {task : RedisTask} {inven : Inventory}

lemma firstEmptySlot_eq_zero {k : Fin inventorySize} (h : firstEmptySlot inven = some k) :
    inven k = 0 := by
  simpa using List.find?_some h

/-- A full inventory has no slot that is found. -/
lemma firstEmptySlot_eq_none_iff : firstEmptySlot inven = none ↔ ∀ i, inven i ≠ 0 := by
  rw [firstEmptySlot, List.find?_eq_none]
  simp

/-- The branch on an inventory it has read. -/
lemma requestShopBuy_of_read (hread : readInventory (env.replies 0) db (boughtBy task) = .ok inven) :
    requestShopBuy env db task = .ok
      (match firstEmptySlot inven with
      | none => { store := db, responses := [shopBuyResponseTask env task false] }
      | some k =>
        { store := db.hset (env.replies 1) (invenKey (boughtBy task)) (slotField k)
            (toString32 (boughtItem task))
          responses := [shopBuyResponseTask env task true]
          requests := [reloadTask env task] }) := by
  rw [readInventory, boughtBy] at hread
  rw [requestShopBuy]
  simp only [hread, bind, Except.bind]
  rw [firstEmptySlot]
  cases (List.finRange inventorySize).find? fun i => inven i = 0 <;> rfl

/-- The branch on an inventory whose numbers cannot be read. -/
lemma requestShopBuy_of_error {e : Fault}
    (hread : readInventory (env.replies 0) db (boughtBy task) = .error e) :
    requestShopBuy env db task = .error e := by
  rw [readInventory, boughtBy] at hread
  rw [requestShopBuy]
  simp only [hread, bind, Except.bind]

end Branch

/-! ### The three functions in a row -/

/-- The Redis thread on shop tasks, one after the other. -/
def shopBuyAll (redis : RedisEnv) : Store → List RedisTask → Except Fault (Store × List RedisTask)
  | db, [] => .ok (db, [])
  | db, task :: tasks => do
    let out ← requestShopBuy redis db task
    let rest ← shopBuyAll redis out.store tasks
    return (rest.1, out.responses ++ rest.2)

/-- The dispatch of a `SHOP_BUY_REQUEST`, the Redis thread on the tasks it pushed, and
`ProcessShopBuyDBResult` on the responses to them. -/
def purchaseRound (env : Env) (redis : RedisEnv) (db : Store) (clientIndex packetSize : ℕ)
    (pPacket : View) (σ : Server) : Except Fault (Server × Store) := do
  let τ ← processRecvPacket env clientIndex PacketId.shopBuyRequest.code packetSize pPacket σ
  let tasks := τ.mRequestTask.drop σ.mRequestTask.length
  let out ← shopBuyAll redis db tasks
  return (out.2.foldl (fun τ task => processShopBuyDBResult task.userIndex task.pData τ) τ, out.1)

/-- `SHOP_BUY_REQUEST_PACKET::itemID`. -/
def requestedItem (pPacket : View) : Int32 := int32At pPacket (packetHeaderLength + 8)

/-- The request of a client that is logged in as `userID`, has an inventory with an empty slot
and asks for the item the shop sells. Zero is no item: it marks the empty slots. -/
structure PurchaseRequest (db : Store) (clientIndex : ℕ) (userID : Bytes) (itemID : Int32)
    (pPacket : View) (σ : Server) : Prop where
  state : (σ.mUserObjPool clientIndex).mCurDomainState ≠ .none
  userID_eq : (σ.mUserObjPool clientIndex).mUserID = userID
  zero_notMem : (0 : UInt8) ∉ userID
  stored : ∃ h, db.hashAt (invenKey userID) = some h ∧ h.StoresItems
  emptySlot : ∃ k, inventoryAt db userID k = 0
  requested : requestedItem pPacket = itemID
  onSale : ∃ value, db.hget true shopStateKey currentItemField = some value ∧
    stoi value = .ok itemID
  item_ne_zero : itemID ≠ 0

/-- What a purchase has to lead to: the item in an empty slot of its user, the inventories of all
other users as they were, and the response at the client. -/
def PurchaseCorrect (db : Store) (clientIndex : ℕ) (userID : Bytes) (itemID : Int32) (σ : Server)
    (result : Except Fault (Server × Store)) : Prop :=
  ∃ τ db', result = .ok (τ, db') ∧
    (∃ k, inventoryAt db userID k = 0 ∧
      inventoryAt db' userID = Function.update (inventoryAt db userID) k itemID) ∧
    (∀ other, (0 : UInt8) ∉ other → other ≠ userID →
      inventoryAt db' other = inventoryAt db other) ∧
    τ.sent = σ.sent ++ [(clientIndex, .shopBuyResponse true)]

/-- The task that `ProcessShopBuyRequest` pushes. -/
def shopBuyTask (env : Env) : RedisTask :=
  RedisTask.make 0 .requestShopBuy redisShopBuyReqSize (env.heap 0) (env.heap 1)

/-- The block of the task, which is not written, happens to hold the purchase. -/
structure BlockNames (env : Env) (userID : Bytes) (itemID : Int32) : Prop where
  userID : ((env.heap 0).append (env.heap 1) redisShopBuyReqSize).cString 0 = userID
  itemID : int32At ((env.heap 0).append (env.heap 1) redisShopBuyReqSize) (maxUserIdLen + 1) =
    itemID

section Round

variable {env : Env} {redis : RedisEnv} {db : Store} {clientIndex packetSize : ℕ} {userID : Bytes}
  {itemID : Int32} {pPacket : View} {σ : Server} {inven : Inventory}

lemma blockNames_iff :
    BlockNames env userID itemID ↔
      boughtBy (shopBuyTask env) = userID ∧ boughtItem (shopBuyTask env) = itemID :=
  ⟨fun h => ⟨h.userID, h.itemID⟩, fun h => ⟨h.1, h.2⟩⟩

/-- The round in terms of the one task it leads to. -/
lemma purchaseRound_eq :
    purchaseRound env redis db clientIndex packetSize pPacket σ =
      (requestShopBuy redis db (shopBuyTask env)).map fun out =>
        (out.responses.foldl (fun τ task => processShopBuyDBResult task.userIndex task.pData τ)
          (σ.pushTask (shopBuyTask env)), out.store) := by
  have htasks : (σ.pushTask (shopBuyTask env)).mRequestTask.drop σ.mRequestTask.length =
      [shopBuyTask env] := by
    rw [Server.pushTask_mRequestTask, List.drop_left]
  have hrequest : processRecvPacket env clientIndex PacketId.shopBuyRequest.code packetSize pPacket
      σ = .ok (σ.pushTask (shopBuyTask env)) := rfl
  rw [purchaseRound, hrequest]
  simp only [bind, Except.bind, htasks, shopBuyAll]
  cases requestShopBuy redis db (shopBuyTask env) with
  | error e => rfl
  | ok out => simp [pure, Except.pure, Except.map]

/-- The response goes to the client with index zero. -/
lemma sent_shopBuyResponse (isSuccess : Bool) :
    ([shopBuyResponseTask redis (shopBuyTask env) isSuccess].foldl
      (fun τ task => processShopBuyDBResult task.userIndex task.pData τ)
      (σ.pushTask (shopBuyTask env))).sent = σ.sent ++ [(0, .shopBuyResponse isSuccess)] := by
  cases isSuccess <;> rfl

/-- The round where the inventory it reads is full. -/
lemma purchaseRound_of_full (clientIndex packetSize : ℕ) (pPacket : View) (σ : Server)
    (hread : readInventory (redis.replies 0) db (boughtBy (shopBuyTask env)) = .ok inven)
    (hfull : firstEmptySlot inven = none) :
    ∃ τ, purchaseRound env redis db clientIndex packetSize pPacket σ = .ok (τ, db) := by
  rw [purchaseRound_eq, requestShopBuy_of_read hread, hfull]
  exact ⟨_, rfl⟩

/-- The round where the inventory it reads has an empty slot. -/
lemma purchaseRound_of_empty (clientIndex packetSize : ℕ) (pPacket : View) (σ : Server)
    {k : Fin inventorySize}
    (hread : readInventory (redis.replies 0) db (boughtBy (shopBuyTask env)) = .ok inven)
    (hempty : firstEmptySlot inven = some k) :
    ∃ τ, purchaseRound env redis db clientIndex packetSize pPacket σ =
        .ok (τ, db.hset (redis.replies 1) (invenKey (boughtBy (shopBuyTask env))) (slotField k)
          (toString32 (boughtItem (shopBuyTask env)))) ∧
      τ.sent = σ.sent ++ [(0, .shopBuyResponse true)] := by
  rw [purchaseRound_eq, requestShopBuy_of_read hread, hempty]
  exact ⟨_, rfl, sent_shopBuyResponse true⟩

/-- Putting an item into an empty slot changes the inventory. -/
lemma update_ne_self {k : Fin inventorySize} (hk : inven k = 0) (hitem : itemID ≠ 0) :
    Function.update inven k itemID ≠ inven := by
  intro h
  have hvalue := congrFun h k
  rw [Function.update_self, hk] at hvalue
  exact hitem hvalue

/-- What the round reads of the inventory of its user. -/
lemma PurchaseRequest.readInventory_eq
    (h : PurchaseRequest db clientIndex userID itemID pPacket σ) (reply : Bool) :
    readInventory reply db userID =
      .ok (if reply then inventoryAt db userID else fun _ => 0) := by
  obtain ⟨hash, hdb, hstores⟩ := h.stored
  refine CKGameServer.readInventory_eq ?_ reply
  rw [storedHash, hdb]
  exact hstores

lemma PurchaseRequest.holdsNoString
    (h : PurchaseRequest db clientIndex userID itemID pPacket σ) : HoldsNoString db userID :=
  have ⟨_, hdb, _⟩ := h.stored
  holdsNoString_of_hashAt hdb

/-- The slot the branch picks is empty, if Redis answers or slot zero is. -/
lemma PurchaseRequest.exists_firstEmptySlot
    (h : PurchaseRequest db clientIndex userID itemID pPacket σ) {reply : Bool}
    (hread : reply = true ∨ inventoryAt db userID 0 = 0) :
    ∃ k, firstEmptySlot (if reply then inventoryAt db userID else fun _ => 0) = some k ∧
      inventoryAt db userID k = 0 := by
  cases reply with
  | true =>
      rw [if_pos rfl]
      cases hfirst : firstEmptySlot (inventoryAt db userID) with
      | none =>
          obtain ⟨k, hk⟩ := h.emptySlot
          exact absurd hk (firstEmptySlot_eq_none_iff.mp hfirst k)
      | some k => exact ⟨k, rfl, firstEmptySlot_eq_zero hfirst⟩
  | false =>
      rcases hread with hcontra | hzero
      · cases hcontra
      · exact ⟨0, rfl, hzero⟩

/-- Where the block names the purchase and Redis answers, the purchase is right. -/
lemma purchaseCorrect_of_blockNames
    (h : PurchaseRequest db clientIndex userID itemID pPacket σ) (hindex : clientIndex = 0)
    (hblock : BlockNames env userID itemID) (hwrite : redis.replies 1 = true)
    (hread : redis.replies 0 = true ∨ inventoryAt db userID 0 = 0) :
    PurchaseCorrect db clientIndex userID itemID σ
      (purchaseRound env redis db clientIndex packetSize pPacket σ) := by
  subst hindex
  obtain ⟨hby, hitem⟩ := blockNames_iff.mp hblock
  obtain ⟨k, hfirst, hk⟩ := h.exists_firstEmptySlot hread
  have hinven := h.readInventory_eq (redis.replies 0)
  rw [← hby] at hinven hfirst
  obtain ⟨τ, hround, hsent⟩ := purchaseRound_of_empty _ _ _ _ hinven hfirst
  rw [hby, hitem, hwrite] at hround
  refine ⟨τ, _, hround, ⟨k, hk, inventoryAt_hset_slot h.holdsNoString k itemID⟩, ?_, hsent⟩
  intro other hother hne
  exact inventoryAt_congr (hashAt_hset_other h.zero_notMem hother hne true _ _)

/-- An `HSET` that puts the item into an empty slot of the user's inventory is answered, and names
the user, the slot and the item. -/
lemma hset_names (h : HoldsNoString db userID) (hu : (0 : UInt8) ∉ userID) {by' : Bytes}
    (hby : (0 : UInt8) ∉ by') {item : Int32} {reply : Bool} {k k' : Fin inventorySize}
    (hitem : itemID ≠ 0) (hk : inventoryAt db userID k = 0)
    (hstored : inventoryAt (db.hset reply (invenKey by') (slotField k') (toString32 item)) userID =
      Function.update (inventoryAt db userID) k itemID) :
    reply = true ∧ by' = userID ∧ item = itemID ∧ k' = k := by
  have hchanged : inventoryAt (db.hset reply (invenKey by') (slotField k') (toString32 item)) userID
      ≠ inventoryAt db userID := by
    rw [hstored]
    exact update_ne_self hk hitem
  cases reply with
  | false => exact absurd rfl hchanged
  | true =>
      by_cases hne : userID = by'
      · subst hne
        rw [inventoryAt_hset_slot h] at hstored
        have hvalue := congrFun hstored k
        rw [Function.update_self, Function.update_apply] at hvalue
        split at hvalue
        · rename_i heq
          exact ⟨rfl, rfl, hvalue, heq.symm⟩
        · exact absurd (hvalue.symm.trans hk) hitem
      · exact absurd (inventoryAt_congr (hashAt_hset_other hby hu hne true _ _)) hchanged

/-- Where the purchase is right, the branch has read an inventory with an empty slot and written
to it what the block names. -/
lemma blockNames_of_purchaseCorrect
    (h : PurchaseRequest db clientIndex userID itemID pPacket σ)
    (hcorrect : PurchaseCorrect db clientIndex userID itemID σ
      (purchaseRound env redis db clientIndex packetSize pPacket σ)) :
    clientIndex = 0 ∧ BlockNames env userID itemID ∧ redis.replies 1 = true ∧
      (redis.replies 0 = true ∨ inventoryAt db userID 0 = 0) := by
  obtain ⟨τ, db', hround, ⟨k, hk, hstored⟩, -, hsent⟩ := hcorrect
  have hchanged : inventoryAt db' userID ≠ inventoryAt db userID := by
    rw [hstored]
    exact update_ne_self hk h.item_ne_zero
  cases hread : readInventory (redis.replies 0) db (boughtBy (shopBuyTask env)) with
  | error e =>
      rw [purchaseRound_eq, requestShopBuy_of_error hread] at hround
      cases hround
  | ok inven =>
      cases hfirst : firstEmptySlot inven with
      | none =>
          obtain ⟨τ', hfull⟩ :=
            purchaseRound_of_full clientIndex packetSize pPacket σ hread hfirst
          rw [hfull, Except.ok.injEq, Prod.mk.injEq] at hround
          exact absurd (hround.2 ▸ rfl) hchanged
      | some k' =>
          obtain ⟨τ', hempty, hsent'⟩ :=
            purchaseRound_of_empty clientIndex packetSize pPacket σ hread hfirst
          rw [hempty, Except.ok.injEq, Prod.mk.injEq] at hround
          obtain ⟨rfl, rfl⟩ := hround
          have hindex : 0 = clientIndex := by
            rw [hsent', List.append_cancel_left_eq] at hsent
            exact congrArg Prod.fst (List.cons.inj hsent).1
          have hzero : (0 : UInt8) ∉ boughtBy (shopBuyTask env) := View.zero_notMem_cString 0
          obtain ⟨hwrite, hby, hitem, rfl⟩ := hset_names h.holdsNoString h.zero_notMem hzero
            h.item_ne_zero hk hstored
          refine ⟨hindex.symm, blockNames_iff.mpr ⟨hby, hitem⟩, hwrite, ?_⟩
          cases hreply : redis.replies 0 with
          | true => exact .inl rfl
          | false =>
              -- an error reply reads as an empty inventory, whose first empty slot is slot zero
              rw [hby, hreply, h.readInventory_eq, Except.ok.injEq] at hread
              subst hread
              obtain rfl := Option.some.inj hfirst
              exact .inr hk

/-- **A purchase is right exactly if** the client is the one with the index zero, the block that
`ProcessShopBuyRequest` does not write happens to name its user and the item, Redis answers the
`HSET`, and answers the `HGETALL` or finds slot zero empty. -/
theorem purchaseRound_correct_iff
    (h : PurchaseRequest db clientIndex userID itemID pPacket σ) :
    PurchaseCorrect db clientIndex userID itemID σ
        (purchaseRound env redis db clientIndex packetSize pPacket σ) ↔
      clientIndex = 0 ∧ BlockNames env userID itemID ∧ redis.replies 1 = true ∧
        (redis.replies 0 = true ∨ inventoryAt db userID 0 = 0) := by
  constructor
  · exact blockNames_of_purchaseCorrect h
  · rintro ⟨hindex, hblock, hwrite, hread⟩
    exact purchaseCorrect_of_blockNames h hindex hblock hwrite hread

end Round

/-! ### The user `a` buys item 101 -/

/-- A database in which `a` has an empty inventory and the shop sells item 101. -/
def letterShopStore : Store := fun key =>
  if key = invenKey [97] then some (.hash (inventoryHash fun _ => 0))
  else if key = shopStateKey then some (.hash (AList.singleton currentItemField (toString32 101)))
  else none

/-- A server on which the client with an index is logged in as `a`. -/
def shopServer (clientIndex : ℕ) : Server :=
  (World.init 3 (fun _ _ => 0) letterShopStore).server.modUser clientIndex
    (User.modActor (Actor.setLogin [97]))

/-- The packet that asks for item 101. -/
def shopBuyRequestPacket : View := View.ofBytes (List.replicate 13 0 ++ [101])

lemma purchaseRequest_letter (clientIndex : ℕ) :
    PurchaseRequest letterShopStore clientIndex [97] 101 shopBuyRequestPacket (shopServer clientIndex)
      where
  state := by simp [shopServer, Actor.setLogin]
  userID_eq := by simp [shopServer, Actor.setLogin]
  zero_notMem := by decide
  stored := ⟨_, rfl, .of_isInventory (inventoryHash_isInventory _)⟩
  emptySlot := ⟨0, by decide⟩
  requested := by decide
  onSale := ⟨toString32 101, by decide, stoi_toString32 101⟩
  item_ne_zero := by decide

/-- A block that happens to name `a` and item 101. -/
def luckyBlock : View := View.ofBytes (97 :: List.replicate maxUserIdLen 0 ++ [101])

/-- With that block the purchase of the client with the index zero is right. -/
theorem purchaseRound_correct_letter :
    PurchaseCorrect letterShopStore 0 [97] 101 (shopServer 0)
      (purchaseRound { heap := fun _ => luckyBlock } {} letterShopStore 0 17 shopBuyRequestPacket
        (shopServer 0)) :=
  (purchaseRound_correct_iff (purchaseRequest_letter 0)).mpr
    ⟨rfl, ⟨by decide, by decide⟩, rfl, .inl rfl⟩

/-- With a block of zeros nothing is bought for `a`, and the response goes to another client. -/
theorem purchaseRound_unwritten_block :
    ¬∀ (env : Env) (redis : RedisEnv) (db : Store) (clientIndex packetSize : ℕ) (userID : Bytes)
      (itemID : Int32) (pPacket : View) (σ : Server),
      PurchaseRequest db clientIndex userID itemID pPacket σ →
      PurchaseCorrect db clientIndex userID itemID σ
        (purchaseRound env redis db clientIndex packetSize pPacket σ) := by
  intro h
  obtain ⟨hindex, -⟩ := blockNames_of_purchaseCorrect (purchaseRequest_letter 1)
    (h {} {} letterShopStore 1 17 [97] 101 shopBuyRequestPacket (shopServer 1)
      (purchaseRequest_letter 1))
  cases hindex

end CKGameServer
