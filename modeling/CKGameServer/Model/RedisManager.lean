import Mathlib.Data.List.FinRange
import CKGameServer.Model.RedisConn

/-!
`RedisManager.h`: what the Redis thread does with a request task.

Each branch of `TaskProcessThread` is a function of the task, of the database and of a
`RedisEnv`, which holds everything the branch does not determine: the replies of its Redis
commands, its random numbers, the clock, and the bytes of memory nobody has written. Its result
is a `RedisOutcome`; `Except.error` is an exception that ends the thread or a write outside an
array.

* `requestLogin`, `requestNotice`, `requestLoadInventory`, `requestTradeExchange`,
  `requestShopUpdate`, `requestShopBuy`: the branches.
* `taskProcess`: one pass of the thread's loop over a task.
-/

namespace CKGameServer

open Memory

/-- What a branch of the Redis thread finds around it. -/
structure RedisEnv where
  /-- The reply of the `k`-th Redis command of the branch: no error. -/
  replies : ℕ → Bool := fun _ => true
  /-- What the `char` arrays of local structures hold before they are written. -/
  stack : View := fun _ => 0
  /-- What `int` variables and arrays hold before they are written. -/
  stackInts : ℕ → Int32 := fun _ => 0
  stackInts' : ℕ → Int32 := fun _ => 0
  /-- The memory behind the blocks the branch allocates. -/
  heap : View := fun _ => 0
  /-- The successive values of `rand`. -/
  rand : ℕ → ℕ := fun _ => 0
  /-- The values of `dis1(gen)` and `dis2(gen)`. -/
  dis1 : Fin 5 := 0
  dis2 : Fin 4 := 0
  /-- `std::time`. -/
  now : UInt64 := 0
  /-- `GetNextMidnight`. -/
  getNextMidnight : UInt64 → UInt64 := fun t => t + 1

/-- Every command gets its reply and memory is zero. -/
instance : Inhabited RedisEnv := ⟨{}⟩

/-- What a branch leaves behind: the database, the response tasks and request tasks it pushes
and the messages it publishes on `ch_notice`. -/
structure RedisOutcome where
  store : Store
  responses : List RedisTask := []
  requests : List RedisTask := []
  published : List Bytes := []

/-- The key of a user's inventory: `u:<id>:inven`. -/
def invenKey (userID : Bytes) : Bytes :=
  [117, 58] ++ userID ++ [58, 105, 110, 118, 101, 110]

/-! ### Login and notice -/

/-- `bodyData` of the `REQUEST_LOGIN` branch. -/
def loginBody (env : RedisEnv) (db : Store) (pRequest : View) : View :=
  match db.get (env.replies 0) (pRequest.cString 0) with
  | none => redisLoginRes env.stack .loginUserInvalidPw
  | some value =>
    if value = pRequest.cString (maxUserIdLen + 1) then
      redisLoginRes (copyUserIDChars pRequest env.stack) .none
    else
      -- `Result` was set to `NONE` before the passwords were compared
      redisLoginRes env.stack .none

/-- `REQUEST_LOGIN`. -/
def requestLogin (env : RedisEnv) (db : Store) (task : RedisTask) : RedisOutcome where
  store := db
  responses :=
    [RedisTask.make task.userIndex .responseLogin redisLoginResSize
      (loginBody env db task.pData) env.heap]

/-- `REQUEST_NOTICE`. -/
def requestNotice (db : Store) (task : RedisTask) : RedisOutcome where
  store := db
  published := [task.pData.cString (maxUserIdLen + 1)]

/-! ### Inventories -/

/-- The loop that reads an inventory hash into an array, `ItemSlots` or `arrayA`: fields that
are no slot are passed over. -/
def loadSlots : Inventory → ValueMap → Except Fault Inventory
  | slots, [] => .ok slots
  | slots, (key, value) :: inven =>
    match stoi key with
    | .error e => .error e
    | .ok index =>
      if h : 0 ≤ index.toInt ∧ index.toInt < inventorySize then
        match stoi value with
        | .error e => .error e
        | .ok item =>
          loadSlots (Function.update slots ⟨index.toInt.toNat, by omega⟩ item) inven
      else loadSlots slots inven

/-- `nums` after the swap of `nums[firstIndex]` and `nums[4]`. -/
def starterNums (firstIndex : Fin 5) (i : Fin 5) : ℕ :=
  if i = firstIndex then 4 else if i = 4 then firstIndex else i

/-- The second slot of a starter grant is in range. -/
lemma starterNums_lt (i : Fin 5) (j : Fin 4) : starterNums i j.castSucc < inventorySize := by
  revert i j
  decide

/-- The inventory a new user is given. `first` is read from `nums[-1]`, in front of the array:
any number may stand there. -/
def starterGrant (env : RedisEnv) (db : Store) (id : Bytes) : Except Fault (Store × Inventory) :=
  let item1 : Int32 := 101 + Int32.ofNat (env.rand 0 % 5)
  let item2 : Int32 := 101 + Int32.ofNat (env.rand 1 % 5)
  let first : Int32 := env.stackInts 0
  let sec : ℕ := starterNums env.dis1 (env.dis2.castSucc)
  let cleared := (List.finRange inventorySize).map fun i : Fin inventorySize =>
    (id, toString32 (Int32.ofNat i.val), toString32 0)
  let cmds := cleared ++ [(id, toString32 first, toString32 item1),
    (id, toString32 (Int32.ofNat sec), toString32 item2)]
  let store := db.hsetAll (fun k => env.replies (k + 1)) cmds
  if h : 0 ≤ first.toInt ∧ first.toInt < inventorySize then
    let slots := Function.update (fun _ => 0) ⟨first.toInt.toNat, by omega⟩ item1
    if hs : sec < inventorySize then .ok (store, Function.update slots ⟨sec, hs⟩ item2)
    else .error .arrayBounds
  else .error .arrayBounds

/-- `REQUEST_LOAD_INVENTORY`. -/
def requestLoadInventory (env : RedisEnv) (db : Store) (task : RedisTask) :
    Except Fault RedisOutcome :=
  let id := invenKey (task.pData.cString 4)
  let answer (store : Store) (slots : Inventory) : RedisOutcome :=
    { store
      responses :=
        [RedisTask.make task.userIndex .responseLoadInventory redisInvenResSize
          (redisInvenRes (int32At task.pData 0) slots) env.heap] }
  match db.hgetall (env.replies 0) id with
  | some inven => (loadSlots (fun _ => 0) inven).map fun slots => answer db slots
  | none => (starterGrant env db id).map fun r => answer r.1 r.2

/-! ### Trade -/

/-- The items of an offer in the order of the exchange window, the empty entries left out. -/
def exchangeQueue (items : Inventory) : List Int32 := (List.ofFn items).filter (· ≠ 0)

/-- The loop that clears the offered slots of one side. -/
def clearOffered (offered : Inventory) : List (Fin inventorySize) → Inventory →
    Except Fault Inventory
  | [], array => .ok array
  | i :: is, array =>
    if 0 ≤ (offered i).toInt then
      if h : (offered i).toInt.toNat < inventorySize then
        clearOffered offered is (Function.update array ⟨_, h⟩ 0)
      else .error .arrayBounds
    else clearOffered offered is array

/-- The state of the exchange loop: the two arrays and the two queues. -/
structure Exchange where
  arrayA : Inventory
  arrayB : Inventory
  exchangeQueueA : List Int32
  exchangeQueueB : List Int32

/-- One pass of the exchange loop at index `i`. -/
def Exchange.step (x : Exchange) (i : Fin inventorySize) : Exchange :=
  let x := match x.exchangeQueueB with
    | item :: rest =>
      if x.arrayA i = 0 then
        { x with arrayA := Function.update x.arrayA i item, exchangeQueueB := rest }
      else x
    | [] => x
  match x.exchangeQueueA with
  | item :: rest =>
    if x.arrayB i = 0 then
      -- the item of A is written to `arrayA`, not to `arrayB`
      { x with arrayA := Function.update x.arrayA i item, exchangeQueueA := rest }
    else x
  | [] => x

/-- The two responses of a trade. -/
def tradeResponses (env : RedisEnv) (req : RedisTradeReq) (isSuccess : Bool) : List RedisTask :=
  let response (user : Int32) : RedisTask :=
    RedisTask.make user.toUInt32.toNat .responseTradeExchange redisTradeResSize
      (redisTradeRes env.stack isSuccess) env.heap
  [response req.userA, response req.userB]

/-- The `HSET` commands of a trade. -/
def tradeCommands (Aid Bid : Bytes) (arrayA arrayB : Inventory) : List (Bytes × Bytes × Bytes) :=
  (List.finRange inventorySize).flatMap fun i : Fin inventorySize =>
    [(Aid, toString32 (Int32.ofNat i.val), toString32 (arrayA i)),
     (Bid, toString32 (Int32.ofNat i.val), toString32 (arrayB i))]

/-- `REQUEST_TRADE_EXCHANGE`. -/
def requestTradeExchange (env : RedisEnv) (db : Store) (req : RedisTradeReq) :
    Except Fault RedisOutcome :=
  let Aid := invenKey req.userAID
  let Bid := invenKey req.userBID
  match db.hgetall (env.replies 0) Aid, db.hgetall (env.replies 1) Bid with
  | some invenA, some invenB => do
    let arrayA ← loadSlots (fun i => env.stackInts i) invenA
    let arrayB ← loadSlots (fun i => env.stackInts' i) invenB
    let arrayA ← clearOffered req.itemsASlot (List.finRange inventorySize) arrayA
    let arrayB ← clearOffered req.itemsBSlot (List.finRange inventorySize) arrayB
    let x := (List.finRange inventorySize).foldl Exchange.step
      { arrayA, arrayB
        exchangeQueueA := exchangeQueue req.itemsAID
        exchangeQueueB := exchangeQueue req.itemsBID }
    if x.exchangeQueueA ≠ [] ∨ x.exchangeQueueB ≠ [] then
      .ok { store := db, responses := tradeResponses env req false }
    else
      .ok
        { store := db.multiExec (fun k => env.replies (k + 2))
            (tradeCommands Aid Bid x.arrayA x.arrayB)
          responses := tradeResponses env req true }
  | _, _ => .ok { store := db }

/-! ### Shop -/

/-- `game:shop_state`. -/
def shopStateKey : Bytes :=
  [103, 97, 109, 101, 58, 115, 104, 111, 112, 95, 115, 116, 97, 116, 101]

/-- `next_update_ts`. -/
def nextUpdateField : Bytes :=
  [110, 101, 120, 116, 95, 117, 112, 100, 97, 116, 101, 95, 116, 115]

/-- `current_item`. -/
def currentItemField : Bytes := [99, 117, 114, 114, 101, 110, 116, 95, 105, 116, 101, 109]

/-- The item and the deadline a command value leads to, and whether they are stored. -/
def shopUpdate (env : RedisEnv) (commandValue : Int32) (storedNextTime : UInt64)
    (currentItemID : Int32) : Option (Int32 × UInt64) :=
  let resetItem : Int32 := 101 + Int32.ofNat (env.rand 0 % 5)
  if commandValue = 0 then some (resetItem, env.getNextMidnight env.now)
  else if 0 < commandValue.toInt then
    let added : UInt64 := UInt64.ofInt (commandValue * 3600).toInt
    if storedNextTime < env.now then some (currentItemID, env.now + added)
    else some (currentItemID, storedNextTime + added)
  else if commandValue = -1 ∧ (storedNextTime = 0 ∨ storedNextTime ≤ env.now) then
    some (resetItem, env.getNextMidnight env.now)
  else none

/-- `REQUEST_SHOP_UPDATE`. -/
def requestShopUpdate (env : RedisEnv) (db : Store) (task : RedisTask) :
    Except Fault RedisOutcome := do
  let commandValue : Int32 := if task.dataSize = 4 then int32At task.pData 0 else 0
  let dbTime := (db.hget (env.replies 0) shopStateKey nextUpdateField).getD []
  let dbItem := (db.hget (env.replies 1) shopStateKey currentItemField).getD []
  let storedNextTime ← if dbTime = [] then .ok 0 else stoull dbTime
  let currentItemID ← if dbItem = [] then .ok 101 else stoi dbItem
  match shopUpdate env commandValue storedNextTime currentItemID with
  | none => .ok { store := db }
  | some (itemID, finalNextTime) =>
    let db := db.hset (env.replies 2) shopStateKey currentItemField (toString32 itemID)
    let db := db.hset (env.replies 3) shopStateKey nextUpdateField
      (Decimal.toDecimal finalNextTime.toNat)
    .ok
      { store := db
        responses :=
          [RedisTask.make 0 .responseShopUpdate redisShopResSize
            (redisShopRes itemID finalNextTime) env.heap] }

/-- `REQUEST_SHOP_BUY`. -/
def requestShopBuy (env : RedisEnv) (db : Store) (task : RedisTask) :
    Except Fault RedisOutcome := do
  let invenKey := invenKey (task.pData.cString 0)
  let inven := (db.hgetall (env.replies 0) invenKey).getD []
  let tempInven ← loadSlots (fun _ => 0) inven
  let response (isSuccess : Bool) : RedisTask :=
    RedisTask.make task.userIndex .responseShopBuy redisShopBuyResSize
      (redisShopBuyRes isSuccess) env.heap
  match (List.finRange inventorySize).find? fun i => tempInven i = 0 with
  | none => .ok { store := db, responses := [response false] }
  | some emptySlotIndex =>
    let itemID := int32At task.pData (maxUserIdLen + 1)
    .ok
      { store := db.hset (env.replies 1) invenKey
          (toString32 (Int32.ofNat emptySlotIndex.val)) (toString32 itemID)
        responses := [response true]
        requests :=
          [RedisTask.make task.userIndex .requestLoadInventory redisInvenReqSize
            (redisInvenReq task.userIndex (strncpyUserID (task.pData.cString 0) env.stack))
            env.heap] }

/-! ### The thread -/

/-- `TaskProcessThread`, one pass over a task. -/
def taskProcess (env : RedisEnv) (db : Store) (task : RedisTask) : Except Fault RedisOutcome :=
  match task.taskID with
  | .requestLogin => .ok (requestLogin env db task)
  | .requestNotice => .ok (requestNotice db task)
  | .requestLoadInventory => requestLoadInventory env db task
  | .requestTradeExchange => requestTradeExchange env db (RedisTradeReq.ofView task.pData)
  | .requestShopUpdate => requestShopUpdate env db task
  | .requestShopBuy => requestShopBuy env db task
  | _ => .ok { store := db }

end CKGameServer
