import CKGameServer.Model.RedisManager

/-!
The update of the shop (`TaskProcessThread`, `REQUEST_SHOP_UPDATE`).

* `readNextTime`, `readCurrentItem`: the stored deadline and item as the branch reads them; what
  is missing, or not answered, reads as zero and as item 101.
* `updateShop`: what the branch does with a deadline and an item.
* `requestShopUpdate_eq`: the branch reads both and does that.
-/

namespace CKGameServer

open Memory

/-- `storedNextTime`. -/
def readNextTime (reply : Bool) (db : Store) : Except Fault UInt64 :=
  let dbTime := (db.hget reply shopStateKey nextUpdateField).getD []
  if dbTime = [] then .ok 0 else stoull dbTime

/-- `currentItemID`. -/
def readCurrentItem (reply : Bool) (db : Store) : Except Fault Int32 :=
  let dbItem := (db.hget reply shopStateKey currentItemField).getD []
  if dbItem = [] then .ok 101 else stoi dbItem

/-- `commandValue`. -/
def commandValue (task : RedisTask) : Int32 :=
  if task.dataSize = 4 then int32At task.pData 0 else 0

/-- The two `HSET` commands of an update. -/
def shopStore (env : RedisEnv) (db : Store) (itemID : Int32) (finalNextTime : UInt64) : Store :=
  (db.hset (env.replies 2) shopStateKey currentItemField (toString32 itemID)).hset
    (env.replies 3) shopStateKey nextUpdateField (Decimal.toDecimal finalNextTime.toNat)

/-- The response of an update. -/
def shopUpdateResponse (env : RedisEnv) (itemID : Int32) (finalNextTime : UInt64) : RedisTask :=
  RedisTask.make 0 .responseShopUpdate redisShopResSize (redisShopRes itemID finalNextTime)
    env.heap

variable {env : RedisEnv} {db : Store} {task : RedisTask}

/-- What the branch does with a deadline and an item. -/
def updateShop (env : RedisEnv) (db : Store) (task : RedisTask) (storedNextTime : UInt64)
    (currentItemID : Int32) : RedisOutcome :=
  match shopUpdate env (commandValue task) storedNextTime currentItemID with
  | none => { store := db }
  | some (itemID, finalNextTime) =>
    { store := shopStore env db itemID finalNextTime
      responses := [shopUpdateResponse env itemID finalNextTime] }

/-- The branch reads the deadline and the item, and goes on with them. -/
lemma requestShopUpdate_eq (env : RedisEnv) (db : Store) (task : RedisTask) :
    requestShopUpdate env db task =
      (readNextTime (env.replies 0) db).bind fun storedNextTime =>
        (readCurrentItem (env.replies 1) db).map fun currentItemID =>
          updateShop env db task storedNextTime currentItemID := by
  have htail : ∀ storedNextTime currentItemID,
      (match shopUpdate env (commandValue task) storedNextTime currentItemID with
        | none => (.ok { store := db } : Except Fault RedisOutcome)
        | some (itemID, finalNextTime) =>
          .ok
            { store := shopStore env db itemID finalNextTime
              responses := [shopUpdateResponse env itemID finalNextTime] }) =
        .ok (updateShop env db task storedNextTime currentItemID) := by
    intro storedNextTime currentItemID
    rw [updateShop]
    cases shopUpdate env (commandValue task) storedNextTime currentItemID <;> rfl
  rw [requestShopUpdate, readNextTime, readCurrentItem]
  simp only [bind, Except.bind]
  split
  · split
    · exact htail 0 101
    · cases stoi ((db.hget (env.replies 1) shopStateKey currentItemField).getD []) with
      | error e => rfl
      | ok currentItemID => exact htail 0 currentItemID
  · cases stoull ((db.hget (env.replies 0) shopStateKey nextUpdateField).getD []) with
    | error e => rfl
    | ok storedNextTime =>
        simp only
        split
        · exact htail storedNextTime 101
        · cases stoi ((db.hget (env.replies 1) shopStateKey currentItemField).getD []) with
          | error e => rfl
          | ok currentItemID => exact htail storedNextTime currentItemID

end CKGameServer
