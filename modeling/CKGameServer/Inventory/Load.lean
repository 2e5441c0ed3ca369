import CKGameServer.Inventory.Failures
import CKGameServer.Session.Tasks

/-!
The load of an inventory by the Redis thread (`REQUEST_LOAD_INVENTORY`), and the tasks that ask
for one.

* `itemSlotsAt_loadResponse`: the slots of a response read back.
* `loadedUser_make`: so does the id in a request, if it and its terminator are in the block;
  `loadedUser_loadInventoryTask`, `loadedUser_reloadTask`: the two requests.
* `CanLoad`: what a load needs of Redis and of what is stored under the key.
* `requestLoadInventory_delivers`: such a load answers with the inventory it leaves in the
  database.
-/

namespace CKGameServer

open Memory

/-! ### Payloads -/

/-- An `int` reads back from its bytes. -/
lemma int32At_of_int32Bytes {p : View} {off : ℕ} {x : Int32}
    (h : ∀ k < 4, p (off + k) = int32Bytes x k) : int32At p off = x := by
  have hlt : x.toUInt32.toNat < 256 ^ 4 := x.toUInt32.toNat_lt
  have hnat : p.natLE off 4 = x.toUInt32.toNat := by
    calc p.natLE off 4 = (View.ofNatLE x.toUInt32.toNat).natLE 0 4 :=
          View.natLE_congr fun k hk => by rw [h k hk, Nat.zero_add, int32Bytes]
      _ = x.toUInt32.toNat := View.natLE_ofNatLE hlt
  rw [int32At, hnat]
  refine Int32.toBitVec.inj ?_
  rw [Int32.toBitVec_ofInt, BitVec.ofInt_natCast]
  exact (BitVec.ofNat_toNat 32 x.toBitVec).trans (BitVec.setWidth_eq _)

section Payloads

variable {userIndex index : ℕ} {j : Int32} {slots : Inventory} {heap rest : View} {userID : Bytes}

lemma itemSlotsAt_loadResponse :
    itemSlotsAt (RedisTask.make userIndex .responseLoadInventory redisInvenResSize
      (redisInvenRes j slots) heap).pData = slots := by
  funext i
  have hi := i.isLt
  refine int32At_of_int32Bytes fun k hk => ?_
  have hsize : 4 + 4 * i.val + k < redisInvenResSize := by
    rw [redisInvenResSize]
    omega
  have hdiv : (4 * i.val + k) / 4 = i.val := by omega
  have hmod : (4 * i.val + k) % 4 = k := by omega
  have hlt : (4 * i.val + k) / 4 < inventorySize := by omega
  rw [RedisTask.make_pData_lt hsize, redisInvenRes, Nat.add_assoc, View.append_apply_add,
    itemSlotsBytes, dif_pos hlt, hmod]
  congr 2
  exact Fin.ext hdiv

/-- The id in a request for an inventory is the one that was copied in. -/
lemma loadedUser_make {taskID : RedisTaskID} {size : ℕ} (h0 : (0 : UInt8) ∉ userID)
    (hlength : userID.length ≤ maxUserIdLen) (hsize : 4 + (userID.length + 1) ≤ size) :
    loadedUser (RedisTask.make userIndex taskID size
      (redisInvenReq index (strncpyUserID userID rest)) heap) = userID := by
  have hlimit : userID.length + 1 ≤ View.cStringLimit :=
    (Nat.succ_le_succ hlength).trans (by decide)
  have hterminator : View.ofBytes userID userID.length = 0 := List.getD_eq_default _ _ le_rfl
  have hcopied : ∀ k < userID.length + 1, View.ofBytes userID (0 + k) =
      (RedisTask.make userIndex taskID size
        (redisInvenReq index (strncpyUserID userID rest)) heap).pData (4 + k) := by
    intro k hk
    rw [RedisTask.make_pData_lt (by omega), redisInvenReq, View.append_apply_add, strncpyUserID,
      List.take_of_length_le hlength, Nat.zero_add, View.ofCString]
    by_cases hlt : k < userID.length
    · rw [if_pos hlt, View.ofBytes]
    · obtain rfl : k = userID.length := by omega
      rw [if_neg hlt, if_pos rfl, hterminator]
  calc loadedUser _ = (View.ofBytes userID).cString 0 :=
        (View.cString_congr hcopied ⟨userID.length, Nat.lt_succ_self _, by
          rw [Nat.zero_add, hterminator]⟩ hlimit).symm
    _ = userID := View.cStringFrom_ofBytes h0 (by omega)

/-- The load that follows a login is of the user who logs in, if its id fits a block of the wrong
size. -/
lemma loadedUser_loadInventoryTask {env : Env} {i : ℕ} {p : View}
    (hfits : 4 + ((p.cString 0).length + 1) ≤ redisInvenResSize) :
    loadedUser (PacketManager.loadInventoryTask env i p) = p.cString 0 := by
  refine loadedUser_make (View.zero_notMem_cString 0) ?_ hfits
  simp only [redisInvenResSize, inventorySize, maxUserIdLen] at hfits ⊢
  omega

/-- The load that follows a purchase is of the user whose id is in the task. -/
lemma loadedUser_reloadTask {env : RedisEnv} {task : RedisTask}
    (hlength : (boughtBy task).length ≤ maxUserIdLen) :
    loadedUser (reloadTask env task) = boughtBy task := by
  refine loadedUser_make (View.zero_notMem_cString 0) hlength ?_
  rw [redisInvenReqSize]
  omega

end Payloads

/-! ### The answer to a load -/

/-- What a load needs: a hash that `HGETALL` answers with holds numbers, and where it answers
with nothing the starter grant has a key it can write to and a reply for each of its commands. -/
structure CanLoad (env : RedisEnv) (db : Store) (userID : Bytes) : Prop where
  stored : db.hgetall (env.replies 0) (invenKey userID) ≠ none → (storedHash db userID).StoresItems
  granted : db.hgetall (env.replies 0) (invenKey userID) = none →
    (∀ k < 7, env.replies (k + 1) = true) ∧ HoldsNoString db userID

instance (env : RedisEnv) (db : Store) (userID : Bytes) : Decidable (CanLoad env db userID) :=
  decidable_of_iff
    ((db.hgetall (env.replies 0) (invenKey userID) ≠ none → (storedHash db userID).StoresItems) ∧
      (db.hgetall (env.replies 0) (invenKey userID) = none →
        (∀ k < 7, env.replies (k + 1) = true) ∧ HoldsNoString db userID))
    ⟨fun h => ⟨h.1, h.2⟩, fun h => ⟨h.stored, h.granted⟩⟩

section Load

variable {env : RedisEnv} {db : Store} {task : RedisTask} {out : RedisOutcome} {userID : Bytes}

/-- A slot as an `int`. -/
lemma eq_slot_iff {n : Int32} {i : Fin inventorySize} :
    n = Int32.ofNat i.val ↔ n.toInt = i.val := by
  rw [← Int32.toInt_inj, slot_toInt]

/-- The slots are cleared before anything is granted. -/
lemma lastWrite_cleared (i : Fin inventorySize) :
    lastWrite (fun _ => true)
      ((List.finRange inventorySize).map fun i : Fin inventorySize => (Int32.ofNat i.val, 0)) i =
        some 0 := by
  revert i
  decide

/-- What some writes leave, the answered ones among them being the same. -/
lemma lastWrite_congr {replies replies' : ℕ → Bool} {writes : List (Int32 × Int32)}
    (h : ∀ k < writes.length, replies k = replies' k) (i : Fin inventorySize) :
    lastWrite replies writes i = lastWrite replies' writes i := by
  induction writes generalizing replies replies' with
  | nil => rfl
  | cons c writes ih =>
      rw [lastWrite, lastWrite, h 0 (Nat.succ_pos _),
        ih fun k hk => h (k + 1) (Nat.succ_lt_succ hk)]

/-- Writes one after the other: the later ones count. -/
lemma lastWrite_append (writes writes' : List (Int32 × Int32)) (i : Fin inventorySize) :
    lastWrite (fun _ => true) (writes ++ writes') i =
      (lastWrite (fun _ => true) writes' i).or (lastWrite (fun _ => true) writes i) := by
  induction writes with
  | nil => simp [lastWrite]
  | cons c writes ih => rw [List.cons_append, lastWrite, lastWrite, ih, Option.or_assoc]

/-- What the grant leaves in the slots, if all its commands are answered. -/
lemma grantedItem_of_replies (h : ∀ k < 7, env.replies (k + 1) = true) (i : Fin inventorySize) :
    grantedItem env i = some
      (if Int32.ofNat (starterNums env.dis1 env.dis2.castSucc) = Int32.ofNat i.val then
        101 + Int32.ofNat (env.rand 1 % 5)
      else if env.stackInts 0 = Int32.ofNat i.val then 101 + Int32.ofNat (env.rand 0 % 5)
      else 0) := by
  have hlength : (grantWrites env).length = 7 := rfl
  have hanswered : ∀ k < (grantWrites env).length, env.replies (k + 1) = true :=
    fun k hk => h k (hlength ▸ hk)
  rw [grantedItem, lastWrite_congr hanswered, grantWrites, lastWrite_append, lastWrite_cleared]
  simp only [lastWrite, true_and, Option.none_or]
  split_ifs <;> rfl

/-- The array of the grant holds what it stores. -/
lemma starterGrant_delivers (hreplies : ∀ k < 7, env.replies (k + 1) = true)
    (hstring : HoldsNoString db userID) {r : Store × Inventory}
    (hgrant : starterGrant env db (invenKey userID) = .ok r) :
    r.2 = inventoryAt r.1 userID := by
  funext i
  rw [starterGrant_store hgrant, inventoryAt_grantStore hstring,
    grantedItem_of_replies hreplies, Option.getD_some]
  rw [starterGrant] at hgrant
  simp only at hgrant
  split at hgrant
  · rename_i hfirst
    split at hgrant
    · rename_i hsec
      rw [← Except.ok.inj hgrant]
      simp only [Function.update_apply]
      have hsecond : i = ⟨_, hsec⟩ ↔
          Int32.ofNat (starterNums env.dis1 env.dis2.castSucc) = Int32.ofNat i.val := by
        rw [eq_slot_iff, show (Int32.ofNat (starterNums env.dis1 env.dis2.castSucc)).toInt =
          starterNums env.dis1 env.dis2.castSucc from slot_toInt ⟨_, hsec⟩, Fin.ext_iff]
        simp only
        omega
      have hfirst' : i = ⟨(env.stackInts 0).toInt.toNat, by omega⟩ ↔
          env.stackInts 0 = Int32.ofNat i.val := by
        rw [eq_slot_iff, Fin.ext_iff]
        simp only
        omega
      rw [if_congr hsecond rfl (if_congr hfirst' rfl rfl)]
    · cases hgrant
  · cases hgrant

/-- **A load delivers what is stored**: the inventory it leaves in the database. -/
theorem requestLoadInventory_delivers (h : CanLoad env db (loadedUser task))
    (hout : requestLoadInventory env db task = .ok out) :
    out.requests = [] ∧ ∃ response, out.responses = [response] ∧
      response.taskID = .responseLoadInventory ∧ response.userIndex = task.userIndex ∧
        itemSlotsAt response.pData = inventoryAt out.store (loadedUser task) := by
  rw [requestLoadInventory, ← loadedUser] at hout
  simp only at hout
  cases hget : db.hgetall (env.replies 0) (invenKey (loadedUser task)) with
  | some inven =>
      rw [hget] at hout
      obtain ⟨slots, hload, rfl⟩ := exists_of_map_eq_ok hout
      refine ⟨rfl, _, rfl, rfl, rfl, ?_⟩
      have hreply : env.replies 0 = true := by
        by_contra hfailed
        rw [Bool.eq_false_iff.mpr hfailed] at hget
        cases hget
      have hread := readInventory_eq (h.stored (by simp [hget])) (env.replies 0)
      rw [readInventory, hget, Option.getD_some, hload, if_pos hreply] at hread
      rw [itemSlotsAt_loadResponse]
      exact Except.ok.inj hread
  | none =>
      rw [hget] at hout
      obtain ⟨r, hgrant, rfl⟩ := exists_of_map_eq_ok hout
      refine ⟨rfl, _, rfl, rfl, rfl, ?_⟩
      obtain ⟨hreplies, hstring⟩ := h.granted hget
      rw [itemSlotsAt_loadResponse]
      exact starterGrant_delivers hreplies hstring hgrant

/-- No other task answers with an inventory, and only a purchase asks for one. -/
lemma taskProcess_noLoad (hid : task.taskID ≠ .requestLoadInventory)
    (h : taskProcess env db task = .ok out) :
    (∀ response ∈ out.responses, response.taskID ≠ .responseLoadInventory) ∧
      ∀ request ∈ out.requests, task.taskID = .requestShopBuy ∧ request = reloadTask env task := by
  rw [taskProcess] at h
  split at h
  · obtain rfl := Except.ok.inj h
    simp [requestLogin, RedisTask.make]
  · obtain rfl := Except.ok.inj h
    simp [requestNotice]
  · contradiction
  · obtain ⟨hnone, hresponses⟩ := tasks_requestTradeExchange h
    exact ⟨fun response hresponse => by simp [hresponses response hresponse], by simp [hnone]⟩
  · obtain ⟨hnone, hresponses⟩ := tasks_requestShopUpdate h
    exact ⟨fun response hresponse => by simp [hresponses response hresponse], by simp [hnone]⟩
  · rename_i hbuy
    refine ⟨fun response hresponse => by simp [(tasks_requestShopBuy h).2 response hresponse],
      fun request hrequest => ⟨hbuy, ?_⟩⟩
    rw [requestShopBuy] at h
    obtain ⟨inven, -, h⟩ := exists_of_bind_eq_ok h
    split at h
    · obtain rfl := Except.ok.inj h
      cases hrequest
    · obtain rfl := Except.ok.inj h
      exact List.mem_singleton.mp hrequest
  · obtain rfl := Except.ok.inj h
    simp

end Load

end CKGameServer
