import CKGameServer.Library.Runs
import CKGameServer.Shop.Purchase
import CKGameServer.Shop.Update

/-!
Inventories over a run of the Redis thread without trades (`TaskProcessThread`).

* `storeAfter`: the database a task leaves, also where its branch ends in a fault after it has
  written; `starterGrant_isOk_iff`: when the starter grant ends in none.
* `Keeps`: no occupied slot changes, and no inventory but that of the named user does.
* `keeps_task`: with every command answered a task keeps the inventories; `isCanonical_task`: and
  leaves them canonical.
* `noItemLost`: over any run of such tasks no stored item is lost.
-/

namespace CKGameServer

open Memory

/-! ### What a task writes -/

/-- The `HSET` commands of the starter grant. -/
def grantCommands (env : RedisEnv) (id : Bytes) : List (Bytes × Bytes × Bytes) :=
  ((List.finRange inventorySize).map fun i : Fin inventorySize =>
      (id, toString32 (Int32.ofNat i.val), toString32 0)) ++
    [(id, toString32 (env.stackInts 0), toString32 (101 + Int32.ofNat (env.rand 0 % 5))),
      (id, toString32 (Int32.ofNat (starterNums env.dis1 env.dis2.castSucc)),
        toString32 (101 + Int32.ofNat (env.rand 1 % 5)))]

/-- The database after the starter grant, which writes before it leaves its array. -/
def grantStore (env : RedisEnv) (db : Store) (id : Bytes) : Store :=
  db.hsetAll (fun k => env.replies (k + 1)) (grantCommands env id)

/-- `RedisInvenReq::UserID`. -/
def loadedUser (task : RedisTask) : Bytes := task.pData.cString 4

/-- The database after a task. Of the branches that can end in a fault only
`REQUEST_LOAD_INVENTORY` writes before it. -/
def storeAfter (env : RedisEnv) (db : Store) (task : RedisTask) : Store :=
  match taskProcess env db task with
  | .ok out => out.store
  | .error _ =>
    if task.taskID = .requestLoadInventory ∧
        db.hgetall (env.replies 0) (invenKey (loadedUser task)) = none then
      grantStore env db (invenKey (loadedUser task))
    else db

/-- The user whose inventory the task may change. -/
def namedUser (task : RedisTask) : Option Bytes :=
  match task.taskID with
  | .requestLoadInventory => some (loadedUser task)
  | .requestShopBuy => some (boughtBy task)
  | _ => none

/-- The tasks other than trades. -/
def IsUntraded (task : RedisTask) : Prop :=
  task.taskID = .requestLogin ∨ task.taskID = .requestNotice ∨
    task.taskID = .requestLoadInventory ∨ task.taskID = .requestShopUpdate ∨
    task.taskID = .requestShopBuy

/-- No occupied slot of any user changes, and the stored inventories stay as they are, up to the
one of the named user. -/
structure Keeps (named : Option Bytes) (db db' : Store) : Prop where
  occupied : ∀ u, (0 : UInt8) ∉ u → ∀ i, inventoryAt db u i ≠ 0 →
    inventoryAt db' u i = inventoryAt db u i
  others : ∀ u, (0 : UInt8) ∉ u → named ≠ some u →
    db'.hashAt (invenKey u) = db.hashAt (invenKey u)

/-- All stored inventories are canonical. -/
def CanonicalInventories (db : Store) : Prop :=
  ∀ u, (0 : UInt8) ∉ u → ∀ h, db.hashAt (invenKey u) = some h → h.IsCanonical

section Task

variable {env : RedisEnv} {db db' : Store} {task : RedisTask} {userID : Bytes}

lemma Keeps.refl (named : Option Bytes) (db : Store) : Keeps named db db :=
  ⟨fun _ _ _ _ => rfl, fun _ _ _ => rfl⟩

/-- Where no inventory changes, they are kept. -/
lemma Keeps.of_hashAt {named : Option Bytes}
    (h : ∀ u, db'.hashAt (invenKey u) = db.hashAt (invenKey u)) : Keeps named db db' :=
  ⟨fun u _ i _ => congrFun (inventoryAt_congr (h u)) i, fun u _ _ => h u⟩

/-- Where only the inventory of one user changes, and keeps its occupied slots. -/
lemma Keeps.of_user (hother : ∀ u, (0 : UInt8) ∉ u → u ≠ userID →
      db'.hashAt (invenKey u) = db.hashAt (invenKey u))
    (hslots : ∀ i, inventoryAt db userID i ≠ 0 →
      inventoryAt db' userID i = inventoryAt db userID i) : Keeps (some userID) db db' where
  occupied u hu i hi := by
    by_cases hne : u = userID
    · subst hne
      exact hslots i hi
    · exact congrFun (inventoryAt_congr (hother u hu hne)) i
  others u hu hne := hother u hu fun heq => hne (congrArg some heq.symm)

/-- A property that every one of some `HSET` commands keeps. -/
lemma hsetAll_induction {P : Store → Prop} {cmds : List (Bytes × Bytes × Bytes)}
    (h : ∀ db reply, ∀ cmd ∈ cmds, P db → P (db.hset reply cmd.1 cmd.2.1 cmd.2.2))
    (replies : ℕ → Bool) (hdb : P db) : P (db.hsetAll replies cmds) := by
  induction cmds generalizing db replies with
  | nil => exact hdb
  | cons cmd cmds ih =>
      exact ih (fun db reply c hc => h db reply c (List.mem_cons_of_mem cmd hc)) _
        (h db _ cmd List.mem_cons_self hdb)

/-- The commands of the grant write numbers to the fields of one inventory. -/
lemma mem_grantCommands {id : Bytes} {cmd : Bytes × Bytes × Bytes}
    (h : cmd ∈ grantCommands env id) : ∃ n x, cmd = (id, toString32 n, toString32 x) := by
  rcases List.mem_append.mp h with h | h
  · obtain ⟨i, -, rfl⟩ := List.mem_map.mp h
    exact ⟨_, _, rfl⟩
  · rcases List.mem_cons.mp h with rfl | h
    · exact ⟨_, _, rfl⟩
    · exact ⟨_, _, List.mem_singleton.mp h⟩

/-! ### The database each branch leaves -/

/-- The starter grant comes to its end exactly where its first slot is in range. -/
lemma starterGrant_isOk_iff (env : RedisEnv) (db : Store) (id : Bytes) :
    (∃ r, starterGrant env db id = .ok r) ↔
      0 ≤ (env.stackInts 0).toInt ∧ (env.stackInts 0).toInt < inventorySize := by
  rw [starterGrant]
  simp only
  by_cases hfirst : 0 ≤ (env.stackInts 0).toInt ∧ (env.stackInts 0).toInt < inventorySize
  · rw [dif_pos hfirst, dif_pos (starterNums_lt env.dis1 env.dis2)]
    exact iff_of_true ⟨_, rfl⟩ hfirst
  · rw [dif_neg hfirst]
    exact iff_of_false (by simp) hfirst

/-- The grant leaves the database of its commands. -/
lemma starterGrant_store {id : Bytes} {r : Store × Inventory}
    (h : starterGrant env db id = .ok r) : r.1 = grantStore env db id := by
  rw [starterGrant] at h
  simp only at h
  split at h
  · split at h
    · rw [← Except.ok.inj h]
      rfl
    · cases h
  · cases h

lemma storeAfter_loadInventory (env : RedisEnv) (db : Store)
    (h : task.taskID = .requestLoadInventory) :
    storeAfter env db task =
      if db.hgetall (env.replies 0) (invenKey (loadedUser task)) = none then
        grantStore env db (invenKey (loadedUser task))
      else db := by
  rw [storeAfter, taskProcess, h]
  simp only [true_and]
  rw [requestLoadInventory, ← loadedUser]
  simp only
  cases hget : db.hgetall (env.replies 0) (invenKey (loadedUser task)) with
  | none =>
      rw [if_pos rfl]
      cases hgrant : starterGrant env db (invenKey (loadedUser task)) with
      | error e => rfl
      | ok r => exact starterGrant_store hgrant
  | some inven =>
      rw [if_neg (Option.some_ne_none inven)]
      simp only
      cases loadSlots (fun _ => 0) inven <;> rfl

/-- The update of the shop writes to its own key, if at all. -/
lemma storeAfter_shopUpdate (env : RedisEnv) (db : Store)
    (h : task.taskID = .requestShopUpdate) :
    storeAfter env db task = db ∨
      ∃ itemID finalNextTime, storeAfter env db task = shopStore env db itemID finalNextTime := by
  rw [storeAfter, taskProcess, h]
  simp only
  rw [requestShopUpdate_eq]
  cases readNextTime (env.replies 0) db with
  | error e => exact .inl rfl
  | ok storedNextTime =>
      cases readCurrentItem (env.replies 1) db with
      | error e => exact .inl rfl
      | ok currentItemID =>
          simp only [Except.bind, Except.map, updateShop]
          cases shopUpdate env (commandValue task) storedNextTime currentItemID with
          | none => exact .inl rfl
          | some r => exact .inr ⟨r.1, r.2, rfl⟩

/-- A purchase whose inventory is read writes to the first empty slot, if there is one. -/
lemma storeAfter_shopBuy (h : task.taskID = .requestShopBuy) {inven : Inventory}
    (hread : readInventory (env.replies 0) db (boughtBy task) = .ok inven) :
    storeAfter env db task =
      match firstEmptySlot inven with
      | none => db
      | some k => db.hset (env.replies 1) (invenKey (boughtBy task)) (slotField k)
          (toString32 (boughtItem task)) := by
  rw [storeAfter, taskProcess, h]
  simp only
  rw [requestShopBuy_of_read hread]
  cases firstEmptySlot inven <;> rfl

/-! ### What a task keeps -/

/-- Writing to the key of the shop leaves the inventories alone. -/
lemma hashAt_shopStore (itemID : Int32) (finalNextTime : UInt64) (u : Bytes) :
    (shopStore env db itemID finalNextTime).hashAt (invenKey u) = db.hashAt (invenKey u) := by
  rw [shopStore, Store.hashAt_hset_of_ne _ _ _ (cstr_invenKey_ne_shopStateKey u),
    Store.hashAt_hset_of_ne _ _ _ (cstr_invenKey_ne_shopStateKey u)]

lemma keeps_shopUpdate (h : task.taskID = .requestShopUpdate) (named : Option Bytes) :
    Keeps named db (storeAfter env db task) := by
  rcases storeAfter_shopUpdate env db h with heq | ⟨itemID, finalNextTime, heq⟩
  · rw [heq]
    exact .refl named db
  · rw [heq]
    exact .of_hashAt (hashAt_shopStore itemID finalNextTime)

/-- The grant leaves the inventories of the others alone. -/
lemma hashAt_grantStore {u : Bytes} (hu : (0 : UInt8) ∉ u) (huser : (0 : UInt8) ∉ userID)
    (hne : u ≠ userID) :
    (grantStore env db (invenKey userID)).hashAt (invenKey u) = db.hashAt (invenKey u) :=
  hsetAll_induction (P := fun db' => db'.hashAt (invenKey u) = db.hashAt (invenKey u))
    (fun db' reply cmd hcmd hdb' => by
      obtain ⟨n, x, rfl⟩ := mem_grantCommands hcmd
      rw [hashAt_hset_other huser hu hne, hdb']) _ rfl

/-- A load keeps the inventories: the grant is for a user none of whose slots is occupied. -/
lemma keeps_loadInventory (h : task.taskID = .requestLoadInventory)
    (hreply : env.replies 0 = true) :
    Keeps (some (loadedUser task)) db (storeAfter env db task) := by
  rw [storeAfter_loadInventory env db h, hreply]
  split
  · rename_i hnone
    refine .of_user (fun u hu hne => hashAt_grantStore hu (View.zero_notMem_cString 4) hne)
      fun i hi => ?_
    rw [inventoryAt_of_hgetall_none hnone] at hi
    exact absurd rfl hi
  · exact .refl _ db

/-- A purchase keeps the inventories: the slot it writes was empty. -/
lemma keeps_shopBuy (h : task.taskID = .requestShopBuy) (hreply : env.replies 0 = true)
    (hstores : (storedHash db (boughtBy task)).StoresItems) :
    Keeps (some (boughtBy task)) db (storeAfter env db task) := by
  have hread := readInventory_eq hstores (env.replies 0)
  rw [storeAfter_shopBuy h hread, hreply, if_pos rfl]
  cases hfirst : firstEmptySlot (inventoryAt db (boughtBy task)) with
  | none => exact .refl _ db
  | some k =>
      simp only
      refine .of_user (fun u hu hne =>
        hashAt_hset_other (View.zero_notMem_cString 0) hu hne _ _ _) fun i hi => ?_
      by_cases hstring : HoldsNoString db (boughtBy task)
      · cases env.replies 1 with
        | false => rfl
        | true =>
            have hik : i ≠ k := fun heq => hi (heq ▸ firstEmptySlot_eq_zero hfirst)
            rw [inventoryAt_hset_slot hstring, Function.update_of_ne hik]
      · rw [HoldsNoString, not_forall] at hstring
        obtain ⟨s, hs⟩ := hstring
        rw [hset_of_string _ _ _ (not_not.mp hs)]

/-- **One task keeps the inventories**, where its `HGETALL` is answered. -/
theorem keeps_task (hkind : IsUntraded task) (hreply : env.replies 0 = true)
    (hstores : (storedHash db (boughtBy task)).StoresItems) :
    Keeps (namedUser task) db (storeAfter env db task) := by
  rcases hkind with h | h | h | h | h
  · rw [storeAfter, taskProcess, h]
    exact .refl _ db
  · rw [storeAfter, taskProcess, h]
    exact .refl _ db
  · rw [show namedUser task = some (loadedUser task) by rw [namedUser, h]]
    exact keeps_loadInventory h hreply
  · exact keeps_shopUpdate h _
  · rw [show namedUser task = some (boughtBy task) by rw [namedUser, h]]
    exact keeps_shopBuy h hreply hstores

/-! ### What a task leaves canonical -/

/-- A user without an inventory has the empty one, which is canonical. -/
lemma canonicalInventories_iff :
    CanonicalInventories db ↔ ∀ u, (0 : UInt8) ∉ u → (storedHash db u).IsCanonical := by
  refine forall_congr' fun u => imp_congr_right fun _ => ?_
  rw [storedHash]
  cases db.hashAt (invenKey u) with
  | none => simp [Hash.isCanonical_empty]
  | some hash => simp

lemma CanonicalInventories.storesItems (h : CanonicalInventories db)
    (huser : (0 : UInt8) ∉ userID) : (storedHash db userID).StoresItems :=
  (canonicalInventories_iff.mp h userID huser).storesItems

/-- Writing a number to a field of an inventory leaves the inventories canonical. -/
lemma CanonicalInventories.hset (h : CanonicalInventories db) (huser : (0 : UInt8) ∉ userID)
    (reply : Bool) (n x : Int32) :
    CanonicalInventories (db.hset reply (invenKey userID) (toString32 n) (toString32 x)) := by
  rw [canonicalInventories_iff] at h ⊢
  intro u hu
  rcases @storedHash_hset_cases db userID u huser hu reply n x with hsame | hinsert
  · rw [hsame]
    exact h u hu
  · rw [hinsert]
    exact (h u hu).insert n x

/-- Where the inventories do not change they stay canonical. -/
lemma CanonicalInventories.congr (h : CanonicalInventories db)
    (heq : ∀ u, db'.hashAt (invenKey u) = db.hashAt (invenKey u)) : CanonicalInventories db' :=
  fun u hu hash hdb => h u hu hash (by rw [← heq u, hdb])

/-- **One task leaves the inventories canonical.** -/
theorem isCanonical_task (h : CanonicalInventories db) (hkind : IsUntraded task) :
    CanonicalInventories (storeAfter env db task) := by
  rcases hkind with hk | hk | hk | hk | hk
  · rw [storeAfter, taskProcess, hk]
    exact h
  · rw [storeAfter, taskProcess, hk]
    exact h
  · rw [storeAfter_loadInventory env db hk]
    split
    · refine hsetAll_induction (fun db' reply cmd hcmd hdb' => ?_) _ h
      obtain ⟨n, x, rfl⟩ := mem_grantCommands hcmd
      exact hdb'.hset (View.zero_notMem_cString 4) reply n x
    · exact h
  · rcases storeAfter_shopUpdate env db hk with heq | ⟨itemID, time, heq⟩
    · rw [heq]
      exact h
    · rw [heq]
      exact h.congr (hashAt_shopStore itemID time)
  · have hzero : (0 : UInt8) ∉ boughtBy task := View.zero_notMem_cString 0
    rw [storeAfter_shopBuy hk (readInventory_eq (h.storesItems hzero) _)]
    split
    · exact h
    · exact h.hset hzero _ _ _

end Task

/-! ### Runs -/

/-- The Redis thread on a task: it goes on with the database of the outcome, and ends on a
fault. -/
def redisStep (db : Store) (x : RedisEnv × RedisTask) : Option Store :=
  (taskProcess x.1 db x.2).toOption.map RedisOutcome.store

/-- The thread goes on with the database the task leaves. -/
lemma storeAfter_of_redisStep {db db' : Store} {x : RedisEnv × RedisTask}
    (h : redisStep db x = some db') : db' = storeAfter x.1 db x.2 := by
  rw [redisStep] at h
  rw [storeAfter]
  cases hout : taskProcess x.1 db x.2 with
  | error e =>
      rw [hout] at h
      cases h
  | ok out =>
      rw [hout] at h
      exact (Option.some.inj h).symm

/-- **No stored item is lost outside a trade.** Over any run of tasks other than trades whose
first commands are answered, from any database with canonical inventories: every task, also one
that ends in a fault, leaves the occupied slots of all users as they are, and every inventory but
that of the user it names; so in every state of the run the slots occupied at its start hold what
they held. -/
theorem noItemLost (db : Store) (tasks : List (RedisEnv × RedisTask))
    (hdb : CanonicalInventories db) (hkind : ∀ x ∈ tasks, IsUntraded x.2)
    (hreply : ∀ x ∈ tasks, x.1.replies 0 = true) :
    Runs.Along redisStep (fun db x => Keeps (namedUser x.2) db (storeAfter x.1 db x.2)) db tasks ∧
      Runs.Always redisStep (fun db' => ∀ u, (0 : UInt8) ∉ u → ∀ i, inventoryAt db u i ≠ 0 →
        inventoryAt db' u i = inventoryAt db u i) db tasks := by
  have hsteps : Runs.Along redisStep
      (fun _ (x : RedisEnv × RedisTask) => IsUntraded x.2 ∧ x.1.replies 0 = true) db tasks :=
    .of_forall_mem fun x hx _ => ⟨hkind x hx, hreply x hx⟩
  have hkeeps : ∀ (db : Store) (x : RedisEnv × RedisTask), CanonicalInventories db →
      IsUntraded x.2 ∧ x.1.replies 0 = true →
      Keeps (namedUser x.2) db (storeAfter x.1 db x.2) := fun db x h hx =>
    keeps_task hx.1 hx.2 (h.storesItems (View.zero_notMem_cString 0))
  constructor
  · refine Runs.along_of_along hkeeps (fun db x db' h hx hstep => ?_) hdb hsteps
    rw [storeAfter_of_redisStep hstep]
    exact isCanonical_task h hx.1
  · have hboth := Runs.always_of_along (P := fun db' => CanonicalInventories db' ∧
        ∀ u, (0 : UInt8) ∉ u → ∀ i, inventoryAt db u i ≠ 0 →
          inventoryAt db' u i = inventoryAt db u i)
      (fun db₁ x db₂ h hx hstep => by
        rw [storeAfter_of_redisStep hstep]
        refine ⟨isCanonical_task h.1 hx.1, fun u hu i hi => ?_⟩
        have hkept := h.2 u hu i hi
        rw [← hkept] at hi ⊢
        exact (hkeeps db₁ x h.1 hx).occupied u hu i hi)
      ⟨hdb, fun _ _ _ _ => rfl⟩ hsteps
    exact hboth.mono fun _ h => h.2

/-! ### A run -/

lemma isCanonical_inventoryHash (inven : Inventory) : (inventoryHash inven).IsCanonical :=
  fun e he => by
    obtain ⟨i, -, rfl⟩ := List.mem_map.mp he
    exact ⟨⟨Int32.ofNat i.val, rfl⟩, inven i, rfl⟩

lemma canonicalInventories_inventoriesOf (userAID userBID : Bytes) (a b : Inventory) :
    CanonicalInventories (inventoriesOf userAID userBID a b) := by
  intro u hu h hdb
  rw [Store.hashAt, cstr_invenKey hu, inventoriesOf] at hdb
  split_ifs at hdb
  · rw [← Option.some.inj hdb]
    exact isCanonical_inventoryHash a
  · rw [← Option.some.inj hdb]
    exact isCanonical_inventoryHash b

/-- `a` loads its inventory, `a` buys item 103, and `c`, for whom none is stored, loads it. -/
def loadAndBuy : List (RedisEnv × RedisTask) :=
  [(default, { taskID := .requestLoadInventory, pData := View.ofBytes [0, 0, 0, 0, 97] }),
   (default, { taskID := .requestShopBuy
               pData := View.ofBytes (97 :: List.replicate maxUserIdLen 0 ++ [103]) }),
   (default, { taskID := .requestLoadInventory, pData := View.ofBytes [0, 0, 0, 0, 99] })]

/-- Slot zero of `a` and all slots of `b` are occupied, before these tasks and after them. -/
theorem noItemLost_loadAndBuy :
    Runs.Along redisStep (fun db x => Keeps (namedUser x.2) db (storeAfter x.1 db x.2))
        (inventoriesOf [97] [98] (Function.update (fun _ => 0) 0 101) fun _ => 102) loadAndBuy ∧
      Runs.Always redisStep (fun db' => ∀ u, (0 : UInt8) ∉ u → ∀ i,
        inventoryAt (inventoriesOf [97] [98] (Function.update (fun _ => 0) 0 101) fun _ => 102)
          u i ≠ 0 →
        inventoryAt db' u i =
          inventoryAt (inventoriesOf [97] [98] (Function.update (fun _ => 0) 0 101) fun _ => 102)
            u i)
        (inventoriesOf [97] [98] (Function.update (fun _ => 0) 0 101) fun _ => 102) loadAndBuy :=
  noItemLost _ loadAndBuy (canonicalInventories_inventoriesOf _ _ _ _)
    (by simp [loadAndBuy, IsUntraded]) (by simp [loadAndBuy, default])

end CKGameServer
