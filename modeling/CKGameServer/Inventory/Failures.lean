import CKGameServer.Inventory.Frame

/-!
Redis commands that fail in the middle of a task (`TaskProcessThread`): a load, a purchase and a
tick of the shop.

`hget` and `hgetall` answer alike where nothing is stored and where the command failed, and the
writes that follow are issued whatever the replies were.

* `lastWrite`, `inventoryAt_hsetAll`: what `HSET` commands with their replies leave in a slot.
* `occupied_loadInventory_iff`: a load keeps the occupied slots exactly if its `HGETALL` is
  answered or the starter grant happens to leave them.
* `purchaseContained_iff`: a purchase keeps the occupied slots, and says success only for a
  write, exactly if this is committed and the slot it goes to is not occupied by another item;
  `purchaseContained_of_storesItems`: which replies that takes.
* `shopKept_tick_iff`: a tick leaves a shop alone whose deadline has not passed exactly if the
  deadline is read.
-/

namespace CKGameServer

open Memory

/-! ### `HSET` commands on one inventory -/

/-- What the last of some numbered writes to a slot that are answered puts there. -/
def lastWrite (replies : ℕ → Bool) : List (Int32 × Int32) → Fin inventorySize → Option Int32
  | [], _ => none
  | (n, x) :: writes, i =>
    (lastWrite (fun k => replies (k + 1)) writes i).or
      (if replies 0 = true ∧ n = Int32.ofNat i.val then some x else none)

/-- The writes of the starter grant, by field and value. -/
def grantWrites (env : RedisEnv) : List (Int32 × Int32) :=
  ((List.finRange inventorySize).map fun i : Fin inventorySize => (Int32.ofNat i.val, 0)) ++
    [(env.stackInts 0, 101 + Int32.ofNat (env.rand 0 % 5)),
      (Int32.ofNat (starterNums env.dis1 env.dis2.castSucc),
        101 + Int32.ofNat (env.rand 1 % 5))]

/-- What the grant leaves in a slot, if it writes there at all. -/
def grantedItem (env : RedisEnv) (i : Fin inventorySize) : Option Int32 :=
  lastWrite (fun k => env.replies (k + 1)) (grantWrites env) i

section Writes

variable {env : RedisEnv} {db : Store} {task : RedisTask} {userID : Bytes}

lemma HoldsNoString.hset (h : HoldsNoString db userID) (key field value : Bytes) (reply : Bool) :
    HoldsNoString (db.hset reply key field value) userID := by
  intro s hs
  by_cases hkey : cstr (invenKey userID) = cstr key
  · rw [HoldsNoString, hkey] at h
    rw [hkey, Store.hset] at hs
    cases reply with
    | false => exact h s hs
    | true =>
        cases hvalue : db (cstr key) with
        | none => simp [hvalue] at hs
        | some v =>
            cases v with
            | str s' => exact h s' hvalue
            | hash fields => simp [hvalue] at hs
  · rw [Store.hset_of_ne field value reply hkey] at hs
    exact h s hs

lemma inventoryAt_hset_reply (h : HoldsNoString db userID) (reply : Bool) (n x : Int32)
    (i : Fin inventorySize) :
    inventoryAt (db.hset reply (invenKey userID) (toString32 n) (toString32 x)) userID i =
      if reply = true ∧ n = Int32.ofNat i.val then x else inventoryAt db userID i := by
  cases reply with
  | false => simp
  | true => rw [inventoryAt_hset h]; simp

/-- **A slot after some `HSET` commands** on its inventory. -/
theorem inventoryAt_hsetAll (h : HoldsNoString db userID) (replies : ℕ → Bool)
    (writes : List (Int32 × Int32)) (i : Fin inventorySize) :
    inventoryAt (db.hsetAll replies
        (writes.map fun c => (invenKey userID, toString32 c.1, toString32 c.2))) userID i =
      (lastWrite replies writes i).getD (inventoryAt db userID i) := by
  induction writes generalizing db replies with
  | nil => rfl
  | cons c writes ih =>
      obtain ⟨n, x⟩ := c
      rw [List.map_cons, Store.hsetAll, ih (h.hset _ _ _ _), inventoryAt_hset_reply h, lastWrite]
      cases lastWrite (fun k => replies (k + 1)) writes i with
      | some y => rfl
      | none => split <;> rfl

lemma grantCommands_eq (env : RedisEnv) (id : Bytes) :
    grantCommands env id =
      (grantWrites env).map fun c => (id, toString32 c.1, toString32 c.2) := by
  rw [grantCommands, grantWrites, List.map_append, List.map_map]
  rfl

/-- A slot after the grant. -/
lemma inventoryAt_grantStore (h : HoldsNoString db userID) (i : Fin inventorySize) :
    inventoryAt (grantStore env db (invenKey userID)) userID i =
      (grantedItem env i).getD (inventoryAt db userID i) := by
  rw [grantStore, grantCommands_eq, inventoryAt_hsetAll h, grantedItem]

/-- A key that holds a string stores no items. -/
lemma inventoryAt_of_string (h : ¬HoldsNoString db userID) : inventoryAt db userID = fun _ => 0 := by
  rw [HoldsNoString, not_forall] at h
  obtain ⟨s, hs⟩ := h
  rw [inventoryAt_eq_inventory, storedHash, Store.hashAt, not_not.mp hs]
  rfl

/-- A key with an occupied slot holds no string. -/
lemma holdsNoString_of_occupied {i : Fin inventorySize} (h : inventoryAt db userID i ≠ 0) :
    HoldsNoString db userID := by
  by_contra hstring
  exact h (congrFun (inventoryAt_of_string hstring) i)

/-! ### Load -/

/-- **A load keeps the occupied slots** of its user exactly if its `HGETALL` is answered, or
what the grant writes to them is what they hold. -/
theorem occupied_loadInventory_iff (h : task.taskID = .requestLoadInventory) :
    (∀ i, inventoryAt db (loadedUser task) i ≠ 0 →
        inventoryAt (storeAfter env db task) (loadedUser task) i =
          inventoryAt db (loadedUser task) i) ↔
      env.replies 0 = true ∨ ∀ i, inventoryAt db (loadedUser task) i ≠ 0 →
        ∀ x ∈ grantedItem env i, x = inventoryAt db (loadedUser task) i := by
  cases hreply : env.replies 0 with
  | true =>
      have hkeeps : Keeps (some (loadedUser task)) db (storeAfter env db task) :=
        keeps_loadInventory h hreply
      exact iff_of_true (hkeeps.occupied (loadedUser task) (View.zero_notMem_cString 4)) (.inl rfl)
  | false =>
      have hnone : db.hgetall false (invenKey (loadedUser task)) = none := rfl
      rw [storeAfter_loadInventory env db h, hreply, if_pos hnone]
      by_cases hstring : HoldsNoString db (loadedUser task)
      · simp only [inventoryAt_grantStore hstring, Bool.false_eq_true, false_or]
        refine forall_congr' fun i => imp_congr_right fun _ => ?_
        cases grantedItem env i <;> simp
      · simp [inventoryAt_of_string hstring]

/-! ### Purchase -/

/-- The write of a purchase is committed: its `HSET` is answered, and its key holds no string, on
which Redis answers an `HSET` with an error. -/
def PurchaseWritten (env : RedisEnv) (db : Store) (task : RedisTask) : Prop :=
  env.replies 1 = true ∧ HoldsNoString db (boughtBy task)

/-- A purchase that is contained: unless no slot of the array it reads is empty, its write is
committed, and the first empty slot of the array is empty or holds the item already. -/
def PurchaseContained (env : RedisEnv) (db : Store) (task : RedisTask) : Prop :=
  ∀ inven, readInventory (env.replies 0) db (boughtBy task) = .ok inven →
    ∀ k, firstEmptySlot inven = some k → PurchaseWritten env db task ∧
      (inventoryAt db (boughtBy task) k = 0 ∨
        inventoryAt db (boughtBy task) k = boughtItem task)

/-- The branch says that a purchase succeeded. -/
def SaysBought (out : RedisOutcome) : Prop :=
  ∃ r ∈ out.responses, r.taskID = .responseShopBuy ∧ r.pData 0 ≠ 0

lemma saysBought_singleton {store : Store} {requests : List RedisTask} {isSuccess : Bool} :
    SaysBought { store, responses := [shopBuyResponseTask env task isSuccess], requests } ↔
      isSuccess = true := by
  have hbyte : (shopBuyResponseTask env task isSuccess).pData 0 ≠ 0 ↔ isSuccess = true := by
    rw [shopBuyResponseTask, RedisTask.make_pData_lt (by decide), redisShopBuyRes]
    cases isSuccess <;> decide
  constructor
  · rintro ⟨r, hr, -, hsuccess⟩
    rw [List.mem_singleton.mp hr] at hsuccess
    exact hbyte.mp hsuccess
  · intro hsuccess
    exact ⟨_, List.mem_singleton_self _, rfl, hbyte.mpr hsuccess⟩

/-- A purchase for a user whose inventory is read. -/
lemma taskProcess_shopBuy (h : task.taskID = .requestShopBuy) {inven : Inventory}
    (hread : readInventory (env.replies 0) db (boughtBy task) = .ok inven) {out : RedisOutcome}
    (hout : taskProcess env db task = .ok out) :
    SaysBought out ↔ firstEmptySlot inven ≠ none := by
  rw [taskProcess, h] at hout
  simp only at hout
  rw [requestShopBuy_of_read hread] at hout
  rw [← Except.ok.inj hout]
  cases firstEmptySlot inven with
  | none => simp [saysBought_singleton]
  | some k => simp [saysBought_singleton]

/-- A purchase whose inventory cannot be read ends in a fault and changes nothing. -/
lemma taskProcess_shopBuy_error (h : task.taskID = .requestShopBuy) {e : Fault}
    (hread : readInventory (env.replies 0) db (boughtBy task) = .error e) :
    taskProcess env db task = .error e ∧ storeAfter env db task = db := by
  have hprocess : taskProcess env db task = .error e := by
    rw [taskProcess, h]
    exact requestShopBuy_of_error hread
  refine ⟨hprocess, ?_⟩
  rw [storeAfter, hprocess]
  simp [h]

/-- **A purchase says success only for a write that is committed**, and keeps the occupied slots
of its user, exactly if it is contained. -/
theorem purchaseContained_iff (h : task.taskID = .requestShopBuy) :
    (∀ i, inventoryAt db (boughtBy task) i ≠ 0 →
        inventoryAt (storeAfter env db task) (boughtBy task) i =
          inventoryAt db (boughtBy task) i) ∧
      (∀ out, taskProcess env db task = .ok out → SaysBought out → PurchaseWritten env db task) ↔
      PurchaseContained env db task := by
  cases hread : readInventory (env.replies 0) db (boughtBy task) with
  | error e =>
      obtain ⟨hprocess, hstore⟩ := taskProcess_shopBuy_error h hread
      rw [hstore, hprocess]
      refine iff_of_true ⟨fun _ _ => rfl, fun _ hout => by cases hout⟩ fun inven hinven => ?_
      cases hread.symm.trans hinven
  | ok inven =>
      have hok : ∃ out, taskProcess env db task = .ok out := by
        rw [taskProcess, h]
        simp only
        rw [requestShopBuy_of_read hread]
        exact ⟨_, rfl⟩
      obtain ⟨out, hout⟩ := hok
      have hreplied := taskProcess_shopBuy h hread hout
      rw [storeAfter_shopBuy h hread]
      cases hfirst : firstEmptySlot inven with
      | none =>
          rw [hfirst] at hreplied
          refine iff_of_true ⟨fun _ _ => rfl, fun out' hout' hbought => ?_⟩ ?_
          · obtain rfl := Except.ok.inj (hout.symm.trans hout')
            exact absurd rfl (hreplied.mp hbought)
          · intro inven' hinven' k hk
            obtain rfl := Except.ok.inj (hread.symm.trans hinven')
            cases hfirst.symm.trans hk
      | some k =>
          rw [hfirst] at hreplied
          have hsaid : SaysBought out := hreplied.mpr (Option.some_ne_none k)
          simp only
          constructor
          · rintro ⟨hkept, hsuccess⟩ inven' hinven' k' hk'
            obtain rfl := Except.ok.inj (hread.symm.trans hinven')
            obtain rfl := Option.some.inj (hfirst.symm.trans hk')
            have hwrite := hsuccess out hout hsaid
            refine ⟨hwrite, or_iff_not_imp_left.mpr fun hk => ?_⟩
            have hslot := hkept k hk
            rw [hwrite.1, inventoryAt_hset_slot (holdsNoString_of_occupied hk),
              Function.update_self] at hslot
            exact hslot.symm
          · intro hcontained
            obtain ⟨hwrite, hk⟩ := hcontained inven hread k hfirst
            refine ⟨fun i hi => ?_, fun _ _ _ => hwrite⟩
            rw [hwrite.1, inventoryAt_hset_slot (holdsNoString_of_occupied hi), Function.update_apply]
            split
            · rename_i heq
              rw [heq] at hi ⊢
              exact (hk.resolve_left hi).symm
            · rfl

/-- On an inventory whose numbers can be read, an `HGETALL` that is answered finds an empty slot,
and one that fails takes slot zero for empty. -/
lemma purchaseContained_of_storesItems (hstores : (storedHash db (boughtBy task)).StoresItems)
    (hstring : HoldsNoString db (boughtBy task)) :
    PurchaseContained env db task ↔
      if env.replies 0 then (∀ i, inventoryAt db (boughtBy task) i ≠ 0) ∨ env.replies 1 = true
      else env.replies 1 = true ∧ (inventoryAt db (boughtBy task) 0 = 0 ∨
        inventoryAt db (boughtBy task) 0 = boughtItem task) := by
  have hread := readInventory_eq hstores (env.replies 0)
  rw [PurchaseContained, hread]
  simp only [Except.ok.injEq, forall_eq', PurchaseWritten, and_iff_left hstring]
  cases hreply : env.replies 0 with
  | true =>
      simp only [if_true]
      cases hfirst : firstEmptySlot (inventoryAt db (boughtBy task)) with
      | none => simp [firstEmptySlot_eq_none_iff.mp hfirst]
      | some k =>
          have hempty : inventoryAt db (boughtBy task) k = 0 := firstEmptySlot_eq_zero hfirst
          have hnotFull : ¬∀ i, inventoryAt db (boughtBy task) i ≠ 0 := fun hfull =>
            hfull k hempty
          simp [hempty, hnotFull]
  | false =>
      have hfirst : firstEmptySlot (fun _ => 0) = some 0 := rfl
      simp [hfirst]

/-! ### The tick of the shop -/

/-- The shop is left alone: what is stored of it does not change and nothing is announced. -/
def ShopKept (env : RedisEnv) (db : Store) (task : RedisTask) : Prop :=
  (storeAfter env db task).hashAt shopStateKey = db.hashAt shopStateKey ∧
    ∀ out, taskProcess env db task = .ok out →
      ∀ r ∈ out.responses, r.taskID ≠ .responseShopUpdate

/-- A tick does nothing before the deadline it reads. -/
lemma shopUpdate_tick_of_lt {storedNextTime : UInt64} {currentItemID : Int32}
    (hlt : env.now < storedNextTime) : shopUpdate env (-1) storedNextTime currentItemID = none := by
  have hne : storedNextTime ≠ 0 := by
    rintro rfl
    exact absurd hlt (UInt64.not_lt.mpr (UInt64.zero_le))
  rw [shopUpdate]
  simp only
  rw [if_neg (by decide), if_neg (by decide), if_neg]
  rintro ⟨-, hzero | hle⟩
  · exact hne hzero
  · exact absurd hlt (UInt64.not_lt.mpr hle)

/-- A tick that reads no deadline resets the shop. -/
lemma shopUpdate_tick_zero (env : RedisEnv) (currentItemID : Int32) :
    ∃ r, shopUpdate env (-1) 0 currentItemID = some r := by
  rw [shopUpdate]
  simp only
  rw [if_neg (by decide), if_neg (by decide), if_pos ⟨trivial, .inl trivial⟩]
  exact ⟨_, rfl⟩

/-- **A tick before the deadline leaves the shop alone** exactly if the deadline is read, or the
item cannot be read as a number. -/
theorem shopKept_tick_iff (h : task.taskID = .requestShopUpdate) (htick : commandValue task = -1)
    {storedNextTime : UInt64} (hstored : readNextTime true db = .ok storedNextTime)
    (hlt : env.now < storedNextTime) :
    ShopKept env db task ↔
      env.replies 0 = true ∨ ∃ e, readCurrentItem (env.replies 1) db = .error e := by
  have hout : taskProcess env db task = requestShopUpdate env db task := by
    rw [taskProcess, h]
  have hfault : ¬(task.taskID = .requestLoadInventory ∧
      db.hgetall (env.replies 0) (invenKey (loadedUser task)) = none) := by
    rw [h]
    exact fun hload => by cases hload.1
  have hread : ∃ t, readNextTime (env.replies 0) db = .ok t := by
    cases env.replies 0 with
    | true => exact ⟨_, hstored⟩
    | false => exact ⟨0, rfl⟩
  obtain ⟨t, ht⟩ := hread
  rw [ShopKept, storeAfter, if_neg hfault, hout, requestShopUpdate_eq, ht]
  cases hitem : readCurrentItem (env.replies 1) db with
  | error e =>
      refine iff_of_true ⟨rfl, fun out hout' => ?_⟩ (.inr ⟨e, rfl⟩)
      cases hout'
  | ok currentItemID =>
      simp only [Except.bind, Except.map, updateShop, htick]
      cases hreply : env.replies 0 with
      | true =>
          rw [hreply, hstored] at ht
          rw [← Except.ok.inj ht, shopUpdate_tick_of_lt hlt]
          refine iff_of_true ⟨rfl, fun out hout' r hr => ?_⟩ (.inl rfl)
          rw [← Except.ok.inj hout'] at hr
          exact absurd hr List.not_mem_nil
      | false =>
          rw [hreply] at ht
          obtain ⟨r, hr⟩ := shopUpdate_tick_zero env currentItemID
          rw [← Except.ok.inj ht, hr]
          refine iff_of_false (fun hkept => ?_) (fun hcond => ?_)
          · exact hkept.2 _ rfl _ (List.mem_singleton_self _) rfl
          · rcases hcond with hcontra | ⟨e, he⟩
            · cases hcontra
            · cases he

end Writes

end CKGameServer
