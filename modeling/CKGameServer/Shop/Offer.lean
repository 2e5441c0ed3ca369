import CKGameServer.Shop.Schedule
import CKGameServer.Trade.Failures

/-!
What the shop sells (`ProcessShopBuyRequest`, the `REQUEST_SHOP_BUY` branch of the Redis thread).

The branch adds the item its task names; it does not look at `game:shop_state`, and the task is a
block that `ProcessShopBuyRequest` does not write.

* `offeredItem`: the item the shop offers.
* `sellsOffer_iff`: one purchase adds the item on offer exactly if the block of its task holds it.
* `offerValid_task`: the item on offer stays a valid one.
* `World.soldItems_iff`: both over a run of the system.
* `World.sells_unwritten_item`: a purchase adds an item that is not on offer.
-/

namespace CKGameServer

open Memory

/-- `current_item`, where it is stored as a number. -/
def offeredItem (db : Store) : Option Int32 :=
  (db.hget true shopStateKey currentItemField).bind fun value => (stoi value).toOption

/-- The numbers of `ItemID`. -/
def IsItemID (itemID : Int32) : Prop := 101 ≤ itemID.toInt ∧ itemID.toInt ≤ 105

instance (itemID : Int32) : Decidable (IsItemID itemID) := inferInstanceAs (Decidable (_ ∧ _))

/-- What the shop offers is an item. -/
def OfferValid (db : Store) : Prop := ∀ itemID, offeredItem db = some itemID → IsItemID itemID

/-- A purchase that succeeds adds the item on offer: no slot of an inventory changes but to it. -/
def SellsOffer (env : RedisEnv) (db : Store) (task : RedisTask) : Prop :=
  task.taskID = .requestShopBuy → ∀ out, taskProcess env db task = .ok out → SaysBought out →
    ∀ u, (0 : UInt8) ∉ u → ∀ i, inventoryAt out.store u i ≠ inventoryAt db u i →
      offeredItem db = some (inventoryAt out.store u i)

/-- Where a purchase finds an empty slot, its `HSET` takes place and what it writes is new to the
slot, the block of the task holds the item on offer. -/
def BlockHoldsOffer (env : RedisEnv) (db : Store) (task : RedisTask) : Prop :=
  task.taskID = .requestShopBuy → ∀ inven k,
    readInventory (env.replies 0) db (boughtBy task) = .ok inven → firstEmptySlot inven = some k →
    env.replies 1 = true → HoldsNoString db (boughtBy task) →
    boughtItem task ≠ inventoryAt db (boughtBy task) k → offeredItem db = some (boughtItem task)

section Tasks

variable {env : RedisEnv} {db : Store} {task : RedisTask}

/-- The inventories after a purchase that finds an empty slot. -/
lemma taskProcess_shopBuy_of_empty (h : task.taskID = .requestShopBuy) {inven : Inventory}
    {k : Fin inventorySize}
    (hread : readInventory (env.replies 0) db (boughtBy task) = .ok inven)
    (hempty : firstEmptySlot inven = some k) :
    ∃ out, taskProcess env db task = .ok out ∧ SaysBought out ∧
      out.store = db.hset (env.replies 1) (invenKey (boughtBy task)) (slotField k)
        (toString32 (boughtItem task)) := by
  have hrun := requestShopBuy_of_read hread
  rw [hempty] at hrun
  refine ⟨_, by rw [taskProcess, h]; exact hrun, saysBought_singleton.mpr rfl, rfl⟩

/-- **One purchase** adds the item on offer exactly if the block of its task holds it. -/
theorem sellsOffer_iff (env : RedisEnv) (db : Store) (task : RedisTask) :
    SellsOffer env db task ↔ BlockHoldsOffer env db task := by
  have huser : (0 : UInt8) ∉ boughtBy task := View.zero_notMem_cString 0
  constructor
  · intro h hid inven k hread hempty hreply hstring hnew
    obtain ⟨out, hout, hbought, hstore⟩ := taskProcess_shopBuy_of_empty hid hread hempty
    rw [hreply] at hstore
    have hslot : inventoryAt out.store (boughtBy task) k = boughtItem task := by
      rw [hstore, inventoryAt_hset_slot hstring, Function.update_self]
    rw [← hslot] at hnew ⊢
    exact h hid out hout hbought _ huser k hnew
  · intro h hid out hout hbought u hu i hchanged
    cases hread : readInventory (env.replies 0) db (boughtBy task) with
    | error e =>
        rw [taskProcess, hid] at hout
        simp only at hout
        rw [requestShopBuy_of_error hread] at hout
        cases hout
    | ok inven =>
        cases hempty : firstEmptySlot inven with
        | none => exact absurd hempty ((taskProcess_shopBuy hid hread hout).mp hbought)
        | some k =>
            obtain ⟨out', hout', -, hstore⟩ := taskProcess_shopBuy_of_empty hid hread hempty
            obtain rfl := Except.ok.inj (hout'.symm.trans hout)
            cases hreply : env.replies 1 with
            | false =>
                rw [hstore, hreply, hset_false] at hchanged
                exact absurd rfl hchanged
            | true =>
                rw [hreply] at hstore
                by_cases hstring : HoldsNoString db (boughtBy task)
                · rw [hstore, inventoryAt_hset_user hstring huser hu] at hchanged ⊢
                  split at hchanged
                  · rename_i hslot
                    obtain ⟨rfl, rfl⟩ := hslot
                    rw [if_pos ⟨rfl, rfl⟩]
                    exact h hid inven i hread hempty hreply hstring hchanged
                  · exact absurd rfl hchanged
                · rw [HoldsNoString, not_forall] at hstring
                  obtain ⟨s, hs⟩ := hstring
                  rw [hstore, hset_of_string _ _ _ (not_not.mp hs)] at hchanged
                  exact absurd rfl hchanged

/-! ### The item on offer -/

lemma isItemID_resetItem (env : RedisEnv) : IsItemID (resetItem env) := by
  have hlt : env.rand 0 % 5 < 5 := Nat.mod_lt _ (by decide)
  rw [resetItem]
  generalize env.rand 0 % 5 = n at hlt
  have hall : ∀ n < 5, IsItemID (101 + Int32.ofNat n) := by decide
  exact hall n hlt

/-- An update puts up the item it has read, or a new one. -/
lemma shopUpdate_item {commandValue itemID item : Int32} {storedNextTime next : UInt64}
    (h : shopUpdate env commandValue storedNextTime itemID = some (item, next)) :
    item = itemID ∨ item = resetItem env := by
  rw [shopUpdate] at h
  simp only at h
  split_ifs at h with hreset hhours hless htick
  all_goals obtain ⟨rfl, -⟩ := Prod.mk.inj (Option.some.inj h)
  · exact .inr rfl
  · exact .inl rfl
  · exact .inl rfl
  · exact .inr rfl

/-- The item on offer after the two `HSET` commands of an update. -/
lemma offeredItem_shopStore (env : RedisEnv) (db : Store) (itemID : Int32) (next : UInt64) :
    offeredItem (shopStore env db itemID next) = some itemID ∨
      offeredItem (shopStore env db itemID next) = offeredItem db := by
  by_cases hstring : ∃ s, db (cstr shopStateKey) = some (.str s)
  · obtain ⟨s, hs⟩ := hstring
    rw [shopStore, hset_of_string _ _ _ hs, hset_of_string _ _ _ hs]
    exact .inr rfl
  · rw [not_exists] at hstring
    have hne : cstr currentItemField ≠ cstr nextUpdateField := by decide
    have hnext : offeredItem (shopStore env db itemID next) = offeredItem
        (db.hset (env.replies 2) shopStateKey currentItemField (toString32 itemID)) := by
      rw [shopStore, offeredItem]
      cases env.replies 3 with
      | false => rfl
      | true => rw [hget_hset (hset_ne_str hstring _ _ _), if_neg hne, offeredItem]
    rw [hnext]
    cases env.replies 2 with
    | false => exact .inr rfl
    | true =>
        refine .inl ?_
        rw [offeredItem, hget_hset hstring, if_pos rfl, cstr_toString32, cstr_toString32,
          Option.bind_some, stoi_toString32]
        rfl

/-- An item that is read is the one on offer, or 101 where none is read. -/
lemma readCurrentItem_cases {reply : Bool} {itemID : Int32}
    (h : readCurrentItem reply db = .ok itemID) : itemID = 101 ∨ offeredItem db = some itemID := by
  rw [readCurrentItem] at h
  split at h
  · exact .inl (Except.ok.inj h).symm
  · rename_i hne
    cases reply with
    | false => exact absurd rfl hne
    | true =>
        cases hget : db.hget true shopStateKey currentItemField with
        | none =>
            rw [hget] at hne
            exact absurd rfl hne
        | some value =>
            rw [hget, Option.getD_some] at h
            refine .inr ?_
            rw [offeredItem, hget, Option.bind_some, h]
            rfl

/-- **The item on offer stays valid**, whatever task the Redis thread takes and whatever Redis
answers. -/
theorem offerValid_task (h : OfferValid db) {out : RedisOutcome}
    (hout : taskProcess env db task = .ok out) : OfferValid out.store := by
  by_cases hid : task.taskID = .requestShopUpdate
  · rw [taskProcess, hid] at hout
    simp only at hout
    rw [requestShopUpdate_eq] at hout
    obtain ⟨storedNextTime, -, hmap⟩ := exists_of_bind_eq_ok hout
    obtain ⟨itemID, hread, rfl⟩ := exists_of_map_eq_ok hmap
    rw [updateShop]
    cases hupdate : shopUpdate env (commandValue task) storedNextTime itemID with
    | none => exact h
    | some p =>
        obtain ⟨item, next⟩ := p
        intro x hx
        rcases offeredItem_shopStore env db item next with hnew | hold
        · obtain rfl := Option.some.inj (hnew.symm.trans hx)
          rcases shopUpdate_item hupdate with rfl | rfl
          · rcases readCurrentItem_cases hread with rfl | hoffer
            · decide
            · exact h _ hoffer
          · exact isItemID_resetItem env
        · exact h x (hold.symm.trans hx)
  · obtain ⟨hkept, -⟩ : ShopKept env db task := shopKept_of_ne hid
    rw [storeAfter_of_ok hout] at hkept
    intro x hx
    refine h x ?_
    rwa [offeredItem, Store.hget, hkept] at hx

end Tasks

/-! ### The system -/

namespace World

/-- Every purchase the Redis thread carries out adds the item on offer. -/
def PurchasesSellOffer (w : World) (e : Event) : Prop :=
  ∀ env, e = .redisTask env → SellsOffer env w.store w.server.takeRequestTask.1

/-- The block of every purchase that adds something holds the item on offer. -/
def BlocksHoldOffer (w : World) (e : Event) : Prop :=
  ∀ env, e = .redisTask env → BlockHoldsOffer env w.store w.server.takeRequestTask.1

/-- **What the shop sells.** In any run from the start of the server every purchase that succeeds
adds the item on offer exactly if the block of its task, which `ProcessShopBuyRequest` does not
write, holds that item whenever something is added. What is on offer is one of the items of
`ItemID` throughout the run if it is at the start, as where no shop is stored. -/
theorem soldItems_iff (maxClient : ℕ) (memory : ℕ → View) (store : Store) (es : List Event) :
    (Runs.Along step PurchasesSellOffer (init maxClient memory store) es ↔
      Runs.Along step BlocksHoldOffer (init maxClient memory store) es) ∧
    (OfferValid store →
      Runs.Always step (fun w => OfferValid w.store) (init maxClient memory store) es) := by
  constructor
  · exact Runs.along_iff_along (P := fun _ => True)
      (fun w e _ => forall₂_congr fun env _ => sellsOffer_iff env w.store _)
      (fun _ _ _ _ _ _ => trivial) es trivial
  · intro hvalid
    refine Runs.always_of_step (fun w e w' hw h => ?_) es hvalid
    by_cases he : ∃ env, e = .redisTask env
    · obtain ⟨env, rfl⟩ := he
      obtain ⟨out, hout, rfl⟩ := exists_taskProcess h
      exact offerValid_task hw hout
    · rw [not_exists] at he
      rw [store_of_step h he]
      exact hw

/-- The client with index 0 asks for item 101, and the block of its purchase, which nobody
writes, names `a` and item 102. -/
def unwrittenPurchase : List Event :=
  [.receive 0 ⟨[17, 0, 47, 1, 0, 0, 0, 0, 0, 0, 0, 0, 0, 101, 0, 0, 0], by decide⟩,
    .clientPacket { heap := fun _ => View.ofBytes (97 :: List.replicate maxUserIdLen 0 ++ [102]) }]

/-- The shop offers item 101 and sells item 102. -/
theorem sells_unwritten_item :
    ¬∀ (maxClient : ℕ) (memory : ℕ → View) (store : Store) (es : List Event),
      Runs.Along step PurchasesSellOffer (init maxClient memory store) es := by
  intro h
  have htask : (Runs.run step (init 3 (fun _ _ => 0) letterShopStore) unwrittenPurchase).map
      (fun w => (w.server.takeRequestTask.1.taskID, boughtBy w.server.takeRequestTask.1,
        boughtItem w.server.takeRequestTask.1)) = some (.requestShopBuy, [97], 102) := by
    decide +kernel
  obtain ⟨w, hw, htask⟩ := Option.map_eq_some_iff.mp htask
  obtain ⟨hid, hby, hitem⟩ : w.server.takeRequestTask.1.taskID = .requestShopBuy ∧
      boughtBy w.server.takeRequestTask.1 = [97] ∧
      boughtItem w.server.takeRequestTask.1 = 102 := by simpa using htask
  have hstore : (Runs.run step (init 3 (fun _ _ => 0) letterShopStore) unwrittenPurchase).map
      (fun w => w.store) = some letterShopStore := rfl
  rw [hw, Option.map_some, Option.some.injEq] at hstore
  have hsells := (h 3 (fun _ _ => 0) letterShopStore
    (unwrittenPurchase ++ Event.redisTask default :: [])).of_run hw default rfl
  rw [hstore, sellsOffer_iff] at hsells
  have hread : readInventory true letterShopStore [97] =
      .ok (inventoryAt letterShopStore [97]) :=
    (purchaseRequest_letter 0).readInventory_eq true
  rw [← hby] at hread
  have hoffer := hsells hid _ 0 hread (by rw [hby]; decide) rfl (by rw [hby]; decide)
    (by rw [hby, hitem]; decide)
  rw [hitem] at hoffer
  have hoffered : offeredItem letterShopStore = some 101 := by decide
  cases hoffered.symm.trans hoffer

end World

end CKGameServer
