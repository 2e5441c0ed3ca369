import CKGameServer.Shop.Reload

/-!
The inventory a new user is given (`TaskProcessThread`, `REQUEST_LOAD_INVENTORY`, the branch for a
user without an inventory).

* `grantAccesses`: the elements of arrays the branch reads and writes. It reads `nums[-1]` before
  anything else; `starterGrant_isOk_iff_inBounds`: whether the grant goes through.
* `lookup_hsetAll`, `field_of_hsetAll`: the fields that `HSET` commands leave.
* `starterGrant_of_slot`, `exists_slot_of_starterGrant`: the grant goes on if `nums[-1]` holds the
  number of a slot, and leaves `ItemSlots` where it does not.
* `GrantDelivers`, `GrantCorrect`: what the grant is for, without and with its bounds.
* `not_grantCorrect`: the grant is never correct; `grantDelivers_iff`: it delivers what it should
  exactly if the number in front of `nums` is a slot other than the second one.
-/

namespace CKGameServer

open Memory

/-! ### Array accesses -/

/-- The elements the branch accesses, by index and size of the array: `nums[first]` with `first`
still `-1`, the two elements that are swapped, `nums[secIndex]`, and the two slots of
`ItemSlots`. -/
def grantAccesses (env : RedisEnv) : List (ℤ × ℕ) :=
  let first : ℤ := -1
  [(first, 5), (env.dis1.val, 5), (4, 5), (env.dis2.val, 5),
    -- `first` is now what `nums[-1]` held
    ((env.stackInts 0).toInt, inventorySize),
    (starterNums env.dis1 env.dis2.castSucc, inventorySize)]

/-- No access is outside its array. -/
def InBounds (accesses : List (ℤ × ℕ)) : Prop := ∀ a ∈ accesses, 0 ≤ a.1 ∧ a.1 < a.2

/-- The swap of two elements that are inside leaves the numbers it found. -/
lemma starterNums_eq_swap (firstIndex i : Fin 5) :
    starterNums firstIndex i = Equiv.swap firstIndex 4 i := by
  rw [starterNums, Equiv.swap_apply_def]
  split_ifs <;> rfl

/-- Behind the accesses to `nums`, the grant goes through exactly if those to `ItemSlots` are
inside. -/
lemma starterGrant_isOk_iff_inBounds (env : RedisEnv) (db : Store) (id : Bytes) :
    (∃ r, starterGrant env db id = .ok r) ↔ InBounds ((grantAccesses env).drop 4) := by
  have hsec : starterNums env.dis1 env.dis2.castSucc < inventorySize := starterNums_lt _ _
  rw [starterGrant_isOk_iff]
  simp only [InBounds, grantAccesses, List.drop_succ_cons, List.drop_zero, List.forall_mem_cons,
    List.not_mem_nil, false_imp_iff, implies_true, and_true]
  exact (and_iff_left ⟨Int.natCast_nonneg _, by exact_mod_cast hsec⟩).symm

/-- `nums[-1]` is outside. -/
lemma not_inBounds_grantAccesses (env : RedisEnv) : ¬InBounds (grantAccesses env) := fun h => by
  have hfirst := (h _ List.mem_cons_self).1
  simp at hfirst

/-- `sec`. -/
def secondSlot (env : RedisEnv) : Fin inventorySize :=
  ⟨starterNums env.dis1 env.dis2.castSucc, starterNums_lt _ _⟩

/-- The inventory the branch answers with, if `first` is slot `i`. -/
def starterInventory (env : RedisEnv) (i : Fin inventorySize) : Inventory :=
  Function.update (Function.update (fun _ => 0) i (101 + Int32.ofNat (env.rand 0 % 5)))
    (secondSlot env) (101 + Int32.ofNat (env.rand 1 % 5))

/-- The hash has a field with its item for each slot, and no other field. -/
structure Hash.Stores (h : Hash) (inven : Inventory) : Prop where
  slot : ∀ i, h.lookup (slotField i) = some (toString32 (inven i))
  field : ∀ e ∈ h.entries, ∃ i, e.1 = slotField i

/-- Exactly two slots hold items, both between 101 and 105. -/
def IsStarter (inven : Inventory) : Prop :=
  ∃ i j, i ≠ j ∧ (101 ≤ (inven i).toInt ∧ (inven i).toInt ≤ 105) ∧
    (101 ≤ (inven j).toInt ∧ (inven j).toInt ≤ 105) ∧ ∀ k, k ≠ i → k ≠ j → inven k = 0

/-- What the grant is for: a starter inventory is stored with all its slots, it is the answer, and
a load of the same user that follows at once answers with it again. -/
def GrantDelivers (env : RedisEnv) (db : Store) (task : RedisTask) : Prop :=
  ∃ inven h out response, IsStarter inven ∧ h.Stores inven ∧
    taskProcess env db task = .ok out ∧
    out.store.hashAt (invenKey (loadedUser task)) = some h ∧ out.responses = [response] ∧
    response.taskID = .responseLoadInventory ∧ response.userIndex = task.userIndex ∧
    itemSlotsAt response.pData = inven ∧
    ∀ next : RedisTask, next.taskID = .requestLoadInventory →
      loadedUser next = loadedUser task → LoadsInventory out.store next inven

/-- The grant does that and stays within its arrays. -/
def GrantCorrect (env : RedisEnv) (db : Store) (task : RedisTask) : Prop :=
  InBounds (grantAccesses env) ∧ GrantDelivers env db task

lemma Hash.Stores.isInventory {h : Hash} {inven : Inventory} (hstores : h.Stores inven) :
    h.IsInventory inven where
  slot i := ⟨_, hstores.slot i, by simp⟩
  field e he := by
    obtain ⟨i, hi⟩ := hstores.field e he
    refine ⟨Int32.ofNat i.val, by rw [hi, cstr_slotField, stoi_slotField], fun j hj => ?_⟩
    rw [slot_toInt] at hj
    rw [hi]
    exact congrArg slotField (Fin.ext (by omega))

/-- The number of a slot is that of no other. -/
lemma ofNat_slot_inj {i j : Fin inventorySize} :
    Int32.ofNat i.val = Int32.ofNat j.val ↔ i = j := by
  rw [eq_slot_iff, slot_toInt, Fin.ext_iff]
  omega

/-- What `101 + (rand() % 5)` can be. -/
lemma starterItem_range (n : ℕ) :
    101 ≤ (101 + Int32.ofNat (n % 5)).toInt ∧ (101 + Int32.ofNat (n % 5)).toInt ≤ 105 := by
  have hall : ∀ k < 5, 101 ≤ (101 + Int32.ofNat k).toInt ∧ (101 + Int32.ofNat k).toInt ≤ 105 := by
    decide
  exact hall _ (Nat.mod_lt n (by omega))

/-- Two different slots make a starter inventory, and one slot does not. -/
lemma isStarter_starterInventory_iff (env : RedisEnv) (i : Fin inventorySize) :
    IsStarter (starterInventory env i) ↔ i ≠ secondSlot env := by
  have hvalue : ∀ k, starterInventory env i k = if k = secondSlot env then
      101 + Int32.ofNat (env.rand 1 % 5) else if k = i then 101 + Int32.ofNat (env.rand 0 % 5)
      else 0 := fun k => by rw [starterInventory, Function.update_apply, Function.update_apply]
  constructor
  · rintro ⟨j, j', hne, hj, hj', -⟩ rfl
    have honly : ∀ k, 101 ≤ (starterInventory env (secondSlot env) k).toInt →
        k = secondSlot env := by
      intro k hk
      by_contra hkne
      rw [hvalue, if_neg hkne, if_neg hkne] at hk
      exact absurd hk (by decide)
    exact hne ((honly j hj.1).trans (honly j' hj'.1).symm)
  · intro hne
    refine ⟨i, secondSlot env, hne, ?_, ?_, fun k hki hks => ?_⟩
    · rw [hvalue, if_neg hne, if_pos rfl]
      exact starterItem_range _
    · rw [hvalue, if_pos rfl]
      exact starterItem_range _
    · rw [hvalue, if_neg hks, if_neg hki]

section Grant

variable {env : RedisEnv} {db : Store} {task : RedisTask} {userID : Bytes}
  {i : Fin inventorySize}

/-! ### The fields that are written -/

/-- **The field of a slot** after some `HSET` commands on its inventory. -/
lemma lookup_hsetAll (h : HoldsNoString db userID) (replies : ℕ → Bool)
    (writes : List (Int32 × Int32)) :
    (storedHash (db.hsetAll replies
        (writes.map fun c => (invenKey userID, toString32 c.1, toString32 c.2))) userID).lookup
          (slotField i) =
      ((lastWrite replies writes i).map toString32).or
        ((storedHash db userID).lookup (slotField i)) := by
  induction writes generalizing db replies with
  | nil => rfl
  | cons c writes ih =>
      obtain ⟨n, x⟩ := c
      rw [List.map_cons, Store.hsetAll, ih (h.hset _ _ _ _), lastWrite]
      have hwrite : (storedHash (db.hset (replies 0) (invenKey userID) (toString32 n)
          (toString32 x)) userID).lookup (slotField i) =
            if replies 0 = true ∧ n = Int32.ofNat i.val then some (toString32 x)
            else (storedHash db userID).lookup (slotField i) := by
        cases replies 0 with
        | false => simp
        | true =>
            rw [storedHash_hset h]
            by_cases hn : n = Int32.ofNat i.val
            · rw [if_pos ⟨rfl, hn⟩, Hash.toString32_eq_slotField_iff.mpr hn, AList.lookup_insert]
            · have hfield : slotField i ≠ toString32 n := fun heq =>
                hn (Hash.toString32_eq_slotField_iff.mp heq.symm)
              rw [if_neg fun hand => hn hand.2, AList.lookup_insert_ne hfield]
      rw [hwrite]
      cases lastWrite (fun k => replies (k + 1)) writes i with
      | some y => rfl
      | none => split <;> rfl

/-- A field after some `HSET` commands was there before or is written by one of them. -/
lemma field_of_hsetAll (h : HoldsNoString db userID) (replies : ℕ → Bool)
    (writes : List (Int32 × Int32)) {e : (_ : Bytes) × Bytes}
    (he : e ∈ (storedHash (db.hsetAll replies
      (writes.map fun c => (invenKey userID, toString32 c.1, toString32 c.2))) userID).entries) :
    e ∈ (storedHash db userID).entries ∨ ∃ c ∈ writes, e.1 = toString32 c.1 := by
  induction writes generalizing db replies with
  | nil => exact .inl he
  | cons c writes ih =>
      rcases ih (h.hset _ _ _ _) _ he with hbefore | ⟨c', hc', heq⟩
      · cases hreply : replies 0 with
        | false =>
            rw [hreply, hset_false] at hbefore
            exact .inl hbefore
        | true =>
            rw [hreply, storedHash_hset h, AList.entries_insert] at hbefore
            rcases List.mem_cons.mp hbefore with rfl | hbefore
            · exact .inr ⟨c, List.mem_cons_self, rfl⟩
            · exact .inl ((List.kerase_sublist _ _).subset hbefore)
      · exact .inr ⟨c', List.mem_cons_of_mem c hc', heq⟩

/-! ### The grant -/

/-- Where `nums[-1]` holds the number of a slot the grant goes on. -/
lemma starterGrant_of_slot (hfirst : env.stackInts 0 = Int32.ofNat i.val) (id : Bytes) :
    starterGrant env db id = .ok (grantStore env db id, starterInventory env i) := by
  have hvalue := eq_slot_iff.mp hfirst
  have hi := i.isLt
  have hslot : (⟨(env.stackInts 0).toInt.toNat, by omega⟩ : Fin inventorySize) = i :=
    Fin.ext (by simp only; omega)
  rw [starterGrant]
  simp only
  rw [dif_pos (by omega), dif_pos (starterNums_lt _ _), hslot]
  rfl

/-- Where it goes on `nums[-1]` holds the number of a slot. -/
lemma exists_slot_of_starterGrant {id : Bytes} {r : Store × Inventory}
    (h : starterGrant env db id = .ok r) :
    ∃ i : Fin inventorySize, env.stackInts 0 = Int32.ofNat i.val := by
  have hrange := (starterGrant_isOk_iff env db id).mp ⟨r, h⟩
  exact ⟨⟨(env.stackInts 0).toInt.toNat, by omega⟩, eq_slot_iff.mpr (by simp only; omega)⟩

/-- What the grant leaves in a slot, if all its commands are answered. -/
lemma grantedItem_eq (hreplies : ∀ k, env.replies k = true)
    (hfirst : env.stackInts 0 = Int32.ofNat i.val) (k : Fin inventorySize) :
    grantedItem env k = some (starterInventory env i k) := by
  rw [grantedItem_of_replies (fun j _ => hreplies (j + 1)), starterInventory,
    Function.update_apply, Function.update_apply, hfirst]
  have hsecond : Int32.ofNat (starterNums env.dis1 env.dis2.castSucc) = Int32.ofNat k.val ↔
      k = secondSlot env := by
    rw [eq_comm (a := k)]
    exact @ofNat_slot_inj (secondSlot env) k
  rw [if_congr hsecond rfl (if_congr (ofNat_slot_inj.trans eq_comm) rfl rfl)]

/-- The grant stores the inventory it answers with. -/
lemma grantStore_stores (hreplies : ∀ k, env.replies k = true)
    (hfirst : env.stackInts 0 = Int32.ofNat i.val)
    (hnone : db (cstr (invenKey userID)) = none) :
    ∃ h, (grantStore env db (invenKey userID)).hashAt (invenKey userID) = some h ∧
      h.Stores (starterInventory env i) := by
  have hkey : HoldsNoString db userID := fun s hs => by
    rw [hnone] at hs
    cases hs
  have hempty : storedHash db userID = ∅ := by rw [storedHash, Store.hashAt, hnone]; rfl
  have hlookup : ∀ k, (storedHash (grantStore env db (invenKey userID)) userID).lookup
      (slotField k) = some (toString32 (starterInventory env i k)) := fun k => by
    rw [grantStore, grantCommands_eq, lookup_hsetAll hkey, ← grantedItem,
      grantedItem_eq hreplies hfirst]
    rfl
  have hfield : ∀ e ∈ (storedHash (grantStore env db (invenKey userID)) userID).entries,
      ∃ k, e.1 = slotField k := by
    intro e he
    rw [grantStore, grantCommands_eq] at he
    rcases field_of_hsetAll hkey _ _ he with hbefore | ⟨c, hc, heq⟩
    · rw [hempty] at hbefore
      cases hbefore
    · rw [grantWrites] at hc
      rcases List.mem_append.mp hc with hc | hc
      · obtain ⟨k, -, rfl⟩ := List.mem_map.mp hc
        exact ⟨k, heq⟩
      · rcases List.mem_pair.mp hc with rfl | rfl
        · exact ⟨i, heq.trans (congrArg toString32 hfirst)⟩
        · exact ⟨secondSlot env, heq⟩
  rw [storedHash] at hlookup hfield
  cases hstored : (grantStore env db (invenKey userID)).hashAt (invenKey userID) with
  | none =>
      rw [hstored] at hlookup
      exact absurd (hlookup 0) (by simp)
  | some h =>
      rw [hstored] at hlookup hfield
      exact ⟨h, rfl, hlookup, hfield⟩

/-- A load for a user without an inventory. -/
lemma taskProcess_of_none (hid : task.taskID = .requestLoadInventory)
    (hnone : db (cstr (invenKey (loadedUser task))) = none) :
    taskProcess env db task =
      (starterGrant env db (invenKey (loadedUser task))).map fun r =>
        { store := r.1
          responses :=
            [RedisTask.make task.userIndex .responseLoadInventory redisInvenResSize
              (redisInvenRes (int32At task.pData 0) r.2) env.heap] } := by
  have hget : db.hgetall (env.replies 0) (invenKey (loadedUser task)) = none := by
    rw [Store.hgetall, Store.hashAt, hnone]
    exact ite_self none
  rw [taskProcess, hid]
  simp only
  rw [requestLoadInventory, ← loadedUser]
  simp only [hget]

/-- Where the number in front of `nums` is a slot other than the second one, the grant delivers. -/
lemma grantDelivers_of_slot (hid : task.taskID = .requestLoadInventory)
    (hnone : db (cstr (invenKey (loadedUser task))) = none)
    (hreplies : ∀ k, env.replies k = true) (hfirst : env.stackInts 0 = Int32.ofNat i.val)
    (hne : i ≠ secondSlot env) : GrantDelivers env db task := by
  have hrun := @taskProcess_of_none env db task hid hnone
  rw [starterGrant_of_slot hfirst] at hrun
  obtain ⟨h, hstored, hstores⟩ := grantStore_stores hreplies hfirst hnone
  refine ⟨_, h, _, _, (isStarter_starterInventory_iff env i).mpr hne, hstores, hrun, hstored, rfl,
    rfl, rfl, itemSlotsAt_loadResponse, fun next hnext huser => ?_⟩
  have hfields : h.entries ≠ [] :=
    List.ne_nil_of_mem (AList.mem_lookup_iff.mp (hstores.slot 0))
  exact loadsInventory_of_stored hnext (huser ▸ hstored) hfields
    (loadSlots_isInventory hstores.isInventory _)

/-- Only there. -/
lemma exists_slot_of_grantDelivers (hid : task.taskID = .requestLoadInventory)
    (hnone : db (cstr (invenKey (loadedUser task))) = none) (h : GrantDelivers env db task) :
    ∃ i : Fin inventorySize, env.stackInts 0 = Int32.ofNat i.val ∧ i ≠ secondSlot env := by
  obtain ⟨inven, -, out, response, hstarter, -, hout, -, hresponses, -, -, hslots, -⟩ := h
  rw [taskProcess_of_none hid hnone] at hout
  obtain ⟨r, hgrant, rfl⟩ := exists_of_map_eq_ok hout
  obtain ⟨i, hfirst⟩ := exists_slot_of_starterGrant hgrant
  rw [starterGrant_of_slot hfirst, Except.ok.injEq] at hgrant
  rw [← List.singleton_inj.mp hresponses, itemSlotsAt_loadResponse, ← hgrant] at hslots
  rw [← hslots, isStarter_starterInventory_iff] at hstarter
  exact ⟨i, hfirst, hstarter⟩

end Grant

/-! ### Right and wrong grants -/

/-- **The starter grant is never correct**, for no user without an inventory and no outcome of the
generators: it reads `nums[-1]`. With all commands answered it delivers an inventory exactly if the
number that stands there is a slot other than the second one. -/
theorem not_grantCorrect (env : RedisEnv) (db : Store) (task : RedisTask)
    (hid : task.taskID = .requestLoadInventory)
    (hnone : db (cstr (invenKey (loadedUser task))) = none) :
    ¬GrantCorrect env db task ∧ ((∀ k, env.replies k = true) →
      (GrantDelivers env db task ↔
        ∃ i : Fin inventorySize, env.stackInts 0 = Int32.ofNat i.val ∧ i ≠ secondSlot env)) := by
  refine ⟨fun h => not_inBounds_grantAccesses env h.1, fun hreplies => ?_⟩
  constructor
  · exact exists_slot_of_grantDelivers hid hnone
  · rintro ⟨i, hfirst, hne⟩
    exact grantDelivers_of_slot hid hnone hreplies hfirst hne

/-- `a` loads its inventory for the first time. -/
def firstLoad : RedisTask where
  taskID := .requestLoadInventory
  dataSize := redisInvenReqSize
  pData := View.ofBytes [0, 0, 0, 0, 97]

/-- Zero stands in front of `nums`, and the items are put into slots zero and four. -/
theorem grantDelivers_zero :
    ¬GrantCorrect default (fun _ => none) firstLoad ∧
      GrantDelivers default (fun _ => none) firstLoad := by
  obtain ⟨hnot, hdelivers⟩ := not_grantCorrect default (fun _ => none) firstLoad rfl rfl
  exact ⟨hnot, (hdelivers fun _ => rfl).mpr ⟨0, rfl, by decide⟩⟩

/-- Seven stands there: the first item is written behind `ItemSlots`. -/
theorem starterGrant_outside :
    ¬GrantCorrect { stackInts := fun _ => 7 } (fun _ => none) firstLoad ∧
      taskProcess { stackInts := fun _ => 7 } (fun _ => none) firstLoad = .error .arrayBounds := by
  refine ⟨fun h => not_inBounds_grantAccesses _ h.1, ?_⟩
  rw [taskProcess_of_none rfl rfl]
  rfl

end CKGameServer
