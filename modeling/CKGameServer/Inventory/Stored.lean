import CKGameServer.Trade.Inventory

/-!
What the keys of inventories hold, and what the commands of the Redis thread do to it.

* `Hash.inventory`: the inventory a hash stores; a slot without a field is empty.
* `Hash.StoresItems`: a hash whose numbers can be read; `loadSlots_inventory`: the loop of the
  Redis thread reads its inventory.
* `inventoryAt_hset`, `inventoryAt_hset_of_ne`: what an `HSET` does to the inventory of its user
  and to those of the others.
* `readInventory`: an inventory as a branch reads it, with the reply of its `HGETALL`;
  `readInventory_eq`: an error reads like an empty inventory.
-/

namespace CKGameServer

open Memory

/-! ### Hashes -/

namespace Hash

/-- The inventory a hash stores. -/
def inventory (h : Hash) : Inventory := fun i =>
  match h.lookup (slotField i) with
  | none => 0
  | some value => (stoi (cstr value)).toOption.getD 0

/-- Every field is a number; a field that is the number of a slot is written without sign, zeros
or spaces in front, and holds a number. -/
def StoresItems (h : Hash) : Prop :=
  ∀ e ∈ h.entries, ∃ n, stoi (cstr e.1) = .ok n ∧
    ∀ i : Fin inventorySize, n.toInt = i.val → e.1 = slotField i ∧ ∃ x, stoi (cstr e.2) = .ok x

instance (h : Hash) : Decidable h.StoresItems :=
  inferInstanceAs (Decidable (∀ e ∈ h.entries, ∃ n, stoi (cstr e.1) = .ok n ∧ _))

/-- Fields and values are `int`s as `std::to_string` writes them. -/
def IsCanonical (h : Hash) : Prop :=
  ∀ e ∈ h.entries, (∃ n, e.1 = toString32 n) ∧ ∃ x, e.2 = toString32 x

variable {h : Hash}

lemma StoresItems.of_isInventory {inven : Inventory} (hinv : h.IsInventory inven) :
    h.StoresItems := fun e he => by
  obtain ⟨n, hn, hfield⟩ := hinv.field e he
  refine ⟨n, hn, fun i hi => ⟨hfield i hi, inven i, ?_⟩⟩
  obtain ⟨value, hlookup, hvalue⟩ := hinv.slot i
  have hmem : (⟨slotField i, e.2⟩ : (_ : Bytes) × Bytes) ∈ h.entries := by
    rw [← hfield i hi]
    exact he
  have hlookup' := AList.mem_lookup_iff.mpr hmem
  rw [hlookup, Option.mem_def, Option.some.injEq] at hlookup'
  rw [← hlookup']
  exact hvalue

/-- The number of a slot as an `int`. -/
lemma eq_ofNat_of_toInt {n : Int32} {i : Fin inventorySize} (h : n.toInt = i.val) :
    n = Int32.ofNat i.val := by
  rw [← Int32.toInt_inj, h, slot_toInt]

lemma IsCanonical.storesItems (hcan : h.IsCanonical) : h.StoresItems := fun e he => by
  obtain ⟨⟨n, hn⟩, x, hx⟩ := hcan e he
  refine ⟨n, by rw [hn, cstr_toString32, stoi_toString32], fun i hi => ⟨?_, x, ?_⟩⟩
  · rw [hn, eq_ofNat_of_toInt hi, slotField]
  · rw [hx, cstr_toString32, stoi_toString32]

/-- The value a hash has in a slot reads back as the item there. -/
lemma StoresItems.stoi_value (hstores : h.StoresItems) {i : Fin inventorySize} {value : Bytes}
    (hlookup : h.lookup (slotField i) = some value) :
    stoi (cstr value) = .ok (h.inventory i) := by
  obtain ⟨n, hn, hslot⟩ := hstores _ (AList.mem_lookup_iff.mp hlookup)
  have hni : n.toInt = i.val := by
    rw [show cstr (slotField i) = slotField i from cstr_slotField i, stoi_slotField] at hn
    rw [← Except.ok.inj hn, slot_toInt]
  obtain ⟨-, x, hx⟩ := hslot i hni
  have hx' : stoi (cstr value) = .ok x := hx
  rw [inventory, hlookup]
  simp only [hx', Except.toOption, Option.getD_some]

/-- The numbers of the map of a hash are those of its inventory. -/
lemma StoresItems.stoi_map (hstores : h.StoresItems) :
    ∀ e ∈ getArryToMap h, ∃ n, stoi e.1 = .ok n ∧
      ∀ i : Fin inventorySize, n.toInt = i.val → stoi e.2 = .ok (h.inventory i) := by
  intro e he
  obtain ⟨e₀, he₀, rfl⟩ := mem_getArryToMap he
  obtain ⟨n, hn, hslot⟩ := hstores e₀ he₀
  refine ⟨n, hn, fun i hi => hstores.stoi_value ?_⟩
  have hmem : (⟨slotField i, e₀.2⟩ : (_ : Bytes) × Bytes) ∈ h.entries := by
    rw [← (hslot i hi).1]
    exact he₀
  exact AList.mem_lookup_iff.mpr hmem

/-- A slot that no key of the map names is empty. -/
lemma inventory_eq_zero_of_keys {i : Fin inventorySize}
    (hkeys : ∀ e ∈ getArryToMap h, ∀ n, stoi e.1 = .ok n → n.toInt ≠ i.val) :
    h.inventory i = 0 := by
  rw [inventory]
  cases hlookup : h.lookup (slotField i) with
  | none => rfl
  | some value =>
      obtain ⟨v, hv⟩ := key_mem_getArryToMap (AList.mem_lookup_iff.mp hlookup)
      exact absurd (slot_toInt i) (hkeys _ hv _ (by simp))

/-- **The loop over the map of a hash reads its inventory.** -/
theorem StoresItems.loadSlots_inventory (hstores : h.StoresItems) :
    loadSlots (fun _ => 0) (getArryToMap h) = .ok h.inventory := by
  obtain ⟨slots, hload, hslots⟩ := loadSlots_spec (fun _ => 0) hstores.stoi_map
  rw [hload]
  congr 1
  funext i
  rcases hslots i with hread | ⟨hkeep, hkeys⟩
  · exact hread
  · rw [hkeep, inventory_eq_zero_of_keys hkeys]

/-- Read into an array that holds anything, an occupied slot gets its item. -/
lemma StoresItems.loadSlots_occupied (hstores : h.StoresItems) {slots slots' : Inventory}
    (hload : loadSlots slots (getArryToMap h) = .ok slots') {i : Fin inventorySize}
    (hi : h.inventory i ≠ 0) : slots' i = h.inventory i := by
  obtain ⟨slots'', hload', hslots⟩ := loadSlots_spec slots hstores.stoi_map
  obtain rfl := Except.ok.inj (hload.symm.trans hload')
  exact (hslots i).resolve_right fun ⟨_, hkeys⟩ => hi (inventory_eq_zero_of_keys hkeys)

lemma toString32_eq_slotField_iff {n : Int32} {i : Fin inventorySize} :
    toString32 n = slotField i ↔ n = Int32.ofNat i.val :=
  toString32_injective.eq_iff

/-- What an insertion does to the inventory. -/
lemma inventory_insert (h : Hash) (n x : Int32) (i : Fin inventorySize) :
    inventory (AList.insert (toString32 n) (toString32 x) h) i =
      if n = Int32.ofNat i.val then x else h.inventory i := by
  rw [inventory]
  by_cases hn : n = Int32.ofNat i.val
  · have hfield : toString32 n = slotField i := toString32_eq_slotField_iff.mpr hn
    rw [if_pos hn, hfield, AList.lookup_insert]
    simp [Except.toOption]
  · have hfield : slotField i ≠ toString32 n := fun heq =>
      hn (toString32_eq_slotField_iff.mp heq.symm)
    rw [if_neg hn, AList.lookup_insert_ne hfield]
    rfl

lemma StoresItems.insert (hstores : h.StoresItems) (n x : Int32) :
    StoresItems (AList.insert (toString32 n) (toString32 x) h) := fun e he => by
  rw [AList.entries_insert] at he
  rcases List.mem_cons.mp he with rfl | he
  · refine ⟨n, by simp, fun i hi => ⟨?_, x, by simp⟩⟩
    exact toString32_eq_slotField_iff.mpr (eq_ofNat_of_toInt hi)
  · exact hstores e ((List.kerase_sublist (toString32 n) h.entries).subset he)

lemma IsCanonical.insert (hcan : h.IsCanonical) (n x : Int32) :
    IsCanonical (AList.insert (toString32 n) (toString32 x) h) := fun e he => by
  rw [AList.entries_insert] at he
  rcases List.mem_cons.mp he with rfl | he
  · exact ⟨⟨n, rfl⟩, x, rfl⟩
  · exact hcan e ((List.kerase_sublist (toString32 n) h.entries).subset he)

lemma isCanonical_empty : IsCanonical ∅ := fun _ he => nomatch he

lemma inventory_of_entries_eq_nil (hnil : h.entries = []) : h.inventory = fun _ => 0 := by
  funext i
  have hlookup : h.lookup (slotField i) = none := by
    rw [AList.lookup_eq_none, AList.mem_keys, AList.keys, hnil]
    exact List.not_mem_nil
  rw [inventory, hlookup]

end Hash

/-! ### Keys -/

/-- The hash stored for a user, empty where there is none. -/
def storedHash (db : Store) (userID : Bytes) : Hash := (db.hashAt (invenKey userID)).getD ∅

lemma inventoryAt_eq_inventory (db : Store) (userID : Bytes) :
    inventoryAt db userID = (storedHash db userID).inventory := by
  funext i
  rw [inventoryAt, Store.hget, if_pos rfl, storedHash, cstr_slotField]
  cases db.hashAt (invenKey userID) with
  | none => rfl
  | some h =>
      rw [Option.bind_some, Option.getD_some, Hash.inventory]
      cases h.lookup (slotField i) <;> rfl

/-- The key of a user's inventory holds no string. -/
def HoldsNoString (db : Store) (userID : Bytes) : Prop :=
  ∀ s, db (cstr (invenKey userID)) ≠ some (.str s)

instance (db : Store) (userID : Bytes) : Decidable (HoldsNoString db userID) :=
  match h : db (cstr (invenKey userID)) with
  | some (.str s) => isFalse fun hstring => hstring s h
  | some (.hash _) => isTrue fun s hs => by
      rw [h] at hs
      cases hs
  | none => isTrue fun s hs => by
      rw [h] at hs
      cases hs

section Commands

variable {db db' : Store} {userID other : Bytes}

lemma storedHash_congr (h : db'.hashAt (invenKey userID) = db.hashAt (invenKey userID)) :
    storedHash db' userID = storedHash db userID := by
  rw [storedHash, storedHash, h]

lemma inventoryAt_congr (h : db'.hashAt (invenKey userID) = db.hashAt (invenKey userID)) :
    inventoryAt db' userID = inventoryAt db userID := by
  rw [inventoryAt_eq_inventory, inventoryAt_eq_inventory, storedHash_congr h]

/-- `HSET` on the inventory of a user, key, field and value all without a zero. -/
lemma storedHash_hset (h : HoldsNoString db userID) (n x : Int32) :
    storedHash (db.hset true (invenKey userID) (toString32 n) (toString32 x)) userID =
      AList.insert (toString32 n) (toString32 x) (storedHash db userID) := by
  rw [storedHash, storedHash]
  cases hdb : db.hashAt (invenKey userID) with
  | some hash =>
      rw [Store.hashAt_hset _ _ hdb, cstr_toString32, cstr_toString32]
      rfl
  | none =>
      have hnone : db (cstr (invenKey userID)) = none := by
        rw [Store.hashAt] at hdb
        cases hvalue : db (cstr (invenKey userID)) with
        | none => rfl
        | some value =>
            cases value with
            | str s => exact absurd hvalue (h s)
            | hash hash =>
                rw [hvalue] at hdb
                cases hdb
      rw [Store.hset, if_pos rfl, hnone, Store.hashAt]
      simp

/-- **`HSET` on a slot** writes it, and no other slot. -/
theorem inventoryAt_hset (h : HoldsNoString db userID) (n x : Int32) (i : Fin inventorySize) :
    inventoryAt (db.hset true (invenKey userID) (toString32 n) (toString32 x)) userID i =
      if n = Int32.ofNat i.val then x else inventoryAt db userID i := by
  rw [inventoryAt_eq_inventory, inventoryAt_eq_inventory, storedHash_hset h,
    Hash.inventory_insert]

lemma inventoryAt_hset_slot (h : HoldsNoString db userID) (k : Fin inventorySize) (x : Int32) :
    inventoryAt (db.hset true (invenKey userID) (slotField k) (toString32 x)) userID =
      Function.update (inventoryAt db userID) k x := by
  funext i
  rw [slotField, inventoryAt_hset h, Function.update_apply]
  refine if_congr ?_ rfl rfl
  constructor
  · intro heq
    have htoInt := congrArg Int32.toInt heq
    rw [slot_toInt, slot_toInt] at htoInt
    exact Fin.ext (by omega)
  · rintro rfl
    rfl

/-- `HSET` on a slot of one user, seen from any user. -/
lemma inventoryAt_hset_user (h : HoldsNoString db userID) (huser : (0 : UInt8) ∉ userID)
    (hother : (0 : UInt8) ∉ other) (k : Fin inventorySize) (x : Int32) (i : Fin inventorySize) :
    inventoryAt (db.hset true (invenKey userID) (slotField k) (toString32 x)) other i =
      if other = userID ∧ i = k then x else inventoryAt db other i := by
  by_cases hne : other = userID
  · subst hne
    rw [inventoryAt_hset_slot h, Function.update_apply]
    simp
  · have hkeys : cstr (invenKey other) ≠ cstr (invenKey userID) := by
      rw [cstr_invenKey huser, cstr_invenKey hother]
      exact invenKey_injective.ne hne
    rw [inventoryAt_congr (Store.hashAt_hset_of_ne _ _ true hkeys), if_neg (fun h => hne h.1)]

lemma holdsNoString_of_hashAt {h : Hash} (hdb : db.hashAt (invenKey userID) = some h) :
    HoldsNoString db userID := by
  intro s hs
  rw [Store.hashAt, hs] at hdb
  cases hdb

/-- A key that holds a string is left alone. -/
lemma hset_of_string {key s : Bytes} (reply : Bool) (field value : Bytes)
    (h : db (cstr key) = some (.str s)) : db.hset reply key field value = db := by
  rw [Store.hset, h]
  exact ite_self db

/-- An `HSET` that is not answered changes nothing. -/
@[simp] lemma hset_false (key field value : Bytes) : db.hset false key field value = db := rfl

/-- The keys of two users differ. -/
lemma cstr_invenKey_ne (hu : (0 : UInt8) ∉ userID) (hv : (0 : UInt8) ∉ other)
    (hne : other ≠ userID) : cstr (invenKey other) ≠ cstr (invenKey userID) := by
  rw [cstr_invenKey hu, cstr_invenKey hv]
  exact invenKey_injective.ne hne

/-- **`HSET` on the inventory of a user** leaves those of the others alone. -/
lemma hashAt_hset_other (hu : (0 : UInt8) ∉ userID) (hv : (0 : UInt8) ∉ other)
    (hne : other ≠ userID) (reply : Bool) (field value : Bytes) :
    (db.hset reply (invenKey userID) field value).hashAt (invenKey other) =
      db.hashAt (invenKey other) :=
  Store.hashAt_hset_of_ne field value reply (cstr_invenKey_ne hu hv hne)

/-- **A number written to an inventory**: the field is written, or the hash stays as it was. -/
lemma storedHash_hset_cases (hu : (0 : UInt8) ∉ userID) (hv : (0 : UInt8) ∉ other) (reply : Bool)
    (n x : Int32) :
    storedHash (db.hset reply (invenKey userID) (toString32 n) (toString32 x)) other =
        storedHash db other ∨
      storedHash (db.hset reply (invenKey userID) (toString32 n) (toString32 x)) other =
        AList.insert (toString32 n) (toString32 x) (storedHash db other) := by
  by_cases hne : other = userID
  · subst hne
    cases reply with
    | false => exact .inl rfl
    | true =>
        by_cases hstring : HoldsNoString db other
        · exact .inr (storedHash_hset hstring n x)
        · rw [HoldsNoString, not_forall] at hstring
          obtain ⟨s, hs⟩ := hstring
          rw [hset_of_string _ _ _ (not_not.mp hs)]
          exact .inl rfl
  · exact .inl (storedHash_congr (hashAt_hset_other hu hv hne reply _ _))

/-- The key of an inventory is not the key of the shop. -/
lemma cstr_invenKey_ne_shopStateKey (userID : Bytes) :
    cstr (invenKey userID) ≠ cstr shopStateKey := by
  intro h
  have hhead := congrArg List.head? h
  simp [cstr, invenKey, shopStateKey] at hhead

/-! ### Reading -/

/-- An inventory as a branch reads it: the answer of `HGETALL`, read slot by slot. -/
def readInventory (reply : Bool) (db : Store) (userID : Bytes) : Except Fault Inventory :=
  loadSlots (fun _ => 0) ((db.hgetall reply (invenKey userID)).getD [])

/-- **What a branch reads.** An error reply reads like an empty inventory. -/
theorem readInventory_eq (h : (storedHash db userID).StoresItems) (reply : Bool) :
    readInventory reply db userID =
      .ok (if reply then inventoryAt db userID else fun _ => 0) := by
  rw [readInventory, inventoryAt_eq_inventory]
  cases reply with
  | false => rfl
  | true =>
      rw [storedHash] at h ⊢
      rw [Store.hgetall, if_pos rfl, if_pos rfl]
      cases hdb : db.hashAt (invenKey userID) with
      | none => rfl
      | some hash =>
          rw [hdb, Option.getD_some] at h
          rw [Option.bind_some, Option.getD_some]
          by_cases hnil : hash.entries = []
          · rw [if_pos hnil, Hash.inventory_of_entries_eq_nil hnil]
            rfl
          · rw [if_neg hnil]
            exact h.loadSlots_inventory

/-- `HGETALL` finds nothing only where no slot is occupied, if Redis answers it. -/
lemma inventoryAt_of_hgetall_none (h : db.hgetall true (invenKey userID) = none) :
    inventoryAt db userID = fun _ => 0 := by
  rw [inventoryAt_eq_inventory, storedHash]
  rw [Store.hgetall, if_pos rfl] at h
  cases hdb : db.hashAt (invenKey userID) with
  | none => rfl
  | some hash =>
      rw [hdb, Option.bind_some] at h
      by_cases hnil : hash.entries = []
      · exact Hash.inventory_of_entries_eq_nil hnil
      · rw [if_neg hnil] at h
        cases h

end Commands

end CKGameServer
