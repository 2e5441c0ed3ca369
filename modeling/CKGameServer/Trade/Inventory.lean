import CKGameServer.Model.RedisManager

/-!
Inventories as they are stored: a hash with a field for each slot (`hgetall`, `HSET`, and the
loops of the Redis thread that read a hash into an array).

* `inventoryAt`: the inventory stored for a user, slot by slot.
* `Hash.IsInventory`: a hash that holds a number for each slot.
* `loadSlots_isInventory`: read into an array, it gives that inventory.
* `Hash.IsInventory.insert`: an `HSET` on a slot updates the inventory there.
-/

namespace CKGameServer

open Memory

/-- The field of a slot. -/
def slotField (i : Fin inventorySize) : Bytes := toString32 (Int32.ofNat i.val)

/-- The inventory stored for a user: the numbers in the fields of the five slots, zero where
there is none. -/
def inventoryAt (db : Store) (userID : Bytes) : Inventory := fun i =>
  match db.hget true (invenKey userID) (slotField i) with
  | none => 0
  | some value => (stoi value).toOption.getD 0

/-- The hash holds a number for every slot, and any other field is the number of no slot. -/
structure Hash.IsInventory (h : Hash) (inven : Inventory) : Prop where
  slot : ∀ i, ∃ value, h.lookup (slotField i) = some value ∧ stoi (cstr value) = .ok (inven i)
  field : ∀ e ∈ h.entries, ∃ n, stoi (cstr e.1) = .ok n ∧
    ∀ i : Fin inventorySize, n.toInt = i.val → e.1 = slotField i

/-- The user's inventory is stored with all its slots. -/
def HoldsInventory (db : Store) (userID : Bytes) : Prop :=
  ∃ h inven, db.hashAt (invenKey userID) = some h ∧ h.IsInventory inven

/-! ### Fields and keys -/

lemma slot_toInt : ∀ i : Fin inventorySize, (Int32.ofNat i.val).toInt = i.val := by decide

lemma slotField_injective : Function.Injective slotField := fun i j h => by
  have := congrArg Int32.toInt (toString32_injective h)
  rw [slot_toInt, slot_toInt] at this
  exact Fin.ext (by omega)

@[simp] lemma cstr_slotField (i : Fin inventorySize) : cstr (slotField i) = slotField i :=
  cstr_toString32 _

@[simp] lemma stoi_slotField (i : Fin inventorySize) :
    stoi (slotField i) = .ok (Int32.ofNat i.val) := stoi_toString32 _

lemma invenKey_injective : Function.Injective invenKey := fun s t h => by
  simpa [invenKey] using h

lemma cstr_invenKey {userID : Bytes} (h : (0 : UInt8) ∉ userID) :
    cstr (invenKey userID) = invenKey userID :=
  cstr_eq_self (by simpa [invenKey] using h)

/-! ### Reading -/

/-- The stored inventory of a hash is the inventory it holds. -/
lemma inventoryAt_eq {db : Store} {userID : Bytes} {h : Hash} {inven : Inventory}
    (hdb : db.hashAt (invenKey userID) = some h) (hinv : h.IsInventory inven) :
    inventoryAt db userID = inven := by
  funext i
  obtain ⟨value, hlookup, hvalue⟩ := hinv.slot i
  rw [inventoryAt, Store.hget, if_pos rfl, hdb, Option.bind_some, cstr_slotField, hlookup]
  simp [hvalue, Except.toOption]

lemma mem_insert_valueMap {k v : Bytes} {m : ValueMap} {e : Bytes × Bytes}
    (h : e ∈ ValueMap.insert k v m) : e = (k, v) ∨ e ∈ m := by
  induction m with
  | nil => exact .inl (List.mem_singleton.mp h)
  | cons e' m ih =>
      rw [ValueMap.insert] at h
      split at h
      · exact .inr h
      · split at h
        · rcases List.mem_cons.mp h with h | h
          · exact .inl h
          · exact .inr h
        · rcases List.mem_cons.mp h with h | h
          · exact .inr (h ▸ List.mem_cons_self)
          · exact (ih h).imp_right (List.mem_cons_of_mem _)

lemma mem_insert_valueMap_of_mem {k v : Bytes} {m : ValueMap} {e : Bytes × Bytes} (h : e ∈ m) :
    e ∈ ValueMap.insert k v m := by
  induction m with
  | nil => cases h
  | cons e' m ih =>
      rw [ValueMap.insert]
      split
      · exact h
      · split
        · exact List.mem_cons_of_mem _ h
        · rcases List.mem_cons.mp h with h | h
          · exact h ▸ List.mem_cons_self
          · exact List.mem_cons_of_mem _ (ih h)

lemma key_mem_insert_valueMap (k v : Bytes) (m : ValueMap) :
    ∃ v', (k, v') ∈ ValueMap.insert k v m := by
  induction m with
  | nil => exact ⟨v, List.mem_singleton_self _⟩
  | cons e' m ih =>
      rw [ValueMap.insert]
      split
      · rename_i heq
        exact ⟨e'.2, by rw [heq]; exact List.mem_cons_self⟩
      · split
        · exact ⟨v, List.mem_cons_self⟩
        · obtain ⟨v', hv'⟩ := ih
          exact ⟨v', List.mem_cons_of_mem _ hv'⟩

/-- An entry of the map comes from an entry of the hash. -/
lemma mem_getArryToMap {h : Hash} {e : Bytes × Bytes} (he : e ∈ getArryToMap h) :
    ∃ e₀ ∈ h.entries, e = (cstr e₀.1, cstr e₀.2) := by
  have key : ∀ (es : List ((_ : Bytes) × Bytes)) (m : ValueMap),
      e ∈ es.foldl (fun m e => ValueMap.insert (cstr e.1) (cstr e.2) m) m →
      e ∈ m ∨ ∃ e₀ ∈ es, e = (cstr e₀.1, cstr e₀.2) := by
    intro es
    induction es with
    | nil => exact fun m hm => .inl hm
    | cons e₀ es ih =>
        intro m hm
        rcases ih _ hm with hm | ⟨e₁, he₁, heq⟩
        · rcases mem_insert_valueMap hm with heq | hm
          · exact .inr ⟨e₀, List.mem_cons_self, heq⟩
          · exact .inl hm
        · exact .inr ⟨e₁, List.mem_cons_of_mem _ he₁, heq⟩
  rcases key h.entries [] he with hnil | hentry
  · cases hnil
  · exact hentry

/-- Every field of the hash is a key of the map. -/
lemma key_mem_getArryToMap {h : Hash} {e : (_ : Bytes) × Bytes} (he : e ∈ h.entries) :
    ∃ v, (cstr e.1, v) ∈ getArryToMap h := by
  have keep : ∀ (es : List ((_ : Bytes) × Bytes)) (m : ValueMap) (x : Bytes × Bytes), x ∈ m →
      x ∈ es.foldl (fun m e => ValueMap.insert (cstr e.1) (cstr e.2) m) m := by
    intro es
    induction es with
    | nil => exact fun m x hx => hx
    | cons e₀ es ih => exact fun m x hx => ih _ x (mem_insert_valueMap_of_mem hx)
  have key : ∀ (es : List ((_ : Bytes) × Bytes)) (m : ValueMap), e ∈ es →
      ∃ v, (cstr e.1, v) ∈ es.foldl (fun m e => ValueMap.insert (cstr e.1) (cstr e.2) m) m := by
    intro es
    induction es with
    | nil => intro m h; cases h
    | cons e₀ es ih =>
        intro m h
        rcases List.mem_cons.mp h with rfl | h
        · obtain ⟨v, hv⟩ := key_mem_insert_valueMap (cstr e.1) (cstr e.2) m
          exact ⟨v, keep es _ _ hv⟩
        · exact ih _ h
  exact key h.entries [] he

/-- The loop over a map whose numbers are those of an inventory: a slot gets its number, or is
not among the keys and stays as it is. -/
lemma loadSlots_spec {inven : Inventory} {m : ValueMap} (slots : Inventory)
    (h : ∀ e ∈ m, ∃ n, stoi e.1 = .ok n ∧
      ∀ i : Fin inventorySize, n.toInt = i.val → stoi e.2 = .ok (inven i)) :
    ∃ slots', loadSlots slots m = .ok slots' ∧ ∀ i : Fin inventorySize, slots' i = inven i ∨
      slots' i = slots i ∧ ∀ e ∈ m, ∀ n, stoi e.1 = .ok n → n.toInt ≠ i.val := by
  induction m generalizing slots with
  | nil => exact ⟨slots, rfl, fun i => .inr ⟨rfl, fun e he => by cases he⟩⟩
  | cons e m ih =>
      obtain ⟨n, hn, hvalue⟩ := h e List.mem_cons_self
      have hrest := fun e' he' => h e' (List.mem_cons_of_mem e he')
      rw [loadSlots, hn]
      simp only
      split
      · rename_i hrange
        have hslot : n.toInt = (⟨n.toInt.toNat, by omega⟩ : Fin inventorySize).val := by
          simp only
          omega
        rw [hvalue _ hslot]
        simp only
        obtain ⟨slots', hload, hslots⟩ := ih (Function.update slots _ (inven _)) hrest
        refine ⟨slots', hload, fun i => ?_⟩
        rcases hslots i with hread | ⟨hkeep, hkeys⟩
        · exact .inl hread
        by_cases hi : i = ⟨n.toInt.toNat, by omega⟩
        · refine .inl ?_
          rw [hkeep, hi, Function.update_self]
        · refine .inr ⟨by rw [hkeep, Function.update_of_ne hi], fun e' he' n' hn' => ?_⟩
          rcases List.mem_cons.mp he' with rfl | he'
          · obtain rfl := Except.ok.inj (hn.symm.trans hn')
            exact fun heq => hi (Fin.ext (by simp only; omega))
          · exact hkeys e' he' n' hn'
      · rename_i hrange
        obtain ⟨slots', hload, hslots⟩ := ih slots hrest
        refine ⟨slots', hload, fun i => ?_⟩
        rcases hslots i with hread | ⟨hkeep, hkeys⟩
        · exact .inl hread
        refine .inr ⟨hkeep, fun e' he' n' hn' => ?_⟩
        rcases List.mem_cons.mp he' with rfl | he'
        · obtain rfl := Except.ok.inj (hn.symm.trans hn')
          exact fun heq => hrange (by omega)
        · exact hkeys e' he' n' hn'

/-- **An inventory hash reads back**: `hgetall` and the loop over its map give the inventory,
whatever the array held before. -/
theorem loadSlots_isInventory {h : Hash} {inven : Inventory} (hinv : h.IsInventory inven)
    (slots : Inventory) : loadSlots slots (getArryToMap h) = .ok inven := by
  have hmap : ∀ e ∈ getArryToMap h, ∃ n, stoi e.1 = .ok n ∧
      ∀ i : Fin inventorySize, n.toInt = i.val → stoi e.2 = .ok (inven i) := fun e he => by
    obtain ⟨e₀, he₀, rfl⟩ := mem_getArryToMap he
    obtain ⟨n, hn, hfield⟩ := hinv.field e₀ he₀
    refine ⟨n, hn, fun i hi => ?_⟩
    obtain ⟨value, hlookup, hvalue⟩ := hinv.slot i
    have hmem : (⟨slotField i, e₀.2⟩ : (_ : Bytes) × Bytes) ∈ h.entries := by
      rw [← hfield i hi]
      exact he₀
    have hlookup' := AList.mem_lookup_iff.mpr hmem
    rw [hlookup, Option.mem_def, Option.some.injEq] at hlookup'
    rw [← hlookup']
    exact hvalue
  obtain ⟨slots', hload, hslots⟩ := loadSlots_spec slots hmap
  rw [hload]
  congr 1
  funext i
  refine (hslots i).resolve_right fun ⟨_, hkeys⟩ => ?_
  obtain ⟨value, hlookup, -⟩ := hinv.slot i
  obtain ⟨v, hv⟩ := key_mem_getArryToMap (AList.mem_lookup_iff.mp hlookup)
  exact hkeys _ hv _ (by simp) (slot_toInt i)

/-- An inventory hash has fields, so that `hgetall` answers with it. -/
lemma hgetall_isInventory {db : Store} {key : Bytes} {h : Hash} {inven : Inventory}
    (hdb : db.hashAt key = some h) (hinv : h.IsInventory inven) :
    db.hgetall true key = some (getArryToMap h) := by
  have hfields : h.entries ≠ [] := by
    obtain ⟨value, hlookup, -⟩ := hinv.slot 0
    exact List.ne_nil_of_mem (AList.mem_lookup_iff.mp hlookup)
  rw [Store.hgetall, if_pos rfl, hdb, Option.bind_some, if_neg hfields]

/-- `hgetall` answers only where Redis does. -/
lemma reply_of_hgetall {db : Store} {reply : Bool} {key : Bytes} {m : ValueMap}
    (h : db.hgetall reply key = some m) : reply = true := by
  cases reply with
  | false => cases h
  | true => rfl

/-! ### Writing -/

/-- `HSET` on a slot of an inventory hash. -/
lemma Hash.IsInventory.insert {h : Hash} {inven : Inventory} (hinv : h.IsInventory inven)
    (i : Fin inventorySize) (x : Int32) :
    Hash.IsInventory (AList.insert (slotField i) (toString32 x) h)
      (Function.update inven i x) where
  slot j := by
    by_cases hj : j = i
    · subst hj
      exact ⟨toString32 x, AList.lookup_insert h, by simp⟩
    · rw [Function.update_of_ne hj, AList.lookup_insert_ne (slotField_injective.ne hj)]
      exact hinv.slot j
  field e he := by
    rw [AList.entries_insert] at he
    rcases List.mem_cons.mp he with rfl | he
    · refine ⟨Int32.ofNat i.val, by simp, fun j hj => ?_⟩
      rw [slot_toInt] at hj
      exact congrArg slotField (Fin.ext (by omega))
    · exact hinv.field e ((List.kerase_sublist (slotField i) h.entries).subset he)

/-- The hash that stores an inventory, field by field. -/
def inventoryHash (inven : Inventory) : Hash where
  entries := (List.finRange inventorySize).map fun i => ⟨slotField i, toString32 (inven i)⟩
  nodupKeys := by
    rw [List.NodupKeys, List.keys, List.map_map]
    exact (List.nodup_finRange inventorySize).map slotField_injective

lemma inventoryHash_isInventory (inven : Inventory) : (inventoryHash inven).IsInventory inven where
  slot i := by
    refine ⟨toString32 (inven i), ?_, by simp⟩
    exact AList.mem_lookup_iff.mpr (List.mem_map.mpr ⟨i, List.mem_finRange i, rfl⟩)
  field e he := by
    obtain ⟨i, -, rfl⟩ := List.mem_map.mp he
    refine ⟨Int32.ofNat i.val, by simp, fun j hj => ?_⟩
    rw [slot_toInt] at hj
    exact congrArg slotField (Fin.ext (by omega))

/-- The database that holds the inventories of two users. -/
def inventoriesOf (userAID userBID : Bytes) (a b : Inventory) : Store := fun key =>
  if key = invenKey userAID then some (.hash (inventoryHash a))
  else if key = invenKey userBID then some (.hash (inventoryHash b))
  else none

section InventoriesOf

variable {userAID userBID : Bytes} (a b : Inventory)

lemma hashAt_inventoriesOf_left (hA : (0 : UInt8) ∉ userAID) :
    (inventoriesOf userAID userBID a b).hashAt (invenKey userAID) = some (inventoryHash a) := by
  rw [Store.hashAt, cstr_invenKey hA, inventoriesOf, if_pos rfl]

lemma hashAt_inventoriesOf_right (hB : (0 : UInt8) ∉ userBID) (hne : userAID ≠ userBID) :
    (inventoriesOf userAID userBID a b).hashAt (invenKey userBID) = some (inventoryHash b) := by
  rw [Store.hashAt, cstr_invenKey hB, inventoriesOf, if_neg (invenKey_injective.ne hne.symm),
    if_pos rfl]

lemma inventoryAt_inventoriesOf_left (hA : (0 : UInt8) ∉ userAID) :
    inventoryAt (inventoriesOf userAID userBID a b) userAID = a :=
  inventoryAt_eq (hashAt_inventoriesOf_left a b hA) (inventoryHash_isInventory a)

lemma inventoryAt_inventoriesOf_right (hB : (0 : UInt8) ∉ userBID) (hne : userAID ≠ userBID) :
    inventoryAt (inventoriesOf userAID userBID a b) userBID = b :=
  inventoryAt_eq (hashAt_inventoriesOf_right a b hB hne) (inventoryHash_isInventory b)

lemma holdsInventory_inventoriesOf_left (hA : (0 : UInt8) ∉ userAID) :
    HoldsInventory (inventoriesOf userAID userBID a b) userAID :=
  ⟨_, _, hashAt_inventoriesOf_left a b hA, inventoryHash_isInventory a⟩

lemma holdsInventory_inventoriesOf_right (hB : (0 : UInt8) ∉ userBID) (hne : userAID ≠ userBID) :
    HoldsInventory (inventoriesOf userAID userBID a b) userBID :=
  ⟨_, _, hashAt_inventoriesOf_right a b hB hne, inventoryHash_isInventory b⟩

end InventoriesOf

namespace Store

variable {db : Store} {key key' : Bytes} {h : Hash} (field value : Bytes)

lemma hset_of_ne (reply : Bool) (hk : key' ≠ cstr key) :
    (db.hset reply key field value) key' = db key' := by
  rw [hset]
  split
  · cases db (cstr key) with
    | none => exact Function.update_of_ne hk _ _
    | some v =>
        cases v with
        | str _ => rfl
        | hash h => exact Function.update_of_ne hk _ _
  · rfl

lemma hashAt_hset_of_ne (reply : Bool) (hk : cstr key' ≠ cstr key) :
    (db.hset reply key field value).hashAt key' = db.hashAt key' := by
  rw [hashAt, hashAt, hset_of_ne field value reply hk]

lemma hashAt_hset (hdb : db.hashAt key = some h) :
    (db.hset true key field value).hashAt key =
      some (AList.insert (cstr field) (cstr value) h) := by
  have hstored : db (cstr key) = some (.hash h) := by
    rw [hashAt] at hdb
    split at hdb
    · rename_i h' heq
      rw [heq, Option.some.inj hdb]
    · cases hdb
  rw [hset, if_pos rfl, hstored, hashAt]
  simp

end Store

end CKGameServer
