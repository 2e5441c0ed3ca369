import CKGameServer.Inventory.Numeric
import CKGameServer.Shop.Reload
import CKGameServer.Trade.Correct

/-!
The four loops that read an inventory hash into an array (`REQUEST_LOAD_INVENTORY`,
`REQUEST_SHOP_BUY`, and `REQUEST_TRADE_EXCHANGE` for each side).

* `readItem`: what the loop puts into a slot; `loadSlots_eq_readItem`: a slot that no field names
  keeps what the array held.
* `OneMeaning`: all branches read the hash as the same inventory, whatever the memory holds that
  they do not write.
* `oneMeaning_iff`: they do exactly if every slot has a field. The two arrays of a trade are not
  initialised.
-/

namespace CKGameServer

open Memory

namespace Hash

/-- A field of the hash is the number of the slot. -/
def HasSlot (h : Hash) (i : Fin inventorySize) : Prop :=
  ∃ e ∈ h.entries, stoi (cstr e.1) = .ok (Int32.ofNat i.val)

instance (h : Hash) : DecidablePred h.HasSlot := fun i =>
  inferInstanceAs (Decidable (∃ e ∈ h.entries, stoi (cstr e.1) = .ok (Int32.ofNat i.val)))

/-- So is a key of its map, and only then. -/
lemma hasSlot_iff_exists_key {h : Hash} {i : Fin inventorySize} :
    h.HasSlot i ↔ ∃ e ∈ getArryToMap h, stoi e.1 = .ok (Int32.ofNat i.val) := by
  constructor
  · rintro ⟨e, he, hi⟩
    obtain ⟨v, hv⟩ := key_mem_getArryToMap he
    exact ⟨_, hv, hi⟩
  · rintro ⟨e, he, hi⟩
    obtain ⟨e₀, he₀, rfl⟩ := mem_getArryToMap he
    exact ⟨e₀, he₀, hi⟩

end Hash

/-! ### The loop -/

/-- What the loop over a map puts into a slot: the value of the last key that names it. -/
def readItem : ValueMap → Fin inventorySize → Option Int32
  | [], _ => none
  | (key, value) :: m, i =>
    (readItem m i).or
      (if stoi key = .ok (Int32.ofNat i.val) then (stoi value).toOption else none)

section Loop

variable {slots slots' : Inventory} {m : ValueMap} {i : Fin inventorySize}

/-- **The loop**: a slot that is not written keeps what the array held. -/
lemma loadSlots_eq_readItem (h : loadSlots slots m = .ok slots') :
    slots' i = (readItem m i).getD (slots i) := by
  induction m generalizing slots with
  | nil =>
      rw [← Except.ok.inj h]
      rfl
  | cons e m ih =>
      rw [loadSlots] at h
      rw [readItem]
      cases hkey : stoi e.1 with
      | error e => simp [hkey] at h
      | ok n =>
          simp only [hkey, Except.ok.injEq] at h ⊢
          split at h
          · rename_i hrange
            cases hvalue : stoi e.2 with
            | error e => simp [hvalue] at h
            | ok item =>
                simp only [hvalue] at h
                rw [ih h, Function.update_apply]
                have hslot : i = ⟨n.toInt.toNat, by omega⟩ ↔ n = Int32.ofNat i.val := by
                  rw [eq_slot_iff, Fin.ext_iff]
                  simp only
                  omega
                rw [if_congr hslot rfl rfl]
                cases readItem m i with
                | some item' => rfl
                | none => split_ifs <;> rfl
          · rename_i hrange
            have hne : n ≠ Int32.ofNat i.val := fun heq => hrange (by
              have hslot := eq_slot_iff.mp heq
              omega)
            rw [ih h, if_neg hne, Option.or_none]

/-- A slot is written exactly if some key names it, the values being numbers. -/
lemma readItem_ne_none_iff (hvalues : ∀ e ∈ m, ∃ x, stoi e.2 = .ok x) :
    readItem m i ≠ none ↔ ∃ e ∈ m, stoi e.1 = .ok (Int32.ofNat i.val) := by
  induction m with
  | nil => simp [readItem]
  | cons e m ih =>
      obtain ⟨x, hx⟩ := hvalues e List.mem_cons_self
      have ih := ih fun e' he' => hvalues e' (List.mem_cons_of_mem e he')
      by_cases hkey : stoi e.1 = .ok (Int32.ofNat i.val)
      · simp [readItem, hkey, hx, Except.toOption]
      · simp [readItem, hkey, ← ih]

end Loop

/-! ### Uninitialised arrays -/

section Decoders

variable {h : Hash} {i : Fin inventorySize} {slots slots' : Inventory}

/-- In the map of a numeric hash. -/
lemma Hash.IsNumeric.readItem_ne_none_iff (hnum : h.IsNumeric) :
    readItem (getArryToMap h) i ≠ none ↔ h.HasSlot i := by
  rw [Hash.hasSlot_iff_exists_key]
  refine CKGameServer.readItem_ne_none_iff fun e he => ?_
  obtain ⟨e₀, he₀, rfl⟩ := mem_getArryToMap he
  exact (hnum e₀ he₀).2

/-- All branches read the hash as the inventory `inven`, in which slots without a field are empty.
The arrays of a trade are taken with any content they may have before they are written. -/
structure OneMeaning (h : Hash) (inven : Inventory) : Prop where
  absent : ∀ i, ¬h.HasSlot i → inven i = 0
  load : ∀ db task, task.taskID = .requestLoadInventory →
    db.hashAt (invenKey (loadedUser task)) = some h → LoadsInventory db task inven
  buy : ∀ db userID, db.hashAt (invenKey userID) = some h →
    readInventory true db userID = .ok inven
  tradeA : ∀ env db req a b, db.hashAt (invenKey req.userAID) = some h →
    Loads env db req a b → a = inven
  tradeB : ∀ env db req a b, db.hashAt (invenKey req.userBID) = some h →
    Loads env db req a b → b = inven

/-- Where every slot has a field, the array is the same whatever it held. -/
lemma loadSlots_eq_of_hasSlot (hnum : h.IsNumeric) (hall : ∀ i, h.HasSlot i)
    {other other' : Inventory} (hload : loadSlots slots (getArryToMap h) = .ok slots')
    (hother : loadSlots other (getArryToMap h) = .ok other') : slots' = other' := by
  funext i
  obtain ⟨x, hx⟩ := Option.ne_none_iff_exists'.mp (hnum.readItem_ne_none_iff.mpr (hall i))
  rw [loadSlots_eq_readItem hload, loadSlots_eq_readItem hother, hx]
  rfl

/-- A slot without a field keeps what the array held. -/
lemma loadSlots_of_not_hasSlot (hnum : h.IsNumeric) (hi : ¬h.HasSlot i)
    (hload : loadSlots slots (getArryToMap h) = .ok slots') : slots' i = slots i := by
  rw [loadSlots_eq_readItem hload, not_not.mp (mt hnum.readItem_ne_none_iff.mp hi)]
  rfl

/-- Where every slot has a field, all branches read the same inventory. -/
lemma exists_oneMeaning (hne : h.entries ≠ []) (hnum : h.IsNumeric) (hall : ∀ i, h.HasSlot i) :
    ∃ inven, OneMeaning h inven := by
  obtain ⟨inven, hload⟩ := hnum.loadSlots fun _ => 0
  -- for either side of a trade, whatever its array held
  have hside : ∀ {db : Store} {reply : Bool} {key : Bytes} {m : ValueMap} {other a : Inventory},
      db.hashAt key = some h → db.hgetall reply key = some m → loadSlots other m = .ok a →
        a = inven := by
    intro db reply key m other a hdb hget ha
    rw [reply_of_hgetall hget, hgetall_of_hashAt hdb hne] at hget
    rw [← Option.some.inj hget] at ha
    exact loadSlots_eq_of_hasSlot hnum hall ha hload
  refine ⟨inven, fun i hi => absurd (hall i) hi, fun db task hid hdb =>
    loadsInventory_of_stored hid hdb hne hload, fun db userID hdb => ?_, ?_, ?_⟩
  · rw [readInventory, hgetall_of_hashAt hdb hne]
    exact hload
  · rintro env db req a b hdb ⟨invenA, invenB, hgetA, -, hloadA, -⟩
    exact hside hdb hgetA hloadA
  · rintro env db req a b hdb ⟨invenA, invenB, -, hgetB, -, hloadB⟩
    exact hside hdb hgetB hloadB

/-- The database in which two users have the same hash. -/
def sameHash (userAID userBID : Bytes) (h : Hash) : Store := fun key =>
  if key = invenKey userAID ∨ key = invenKey userBID then some (.hash h) else none

lemma hashAt_sameHash {userAID userBID userID : Bytes} (h0 : (0 : UInt8) ∉ userID)
    (huser : userID = userAID ∨ userID = userBID) :
    (sameHash userAID userBID h).hashAt (invenKey userID) = some h := by
  rw [Store.hashAt, cstr_invenKey h0, sameHash,
    if_pos (huser.imp (congrArg invenKey) (congrArg invenKey))]

/-- **A slot without a field** is read as zero by a load, and as whatever the array held by a
trade. -/
lemma not_oneMeaning_of_not_hasSlot (hne : h.entries ≠ []) (hnum : h.IsNumeric)
    (hi : ¬h.HasSlot i) : ¬∃ inven, OneMeaning h inven := by
  rintro ⟨inven, hmeaning⟩
  let env : RedisEnv := { stackInts := fun _ => 1, stackInts' := fun _ => 1 }
  let req := tradeOf (fun _ => -1) (fun _ => 0) (fun _ => -1) fun _ => 0
  let db := sameHash req.userAID req.userBID h
  have hdbA : db.hashAt (invenKey req.userAID) = some h :=
    hashAt_sameHash req.zero_notMem_userAID (.inl rfl)
  have hdbB : db.hashAt (invenKey req.userBID) = some h :=
    hashAt_sameHash req.zero_notMem_userBID (.inr rfl)
  obtain ⟨a, ha⟩ := hnum.loadSlots fun _ => 1
  have hloads : Loads env db req a a :=
    ⟨_, _, hgetall_of_hashAt hdbA hne, hgetall_of_hashAt hdbB hne, ha, ha⟩
  have hone : a i = 1 := loadSlots_of_not_hasSlot hnum hi ha
  rw [hmeaning.tradeA env db req a a hdbA hloads, hmeaning.absent i hi] at hone
  exact absurd hone (by decide)

/-- **One inventory, one meaning** exactly for the hashes with a field for every slot. -/
theorem oneMeaning_iff (h : Hash) (hne : h.entries ≠ []) (hnum : h.IsNumeric) :
    (∃ inven, OneMeaning h inven) ↔ ∀ i, h.HasSlot i := by
  constructor
  · intro hmeaning
    by_contra hpartial
    obtain ⟨i, hi⟩ := not_forall.mp hpartial
    exact not_oneMeaning_of_not_hasSlot hne hnum hi hmeaning
  · exact exists_oneMeaning hne hnum

/-- An inventory with two items and all its slots. -/
theorem oneMeaning_twoItems :
    ∃ inven, OneMeaning (inventoryHash fun i => if i.val = 1 then 101 else if i.val = 3 then 105
      else 0) inven :=
  (oneMeaning_iff (inventoryHash _) (by decide) (Hash.isNumeric_inventoryHash _)).mpr (by decide)

/-- The hash that the first purchase of a user without an inventory leaves. -/
theorem not_oneMeaning_purchase :
    (AList.singleton (slotField 0) (toString32 101) : Hash).entries ≠ [] ∧
      Hash.IsNumeric (AList.singleton (slotField 0) (toString32 101)) ∧
      ¬∃ inven, OneMeaning (AList.singleton (slotField 0) (toString32 101)) inven := by
  have hne : (AList.singleton (slotField 0) (toString32 101) : Hash).entries ≠ [] :=
    List.cons_ne_nil _ _
  have hnum : Hash.IsNumeric (AList.singleton (slotField 0) (toString32 101)) := fun e he => by
    rw [List.mem_singleton.mp he]
    exact ⟨⟨0, by simp⟩, 101, by simp⟩
  refine ⟨hne, hnum, @not_oneMeaning_of_not_hasSlot _ 1 hne hnum ?_⟩
  rintro ⟨e, he, hi⟩
  rw [List.mem_singleton.mp he] at hi
  simp only [cstr_slotField, stoi_slotField, Except.ok.injEq] at hi
  exact absurd hi (by decide)

end Decoders

end CKGameServer
