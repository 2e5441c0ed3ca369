import CKGameServer.Chat.Commands
import CKGameServer.Shop.Schedule

/-!
Adding hours to the shop (`ProcessRoomChatMessage`, `REQUEST_SHOP_UPDATE`).

`/t add n` pushes a task with the number `n`. The branch multiplies it by 3600 as an `int`, and
adds the product to the deadline, or to the time, as a `UINT64`.

* `addedSeconds`: the product as it is added; `toNat_add_addedSeconds_iff`: where the sum is that
  of the numbers.
* `storedOffer_shopStore`: what an update leaves stored, with the replies of its commands.
* `AddsHours`: the deadline is moved on by the hours, and the item stays.
* `addsHours_iff`: so it is exactly where the seconds fit an `int` and Redis answers.
* `deadline_moved_back`: the first number of hours whose seconds do not fit.
-/

namespace CKGameServer

open Memory PacketManager

/-- `commandValue * 3600`, as it is added to a `UINT64`. -/
def addedSeconds (commandValue : Int32) : UInt64 := UInt64.ofInt (commandValue * 3600).toInt

/-- The task of `/t add`. -/
def addTimeTask (env : Env) (time : Int32) : RedisTask :=
  RedisTask.make 0 .requestShopUpdate 4 (int32Bytes time) (env.heap 0)

/-- From `db` to `db'` the shop is given some hours: its deadline, or the time where that is later,
is moved on by them, and the item stays. -/
def AddsHours (now hours : ℕ) (db db' : Store) : Prop :=
  ∃ itemID s s', storedOffer db = some (itemID, s) ∧ storedOffer db' = some (itemID, s') ∧
    s' = max s now + 3600 * hours ∧ s ≤ s'

/-! ### The sum -/

lemma commandValue_addTimeTask (env : Env) (time : Int32) :
    commandValue (addTimeTask env time) = time := by
  have hsize : (addTimeTask env time).dataSize = 4 := rfl
  rw [commandValue, if_pos hsize]
  refine int32At_of_int32Bytes fun k hk => ?_
  rw [addTimeTask, RedisTask.make_pData_lt (by omega), Nat.zero_add]

/-- **The sum in 64 bits** is that of the numbers, or of larger ones, only where the product of
the two `int`s is that of the numbers. -/
lemma toNat_add_addedSeconds_iff {n : Int32} (hpos : 0 < n.toInt) {x : UInt64} {m : ℕ}
    (hx : x.toNat ≤ m) (hm : m < 2 ^ 62) :
    (x + addedSeconds n).toNat = m + 3600 * n.toInt.toNat ↔
      3600 * n.toInt < 2 ^ 31 ∧ x.toNat = m := by
  have hlt := n.toInt_lt
  have hproduct : (n * 3600).toInt = Int.bmod (n.toInt * 3600) (2 ^ 32) := by
    rw [Int32.toInt_mul]
    rfl
  have hadded : (addedSeconds n).toNat = ((n * 3600).toInt % 2 ^ 64).toNat := by
    rw [addedSeconds, UInt64.ofInt, UInt64.toNat_ofNat', Nat.mod_eq_of_lt (by omega)]
  rw [UInt64.toNat_add, hadded]
  have hw := (n * 3600).toInt_lt
  have hle := (n * 3600).le_toInt
  constructor
  · intro hsum
    rcases lt_or_ge (n * 3600).toInt 0 with hneg | hnonneg
    · -- a negative product moves the sum down, or around
      have hmod : (n * 3600).toInt % 2 ^ 64 = (n * 3600).toInt + 2 ^ 64 := by omega
      rw [hmod] at hsum
      rcases lt_or_ge (x.toNat + ((n * 3600).toInt + 2 ^ 64).toNat) (2 ^ 64) with h | h
      · rw [Nat.mod_eq_of_lt h] at hsum
        omega
      · rw [Nat.mod_eq_sub_mod h, Nat.mod_eq_of_lt (by omega)] at hsum
        omega
    · have hmod : (n * 3600).toInt % 2 ^ 64 = (n * 3600).toInt := by omega
      rw [hmod, Nat.mod_eq_of_lt (by omega)] at hsum
      have hsmall : 3600 * n.toInt < 2 ^ 31 := by omega
      rw [hproduct, Int.bmod_eq_of_le (by omega) (by omega)] at hsum
      omega
  · rintro ⟨hfits, rfl⟩
    rw [hproduct, Int.bmod_eq_of_le (by omega) (by omega)]
    omega

/-! ### What is stored -/

section Stored

variable {env : RedisEnv} {db : Store} {itemID : Int32} {s : ℕ}

/-- What is stored is stored in a hash. -/
lemma ne_str_of_storedOffer (h : storedOffer db = some (itemID, s)) (t : Bytes) :
    db (cstr shopStateKey) ≠ some (.str t) := by
  intro hstr
  have hnone : db.hget true shopStateKey currentItemField = none := by
    rw [Store.hget, if_pos rfl, Store.hashAt, hstr]
    rfl
  rw [storedOffer, hnone] at h
  cases h

/-- The two strings behind what is stored. -/
lemma exists_hget_of_storedOffer (h : storedOffer db = some (itemID, s)) :
    ∃ item next nextUpdate, db.hget true shopStateKey currentItemField = some item ∧
      db.hget true shopStateKey nextUpdateField = some next ∧ stoi item = .ok itemID ∧
      stoull next = .ok nextUpdate ∧ nextUpdate.toNat = s := by
  rw [storedOffer] at h
  split at h
  · rename_i item next hitem hnext
    split at h
    · rename_i itemID' nextUpdate hstoi hstoull
      obtain ⟨rfl, rfl⟩ := Prod.mk.inj (Option.some.inj h)
      exact ⟨item, next, nextUpdate, hitem, hnext, hstoi, hstoull, rfl⟩
    · cases h
  · cases h

/-- **What an update leaves stored**: of what it writes the part whose `HSET` is answered. -/
lemma storedOffer_shopStore (env : RedisEnv) (h : storedOffer db = some (itemID, s))
    (itemID' : Int32) (next : UInt64) :
    storedOffer (shopStore env db itemID' next) =
      some (if env.replies 2 then itemID' else itemID,
        if env.replies 3 then next.toNat else s) := by
  have hstr := ne_str_of_storedOffer h
  obtain ⟨item, next₀, nextUpdate, hitem, hnext, hstoi, hstoull, rfl⟩ :=
    exists_hget_of_storedOffer h
  have hwritten := stoull_toDecimal next.toNat_lt
  rw [UInt64.ofNat_toNat] at hwritten
  rw [storedOffer, hget_shopStore_item hstr, hget_shopStore_next hstr, hitem, hnext]
  cases env.replies 2 <;> cases env.replies 3 <;> simp [hstoi, hstoull, hwritten]

/-- What an update reads of it. -/
lemma readNextTime_of_storedOffer (h : storedOffer db = some (itemID, s)) (reply : Bool) :
    ∃ nextUpdate, readNextTime reply db = .ok nextUpdate ∧
      nextUpdate.toNat = if reply then s else 0 := by
  obtain ⟨item, next, nextUpdate, -, hnext, -, hstoull, rfl⟩ := exists_hget_of_storedOffer h
  have hne : next ≠ [] := by
    rintro rfl
    cases hstoull
  cases reply with
  | false => exact ⟨0, rfl, rfl⟩
  | true =>
      refine ⟨nextUpdate, ?_, rfl⟩
      simp only [readNextTime, hnext, Option.getD_some]
      rw [if_neg hne, hstoull]

lemma readCurrentItem_of_storedOffer (h : storedOffer db = some (itemID, s)) (reply : Bool) :
    readCurrentItem reply db = .ok (if reply then itemID else 101) := by
  obtain ⟨item, next, nextUpdate, hitem, -, hstoi, -, -⟩ := exists_hget_of_storedOffer h
  have hne : item ≠ [] := by
    rintro rfl
    cases hstoi
  cases reply with
  | false => rfl
  | true =>
      simp only [readCurrentItem, hitem, Option.getD_some, if_true]
      rw [if_neg hne, hstoi]

end Stored

/-! ### The hours -/

/-- The arithmetic of the branch, for a positive number. -/
lemma shopUpdate_of_pos (env : RedisEnv) {n : Int32} (hpos : 0 < n.toInt)
    (storedNextTime : UInt64) (currentItemID : Int32) :
    ∃ base, shopUpdate env n storedNextTime currentItemID =
        some (currentItemID, base + addedSeconds n) ∧
      base.toNat = max storedNextTime.toNat env.now.toNat := by
  have hne : n ≠ 0 := by
    rintro rfl
    exact absurd hpos (by decide)
  rw [shopUpdate]
  simp only [if_neg hne, if_pos hpos]
  rw [← addedSeconds]
  split
  · rename_i hless
    rw [UInt64.lt_iff_toNat_lt] at hless
    exact ⟨env.now, rfl, (max_eq_right hless.le).symm⟩
  · rename_i hge
    rw [UInt64.lt_iff_toNat_lt, not_lt] at hge
    exact ⟨storedNextTime, rfl, (max_eq_left hge).symm⟩

/-- The branch, for the task of the command: the deadline it writes. -/
lemma taskProcess_addTimeTask (env : Env) {n : Int32} {renv : RedisEnv} {db : Store}
    {itemID : Int32} {s : ℕ} (hpos : 0 < n.toInt) (h : storedOffer db = some (itemID, s)) :
    ∃ out base, taskProcess renv db (addTimeTask env n) = .ok out ∧
      base.toNat = max (if renv.replies 0 then s else 0) renv.now.toNat ∧
      out.store = shopStore renv db (if renv.replies 1 then itemID else 101)
        (base + addedSeconds n) := by
  obtain ⟨nextUpdate, hnext, htoNat⟩ := readNextTime_of_storedOffer h (renv.replies 0)
  have hitem := readCurrentItem_of_storedOffer h (renv.replies 1)
  obtain ⟨base, hupdate, hbase⟩ := shopUpdate_of_pos renv hpos nextUpdate
    (if renv.replies 1 then itemID else 101)
  have hrun : taskProcess renv db (addTimeTask env n) =
      requestShopUpdate renv db (addTimeTask env n) := rfl
  rw [hrun, requestShopUpdate_eq, hnext, hitem]
  refine ⟨updateShop renv db (addTimeTask env n) nextUpdate
    (if renv.replies 1 then itemID else 101), base, rfl, by rw [hbase, htoNat], ?_⟩
  rw [updateShop, commandValue_addTimeTask, hupdate]

/-- **Hours are added exactly** where their seconds fit an `int`, the new deadline is written, and
what Redis does not answer is not missed: the old deadline is, unless it has passed, and the item
is, unless it is not written back or is the one a missing item reads as. -/
theorem addsHours_iff {env : Env} {i : ℕ} {p : View} {σ : Server} {r : RoomIndex} {n : Int32}
    {renv : RedisEnv} {db : Store} {itemID : Int32} {s : ℕ}
    (hroom : RoomManager.getRoomByNumber (σ.mUserObjPool i).mRoomIndex = some r)
    (htime : timeAddCommand <+: p.cString packetHeaderLength)
    (hnumber : (substr (p.cString packetHeaderLength) 7 >>= stoi) = .ok n)
    (hpos : 0 < n.toInt) (hstored : storedOffer db = some (itemID, s)) (hs : s < 2 ^ 62)
    (hnow : renv.now.toNat < 2 ^ 62) :
    processRoomChatMessage env i p σ = .ok (σ.pushTask (addTimeTask env n)) ∧
      ∃ out, taskProcess renv db (addTimeTask env n) = .ok out ∧
        (AddsHours renv.now.toNat n.toInt.toNat db out.store ↔
          3600 * n.toInt < 2 ^ 31 ∧ renv.replies 3 = true ∧
            (renv.replies 0 = true ∨ s ≤ renv.now.toNat) ∧
            (renv.replies 1 = true ∨ renv.replies 2 = false ∨ itemID = 101)) := by
  refine ⟨?_, ?_⟩
  · rw [processRoomChatMessage_of_timeAdd hroom htime, hnumber]
    rfl
  obtain ⟨out, base, hout, hbase, hstore⟩ := taskProcess_addTimeTask env hpos hstored
  refine ⟨out, hout, ?_⟩
  have hafter := storedOffer_shopStore renv hstored
    (if renv.replies 1 then itemID else 101) (base + addedSeconds n)
  rw [← hstore] at hafter
  have hsum := toNat_add_addedSeconds_iff hpos (x := base) (m := max s renv.now.toNat)
    (by rw [hbase]; split <;> omega) (by omega)
  have hbase_iff : base.toNat = max s renv.now.toNat ↔
      renv.replies 0 = true ∨ s ≤ renv.now.toNat := by
    rw [hbase]
    cases renv.replies 0 with
    | true => simp
    | false => simp
  have hitem_iff : itemID = (if renv.replies 2 then (if renv.replies 1 then itemID else 101)
        else itemID) ↔ renv.replies 1 = true ∨ renv.replies 2 = false ∨ itemID = 101 := by
    cases renv.replies 1 <;> cases renv.replies 2 <;> simp
  constructor
  · rintro ⟨itemID', s₀, s', hbefore, hstored', hs', -⟩
    obtain ⟨rfl, rfl⟩ := Prod.mk.inj (Option.some.inj (hstored.symm.trans hbefore))
    obtain ⟨hitem, hnext⟩ := Prod.mk.inj (Option.some.inj (hstored'.symm.trans hafter))
    cases hreply : renv.replies 3 with
    | false =>
        rw [hreply, if_neg (by decide)] at hnext
        omega
    | true =>
        rw [hreply, if_pos rfl, hs'] at hnext
        obtain ⟨hfits, hdeadline⟩ := hsum.mp hnext.symm
        exact ⟨hfits, rfl, hbase_iff.mp hdeadline, hitem_iff.mp hitem⟩
  · rintro ⟨hfits, hreply, hdeadline, hitem⟩
    rw [← hitem_iff.mpr hitem, hreply, if_pos rfl,
      hsum.mpr ⟨hfits, hbase_iff.mpr hdeadline⟩] at hafter
    exact ⟨itemID, s, _, hstored, hafter, rfl, by omega⟩

/-- A server whose user 0 is in the first room. -/
def userInFirstRoom : Server :=
  (World.init 3 (fun _ _ => 0) fun _ => none).server.modUser 0 fun user =>
    { user with mRoomIndex := 0 }

/-- The packet of `/t add n`. -/
def addTimePacket (n : Int32) : View :=
  View.ofBytes (roomChatRequestPacket (timeAddCommand ++ 32 :: toString32 n))

/-- A shop that shows item 103 until a deadline. -/
def shopUntil (env : RedisEnv) (next : UInt64) : Store := shopStore env (fun _ => none) 103 next

/-- Two hours after the deadline of an open shop. -/
theorem addsHours_iff_two :
    ∃ out, taskProcess { now := 1000 } (shopUntil {} 4000) (addTimeTask {} 2) = .ok out ∧
      AddsHours 1000 2 (shopUntil {} 4000) out.store := by
  have hstored : storedOffer (shopUntil {} 4000) = some (103, 4000) := by decide +kernel
  obtain ⟨-, out, hout, hiff⟩ := @addsHours_iff {} 0 (addTimePacket 2) userInFirstRoom 0 2
    { now := 1000 } (shopUntil {} 4000) 103 4000 (by decide) (by decide +kernel) (by decide +kernel)
    (by decide) hstored (by decide) (by decide)
  exact ⟨out, hout, hiff.mpr ⟨by decide, rfl, .inl rfl, .inl rfl⟩⟩

/-- **A deadline is moved back**: the seconds of 596524 hours do not fit an `int`. -/
theorem deadline_moved_back :
    ¬∀ (env : Env) (i : ℕ) (p : View) (σ : Server) (r : RoomIndex) (n : Int32) (renv : RedisEnv)
      (db : Store) (itemID : Int32) (s : ℕ),
      RoomManager.getRoomByNumber (σ.mUserObjPool i).mRoomIndex = some r →
      timeAddCommand <+: p.cString packetHeaderLength →
      (substr (p.cString packetHeaderLength) 7 >>= stoi) = .ok n → 0 < n.toInt →
      storedOffer db = some (itemID, s) → s < 2 ^ 62 → renv.now.toNat < 2 ^ 62 →
      (∀ k, renv.replies k = true) →
      ∃ out, taskProcess renv db (addTimeTask env n) = .ok out ∧
        AddsHours renv.now.toNat n.toInt.toNat db out.store := by
  intro h
  obtain ⟨out, hout, itemID, s, s', hbefore, hafter, -, hle⟩ := h {} 0 (addTimePacket 596524)
    userInFirstRoom 0 596524 { now := 1000 } (shopUntil {} 3000000000) 103 3000000000 (by decide)
    (by decide +kernel) (by decide +kernel) (by decide) (by decide +kernel) (by decide)
    (by decide) fun _ => rfl
  have hbefore' : storedOffer (shopUntil {} 3000000000) = some (103, 3000000000) := by
    decide +kernel
  have hrun : ((taskProcess { now := 1000 } (shopUntil {} 3000000000)
      (addTimeTask {} 596524)).toOption.bind fun out => storedOffer out.store) =
      some (103, 852519104) := by decide +kernel
  rw [hout] at hrun
  obtain ⟨rfl, rfl⟩ := Prod.mk.inj (Option.some.inj (hbefore.symm.trans hbefore'))
  obtain ⟨-, rfl⟩ := Prod.mk.inj (Option.some.inj (hafter.symm.trans hrun))
  exact absurd hle (by decide)

end CKGameServer
